import Apmpr.Planner.HostRouting
import Mathlib.Data.List.Dedup

/-!
# Addresses

`apply_addresses` of the crate `apmpr-planner`, with the functions it is made of: the
addresses of instances and groups become custom domains of the host router's listeners,
the members of an addressed group become subdomains of it, and what a browser is routed to
by its identity it is also routed to by the origin of its address. A pass over the host
router carries the configuration and the diagnostics found so far.

## What is proved

* `AddressRule.applyAddresses`: what every change to the host router keeps, applying
  addresses keeps.
* `KeepsPorts.applyAddresses`: applying addresses adds browser routes only beside those of
  the browser ports, and leaves the addresses and ports of the listeners.
-/

namespace Apmpr.Planner

open Router (RouterConfig BrowserRoute Listener RouteSlotId)

/-- `ResolvedGroups`: the active and the declared members of each group. -/
structure ResolvedGroups where
  members : SortedMap String (List String)
  declaredMembers : SortedMap String (List String)

/-- The instances by name. -/
def instanceMap (spec : DeploymentSpec) : SortedMap String Instance :=
  .ofList (spec.instances.map fun inst => (inst.name, inst))

/-- `host_provider_for_instance_service`. -/
def hostProvidersFor (spec : DeploymentSpec) (inst service : String) : List String :=
  (spec.hostUpstreams.entries.filter fun (_, upstream) => upstream.inst = inst && upstream.service = service).map
    Prod.fst

/-- The published services of an instance, in order. -/
def publishedServices (spec : DeploymentSpec) (inst : String) : List String :=
  (SortedMap.ofList ((spec.hostUpstreams.values.filter fun upstream => upstream.inst = inst).map
    fun upstream => (upstream.service, ()))).keys

/-- `addressed_instance_provider`, without the service it also returns. -/
def addressedInstanceProvider (spec : DeploymentSpec) (inst : Instance) : Except String String :=
  if !spec.blocks.contains inst.block then .error s!"instance `{inst.name}` has no resolvable block"
  else
    match publishedServices spec inst.name with
    | [service] =>
      match hostProvidersFor spec inst.name service with
      | [provider] => .ok provider
      | providers => .error s!"instance `{inst.name}` service `{service}` maps to {providers.length} host-router providers; expected exactly one"
    | services =>
      let candidates := if services.isEmpty then "none" else ", ".intercalate services
      .error s!"instance `{inst.name}` address needs exactly one browser-reachable service; candidates: {candidates}"

/-- `addressed_member_provider`: the instance of a member, and its provider. -/
def addressedMemberProvider (spec : DeploymentSpec) (member : String) : Except String (String × String) :=
  match (instanceMap spec).get? (memberInstance member) with
  | none => .error s!"group member `{member}` does not name an instance"
  | some inst =>
    match (providerReference member).2 with
    | none => (addressedInstanceProvider spec inst).map fun provider => (inst.name, provider)
    | some service =>
      match hostProvidersFor spec (memberInstance member) service with
      | [provider] => .ok (inst.name, provider)
      | providers => .error s!"group member `{member}` maps to {providers.length} host-router providers; expected exactly one"

/-- `address_origin`. -/
def addressOrigin (listener : Listener) (address : String) : Except String String :=
  match listener.protocol with
  | .http => .ok (if listener.bind.port = 80 then s!"http://{address}" else s!"http://{address}:{listener.bind.port}")
  | .https =>
    .ok (if listener.bind.port = 443 then s!"https://{address}" else s!"https://{address}:{listener.bind.port}")
  | _ => .error "address listeners must use HTTP or HTTPS"

/-- The host router and the diagnostics found so far. -/
abbrev Pass := RouterConfig × List Diagnostic

/-- A diagnostic more. -/
def Pass.report (pass : Pass) (d : Diagnostic) : Pass := (pass.1, pass.2 ++ [d])

/-- The listeners changed. -/
def Pass.withListeners (pass : Pass) (f : List Listener → List Listener) : Pass :=
  ({ pass.1 with spec := { pass.1.spec with listeners := f pass.1.spec.listeners } }, pass.2)

/-- A route more. -/
def Pass.addRoute (pass : Pass) (route : Router.Route) : Pass :=
  ({ pass.1 with spec := { pass.1.spec with routes := pass.1.spec.routes ++ [route] } }, pass.2)

/-- A browser route more. -/
def Pass.addBrowser (pass : Pass) (route : BrowserRoute) : Pass :=
  ({ pass.1 with spec := { pass.1.spec with browserRoutes := pass.1.spec.browserRoutes ++ [route] } }, pass.2)

/-- A custom domain more, on the listener at an index. -/
def Pass.addDomain (pass : Pass) (index : ℕ) (slot : RouteSlotId) (domain : String) : Pass :=
  pass.withListeners fun listeners => listeners.modify index fun listener =>
    { listener with destinations := listener.destinations ++ [.customDomain slot domain] }

/-- The origin's route for one route of an identity. -/
def addOriginRoute (spec : DeploymentSpec) (origin path : String) (pass : Pass) (template : BrowserRoute) : Pass :=
  let generated : BrowserRoute := ⟨.origin origin, template.destination, template.provider⟩
  let conflicting := pass.1.spec.browserRoutes.find? fun route =>
    route.destination = generated.destination && route.identity = generated.identity
  let pass := match conflicting with
    | some route =>
      if route.provider ≠ generated.provider then
        pass.report ⟨.listenerConflict, path,
          s!"origin `{origin}` already routes destination `{generated.destination}` to `{route.provider}` instead of `{generated.provider}`"⟩
      else pass
    | none => pass.addBrowser generated
  if spec.hostUpstreams.contains template.provider then pass
  else
    pass.report ⟨.missingReference, path,
      s!"browser provider `{template.provider}` has no spec.hostUpstreams mapping to an instance"⟩

/-- `add_browser_origin_routes`. -/
def addBrowserOriginRoutes (spec : DeploymentSpec) (origin identity path : String) (pass : Pass) : Pass :=
  (pass.1.spec.browserRoutes.filter fun route => route.identity = .explicitHeader identity).foldl
    (addOriginRoute spec origin path) pass

/-- The custom domains of the listeners that are this name: listener, slot and domain. -/
def existingDomains (config : RouterConfig) (normalized : String) : List (ℕ × RouteSlotId × String) :=
  config.spec.listeners.zipIdx.flatMap fun (listener, index) =>
    listener.destinations.filterMap fun destination =>
      match destination with
      | .customDomain slot domain => if normalizedHostname domain = normalized then some (index, slot, domain) else none
      | _ => none

/-- Whether an address may be put on a listener for a consumer. -/
def addressableBy (consumer : String) (listener : Listener) : Bool :=
  listener.proxyIdentity.isNone && listener.consumer = some consumer &&
    (listener.protocol = .http || listener.protocol = .https)

/-- The listeners and slots a provider can have an address on. -/
def addressCandidates (config : RouterConfig) (provider : String) : List (ℕ × RouteSlotId) :=
  ((config.spec.routes.filter fun route =>
      route.provider = provider && !Text.startsWith route.slot "group--").flatMap fun route =>
    (config.spec.listeners.zipIdx.filter fun (listener, _) => addressableBy route.consumer listener).map
      fun (_, index) => (index, route.slot)).dedup

/-- `AddressRoute`: the listener an address is on, and its slot. -/
abbrev AddressRoute := ℕ × RouteSlotId

/-- The listener and slot an address is put on, or why there is none. -/
def selectAddress (config : RouterConfig) (address inst provider path : String) :
    Except Diagnostic AddressRoute :=
  let existing := (existingDomains config (normalizedHostname address)).map fun (index, slot, _) => (index, slot)
  let candidates := addressCandidates config provider
  match existing with
  | [] =>
    match candidates with
    | [candidate] => .ok candidate
    | _ =>
      .error ⟨.missingReference, path,
        s!"address `{address}` for `{inst}` maps to {candidates.length} host-router listener routes; expected exactly one"⟩
  | first :: _ =>
    if existing.any fun candidate => candidate ≠ first then
      .error ⟨.listenerConflict, path, s!"custom domain `{address}` is declared for multiple route slots"⟩
    else if !candidates.contains first then
      .error ⟨.listenerConflict, path,
        s!"custom domain `{address}` is authored for slot `{first.2}`, which does not route to `{provider}`"⟩
    else .ok first

/-- The origin of an address on a listener. -/
def originAt (config : RouterConfig) (index : ℕ) (address : String) : Except String String :=
  match config.spec.listeners[index]? with
  | some listener => addressOrigin listener address
  -- an address is put on a listener there is
  | none => .error "address listeners must use HTTP or HTTPS"

/-- `add_address_route`. -/
def addAddressRoute (spec : DeploymentSpec) (address inst provider path : String) (pass : Pass) :
    Pass × Option AddressRoute :=
  match selectAddress pass.1 address inst provider path with
  | .error d => (pass.report d, none)
  | .ok selected =>
    let pass :=
      if (existingDomains pass.1 (normalizedHostname address)).isEmpty then
        pass.addDomain selected.1 selected.2 address
      else pass
    match originAt pass.1 selected.1 address with
    | .error message => (pass.report ⟨.invalidPath, path, message⟩, none)
    | .ok origin => (addBrowserOriginRoutes spec origin inst path pass, some selected)

/-- `browser_protocols_compatible`. -/
def browserProtocolsCompatible (listener provider : Router.Protocol) : Bool :=
  listener = provider || ((listener = .http || listener = .https) && (provider = .http || provider = .https))

/-- Whether a route of a consumer and slot goes to a provider. -/
def routesTo (config : RouterConfig) (consumer : String) (slot : RouteSlotId) (provider : String) : Bool :=
  config.spec.routes.any fun route =>
    route.consumer = consumer && route.slot = slot && route.provider = provider

/-- Route the identity of a member to its own provider on the group's slot. -/
def addTargetedRoute (inst provider path : String) (base : AddressRoute) (pass : Pass) : Pass :=
  let targeted : BrowserRoute := ⟨.explicitHeader inst, base.2, provider⟩
  match pass.1.spec.browserRoutes.find? fun route =>
      route.destination = targeted.destination && route.identity = targeted.identity with
  | some existing =>
    if existing.provider ≠ targeted.provider then
      pass.report ⟨.listenerConflict, path,
        s!"browser identity `{inst}` already targets `{existing.provider}` instead of `{provider}`"⟩
    else pass
  | none => pass.addBrowser targeted

/-- The end of `add_group_member_target`: the routes of the member's identity and origin. -/
def addMemberRoutes (spec : DeploymentSpec) (inst provider path subdomain : String) (base : AddressRoute)
    (pass : Pass) : Pass :=
  let pass := addTargetedRoute inst provider path base pass
  match originAt pass.1 base.1 subdomain with
  | .ok origin => addBrowserOriginRoutes spec origin inst path pass
  | .error message => pass.report ⟨.invalidPath, path, message⟩

section Apply

variable (platform : Platform) (spec : DeploymentSpec)

/-- `add_group_member_target`, from the point where the member's subdomain is known. -/
def addMemberDomain (group inst provider path subdomain : String) (base : AddressRoute) (consumer : String)
    (pass : Pass) : Pass :=
  if !plausibleHostname subdomain then
    pass.report ⟨.invalidPath, path, s!"generated member subdomain `{subdomain}` is not a valid hostname"⟩
  else
    match existingDomains pass.1 (normalizedHostname subdomain) with
    | (index, slot, domain) :: _ =>
      if index = base.1 && routesTo pass.1 consumer slot provider then
        addMemberRoutes spec inst provider path subdomain base pass
      else
        pass.report ⟨.listenerConflict, path,
          s!"generated member subdomain `{subdomain}` conflicts with custom domain `{domain}` on slot `{slot}`"⟩
    | [] =>
      let slot := resourceName platform ["group", group, inst]
      let pass := (pass.addDomain base.1 slot subdomain).addRoute ⟨consumer, slot, provider⟩
      addMemberRoutes spec inst provider path subdomain base pass

/-- `add_group_member_target`. -/
def addGroupMemberTarget (group address member provider path : String) (base : AddressRoute) (pass : Pass) : Pass :=
  let inst := memberInstance member
  match pass.1.spec.providers.find? (fun candidate => candidate.id = provider), pass.1.spec.listeners[base.1]? with
  | none, _ =>
    pass.report ⟨.missingReference, path, s!"group member `{member}` provider `{provider}` is not declared"⟩
  -- the base is a listener there is
  | _, none => pass
  | some definition, some listener =>
    if !browserProtocolsCompatible listener.protocol definition.endpoint.protocol then pass
    else
      match listener.consumer with
      | none =>
        pass.report ⟨.missingReference, path,
          "group addresses require a host-router listener with a consumer identity"⟩
      | some consumer => addMemberDomain platform spec group inst provider path s!"{inst}.{address}" base consumer pass

/-- The address of one instance. -/
def applyInstanceAddress (pass : Pass) (entry : Instance × ℕ) : Pass :=
  match entry.1.address with
  | none => pass
  | some address =>
    let path := s!"spec.instances[{entry.2}].address"
    match addressedInstanceProvider spec entry.1 with
    | .ok provider => (addAddressRoute spec address entry.1.name provider path pass).1
    | .error message => pass.report ⟨.missingReference, path, message⟩

/-- A member of an addressed group, if it can be addressed itself. -/
def applyMember (group address path : String) (base : AddressRoute) (pass : Pass) (member : String) : Pass :=
  match addressedMemberProvider spec member with
  | .ok (_, provider) => addGroupMemberTarget platform spec group address member provider path base pass
  | .error _ => pass

/-- The address of one group. -/
def applyGroupAddress (groups : ResolvedGroups) (pass : Pass) (entry : String × ServiceGroup) : Pass :=
  match entry.2.address with
  | none => pass
  | some address =>
    let path := s!"spec.groups.{entry.1}.address"
    let active := (groups.members.get? entry.1).getD []
    let candidates := active.filter fun member =>
      ((instanceMap spec).get? (memberInstance member)).any (·.address.isSome)
    match candidates with
    | [member] =>
      match addressedMemberProvider spec member with
      | .error _ =>
        pass.report ⟨.missingReference, path,
          s!"default group member `{member}` is not independently browser-addressable"⟩
      | .ok (inst, provider) =>
        match addAddressRoute spec address inst provider path pass with
        | (pass, none) => pass
        | (pass, some base) => active.foldl (applyMember platform spec entry.1 address path base) pass
    | _ =>
      let found := if candidates.isEmpty then "none" else ", ".intercalate candidates
      pass.report ⟨.incompleteGroup, path,
        s!"group address needs exactly one active member with its own address; candidates: {found}"⟩

/-- `apply_addresses`. -/
def applyAddresses (groups : ResolvedGroups) (config : RouterConfig) : Pass :=
  let pass := spec.instances.zipIdx.foldl (applyInstanceAddress spec) (config, [])
  spec.groups.entries.foldl (applyGroupAddress platform spec groups) pass

end Apply

/-! ### What applying addresses keeps -/

/-- Whether a browser route goes from an identity to a browser port: its slot is `browser-…`. -/
def isPortRoute (route : BrowserRoute) : Bool :=
  match route.identity with
  | .explicitHeader _ => route.destination.toList.head? = some 'b'
  | _ => false

/-- What applying addresses leaves of a host router: no route goes to the slot of a browser
port, the routes of browser ports stay, and the listeners keep their addresses and ports. -/
structure KeepsPorts (base config : RouterConfig) : Prop where
  slots : ∀ route ∈ config.spec.routes, route.slot.toList.head? ≠ some 'b'
  portRoutes : config.spec.browserRoutes.filter isPortRoute = base.spec.browserRoutes.filter isPortRoute
  binds : config.spec.listeners.map (·.bind) = base.spec.listeners.map (·.bind)

/-- A generated name begins as its first part does, cut or not. -/
theorem head?_resourceName (platform : Platform) {c : Char} (hc : c.utf8Size ≤ 54) {parts : List String} {rest : List Char}
    (h : ("--".intercalate parts).toList = c :: rest) : (resourceName platform parts).toList.head? = some c := by
  rw [resourceName]
  split_ifs
  · rw [h]
    rfl
  · rw [h, takeBytes, if_pos hc]
    simp [String.toList_append]

/-- An invariant of applying addresses: `P` is kept by every change that is made to the host
router, and `Q` holds of the slots that addresses are put on. -/
structure AddressRule (platform : Platform) (P : RouterConfig → Prop) (Q : RouteSlotId → Prop) : Prop where
  slot : ∀ {config : RouterConfig} {route : Router.Route}, P config → route ∈ config.spec.routes → Q route.slot
  domain : ∀ {pass : Pass} (index : ℕ) (slot : RouteSlotId) (domain : String),
    P pass.1 → P (pass.addDomain index slot domain).1
  route : ∀ {pass : Pass} (consumer group inst provider : String),
    P pass.1 → P (pass.addRoute ⟨consumer, resourceName platform ["group", group, inst], provider⟩).1
  origin : ∀ {pass : Pass} (origin slot provider : String),
    P pass.1 → P (pass.addBrowser ⟨.origin origin, slot, provider⟩).1
  targeted : ∀ {pass : Pass} (inst provider slot : String),
    Q slot → P pass.1 → P (pass.addBrowser ⟨.explicitHeader inst, slot, provider⟩).1

namespace AddressRule

variable {platform : Platform} {spec : DeploymentSpec} {P : RouterConfig → Prop} {Q : RouteSlotId → Prop} {pass : Pass}

theorem addOriginRoute (rule : AddressRule platform P Q) (h : P pass.1) (origin path : String) (template : BrowserRoute) :
    P (Planner.addOriginRoute spec origin path pass template).1 := by
  rw [Planner.addOriginRoute]
  dsimp only
  have hadd := rule.origin origin template.destination template.provider h
  generalize pass.1.spec.browserRoutes.find? _ = conflicting
  cases conflicting with
  | none => split_ifs <;> exact hadd
  | some route =>
    dsimp only
    split_ifs <;> exact h

/-- What every step of a loop keeps, the loop keeps. -/
theorem foldl {α : Type} {f : Pass → α → Pass} (h : P pass.1) (hstep : ∀ pass x, P pass.1 → P (f pass x).1)
    (l : List α) : P (l.foldl f pass).1 := by
  induction l generalizing pass with
  | nil => exact h
  | cons x rest ih => exact ih (hstep pass x h)

theorem addBrowserOriginRoutes (rule : AddressRule platform P Q) (h : P pass.1) (origin identity path : String) :
    P (Planner.addBrowserOriginRoutes spec origin identity path pass).1 :=
  foldl h (fun _ template hpass => rule.addOriginRoute hpass origin path template) _

/-- An address is put on a slot some route goes to. -/
theorem slot_of_selectAddress (rule : AddressRule platform P Q) (h : P pass.1) {address inst provider path : String}
    {selected : AddressRoute} (hselected : selectAddress pass.1 address inst provider path = .ok selected) :
    Q selected.2 := by
  have hcandidate : selected ∈ addressCandidates pass.1 provider := by
    rw [selectAddress] at hselected
    dsimp only at hselected
    split at hselected
    · split at hselected
      · rename_i hcandidates
        rw [hcandidates]
        obtain rfl := Except.ok.inj hselected
        exact List.mem_singleton_self _
      · cases hselected
    · split_ifs at hselected with hsame hrouted
      obtain rfl := Except.ok.inj hselected
      simpa using hrouted
  obtain ⟨route, hroute, hlistener⟩ := List.mem_flatMap.mp (List.mem_dedup.mp hcandidate)
  obtain ⟨listener, -, rfl⟩ := List.mem_map.mp hlistener
  exact rule.slot h (List.mem_filter.mp hroute).1

theorem addAddressRoute (rule : AddressRule platform P Q) (h : P pass.1) (address inst provider path : String) :
    P (Planner.addAddressRoute spec address inst provider path pass).1.1 ∧
      ∀ selected, (Planner.addAddressRoute spec address inst provider path pass).2 = some selected → Q selected.2 := by
  rw [Planner.addAddressRoute]
  cases hselected : selectAddress pass.1 address inst provider path with
  | error d => exact ⟨h, by simp⟩
  | ok selected =>
    dsimp only
    have hdomain : P (if (existingDomains pass.1 (normalizedHostname address)).isEmpty then
        pass.addDomain selected.1 selected.2 address else pass).1 := by
      split_ifs
      · exact rule.domain _ _ _ h
      · exact h
    revert hdomain
    generalize (if (existingDomains pass.1 (normalizedHostname address)).isEmpty then
        pass.addDomain selected.1 selected.2 address else pass) = pass'
    intro hdomain
    split
    · exact ⟨hdomain, by simp⟩
    · refine ⟨rule.addBrowserOriginRoutes hdomain _ _ _, ?_⟩
      rintro _ ⟨⟩
      exact rule.slot_of_selectAddress h hselected

theorem addTargetedRoute (rule : AddressRule platform P Q) (h : P pass.1) (inst provider path : String)
    {target : AddressRoute} (htarget : Q target.2) :
    P (Planner.addTargetedRoute inst provider path target pass).1 := by
  have hadd := rule.targeted inst provider target.2 htarget h
  rw [Planner.addTargetedRoute]
  dsimp only
  generalize pass.1.spec.browserRoutes.find? _ = existing
  cases existing with
  | none => exact hadd
  | some route =>
    dsimp only
    split_ifs <;> exact h

theorem addMemberRoutes (rule : AddressRule platform P Q) (h : P pass.1) (inst provider path subdomain : String)
    {target : AddressRoute} (htarget : Q target.2) :
    P (Planner.addMemberRoutes spec inst provider path subdomain target pass).1 := by
  have htargeted := rule.addTargetedRoute h inst provider path htarget
  rw [Planner.addMemberRoutes]
  split
  · exact rule.addBrowserOriginRoutes htargeted _ _ _
  · exact htargeted

theorem addMemberDomain (rule : AddressRule platform P Q) (h : P pass.1)
    (group inst provider path subdomain consumer : String) {target : AddressRoute} (htarget : Q target.2) :
    P (Planner.addMemberDomain platform spec group inst provider path subdomain target consumer pass).1 := by
  rw [Planner.addMemberDomain]
  split_ifs
  · exact h
  · split
    · split_ifs
      · exact rule.addMemberRoutes h _ _ _ _ htarget
      · exact h
    · exact rule.addMemberRoutes (rule.route _ _ _ _ (rule.domain _ _ _ h)) _ _ _ _ htarget

theorem addGroupMemberTarget (rule : AddressRule platform P Q) (h : P pass.1)
    (group address member provider path : String) {target : AddressRoute} (htarget : Q target.2) :
    P (Planner.addGroupMemberTarget platform spec group address member provider path target pass).1 := by
  rw [Planner.addGroupMemberTarget]
  split
  · exact h
  · exact h
  · split_ifs
    · exact h
    · split
      · exact h
      · exact rule.addMemberDomain h _ _ _ _ _ _ htarget

theorem applyInstanceAddress (rule : AddressRule platform P Q) (h : P pass.1) (entry : Instance × ℕ) :
    P (Planner.applyInstanceAddress spec pass entry).1 := by
  rw [Planner.applyInstanceAddress]
  split
  · exact h
  · dsimp only
    split
    · exact (rule.addAddressRoute h _ _ _ _).1
    · exact h

theorem applyMember (rule : AddressRule platform P Q) (h : P pass.1) (group address path member : String)
    {target : AddressRoute} (htarget : Q target.2) :
    P (Planner.applyMember platform spec group address path target pass member).1 := by
  rw [Planner.applyMember]
  split
  · exact rule.addGroupMemberTarget h _ _ _ _ _ htarget
  · exact h

theorem applyGroupAddress (rule : AddressRule platform P Q) (h : P pass.1) (groups : ResolvedGroups)
    (entry : String × ServiceGroup) : P (Planner.applyGroupAddress platform spec groups pass entry).1 := by
  rw [Planner.applyGroupAddress]
  cases entry.2.address with
  | none => exact h
  | some address =>
    dsimp only
    split
    · split
      · exact h
      · rename_i inst provider _
        have haddress := @addAddressRoute platform spec P Q _ rule h address inst provider
          s!"spec.groups.{entry.1}.address"
        split
        · rename_i hroute
          rw [hroute] at haddress
          exact haddress.1
        · rename_i hroute
          rw [hroute] at haddress
          exact foldl haddress.1 (fun _ member hpass => rule.applyMember hpass _ _ _ member (haddress.2 _ rfl)) _
    · exact h

/-- What every change keeps, applying addresses keeps. -/
theorem applyAddresses (rule : AddressRule platform P Q) {config : RouterConfig} (h : P config) (groups : ResolvedGroups) :
    P (Planner.applyAddresses platform spec groups config).1 :=
  foldl (foldl h (fun _ entry hpass => rule.applyInstanceAddress hpass entry) _)
    (fun _ entry hpass => rule.applyGroupAddress hpass groups entry) _

end AddressRule

/-- A host router without what it routes. -/
def unrouted (config : RouterConfig) : RouterConfig :=
  { config with spec := { config.spec with listeners := [], routes := [], browserRoutes := [] } }

/-- Applying addresses changes the listeners, the routes and the browser routes of a host
router, and nothing else. -/
theorem unrouted_applyAddresses (platform : Platform) (spec : DeploymentSpec) (groups : ResolvedGroups)
    (config : RouterConfig) : unrouted (applyAddresses platform spec groups config).1 = unrouted config := by
  have rule : AddressRule platform (fun config' => unrouted config' = unrouted config) fun _ => True :=
    ⟨fun _ _ => trivial, fun _ _ _ h => h, fun _ _ _ _ h => h, fun _ _ _ h => h, fun _ _ _ _ h => h⟩
  exact rule.applyAddresses rfl groups

namespace KeepsPorts

variable {platform : Platform} {spec : DeploymentSpec} {base : RouterConfig} {pass : Pass}

theorem addBrowser (h : KeepsPorts base pass.1) {route : BrowserRoute} (hroute : isPortRoute route = false) :
    KeepsPorts base (pass.addBrowser route).1 where
  slots := h.slots
  portRoutes := by
    have hadd : [route].filter isPortRoute = [] := by simp [hroute]
    simp only [Pass.addBrowser, List.filter_append, hadd, List.append_nil]
    exact h.portRoutes
  binds := h.binds

theorem addRoute (h : KeepsPorts base pass.1) {route : Router.Route} (hroute : route.slot.toList.head? ≠ some 'b') :
    KeepsPorts base (pass.addRoute route).1 where
  slots := by
    intro other hother
    rcases List.mem_append.mp hother with hother | hother
    · exact h.slots other hother
    · rw [List.mem_singleton.mp hother]
      exact hroute
  portRoutes := h.portRoutes
  binds := h.binds

theorem addDomain (h : KeepsPorts base pass.1) (index : ℕ) (slot : RouteSlotId) (domain : String) :
    KeepsPorts base (pass.addDomain index slot domain).1 where
  slots := h.slots
  portRoutes := h.portRoutes
  binds := by
    refine Eq.trans ?_ h.binds
    simp only [Pass.addDomain, Pass.withListeners]
    generalize pass.1.spec.listeners = listeners
    induction listeners generalizing index with
    | nil => simp
    | cons listener rest ih =>
      cases index with
      | zero => simp
      | succ index => simpa using ih index

/-- Applying addresses adds no route to a browser port. -/
theorem rule (platform : Platform) (base : RouterConfig) :
    AddressRule platform (KeepsPorts base) fun slot => slot.toList.head? ≠ some 'b' where
  slot h hroute := h.slots _ hroute
  domain index slot domain h := h.addDomain index slot domain
  route consumer group inst provider h := by
    have hslot : (resourceName platform ["group", group, inst]).toList.head? = some 'g' :=
      @head?_resourceName platform 'g' (by decide) _ ("roup".toList ++ ("--" ++ group ++ "--" ++ inst).toList) (by
        rw [show "--".intercalate ["group", group, inst] = "group" ++ "--" ++ group ++ "--" ++ inst from rfl]
        simp [String.toList_append])
    refine h.addRoute ?_
    rw [hslot]
    decide
  origin _ _ _ h := h.addBrowser rfl
  targeted _ _ _ hslot h := h.addBrowser (decide_eq_false hslot)

/-- **Applying addresses keeps the routes of browser ports**, the addresses and the ports of
the listeners. -/
theorem applyAddresses (h : KeepsPorts base base) (groups : ResolvedGroups) :
    KeepsPorts base (Planner.applyAddresses platform spec groups base).1 :=
  (rule platform base).applyAddresses h groups

end KeepsPorts

end Apmpr.Planner
