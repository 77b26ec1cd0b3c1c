import Apmpr.Planner.Validate

/-!
# The order of browser routes

A host router looks a browser route up by its identity and destination, so the order in
which different identities are listed says nothing. The planner does not look at it either:
host routers that give every identity the same routes are validated and completed in the
same way.

## What is proved

* `Similar.applyAddresses`: addresses are applied to both in the same way.
* `documentErrors_reordered`: documents with such host routers are valid together.
* `generateHostRouterConfig_reordered`: the configurations generated for them have the same
  listeners, and give every identity the same routes.
-/

namespace Apmpr.Planner

open Router (RouterConfig BrowserRoute Listener RouteSlotId)

/-! ### Routes by identity -/

/-- Two lists of browser routes give every identity the same routes, in the same order. -/
def SameByIdentity (left right : List BrowserRoute) : Prop :=
  ∀ identity, left.filter (fun route => route.identity = identity) = right.filter fun route => route.identity = identity

namespace SameByIdentity

variable {left right : List BrowserRoute}

theorem append (h : SameByIdentity left right) (route : BrowserRoute) :
    SameByIdentity (left ++ [route]) (right ++ [route]) := fun identity => by
  rw [List.filter_append, List.filter_append, h identity]

/-- A search within an identity finds the same route. -/
theorem find?_eq (h : SameByIdentity left right) (destination : RouteSlotId) (identity : Router.BrowserIdentity) :
    (left.find? fun route => route.destination = destination && route.identity = identity)
      = right.find? fun route => route.destination = destination && route.identity = identity := by
  have hfilter : ∀ routes : List BrowserRoute,
      (routes.find? fun route => route.destination = destination && route.identity = identity)
        = (routes.filter fun route => route.identity = identity).find? fun route => route.destination = destination := by
    intro routes
    rw [List.find?_filter]
    refine congrArg (List.find? · routes) (funext fun route => ?_)
    simp [Bool.and_comm]
  rw [hfilter, hfilter, h identity]

theorem mem_iff (h : SameByIdentity left right) (route : BrowserRoute) : route ∈ left ↔ route ∈ right := by
  have hmem : ∀ routes : List BrowserRoute,
      route ∈ routes ↔ route ∈ routes.filter fun other => other.identity = route.identity := by
    intro routes
    simp
  rw [hmem left, hmem right, h route.identity]

theorem perm (h : SameByIdentity left right) : left.Perm right := by
  rw [List.perm_iff_count]
  intro route
  have hcount : ∀ routes : List BrowserRoute,
      routes.count route = (routes.filter fun other => other.identity = route.identity).count route := by
    intro routes
    rw [List.count_filter (by simp)]
  rw [hcount left, hcount right, h route.identity]

end SameByIdentity

/-! ### Applying addresses -/

/-- A configuration with other browser routes. -/
def withBrowserRoutes (config : RouterConfig) (routes : List BrowserRoute) : RouterConfig :=
  { config with spec := { config.spec with browserRoutes := routes } }

/-- Two passes that differ only in the order of routes of different identities. -/
def Similar (left right : Pass) : Prop :=
  ∃ routes, right = (withBrowserRoutes left.1 routes, left.2) ∧ SameByIdentity left.1.spec.browserRoutes routes

namespace Similar

variable {platform : Platform} {spec : DeploymentSpec} {left right : Pass}

theorem report (h : Similar left right) (d : Diagnostic) : Similar (left.report d) (right.report d) := by
  obtain ⟨routes, rfl, hroutes⟩ := h
  exact ⟨routes, rfl, hroutes⟩

theorem addRoute (h : Similar left right) (route : Router.Route) : Similar (left.addRoute route) (right.addRoute route) := by
  obtain ⟨routes, rfl, hroutes⟩ := h
  exact ⟨routes, rfl, hroutes⟩

theorem addDomain (h : Similar left right) (index : ℕ) (slot : RouteSlotId) (domain : String) :
    Similar (left.addDomain index slot domain) (right.addDomain index slot domain) := by
  obtain ⟨routes, rfl, hroutes⟩ := h
  exact ⟨routes, rfl, hroutes⟩

theorem addBrowser (h : Similar left right) (route : BrowserRoute) :
    Similar (left.addBrowser route) (right.addBrowser route) := by
  obtain ⟨routes, rfl, hroutes⟩ := h
  exact ⟨routes ++ [route], rfl, hroutes.append route⟩

theorem routes (h : Similar left right) : SameByIdentity left.1.spec.browserRoutes right.1.spec.browserRoutes := by
  obtain ⟨routes, rfl, hroutes⟩ := h
  exact hroutes

theorem addOriginRoute (h : Similar left right) (origin path : String) (template : BrowserRoute) :
    Similar (Planner.addOriginRoute spec origin path left template)
      (Planner.addOriginRoute spec origin path right template) := by
  rw [Planner.addOriginRoute, Planner.addOriginRoute]
  dsimp only
  rw [← h.routes.find?_eq]
  generalize left.1.spec.browserRoutes.find? _ = conflicting
  cases conflicting with
  | none =>
    split_ifs
    · exact h.addBrowser _
    · exact (h.addBrowser _).report _
  | some route =>
    dsimp only
    split_ifs
    · exact h.report _
    · exact h
    · exact (h.report _).report _
    · exact h.report _

/-- What every step of a loop keeps similar, the loop keeps similar. -/
theorem foldl {α : Type} {f : Pass → α → Pass} (h : Similar left right)
    (hstep : ∀ left right x, Similar left right → Similar (f left x) (f right x)) (l : List α) :
    Similar (l.foldl f left) (l.foldl f right) := by
  induction l generalizing left right with
  | nil => exact h
  | cons x rest ih => exact ih (hstep left right x h)

theorem addBrowserOriginRoutes (h : Similar left right) (origin identity path : String) :
    Similar (Planner.addBrowserOriginRoutes spec origin identity path left)
      (Planner.addBrowserOriginRoutes spec origin identity path right) := by
  rw [Planner.addBrowserOriginRoutes, Planner.addBrowserOriginRoutes, ← h.routes]
  exact h.foldl (fun _ _ template hpass => hpass.addOriginRoute origin path template) _

/-- Addresses are put on listeners; the browser routes are not looked at. -/
theorem listeners (h : Similar left right) :
    right.1.spec.listeners = left.1.spec.listeners ∧ right.1.spec.routes = left.1.spec.routes ∧
      right.1.spec.providers = left.1.spec.providers := by
  obtain ⟨routes, rfl, -⟩ := h
  exact ⟨rfl, rfl, rfl⟩

theorem addAddressRoute (h : Similar left right) (address inst provider path : String) :
    Similar (Planner.addAddressRoute spec address inst provider path left).1
        (Planner.addAddressRoute spec address inst provider path right).1 ∧
      (Planner.addAddressRoute spec address inst provider path left).2
        = (Planner.addAddressRoute spec address inst provider path right).2 := by
  have hselect : selectAddress right.1 address inst provider path = selectAddress left.1 address inst provider path := by
    obtain ⟨routes, rfl, -⟩ := h
    rfl
  have hexisting : existingDomains right.1 (normalizedHostname address)
      = existingDomains left.1 (normalizedHostname address) := by
    obtain ⟨routes, rfl, -⟩ := h
    rfl
  rw [Planner.addAddressRoute, Planner.addAddressRoute, hselect, hexisting]
  cases selectAddress left.1 address inst provider path with
  | error d => exact ⟨h.report d, rfl⟩
  | ok selected =>
    dsimp only
    have hdomain : Similar
        (if (existingDomains left.1 (normalizedHostname address)).isEmpty then
          left.addDomain selected.1 selected.2 address else left)
        (if (existingDomains left.1 (normalizedHostname address)).isEmpty then
          right.addDomain selected.1 selected.2 address else right) := by
      split_ifs
      · exact h.addDomain _ _ _
      · exact h
    revert hdomain
    generalize (if (existingDomains left.1 (normalizedHostname address)).isEmpty then
      left.addDomain selected.1 selected.2 address else left) = left'
    generalize (if (existingDomains left.1 (normalizedHostname address)).isEmpty then
      right.addDomain selected.1 selected.2 address else right) = right'
    intro hdomain
    have horigin : originAt right'.1 selected.1 address = originAt left'.1 selected.1 address := by
      rw [originAt, hdomain.listeners.1, originAt]
    rw [horigin]
    cases originAt left'.1 selected.1 address with
    | error message => exact ⟨hdomain.report _, rfl⟩
    | ok origin => exact ⟨hdomain.addBrowserOriginRoutes _ _ _, rfl⟩

theorem addTargetedRoute (h : Similar left right) (inst provider path : String) (base : AddressRoute) :
    Similar (Planner.addTargetedRoute inst provider path base left)
      (Planner.addTargetedRoute inst provider path base right) := by
  rw [Planner.addTargetedRoute, Planner.addTargetedRoute]
  dsimp only
  rw [← h.routes.find?_eq]
  generalize left.1.spec.browserRoutes.find? _ = existing
  cases existing with
  | none => exact h.addBrowser _
  | some route =>
    dsimp only
    split_ifs
    · exact h.report _
    · exact h

theorem addMemberRoutes (h : Similar left right) (inst provider path subdomain : String) (base : AddressRoute) :
    Similar (Planner.addMemberRoutes spec inst provider path subdomain base left)
      (Planner.addMemberRoutes spec inst provider path subdomain base right) := by
  have htargeted := h.addTargetedRoute inst provider path base
  have horigin : originAt (Planner.addTargetedRoute inst provider path base right).1 base.1 subdomain
      = originAt (Planner.addTargetedRoute inst provider path base left).1 base.1 subdomain := by
    rw [originAt, htargeted.listeners.1, originAt]
  rw [Planner.addMemberRoutes, Planner.addMemberRoutes]
  rw [horigin]
  cases originAt (Planner.addTargetedRoute inst provider path base left).1 base.1 subdomain with
  | ok origin => exact htargeted.addBrowserOriginRoutes _ _ _
  | error message => exact htargeted.report _

theorem addMemberDomain (h : Similar left right) (group inst provider path subdomain : String) (base : AddressRoute)
    (consumer : String) :
    Similar (Planner.addMemberDomain platform spec group inst provider path subdomain base consumer left)
      (Planner.addMemberDomain platform spec group inst provider path subdomain base consumer right) := by
  have hexisting : existingDomains right.1 (normalizedHostname subdomain)
      = existingDomains left.1 (normalizedHostname subdomain) := by
    obtain ⟨routes, rfl, -⟩ := h
    rfl
  have hroutes : ∀ slot, routesTo right.1 consumer slot provider = routesTo left.1 consumer slot provider := by
    obtain ⟨routes, rfl, -⟩ := h
    exact fun _ => rfl
  rw [Planner.addMemberDomain, Planner.addMemberDomain, hexisting]
  split_ifs
  · exact h.report _
  · cases existingDomains left.1 (normalizedHostname subdomain) with
    | nil => exact ((h.addDomain _ _ _).addRoute _).addMemberRoutes _ _ _ _ _
    | cons existing _ =>
      dsimp only
      rw [hroutes]
      split_ifs
      · exact h.addMemberRoutes _ _ _ _ _
      · exact h.report _

theorem addGroupMemberTarget (h : Similar left right) (group address member provider path : String)
    (base : AddressRoute) :
    Similar (Planner.addGroupMemberTarget platform spec group address member provider path base left)
      (Planner.addGroupMemberTarget platform spec group address member provider path base right) := by
  rw [Planner.addGroupMemberTarget, Planner.addGroupMemberTarget]
  rw [h.listeners.1, h.listeners.2.2]
  generalize left.1.spec.providers.find? _ = definition
  generalize left.1.spec.listeners[base.1]? = listener
  cases definition with
  | none => exact h.report _
  | some definition =>
    cases listener with
    | none => exact h
    | some listener =>
      dsimp only
      split_ifs
      · exact h
      · cases listener.consumer with
        | none => exact h.report _
        | some consumer => exact h.addMemberDomain _ _ _ _ _ _ _

theorem applyInstanceAddress (h : Similar left right) (entry : Instance × ℕ) :
    Similar (Planner.applyInstanceAddress spec left entry) (Planner.applyInstanceAddress spec right entry) := by
  rw [Planner.applyInstanceAddress, Planner.applyInstanceAddress]
  cases entry.1.address with
  | none => exact h
  | some address =>
    dsimp only
    cases addressedInstanceProvider spec entry.1 with
    | ok provider => exact (h.addAddressRoute _ _ _ _).1
    | error message => exact h.report _

theorem applyMember (h : Similar left right) (group address path : String) (base : AddressRoute) (member : String) :
    Similar (Planner.applyMember platform spec group address path base left member)
      (Planner.applyMember platform spec group address path base right member) := by
  rw [Planner.applyMember, Planner.applyMember]
  cases addressedMemberProvider spec member with
  | ok found => exact h.addGroupMemberTarget _ _ _ _ _ _
  | error message => exact h

theorem applyGroupAddress (h : Similar left right) (groups : ResolvedGroups) (entry : String × ServiceGroup) :
    Similar (Planner.applyGroupAddress platform spec groups left entry)
      (Planner.applyGroupAddress platform spec groups right entry) := by
  rw [Planner.applyGroupAddress, Planner.applyGroupAddress]
  cases entry.2.address with
  | none => exact h
  | some address =>
    dsimp only
    split
    · rename_i member _
      cases addressedMemberProvider spec member with
      | error message => exact h.report _
      | ok found =>
        dsimp only
        obtain ⟨hroute, hbase⟩ :=
          @addAddressRoute spec _ _ h address found.1 found.2 s!"spec.groups.{entry.1}.address"
        revert hroute hbase
        generalize Planner.addAddressRoute spec address found.1 found.2 s!"spec.groups.{entry.1}.address" left = leftRoute
        generalize Planner.addAddressRoute spec address found.1 found.2 s!"spec.groups.{entry.1}.address" right
          = rightRoute
        intro hroute hbase
        obtain ⟨left', base⟩ := leftRoute
        obtain ⟨right', base'⟩ := rightRoute
        dsimp only at hroute hbase
        subst hbase
        cases base with
        | none => exact hroute
        | some base => exact hroute.foldl (fun _ _ member hpass => hpass.applyMember _ _ _ _ member) _
    · exact h.report _

/-- **Addresses are applied in the same way** to host routers that differ only in the order
of routes of different identities. -/
theorem applyAddresses {config config' : RouterConfig} (h : Similar (config, []) (config', [])) (groups : ResolvedGroups) :
    Similar (Planner.applyAddresses platform spec groups config) (Planner.applyAddresses platform spec groups config') :=
  Similar.foldl (h.foldl (fun _ _ entry hpass => hpass.applyInstanceAddress entry) _)
    (fun _ _ entry hpass => hpass.applyGroupAddress groups entry) _

end Similar

/-! ### Validation and generation -/

/-- What the generation of a host router's configuration went through. -/
theorem generateHostRouterConfig_ok_iff {platform : Platform} {bundle : Bundle} {groups : ResolvedGroups}
    {profiles : List (String × ManagedProfilePlan)} {devices : Devices} {config : RouterConfig}
    {generated : Option RouterConfig} (hrouter : bundle.document.spec.hostRouter = some config) :
    generateHostRouterConfig platform bundle groups profiles devices = .ok generated ↔
      ∃ result, generated = some result ∧
        (applyAddresses platform bundle.document.spec groups
          (placeProviders bundle.document.spec devices config)).2 = [] ∧
        addProxyListeners platform bundle profiles (applyAddresses platform bundle.document.spec groups
          (placeProviders bundle.document.spec devices config)).1 = .ok result ∧
        result.validate = .ok () := by
  have hpass : ∀ pass : Pass, ∀ config, passOk pass = .ok config ↔ pass.2 = [] ∧ pass.1 = config := by
    intro pass config
    rw [passOk]
    split_ifs with hnone
    · simp [List.isEmpty_iff.mp hnone]
    · simp only [List.isEmpty_iff] at hnone
      simp [hnone]
  have hvalid : ∀ config valid : RouterConfig, validConfig config = .ok valid ↔ config.validate = .ok () ∧ config = valid := by
    intro config valid
    rw [validConfig]
    split <;> simp_all
  simp only [generateHostRouterConfig, hrouter, bind_eq_ok_iff, hpass, hvalid]
  constructor
  · rintro ⟨addressed, ⟨herrors, rfl⟩, proxied, hproxied, valid, ⟨hok, rfl⟩, h⟩
    exact ⟨proxied, (Except.ok.inj h).symm, herrors, hproxied, hok⟩
  · rintro ⟨result, rfl, herrors, hproxied, hok⟩
    exact ⟨_, ⟨herrors, rfl⟩, result, hproxied, result, ⟨hok, rfl⟩, rfl⟩

section Reordered

variable {platform : Platform} {config : RouterConfig} {routes : List BrowserRoute}

theorem similar_withBrowserRoutes (h : SameByIdentity config.spec.browserRoutes routes) :
    Similar (config, []) (withBrowserRoutes config routes, []) :=
  ⟨routes, rfl, h⟩

/-- A valid configuration is valid with its identities in another order. -/
theorem validate_withBrowserRoutes (h : SameByIdentity config.spec.browserRoutes routes)
    (hvalid : config.validate = .ok ()) : (withBrowserRoutes config routes).validate = .ok () := by
  rw [Router.validate_ok_iff] at hvalid ⊢
  have hreordered : config.Reordered (withBrowserRoutes config routes) :=
    ⟨rfl, rfl, rfl, rfl, rfl, rfl, rfl, .refl _, .refl _, .refl _, .refl _, .refl _, h.perm⟩
  exact hreordered.valid hvalid

/-- The destinations of a managed profile are those of one identity. -/
theorem managedProfileDestinations_withBrowserRoutes (h : SameByIdentity config.spec.browserRoutes routes)
    (routeIdentity startUrl : String) :
    managedProfileDestinations platform (withBrowserRoutes config routes) routeIdentity startUrl
      = managedProfileDestinations platform config routeIdentity startUrl := by
  have hroutes : ((withBrowserRoutes config routes).spec.browserRoutes.filter fun route =>
      route.identity = .proxyListener routeIdentity)
        = config.spec.browserRoutes.filter fun route => route.identity = .proxyListener routeIdentity :=
    (h (.proxyListener routeIdentity)).symm
  have hslot : ∀ slot, proxyDestination (withBrowserRoutes config routes) slot = proxyDestination config slot :=
    fun _ => rfl
  simp only [managedProfileDestinations, hroutes, hslot]

/-- A document whose host router lists its identities in another order. -/
def Document.reordered (document : Document) (config : RouterConfig) (routes : List BrowserRoute) : Document :=
  document.withSpec { document.spec with hostRouter := some (withBrowserRoutes config routes) }

theorem hostRouterErrors_reordered {document : Document} {addressed : RouterConfig} {added : List BrowserRoute}
    (h : SameByIdentity addressed.spec.browserRoutes added) (hvalid : hostRouterErrors document (some addressed) = []) :
    hostRouterErrors (document.reordered config routes) (some (withBrowserRoutes addressed added)) = [] := by
  simp only [hostRouterErrors, List.append_eq_nil_iff] at hvalid ⊢
  obtain ⟨⟨hname, hrouter⟩, hupstreams⟩ := hvalid
  refine ⟨⟨hname, ?_⟩, hupstreams⟩
  have hok : addressed.validate = .ok () := by
    rw [Router.RouterConfig.validate] at hrouter ⊢
    split_ifs at hrouter ⊢ with herrors
    · rfl
    · simp only [List.map_eq_nil_iff] at hrouter
      simp [hrouter] at herrors
  rw [validate_withBrowserRoutes h hok]

/-- **Documents whose host routers differ in the order of identities are valid together.** -/
theorem documentErrors_reordered {document : Document} (hrouter : document.spec.hostRouter = some config)
    (h : SameByIdentity config.spec.browserRoutes routes) (hvalid : documentErrors platform document = []) :
    documentErrors platform (document.reordered config routes) = [] := by
  have hgroups : resolveGroups (document.reordered config routes).spec = resolveGroups document.spec := rfl
  have haddresses : ∀ groups, applyAddresses platform (document.reordered config routes).spec groups
      = applyAddresses platform document.spec groups := fun _ => rfl
  have hrouter' : (document.reordered config routes).spec.hostRouter = some (withBrowserRoutes config routes) := rfl
  obtain ⟨added, hpass, hadded⟩ := @Similar.applyAddresses platform document.spec _ _ (similar_withBrowserRoutes h)
    (resolveGroups document.spec).1
  simp only [documentErrors, hgroups, addressedRouter, hrouter, hrouter', haddresses, hpass, List.append_eq_nil_iff,
    List.flatMap_eq_nil_iff] at hvalid ⊢
  obtain ⟨⟨⟨⟨⟨herrors, hdependencies⟩, hclaims⟩, hpassErrors⟩, hprofiles⟩, hhost⟩ := hvalid
  refine ⟨⟨⟨⟨⟨herrors, hdependencies⟩, hclaims⟩, hpassErrors⟩, fun profile hprofile => ?_⟩,
    hostRouterErrors_reordered hadded hhost⟩
  have hprofile' := hprofiles profile hprofile
  simp only [profileErrors, managedProfileDestinations_withBrowserRoutes hadded] at hprofile' ⊢
  exact hprofile'

/-- The checks up to the groups do not look at the host router. -/
theorem resourceErrors_reordered (bundle : Bundle) (devices : Devices) :
    resourceErrors platform { bundle with document := bundle.document.reordered config routes } devices
      = resourceErrors platform bundle devices := by
  have hsources : ∀ earlier sources, allSourceErrors platform
      { bundle with document := bundle.document.reordered config routes } earlier sources
        = allSourceErrors platform bundle earlier sources := by
    intro earlier sources
    induction sources generalizing earlier with
    | nil => rfl
    | cons entry rest ih => exact congrArg₂ (· ++ ·) rfl (ih _)
  have hinstances : ∀ earlier instances, allInstanceErrors platform
      { bundle with document := bundle.document.reordered config routes } devices earlier instances
        = allInstanceErrors platform bundle devices earlier instances := by
    intro earlier instances
    induction instances generalizing earlier with
    | nil => rfl
    | cons inst rest ih => exact congrArg₂ (· ++ ·) rfl (ih _)
  simp only [resourceErrors, hsources, hinstances]
  rfl

/-- A valid bundle is valid with the identities of its host router in another order. -/
theorem validate_reordered {bundle : Bundle} {devices : Devices} {groups : ResolvedGroups}
    (hrouter : bundle.document.spec.hostRouter = some config) (h : SameByIdentity config.spec.browserRoutes routes)
    (hvalid : validate platform bundle devices = .ok groups) :
    validate platform { bundle with document := bundle.document.reordered config routes } devices = .ok groups := by
  obtain ⟨hblock, hresources, hdocument, hgroups⟩ := validate_ok_iff.mp hvalid
  exact validate_ok_iff.mpr ⟨hblock, (resourceErrors_reordered bundle devices).trans hresources,
    documentErrors_reordered hrouter h hdocument, hgroups⟩

theorem addProxyListeners_reordered {bundle bundle' : Bundle} (hroot : bundle'.workspaceRoot = bundle.workspaceRoot)
    (hname : bundle'.document.metadata.name = bundle.document.metadata.name)
    {profiles : List (String × ManagedProfilePlan)} {result : RouterConfig}
    (h : SameByIdentity config.spec.browserRoutes routes)
    (hresult : addProxyListeners platform bundle profiles config = .ok result) :
    addProxyListeners platform bundle' profiles (withBrowserRoutes config routes) = .ok (withBrowserRoutes result routes) ∧
      result.spec.browserRoutes = config.spec.browserRoutes := by
  induction profiles generalizing config with
  | nil =>
    cases hresult
    exact ⟨rfl, rfl⟩
  | cons entry rest ih =>
    obtain ⟨name, profile⟩ := entry
    obtain ⟨listener, hlistener, hrest⟩ := bind_eq_ok_iff.mp hresult
    have hlistener' : proxyListener platform bundle' (withBrowserRoutes config routes) profile = .ok listener := by
      rw [← hlistener, proxyListener, proxyListener, managedProfileDestinations_withBrowserRoutes h, hroot, hname]
    obtain ⟨hagain, hroutes⟩ := @ih { config with
      spec := { config.spec with listeners := config.spec.listeners ++ [listener] } } h hrest
    refine ⟨?_, hroutes⟩
    rw [addProxyListeners]
    exact bind_eq_ok_iff.mpr ⟨listener, hlistener', hagain⟩

/-- **The configurations generated for host routers that differ in the order of identities**
have the same listeners and give every identity the same routes. -/
theorem generateHostRouterConfig_reordered {bundle : Bundle} {groups : ResolvedGroups} {devices : Devices}
    {profiles : List (String × ManagedProfilePlan)} {generated : Option RouterConfig}
    (hrouter : bundle.document.spec.hostRouter = some config) (h : SameByIdentity config.spec.browserRoutes routes)
    (hgenerated : generateHostRouterConfig platform bundle groups profiles devices = .ok generated) :
    ∃ result added, generated = some result ∧ SameByIdentity result.spec.browserRoutes added ∧
      generateHostRouterConfig platform { bundle with document := bundle.document.reordered config routes } groups
        profiles devices = .ok (some (withBrowserRoutes result added)) := by
  have hspec : applyAddresses platform (bundle.document.reordered config routes).spec groups
        (placeProviders (bundle.document.reordered config routes).spec devices (withBrowserRoutes config routes))
      = applyAddresses platform bundle.document.spec groups
        (withBrowserRoutes (placeProviders bundle.document.spec devices config) routes) := rfl
  obtain ⟨result, rfl, herrors, hproxied, hvalid⟩ := (generateHostRouterConfig_ok_iff hrouter).mp hgenerated
  obtain ⟨added, hpass, hadded⟩ := @Similar.applyAddresses platform bundle.document.spec _ _
    (@similar_withBrowserRoutes (placeProviders bundle.document.spec devices config) routes h) groups
  obtain ⟨hproxied', hroutes⟩ := @addProxyListeners_reordered platform _ added bundle
    { bundle with document := bundle.document.reordered config routes } rfl rfl _ _ hadded hproxied
  have hsame : SameByIdentity result.spec.browserRoutes added := by
    rw [hroutes]
    exact hadded
  refine ⟨result, added, rfl, hsame, (generateHostRouterConfig_ok_iff rfl).mpr
    ⟨withBrowserRoutes result added, rfl, ?_, ?_, validate_withBrowserRoutes hsame hvalid⟩⟩
  · rw [hspec, hpass]
    exact herrors
  · rw [hspec, hpass]
    exact hproxied'

end Reordered

end Apmpr.Planner
