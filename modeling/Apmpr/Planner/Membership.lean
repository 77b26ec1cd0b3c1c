import Apmpr.Planner.Replan
import Apmpr.Planner.RouteOrder

/-!
# Moving a member of a resolved deployment

A live move loads the resolved deployment of the authored plan and plans it with the
instance in its new group. The resolved deployment already has the host router that was
derived for it, with the routes of the old groups, and a deployment with a host router is
not given another one.

## What is proved

* `move_commutes`: where deriving host routing for the moved deployment gives the upstreams,
  the browser ports and for every identity the routes it gave before the move, planning the
  moved resolved deployment succeeds, and its host router has the browser routes and the
  listeners of the moved authored deployment. Where it has them, the derived browser routes
  and browser ports were not changed by the move.
* `move_not_rerouted`: a member that joins a group whose port another member wins keeps the
  route it had.

## Honest scope

The two conditions of `move_commutes` differ in the upstreams: an upstream that is published
only after the move may be one that no route and no address shows.
-/

namespace Apmpr.Planner

open Router (RouterConfig BrowserRoute)

/-- The plan of the resolved deployment of a plan, with an instance moved. -/
def replanMoved (host : Host) (workspaceRoot : PathBuf) (plan : Plan) (inst group : String) (devices : Devices) :
    Option Plan :=
  match loadBundle host plan.resolvedDeployment (workspaceRoot.join plan.artifactDir) with
  | .ok reloaded => (planWithMembershipAndDevices host reloaded inst group devices).toOption
  | .error _ => none

/-- The browser routes of a host router, if there is one. -/
def browserRoutesOf (config : Option RouterConfig) : List BrowserRoute :=
  (config.map fun config => config.spec.browserRoutes).getD []

/-- The listeners of a host router, if there is one. -/
def listenersOf (config : Option RouterConfig) : List Router.Listener :=
  (config.map fun config => config.spec.listeners).getD []

/-- Two plans route browsers in the same way: their host routers have the same browser
routes and the same listeners. -/
structure SameBrowserRouting (config again : Option RouterConfig) : Prop where
  browserRoutes : ∀ route, route ∈ browserRoutesOf again ↔ route ∈ browserRoutesOf config
  listeners : listenersOf again = listenersOf config

/-- The host routing that is derived for a deployment with addresses is not changed by a
move: the published upstreams, the routes of every identity and the browser ports stay. -/
def KeepsRouting (platform : Platform) (document : Document) (inst group : String) : Prop :=
  document.spec.hasAddresses = true →
    let moved := moveInstanceToGroup document inst group
    publishedUpstreams platform moved.spec = publishedUpstreams platform document.spec ∧
      SameByIdentity (derivedBrowserRoutes (published platform moved).spec)
        (derivedBrowserRoutes (published platform document).spec) ∧
      browserPorts (published platform moved).spec = browserPorts (published platform document).spec

/-- The browser routes and browser ports that are derived for a deployment with addresses
are not changed by a move. -/
def KeepsRoutes (platform : Platform) (document : Document) (inst group : String) : Prop :=
  document.spec.hasAddresses = true →
    let moved := moveInstanceToGroup document inst group
    (∀ route, route ∈ derivedBrowserRoutes (published platform document).spec ↔
        route ∈ derivedBrowserRoutes (published platform moved).spec) ∧
      browserPorts (published platform document).spec = browserPorts (published platform moved).spec

/-! ### Moves and derived routing -/

section Derivation

variable {platform : Platform} {document : Document} {inst group : String}

/-- A move leaves the addresses. -/
theorem hasAddresses_move (document : Document) (inst group : String) :
    (moveInstanceToGroup document inst group).spec.hasAddresses = document.spec.hasAddresses := by
  simp only [DeploymentSpec.hasAddresses, moveInstanceToGroup, Document.withSpec, SortedMap.values,
    SortedMap.mapValues, List.any_map]
  refine congrArg (_ || ·) (congrArg (List.any _) (funext fun entry => ?_))
  simp only [Function.comp_apply, ServiceGroup.without]
  split_ifs <;> rfl

/-- What was derived for a deployment with addresses. -/
theorem withDerivedHostRouting_derived {effective : Document} (hrouter : document.spec.hostRouter = none)
    (haddresses : document.spec.hasAddresses = true)
    (h : withDerivedHostRouting platform document = .ok effective) :
    ∃ config, derivedHostRouter platform (published platform document) = .ok config ∧
      effective = document.withSpec { document.spec with
        hostUpstreams := publishedUpstreams platform document.spec
        hostRouter := some config } := by
  rw [withDerivedHostRouting, hrouter, haddresses, if_neg (by simp)] at h
  dsimp only at h
  split at h
  · cases h
    exact ⟨_, by assumption, rfl⟩
  · cases h

/-- The derived host router depends on the groups only through its routes and ports. -/
theorem derivedHostRouter_of_keepsRouting {config moved : RouterConfig} (haddresses : document.spec.hasAddresses = true)
    (h : KeepsRouting platform document inst group)
    (hconfig : derivedHostRouter platform (published platform document) = .ok config)
    (hmoved : derivedHostRouter platform (published platform (moveInstanceToGroup document inst group)) = .ok moved) :
    SameByIdentity moved.spec.browserRoutes config.spec.browserRoutes ∧
      config = withBrowserRoutes moved config.spec.browserRoutes := by
  obtain ⟨hupstreams, hroutes, hports⟩ := h haddresses
  obtain ⟨port, hport, hconfig⟩ := bind_eq_ok_iff.mp hconfig
  obtain ⟨port', hport', hmoved⟩ := bind_eq_ok_iff.mp hmoved
  rw [hports] at hport'
  obtain rfl : port = port' := Except.ok.inj (hport.symm.trans hport')
  obtain rfl := Except.ok.inj hconfig
  obtain rfl := Except.ok.inj hmoved
  have hspec : (published platform (moveInstanceToGroup document inst group)).spec.hostUpstreams
      = (published platform document).spec.hostUpstreams := hupstreams
  have hgateway : gatewayRoutes platform (published platform (moveInstanceToGroup document inst group)).spec
      = gatewayRoutes platform (published platform document).spec := by
    simp only [gatewayRoutes, hspec]
    rfl
  refine ⟨hroutes, ?_⟩
  simp only [withBrowserRoutes, hports, hgateway, hspec]
  rfl

/-- Where the derived routing is kept, moving and deriving commute up to the order of
identities in the host router. -/
theorem move_effective_of_keepsRouting {effective moved : Document} (hrouter : document.spec.hostRouter = none)
    (heffective : withDerivedHostRouting platform document = .ok effective)
    (hmoved : withDerivedHostRouting platform (moveInstanceToGroup document inst group) = .ok moved)
    (h : KeepsRouting platform document inst group) :
    moveInstanceToGroup effective inst group = moved ∨
      ∃ config routes, moved.spec.hostRouter = some config ∧ SameByIdentity config.spec.browserRoutes routes ∧
        moveInstanceToGroup effective inst group = moved.reordered config routes := by
  have hmovedRouter : (moveInstanceToGroup document inst group).spec.hostRouter = none := hrouter
  have hmovedAddresses := hasAddresses_move document inst group
  cases haddresses : document.spec.hasAddresses with
  | false =>
    rw [withDerivedHostRouting_of_isSettled (by simp [Document.isSettled, haddresses])] at heffective
    rw [withDerivedHostRouting_of_isSettled
      (by simp [Document.isSettled, hmovedAddresses, haddresses])] at hmoved
    left
    rw [← Except.ok.inj heffective, ← Except.ok.inj hmoved]
  | true =>
    rw [haddresses] at hmovedAddresses
    obtain ⟨config, hconfig, rfl⟩ := withDerivedHostRouting_derived hrouter haddresses heffective
    obtain ⟨config', hconfig', rfl⟩ := withDerivedHostRouting_derived hmovedRouter hmovedAddresses hmoved
    obtain ⟨hroutes, hsame⟩ := derivedHostRouter_of_keepsRouting haddresses h hconfig hconfig'
    refine Or.inr ⟨config', config.spec.browserRoutes, rfl, hroutes, ?_⟩
    rw [Document.reordered, ← hsame, (h haddresses).1]
    rfl

end Derivation

/-! ### Planning a move -/

section Planning

variable {host : Host} {bundle : Bundle} {devices : Devices} {plan moved : Plan} {inst group : String}

/-- What planning without overlays went through. -/
theorem planWithDevices_ok (hoverlays : bundle.document.spec.overlays = [])
    (h : planWithDevices host bundle devices = .ok plan) :
    ∃ document groups, withDerivedHostRouting host.toPlatform bundle.document = .ok document ∧
      validate host.toPlatform (bundle.withDocument document) devices = .ok groups ∧
      generate host.toPlatform (bundle.withDocument document) groups none devices = .ok plan := by
  rw [planWithDevices, hoverlays, List.isEmpty_nil, if_pos rfl] at h
  obtain ⟨e, he, h⟩ := bind_eq_ok_iff.mp h
  obtain ⟨document, hdocument, he⟩ := bind_eq_ok_iff.mp he
  obtain rfl := Except.ok.inj he
  obtain ⟨groups, hgroups, h⟩ := bind_eq_ok_iff.mp h
  exact ⟨document, groups, hdocument, hgroups, h⟩

/-- A move is refused for the effective document as it is for the document. -/
theorem membershipErrors_effective {platform : Platform} {document effective : Document}
    (h : withDerivedHostRouting platform document = .ok effective) :
    membershipErrors effective.spec inst group = membershipErrors document.spec inst group := by
  obtain ⟨hostRouter, hostUpstreams, rfl⟩ := spec_of_withDerivedHostRouting h
  rfl

/-- What a plan says of the deployment it is a plan of. -/
theorem resolved_of_generate {platform : Platform} {groups : ResolvedGroups} {overlay : Option OverlayResolution}
    (h : generate platform bundle groups overlay devices = .ok plan) :
    plan.resolvedDeployment = resolvedDocument bundle ∧ plan.artifactDir = artifactDir bundle.document.metadata.name ∧
      plan.deployment = bundle.document.metadata.name := by
  obtain ⟨_, _, _, _, _, -, -, -, -, -, rfl⟩ := generate_ok_iff.mp h
  exact ⟨rfl, rfl, rfl⟩

theorem replanMoved_of_loadBundle {workspaceRoot : PathBuf} {reloaded : Bundle}
    (h : loadBundle host plan.resolvedDeployment (workspaceRoot.join plan.artifactDir) = .ok reloaded) :
    replanMoved host workspaceRoot plan inst group devices
      = (planWithMembershipAndDevices host reloaded inst group devices).toOption := by
  rw [replanMoved, h]

/-- Planning the moved resolved deployment is planning the moved effective document, with
its paths resolved. -/
theorem replanMoved_eq {document : Document} {groups : ResolvedGroups}
    (hoverlays : bundle.document.spec.overlays = [])
    (hderived : withDerivedHostRouting host.toPlatform bundle.document = .ok document)
    (hvalidate : validate host.toPlatform (bundle.withDocument document) devices = .ok groups)
    (hgenerate : generate host.toPlatform (bundle.withDocument document) groups none devices = .ok plan)
    (hgit : InGitWorkspace host bundle.workspaceRoot plan.deployment)
    (hmembership : membershipErrors bundle.document.spec inst group = []) :
    ∃ dir hdir, generatedDefinition dir = true ∧ replanMoved host bundle.workspaceRoot plan inst group devices
      = (planEffective host.toPlatform devices
          ⟨(bundle.withDocument (moveInstanceToGroup document inst group)).reloaded dir hdir, none⟩).toOption := by
  obtain ⟨hresolved, hdirectory, hname⟩ := resolved_of_generate hgenerate
  rw [hname] at hgit
  obtain ⟨hdir, hresolves⟩ := loadBundle_resolvedDocument hvalidate hgit
  have hload : loadBundle host plan.resolvedDeployment (bundle.workspaceRoot.join plan.artifactDir)
      = .ok ((bundle.withDocument document).reloaded _ hdir) := by
    rw [hresolved, hdirectory]
    exact hresolves
  have hgenerated := generatedDefinition_artifactDir bundle.workspaceRoot_absolute (header_of_validate hvalidate).2
  have hsettled : (moveInstanceToGroup document inst group).isSettled = true := by
    rw [Document.isSettled, hasAddresses_move]
    exact isSettled_of_withDerivedHostRouting hderived
  have hoverlays' : (moveInstanceToGroup document inst group).spec.overlays = [] := by
    obtain ⟨hostRouter, hostUpstreams, rfl⟩ := spec_of_withDerivedHostRouting hderived
    exact hoverlays
  have hmembership' : membershipErrors ((bundle.withDocument document).reloaded _ hdir).document.spec inst group = [] :=
    (membershipErrors_effective hderived).trans hmembership
  have hplan := @planWithDevices_reloaded host (bundle.withDocument (moveInstanceToGroup document inst group)) devices
    hoverlays' hsettled _ hdir
  refine ⟨_, hdir, hgenerated, ?_⟩
  rw [replanMoved_of_loadBundle hload, planWithMembershipAndDevices, hmembership', ← hplan]
  rfl

/-- Where a move keeps the derived routing, the moved effective document is valid, and its
host router is completed as that of the moved deployment. -/
theorem plan_of_keepsRouting {document moved : Document} {groups : ResolvedGroups}
    {profiles : List (String × ManagedProfilePlan)} {config : Option RouterConfig}
    (h : document = moved ∨ ∃ config routes, moved.spec.hostRouter = some config ∧
      SameByIdentity config.spec.browserRoutes routes ∧ document = moved.reordered config routes)
    (hvalidate : validate host.toPlatform (bundle.withDocument moved) devices = .ok groups)
    (hconfig : generateHostRouterConfig host.toPlatform (bundle.withDocument moved) groups profiles devices = .ok config) :
    ∃ config', validate host.toPlatform (bundle.withDocument document) devices = .ok groups ∧
      generateHostRouterConfig host.toPlatform (bundle.withDocument document) groups profiles devices = .ok config' ∧
      SameBrowserRouting config config' := by
  rcases h with rfl | ⟨router, routes, hrouter, hroutes, rfl⟩
  · exact ⟨config, hvalidate, hconfig, fun _ => Iff.rfl, rfl⟩
  · obtain ⟨result, added, rfl, hadded, hagain⟩ := @generateHostRouterConfig_reordered host.toPlatform router routes
      (bundle.withDocument moved) _ _ _ _ hrouter hroutes hconfig
    exact ⟨some (withBrowserRoutes result added), @validate_reordered host.toPlatform router routes
      (bundle.withDocument moved) _ _ hrouter hroutes hvalidate, hagain, fun route => (hadded.mem_iff route).symm, rfl⟩

/-- **Where a move keeps the derived routing, it commutes with resolution.** -/
theorem replanMoved_of_keepsRouting (hrouter : bundle.document.spec.hostRouter = none)
    (hoverlays : bundle.document.spec.overlays = []) (hplan : planWithDevices host bundle devices = .ok plan)
    (hgit : InGitWorkspace host bundle.workspaceRoot plan.deployment)
    (hmoved : planWithMembershipAndDevices host bundle inst group devices = .ok moved)
    (hkeeps : KeepsRouting host.toPlatform bundle.document inst group) :
    ∃ again, replanMoved host bundle.workspaceRoot plan inst group devices = some again ∧
      SameBrowserRouting moved.hostRouterConfig again.hostRouterConfig := by
  obtain ⟨document, groups, hderived, hvalidate, hgenerate⟩ := planWithDevices_ok hoverlays hplan
  obtain ⟨hmembership, hmoved⟩ := planWithMembershipAndDevices_ok_iff.mp hmoved
  obtain ⟨document', groups', hderived', hvalidate', hgenerate'⟩ := @planWithDevices_ok host
    (bundle.withDocument (moveInstanceToGroup bundle.document inst group)) _ _ hoverlays hmoved
  obtain ⟨dir, hdir, hgenerated, hreplan⟩ :=
    replanMoved_eq hoverlays hderived hvalidate hgenerate hgit hmembership
  obtain ⟨profiles, config, _, _, _, hprofiles, hconfig, -, -, -, rfl⟩ := generate_ok_iff.mp hgenerate'
  obtain ⟨config', hvalid, hconfig', hsame⟩ := plan_of_keepsRouting
    (move_effective_of_keepsRouting hrouter hderived hderived' hkeeps) hvalidate' hconfig
  have hprofiles' : managedProfiles host.toPlatform (moveInstanceToGroup document inst group) = .ok profiles := by
    obtain ⟨_, _, rfl⟩ := spec_of_withDerivedHostRouting hderived
    obtain ⟨_, _, rfl⟩ := spec_of_withDerivedHostRouting hderived'
    exact hprofiles
  have hreloaded := @validate_reloaded _ _ _ hdir _ hgenerated _ hvalid
  obtain ⟨again, hagain, hrouting⟩ := @generate_succeeds _ _ _ none _ hreloaded _ hprofiles' _
    ((generateHostRouterConfig_reloaded groups' profiles).trans hconfig')
  refine ⟨again, ?_, by rw [hrouting]; exact hsame⟩
  rw [hreplan, toOption_eq_some_iff, planEffective]
  exact bind_eq_ok_iff.mpr ⟨groups', hreloaded, hagain⟩

end Planning

/-! ### What a host router shows of its derivation -/

section Shown

variable {platform : Platform} {bundle : Bundle} {devices : Devices} {groups : ResolvedGroups}

theorem mem_addBrowserRoute {routes : List BrowserRoute} {route added : BrowserRoute}
    (h : route ∈ addBrowserRoute routes added) : route ∈ routes ∨ route = added := by
  rw [addBrowserRoute] at h
  split_ifs at h
  · exact Or.inl h
  · simpa using h

theorem mem_foldl_addBrowserRoute {added routes : List BrowserRoute} {route : BrowserRoute}
    (h : route ∈ added.foldl addBrowserRoute routes) : route ∈ routes ∨ route ∈ added := by
  induction added generalizing routes with
  | nil => exact Or.inl h
  | cons first rest ih =>
    rcases ih h with h | h
    · rcases mem_addBrowserRoute h with h | rfl
      · exact Or.inl h
      · exact Or.inr (List.mem_cons_self ..)
    · exact Or.inr (List.mem_cons_of_mem _ h)

theorem head?_browserSlot (port : U16) : (browserSlot port).toList.head? = some 'b' := by
  rw [browserSlot, String.toList_append]
  rfl

/-- Derived browser routes go from an identity to a browser port. -/
theorem isPortRoute_of_mem_derived {spec : DeploymentSpec} {route : BrowserRoute}
    (h : route ∈ derivedBrowserRoutes spec) : isPortRoute route = true := by
  rcases mem_foldl_addBrowserRoute h with h | h
  · cases h
  · obtain ⟨group, -, h⟩ := List.mem_flatMap.mp h
    obtain ⟨routes, hroutes, h⟩ := List.mem_flatMap.mp h
    obtain ⟨port, -, hport⟩ := List.mem_filterMap.mp hroutes
    obtain ⟨winner, -, rfl⟩ := Option.map_eq_some_iff.mp hport
    obtain ⟨member, -, rfl⟩ := List.mem_map.mp h
    exact decide_eq_true (head?_browserSlot port)

/-- The parts of a derived host router that show its groups. -/
theorem derivedHostRouter_ok {document : Document} {config : RouterConfig}
    (h : derivedHostRouter platform document = .ok config) :
    config.spec.browserRoutes = derivedBrowserRoutes document.spec ∧
      config.spec.routes = gatewayRoutes platform document.spec ∧
      ∃ port, config.spec.listeners = gatewayListener port :: (browserPorts document.spec).map browserListener := by
  obtain ⟨port, -, h⟩ := bind_eq_ok_iff.mp h
  cases h
  exact ⟨rfl, rfl, port, rfl⟩

/-- The slots of the gateway are `host--…`. -/
theorem slot_of_mem_gatewayRoutes {spec : DeploymentSpec} {route : Router.Route}
    (h : route ∈ gatewayRoutes platform spec) : route.slot.toList.head? ≠ some 'b' := by
  obtain ⟨⟨provider, upstream⟩, -, hroute⟩ := List.mem_filterMap.mp h
  dsimp only at hroute
  split_ifs at hroute
  obtain rfl := Option.some.inj hroute
  have hslot : (resourceName platform ["host", provider]).toList.head? = some 'h' :=
    @head?_resourceName platform 'h' (by decide) _ ("ost".toList ++ ("--" ++ provider).toList) (by
      rw [show "--".intercalate ["host", provider] = "host" ++ "--" ++ provider from rfl]
      simp [String.toList_append])
  dsimp only
  rw [hslot]
  decide

/-- The proxies of managed profiles are listeners of their own. -/
theorem addProxyListeners_ok {profiles : List (String × ManagedProfilePlan)} {config result : RouterConfig}
    (h : addProxyListeners platform bundle profiles config = .ok result) :
    result.spec.browserRoutes = config.spec.browserRoutes ∧
      result.spec.listeners.map (·.bind)
        = config.spec.listeners.map (·.bind) ++ profiles.map fun profile => ⟨IpAddr.localhost, profile.2.proxyPort⟩ := by
  induction profiles generalizing config with
  | nil =>
    cases h
    simp
  | cons entry rest ih =>
    obtain ⟨listener, hlistener, h⟩ := bind_eq_ok_iff.mp h
    obtain ⟨destinations, -, hlistener⟩ := bind_eq_ok_iff.mp hlistener
    cases hlistener
    obtain ⟨hroutes, hbinds⟩ := ih h
    exact ⟨hroutes, by rw [hbinds]; simp⟩

/-- The routes of browser ports and the binds of a generated host router are those of the
host router it was generated from. -/
theorem generateHostRouterConfig_keepsPorts {profiles : List (String × ManagedProfilePlan)}
    {config : RouterConfig} {generated : Option RouterConfig} (hrouter : bundle.document.spec.hostRouter = some config)
    (hslots : ∀ route ∈ config.spec.routes, route.slot.toList.head? ≠ some 'b')
    (h : generateHostRouterConfig platform bundle groups profiles devices = .ok generated) :
    ∃ result, generated = some result ∧
      result.spec.browserRoutes.filter isPortRoute = config.spec.browserRoutes.filter isPortRoute ∧
      result.spec.listeners.map (·.bind)
        = config.spec.listeners.map (·.bind) ++ profiles.map fun profile => ⟨IpAddr.localhost, profile.2.proxyPort⟩ := by
  obtain ⟨result, rfl, -, hproxied, -⟩ := (generateHostRouterConfig_ok_iff hrouter).mp h
  obtain ⟨hroutes, hbinds⟩ := addProxyListeners_ok hproxied
  have hkeeps := @KeepsPorts.applyAddresses platform bundle.document.spec
    (placeProviders bundle.document.spec devices config) ⟨hslots, rfl, rfl⟩ groups
  refine ⟨result, rfl, ?_, ?_⟩
  · rw [hroutes]
    exact hkeeps.portRoutes
  · rw [hbinds, hkeeps.binds]
    rfl

/-- A plan of a deployment whose host router was derived shows the derived browser routes
and the ports of its listeners. -/
theorem plan_shows_derivation {document : Document} {config : RouterConfig} {plan : Plan}
    (hconfig : derivedHostRouter platform document = .ok config)
    (hrouter : bundle.document.spec.hostRouter = some config)
    (hplan : generate platform bundle groups none devices = .ok plan) :
    ∃ profiles port, managedProfiles platform bundle.document = .ok profiles ∧
      (∀ route, route ∈ derivedBrowserRoutes document.spec ↔ route ∈ browserRoutesOf plan.hostRouterConfig ∧
        isPortRoute route = true) ∧
      (listenersOf plan.hostRouterConfig).map (·.bind)
        = ((gatewayListener port :: (browserPorts document.spec).map browserListener).map (·.bind)) ++
          profiles.map fun profile => ⟨IpAddr.localhost, profile.2.proxyPort⟩ := by
  obtain ⟨hroutes, hgateway, port, hlisteners⟩ := derivedHostRouter_ok hconfig
  obtain ⟨profiles, generated, _, _, _, hprofiles, hgenerated, -, -, -, rfl⟩ := generate_ok_iff.mp hplan
  obtain ⟨result, rfl, hshown, hbinds⟩ := generateHostRouterConfig_keepsPorts hrouter
    (fun route hroute => slot_of_mem_gatewayRoutes (by rw [← hgateway]; exact hroute)) hgenerated
  refine ⟨profiles, port, hprofiles, fun route => ?_, ?_⟩
  · rw [hroutes] at hshown
    constructor
    · intro hroute
      have hport := isPortRoute_of_mem_derived hroute
      have hmem : route ∈ result.spec.browserRoutes.filter isPortRoute := by
        rw [hshown]
        exact List.mem_filter.mpr ⟨hroute, hport⟩
      exact ⟨(List.mem_filter.mp hmem).1, hport⟩
    · rintro ⟨hroute, hport⟩
      have hmem : route ∈ (derivedBrowserRoutes document.spec).filter isPortRoute := by
        rw [← hshown]
        exact List.mem_filter.mpr ⟨hroute, hport⟩
      exact (List.mem_filter.mp hmem).1
  · rw [← hlisteners]
    exact hbinds

end Shown

/-! ### Moves of resolved deployments -/

section Moves

variable {host : Host} {bundle : Bundle} {devices : Devices} {plan moved again : Plan} {inst group : String}

/-- Where planning the moved resolved deployment shows the routes of the moved deployment,
the move did not change the derived ones. -/
theorem keepsRoutes_of_sameBrowserRouting (hrouter : bundle.document.spec.hostRouter = none)
    (hoverlays : bundle.document.spec.overlays = []) (hplan : planWithDevices host bundle devices = .ok plan)
    (hgit : InGitWorkspace host bundle.workspaceRoot plan.deployment)
    (hmoved : planWithMembershipAndDevices host bundle inst group devices = .ok moved)
    (hagain : replanMoved host bundle.workspaceRoot plan inst group devices = some again)
    (hsame : SameBrowserRouting moved.hostRouterConfig again.hostRouterConfig) :
    KeepsRoutes host.toPlatform bundle.document inst group := by
  intro haddresses
  obtain ⟨document, groups, hderived, hvalidate, hgenerate⟩ := planWithDevices_ok hoverlays hplan
  obtain ⟨hmembership, hmoved⟩ := planWithMembershipAndDevices_ok_iff.mp hmoved
  obtain ⟨document', groups', hderived', -, hgenerate'⟩ := @planWithDevices_ok host
    (bundle.withDocument (moveInstanceToGroup bundle.document inst group)) _ _ hoverlays hmoved
  obtain ⟨dir, hdir, -, hreplan⟩ := replanMoved_eq hoverlays hderived hvalidate hgenerate hgit hmembership
  rw [hreplan, toOption_eq_some_iff] at hagain
  obtain ⟨groups'', -, hagain⟩ := bind_eq_ok_iff.mp hagain
  obtain ⟨config, hconfig, rfl⟩ := withDerivedHostRouting_derived hrouter haddresses hderived
  obtain ⟨config', hconfig', rfl⟩ := @withDerivedHostRouting_derived host.toPlatform
    (moveInstanceToGroup bundle.document inst group) _ hrouter
    ((hasAddresses_move bundle.document inst group).trans haddresses) hderived'
  -- the moved resolved deployment shows the routes before the move, the moved one those after it
  obtain ⟨profiles, port, hprofiles, hroutes, hlisteners⟩ := plan_shows_derivation hconfig rfl hagain
  obtain ⟨profiles', port', hprofiles', hroutes', hlisteners'⟩ := plan_shows_derivation hconfig' rfl hgenerate'
  obtain rfl : profiles = profiles' := Except.ok.inj (hprofiles.symm.trans hprofiles')
  refine ⟨fun route => ?_, ?_⟩
  · rw [hroutes, hsame.browserRoutes, ← hroutes']
  · rw [hsame.listeners, hlisteners'] at hlisteners
    have hbinds := List.append_cancel_right hlisteners
    simp only [List.map_cons, List.map_map, List.cons.injEq] at hbinds
    refine (List.map_injective_iff.mpr ?_ hbinds.2).symm
    intro a b hab
    exact congrArg Router.SocketAddress.port hab

/-- **A live move re-routes browsers as planning the edited deployment would where the move
keeps the derived routing, and only where it keeps the derived routes.** -/
theorem move_commutes (host : Host) (bundle : Bundle) (devices : Devices) (plan moved : Plan) (inst group : String)
    (hrouter : bundle.document.spec.hostRouter = none) (hoverlays : bundle.document.spec.overlays = [])
    (hplan : planWithDevices host bundle devices = .ok plan)
    (hgit : InGitWorkspace host bundle.workspaceRoot plan.deployment)
    (hmoved : planWithMembershipAndDevices host bundle inst group devices = .ok moved) :
    (KeepsRouting host.toPlatform bundle.document inst group →
      ∃ again, replanMoved host bundle.workspaceRoot plan inst group devices = some again ∧
        SameBrowserRouting moved.hostRouterConfig again.hostRouterConfig) ∧
    ((∃ again, replanMoved host bundle.workspaceRoot plan inst group devices = some again ∧
        SameBrowserRouting moved.hostRouterConfig again.hostRouterConfig) →
      KeepsRoutes host.toPlatform bundle.document inst group) := by
  constructor
  · exact replanMoved_of_keepsRouting hrouter hoverlays hplan hgit hmoved
  · rintro ⟨again, hagain, hsame⟩
    exact keepsRoutes_of_sameBrowserRouting hrouter hoverlays hplan hgit hmoved hagain hsame

end Moves

/-- Moved to the group of `front`, which wins the port of both, `back` should be routed to
it. The resolved deployment still routes it to itself. -/
theorem move_not_rerouted :
    ∃ plan moved, shopBundle.document.spec.hostRouter = none ∧ shopBundle.document.spec.overlays = [] ∧
      planWithDevices shopHost shopBundle ∅ = .ok plan ∧
      InGitWorkspace shopHost shopBundle.workspaceRoot plan.deployment ∧
      planWithMembershipAndDevices shopHost shopBundle "back" "one" ∅ = .ok moved ∧
      ¬∃ again, replanMoved shopHost shopBundle.workspaceRoot plan "back" "one" ∅ = some again ∧
        SameBrowserRouting moved.hostRouterConfig again.hostRouterConfig := by
  have hrun : (planWithDevices shopHost shopBundle ∅).toOption.map (fun plan => (plan.deployment,
      (replanMoved shopHost shopBundle.workspaceRoot plan "back" "one" ∅).map fun again =>
        (browserRoutesOf again.hostRouterConfig).contains ⟨.explicitHeader "back", "browser-3000", "back"⟩)) = some ("shop", some true) := by
    decide +kernel
  have hmovedRun : (planWithMembershipAndDevices shopHost shopBundle "back" "one" ∅).toOption.map (fun moved =>
      (browserRoutesOf moved.hostRouterConfig).contains ⟨.explicitHeader "back", "browser-3000", "back"⟩) = some false := by
    decide +kernel
  obtain ⟨plan, hplan, hvalues⟩ := exists_ok_of_toOption hrun
  obtain ⟨moved, hmoved, hmovedRoutes⟩ := exists_ok_of_toOption hmovedRun
  obtain ⟨hname, hagain⟩ := Prod.mk.inj hvalues
  refine ⟨plan, moved, rfl, rfl, hplan, by rw [hname]; exact shop_inGitWorkspace, hmoved, ?_⟩
  rintro ⟨again, hreplan, hsame⟩
  rw [hreplan, Option.map_some, Option.some.injEq, List.contains_iff_mem, hsame.browserRoutes,
    ← List.contains_iff_mem, hmovedRoutes] at hagain
  cases hagain

/-- Moved to a group without members, `front` keeps its route; it is listed after `back`. -/
theorem move_commutes_empty_group :
    ∃ plan moved, planWithDevices shopHost shopBundle ∅ = .ok plan ∧
      planWithMembershipAndDevices shopHost shopBundle "front" "two" ∅ = .ok moved ∧
      ∃ again, replanMoved shopHost shopBundle.workspaceRoot plan "front" "two" ∅ = some again ∧
        SameBrowserRouting moved.hostRouterConfig again.hostRouterConfig := by
  have hrun : (planWithDevices shopHost shopBundle ∅).toOption.map (·.deployment) = some "shop" := by decide +kernel
  have hmovedRun : (planWithMembershipAndDevices shopHost shopBundle "front" "two" ∅).toOption.map (·.deployment)
      = some "shop" := by decide +kernel
  have hbefore : derivedBrowserRoutes (published shopHost.toPlatform shopBundle.document).spec
      = [⟨.explicitHeader "front", "browser-3000", "front"⟩, ⟨.explicitHeader "back", "browser-3000", "back"⟩] := by
    decide +kernel
  have hafter : derivedBrowserRoutes
      (published shopHost.toPlatform (moveInstanceToGroup shopBundle.document "front" "two")).spec
      = [⟨.explicitHeader "back", "browser-3000", "back"⟩, ⟨.explicitHeader "front", "browser-3000", "front"⟩] := by
    decide +kernel
  obtain ⟨plan, hplan, hname⟩ := exists_ok_of_toOption hrun
  obtain ⟨moved, hmoved, -⟩ := exists_ok_of_toOption hmovedRun
  refine ⟨plan, moved, hplan, hmoved, (move_commutes shopHost shopBundle ∅ plan moved "front" "two" rfl rfl hplan
    (by rw [hname]; exact shop_inGitWorkspace) hmoved).1 fun _ => ⟨by decide +kernel, fun identity => ?_, by decide +kernel⟩⟩
  rw [hbefore, hafter]
  by_cases hfront : Router.BrowserIdentity.explicitHeader "front" = identity
  · subst hfront
    decide
  · simp [hfront, List.filter_cons]

end Apmpr.Planner
