import Apmpr.Planner.Membership
import Apmpr.Planner.Panics

/-!
# The listeners of the host router

The listeners of a plan's host router are those of the authored router, or the gateway and the
browser ports of a derived one, and the proxies of the managed profiles. They are checked to
differ in their consumer or their address; the gateway binds all of them in one namespace.

## What is proved

* `gatewayPort_ok`, `profilePort_ok`: derived ports are from ranges of their own.
* `listeners_distinct_iff`: when no two listeners of a plan have one address.
-/

namespace Apmpr.Planner

open Router (RouterConfig Listener SocketAddress InstanceId)

/-! ### Keys of listeners -/

/-- The key of a managed profile's proxy. -/
def proxyKey (profile : String × ManagedProfilePlan) : Option InstanceId × SocketAddress :=
  (none, ⟨IpAddr.localhost, profile.2.proxyPort⟩)

/-- A host router has the listeners' keys of another one. -/
def SameKeys (base config : RouterConfig) : Prop :=
  config.spec.listeners.map Listener.key = base.spec.listeners.map Listener.key

theorem SameKeys.addDomain {base : RouterConfig} {pass : Pass} (h : SameKeys base pass.1) (index : ℕ)
    (slot : Router.RouteSlotId) (domain : String) : SameKeys base (pass.addDomain index slot domain).1 := by
  refine Eq.trans ?_ h
  simp only [Pass.addDomain, Pass.withListeners]
  generalize pass.1.spec.listeners = listeners
  induction listeners generalizing index with
  | nil => simp
  | cons listener rest ih =>
    cases index with
    | zero => simp [Listener.key]
    | succ index => simpa using ih index

/-- Applying addresses keeps the keys. -/
theorem SameKeys.applyAddresses (platform : Platform) (spec : DeploymentSpec) (groups : ResolvedGroups)
    (base : RouterConfig) : SameKeys base (Planner.applyAddresses platform spec groups base).1 := by
  have rule : AddressRule platform (SameKeys base) fun _ => True :=
    { slot := fun _ _ => trivial
      domain := fun index slot domain h => h.addDomain index slot domain
      route := fun _ _ _ _ h => h
      origin := fun _ _ _ h => h
      targeted := fun _ _ _ _ h => h }
  exact rule.applyAddresses rfl groups

section Keys

variable {platform : Platform} {bundle : Bundle} {groups : ResolvedGroups} {devices : Devices}

theorem keys_of_addProxyListeners {profiles : List (String × ManagedProfilePlan)} {config result : RouterConfig}
    (h : addProxyListeners platform bundle profiles config = .ok result) :
    result.spec.listeners.map Listener.key = config.spec.listeners.map Listener.key ++ profiles.map proxyKey := by
  induction profiles generalizing config with
  | nil =>
    cases h
    simp
  | cons entry rest ih =>
    obtain ⟨listener, hlistener, h⟩ := bind_eq_ok_iff.mp h
    obtain ⟨destinations, -, hlistener⟩ := bind_eq_ok_iff.mp hlistener
    cases hlistener
    rw [ih h]
    simp [Listener.key, proxyKey]

/-- The keys of a plan's listeners are those of the router and of the proxies, and differ. -/
theorem keys_of_generateHostRouterConfig {profiles : List (String × ManagedProfilePlan)} {router config : RouterConfig}
    (hrouter : bundle.document.spec.hostRouter = some router)
    (h : generateHostRouterConfig platform bundle groups profiles devices = .ok (some config)) :
    config.spec.listeners.map Listener.key = router.spec.listeners.map Listener.key ++ profiles.map proxyKey ∧
      (config.spec.listeners.map Listener.key).Nodup := by
  obtain ⟨result, hresult, -, hproxied, hvalid⟩ := (generateHostRouterConfig_ok_iff hrouter).mp h
  obtain rfl := Option.some.inj hresult
  refine ⟨?_, ((Router.validate_ok_iff config).mp hvalid).listenerKeys⟩
  rw [keys_of_addProxyListeners hproxied, SameKeys.applyAddresses platform bundle.document.spec groups _]
  rfl

end Keys

/-! ### One consumer for each address -/

/-- Listeners with one address have one consumer, and where a proxy is to listen no other
listener has a consumer. -/
structure OneConsumer (listeners : List Listener) (proxyPorts : List U16) : Prop where
  consumers : ∀ a ∈ listeners, ∀ b ∈ listeners, a.bind = b.bind → a.consumer = b.consumer
  proxies : ∀ a ∈ listeners, ∀ port ∈ proxyPorts, a.bind = ⟨IpAddr.localhost, port⟩ → a.consumer = none

/-- Where all keys differ, addresses do if each has one consumer. -/
theorem addresses_nodup_iff {listeners all : List Listener} {profiles : List (String × ManagedProfilePlan)}
    (hkeys : all.map Listener.key = listeners.map Listener.key ++ profiles.map proxyKey)
    (hnodup : (all.map Listener.key).Nodup) :
    (all.map (·.bind)).Nodup ↔ OneConsumer listeners (profiles.map (·.2.proxyPort)) := by
  have hbinds : all.map (·.bind) = (all.map Listener.key).map Prod.snd := by
    rw [List.map_map]
    rfl
  rw [hbinds, List.nodup_map_iff_inj_on hnodup, hkeys]
  constructor
  · intro h
    refine ⟨fun a ha b hb hbind => ?_, fun a ha port hport hbind => ?_⟩
    · have heq := h a.key (List.mem_append_left _ (List.mem_map_of_mem ha)) b.key
        (List.mem_append_left _ (List.mem_map_of_mem hb)) hbind
      exact congrArg Prod.fst heq
    · obtain ⟨profile, hprofile, rfl⟩ := List.mem_map.mp hport
      have heq := h a.key (List.mem_append_left _ (List.mem_map_of_mem ha)) (proxyKey profile)
        (List.mem_append_right _ (List.mem_map_of_mem hprofile)) hbind
      exact congrArg Prod.fst heq
  · intro h x hx y hy hsnd
    refine Prod.ext ?_ hsnd
    rcases List.mem_append.mp hx with hx | hx <;> rcases List.mem_append.mp hy with hy | hy <;>
      obtain ⟨a, ha, rfl⟩ := List.mem_map.mp hx <;> obtain ⟨b, hb, rfl⟩ := List.mem_map.mp hy
    · exact h.consumers a ha b hb hsnd
    · exact h.proxies a ha _ (List.mem_map_of_mem hb) hsnd
    · exact (h.proxies b hb _ (List.mem_map_of_mem ha) hsnd.symm).symm
    · rfl

/-! ### Derived listeners -/

section Derived

variable {platform : Platform}

/-- The gateway's ports, in the order they are searched. -/
def searchedGatewayPorts (offset : ℕ) : List U16 :=
  (List.range 2000).map fun k => Fin.ofNat 65536 (18000 + (offset + k) % 2000)

theorem range_of_mem_searchedGatewayPorts {offset : ℕ} {port : U16} (h : port ∈ searchedGatewayPorts offset) :
    18000 ≤ port.val ∧ port.val < 20000 := by
  rw [searchedGatewayPorts, List.mem_map] at h
  obtain ⟨k, -, rfl⟩ := h
  simp only [Fin.ofNat]
  omega

theorem gatewayPort_eq_find? (name : String) (taken : List U16) :
    gatewayPort platform name taken =
      match (searchedGatewayPorts (digestPrefix (platform.sha256 name) % 2000)).find? fun port => !taken.contains port with
      | some port => .ok port
      | none => .error "all generated host-gateway ports 18000-19999 conflict with browser listener ports" := by
  unfold gatewayPort
  dsimp only
  cases hfound : (searchedGatewayPorts (digestPrefix (platform.sha256 name) % 2000)).find? fun port => !taken.contains port with
  | some port =>
    rw [searchedGatewayPorts] at hfound
    rw [hfound]
  | none =>
    rw [searchedGatewayPorts] at hfound
    rw [hfound]

/-- The gateway's port is from a range of its own, and no browser port. -/
theorem gatewayPort_ok {name : String} {taken : List U16} {port : U16} (h : gatewayPort platform name taken = .ok port) :
    18000 ≤ port.val ∧ port.val < 20000 ∧ port ∉ taken := by
  rw [gatewayPort_eq_find?] at h
  split at h
  · rename_i found hfound
    obtain rfl := Except.ok.inj h
    obtain ⟨hlow, hhigh⟩ := range_of_mem_searchedGatewayPorts (List.mem_of_find?_eq_some hfound)
    have hfree := List.find?_some hfound
    exact ⟨hlow, hhigh, by simpa using hfree⟩
  · cases h

theorem proxyPort_of_assignProfiles {deployment : String} {entries : List (String × ManagedProfile)} {used : List U16}
    {profiles : List (String × ManagedProfilePlan)} (h : assignProfiles platform deployment entries used = .ok profiles) :
    ∀ profile ∈ profiles, profile.2.proxyPort ∈ profilePorts := by
  induction entries generalizing used profiles with
  | nil =>
    cases h
    exact nofun
  | cons entry rest ih =>
    obtain ⟨port, hport, h⟩ := bind_eq_ok_iff.mp h
    obtain ⟨plans, hplans, h⟩ := bind_eq_ok_iff.mp h
    cases h
    exact List.forall_mem_cons.mpr ⟨(profilePort_ok hport).1, ih hplans⟩

/-- The listeners of a derived router have one consumer for each address. -/
theorem oneConsumer_derived {document : Document} {config : RouterConfig} (h : derivedHostRouter platform document = .ok config)
    {proxyPorts : List U16} (hports : ∀ port ∈ proxyPorts, port ∈ profilePorts) :
    OneConsumer config.spec.listeners proxyPorts := by
  obtain ⟨port, hport, h⟩ := bind_eq_ok_iff.mp h
  obtain ⟨hlow, hhigh, hfree⟩ := gatewayPort_ok hport
  cases h
  have hbrowser : ∀ listener ∈ (browserPorts document.spec).map browserListener, listener.consumer = none ∧
      listener.bind ≠ (gatewayListener port).bind := by
    intro listener hlistener
    obtain ⟨other, hother, rfl⟩ := List.mem_map.mp hlistener
    refine ⟨rfl, fun hbind => hfree ?_⟩
    obtain rfl : other = port := congrArg SocketAddress.port hbind
    exact hother
  constructor
  · intro a ha b hb hbind
    rcases List.mem_cons.mp ha with rfl | ha <;> rcases List.mem_cons.mp hb with rfl | hb
    · rfl
    · exact absurd hbind.symm (hbrowser b hb).2
    · exact absurd hbind (hbrowser a ha).2
    · rw [(hbrowser a ha).1, (hbrowser b hb).1]
  · intro a ha proxy hproxy hbind
    rcases List.mem_cons.mp ha with rfl | ha
    · have hmem := hports proxy hproxy
      obtain rfl : port = proxy := congrArg SocketAddress.port hbind
      rw [profilePorts, Finset.mem_Ico, Fin.le_def] at hmem
      have hrange : 24000 ≤ port.val := hmem.1
      omega
    · exact (hbrowser a ha).1

end Derived

/-! ### Plans -/

section Plans

variable {host : Host} {bundle : Bundle} {options : OverlayOptions} {devices : Devices}

/-- The ports of the proxies of a deployment. -/
def proxyPorts (platform : Platform) (document : Document) (options : OverlayOptions) : List U16 :=
  match variationName document.metadata.name options.variation with
  | .error _ => []
  | .ok name =>
    match assignProfiles platform name document.spec.managedProfiles.entries [] with
    | .error _ => []
    | .ok profiles => profiles.map (·.2.proxyPort)

/-- The document host routing is derived for: it has the name, the profiles and the host
router of the authored one. -/
structure Routed (bundle : Bundle) (options : OverlayOptions) (document : Document) : Prop where
  name : variationName bundle.document.metadata.name options.variation = .ok document.metadata.name
  profiles : document.spec.managedProfiles = bundle.document.spec.managedProfiles
  router : document.spec.hostRouter.map (·.spec) = bundle.document.spec.hostRouter.map (·.spec)

theorem exists_routed {e : Effective} (h : effective host bundle options = .ok e) :
    ∃ document, Routed bundle options document ∧ withDerivedHostRouting host.toPlatform document = .ok e.bundle.document := by
  by_cases hplain : isPlain bundle options = true
  · rw [effective, if_pos hplain] at h
    have hvariation : options.variation = none := by
      simp only [isPlain, Bool.and_eq_true, Option.isNone_iff_eq_none] at hplain
      exact hplain.1.2
    refine ⟨bundle.document, ⟨?_, rfl, rfl⟩, (madeEffective_of_plain h).1⟩
    rw [hvariation]
    rfl
  · obtain ⟨resolved, resolution, hoverlaid⟩ := exists_overlaid (by simpa using hplain) h
    refine ⟨resolved, ?_, hoverlaid.derived⟩
    have hresolve := hoverlaid.resolves
    rw [resolve] at hresolve
    dsimp only at hresolve
    cases hname : variationName bundle.document.metadata.name options.variation with
    | error d =>
      rw [hname] at hresolve
      cases hresolve
    | ok name =>
      rw [hname] at hresolve
      dsimp only at hresolve
      split_ifs at hresolve <;> obtain ⟨rfl, -⟩ := Prod.mk.inj (Except.ok.inj hresolve)
      · refine ⟨hname, rfl, ?_⟩
        simp only [foldedDocument, Option.map_map]
        rfl
      · exact ⟨hname, rfl, rfl⟩

/-- **Addresses of listeners.** No two listeners of a plan's host router have the same address
exactly if the router is derived, or the authored one has one consumer for each address. -/
theorem listeners_distinct_iff (host : Host) (bundle : Bundle) (options : OverlayOptions) (devices : Devices)
    (plan : Plan) (hplan : planWithOverlaysAndDevices host bundle options devices = .ok plan) (config : RouterConfig)
    (hconfig : plan.hostRouterConfig = some config) :
    (config.spec.listeners.map (·.bind)).Nodup ↔
      ∀ authored, bundle.document.spec.hostRouter = some authored →
        OneConsumer authored.spec.listeners (proxyPorts host.toPlatform bundle.document options) := by
  obtain ⟨e, groups, he, -, hgenerate⟩ := planWithOverlaysAndDevices_ok hplan
  obtain ⟨profiles, generated, _, _, _, hprofiles, hgenerated, -, -, -, rfl⟩ := generate_ok_iff.mp hgenerate
  obtain rfl : generated = some config := hconfig
  obtain ⟨document, hrouted, hderived⟩ := exists_routed he
  obtain ⟨hostRouter, hostUpstreams, hspec⟩ := spec_of_withDerivedHostRouting hderived
  -- the ports that the profiles were given
  rw [managedProfiles, hspec] at hprofiles
  have hports : proxyPorts host.toPlatform bundle.document options = profiles.map (·.2.proxyPort) := by
    rw [proxyPorts, hrouted.name]
    dsimp only
    rw [← hrouted.profiles]
    dsimp only [Document.withSpec] at hprofiles
    rw [hprofiles]
  cases hrouter : e.bundle.document.spec.hostRouter with
  | none =>
    rw [generateHostRouterConfig, hrouter] at hgenerated
    cases hgenerated
  | some router =>
    obtain ⟨hkeys, hnodup⟩ := keys_of_generateHostRouterConfig hrouter hgenerated
    rw [addresses_nodup_iff hkeys hnodup, hports]
    have hrouter' := hrouted.router
    cases hauthored : bundle.document.spec.hostRouter with
    | some authored =>
      rw [hauthored] at hrouter'
      obtain ⟨kept, hkept, hsame⟩ := Option.map_eq_some_iff.mp hrouter'
      rw [withDerivedHostRouting, hkept, Option.isSome_some, Bool.true_or, if_pos rfl] at hderived
      rw [← Except.ok.inj hderived, hkept] at hrouter
      obtain rfl := Option.some.inj hrouter
      rw [hsame]
      exact ⟨fun h other hother => Option.some.inj hother ▸ h, fun h => h authored rfl⟩
    | none =>
      rw [hauthored, Option.map_none, Option.map_eq_none_iff] at hrouter'
      refine iff_of_true ?_ fun authored h => absurd h (Option.some_ne_none authored).symm
      by_cases haddresses : document.spec.hasAddresses = true
      · obtain ⟨derived, hconfig, heffective⟩ := withDerivedHostRouting_derived hrouter' haddresses hderived
        simp only [heffective, Document.withSpec, Option.some.injEq] at hrouter
        subst hrouter
        exact oneConsumer_derived hconfig fun port hport => by
          obtain ⟨profile, hprofile, rfl⟩ := List.mem_map.mp hport
          exact proxyPort_of_assignProfiles hprofiles profile hprofile
      · rw [withDerivedHostRouting, hrouter', if_pos (by simpa using haddresses)] at hderived
        rw [← Except.ok.inj hderived, hrouter'] at hrouter
        cases hrouter

end Plans

/-- A router with these listeners, and nothing behind them. -/
def bareRouter (listeners : List Listener) : RouterConfig where
  apiVersion := Router.API_VERSION
  kind := Router.KIND
  metadata := ⟨"shop"⟩
  spec := {
    snapshot := ⟨"shop--host", 1, ⟨.drain 5000, .drain 5000, .pin, .drain 5000, .close⟩⟩
    exposure := none
    listeners := listeners
    providers := []
    groups := []
    bindings := []
    routes := []
    browserRoutes := []
    transparentProxy := none
    identity := .default }

/-- A listener at port 8080. -/
def shopListener (consumer : Option InstanceId) (slot : String) : Listener :=
  ⟨consumer, ⟨.localhost, 8080⟩, .http, none, [.customDomain slot s!"{slot}.localhost"], none, none⟩

/-- The shop with an authored router. -/
def routedShop (listeners : List Listener) : Bundle :=
  shopBundle.withDocument (shopBundle.document.withSpec { shopBundle.document.spec with
    instances := [webInstance "front" none, webInstance "back" none]
    hostRouter := some (bareRouter listeners) })

/-- The gateway and a browser listen at one address. -/
theorem listeners_not_distinct :
    ∃ plan config, planWithOverlaysAndDevices shopHost
        (routedShop [shopListener (some "gateway") "front", shopListener none "back"]) OverlayOptions.none ∅ = .ok plan ∧
      plan.hostRouterConfig = some config ∧ ¬(config.spec.listeners.map (·.bind)).Nodup := by
  have hrun : (planWithOverlaysAndDevices shopHost
      (routedShop [shopListener (some "gateway") "front", shopListener none "back"]) OverlayOptions.none ∅).toOption.map
        (fun plan => plan.hostRouterConfig.map fun config => config.spec.listeners.map (·.bind)) =
      some (some [⟨.localhost, 8080⟩, ⟨.localhost, 8080⟩]) := by decide +kernel
  obtain ⟨plan, hplan, hbinds⟩ := exists_ok_of_toOption hrun
  obtain ⟨config, hconfig, hlisteners⟩ := Option.map_eq_some_iff.mp hbinds
  refine ⟨plan, config, hplan, hconfig, ?_⟩
  rw [hlisteners]
  decide

/-- A listener of a consumer at a port. -/
def portListener (consumer : Option InstanceId) (port : U16) (slot : String) : Listener :=
  ⟨consumer, ⟨.localhost, port⟩, .http, none, [.customDomain slot s!"{slot}.localhost"], none, none⟩

/-- A browser and the gateway listen at addresses of their own, and the front has a managed profile. -/
def profiledRouter : RouterConfig :=
  let router := bareRouter [portListener none 8080 "front", portListener (some "gateway") 8081 "back"]
  { router with spec := { router.spec with
    providers := [⟨"web", ⟨.http, "127.0.0.1", 3000⟩, none, false⟩]
    browserRoutes := [⟨.proxyListener "desk", "front", "web"⟩] } }

/-- The shop with this router. -/
def profiledFront : Bundle :=
  shopBundle.withDocument (shopBundle.document.withSpec { shopBundle.document.spec with
    instances := [webInstance "front" none, webInstance "back" none]
    managedProfiles := .ofList [("front", ⟨"desk", "http://front.localhost:8080"⟩)]
    hostRouter := some profiledRouter })

/-- A host on which the start URL of the profile is read. -/
def profiledHost : Host := { shopHost with
  parseUri := fun text => if text = "http://front.localhost:8080" then
    some ⟨some "http", some "front.localhost:8080", "front.localhost", some 8080⟩ else none }

/-- The two listeners and that of the profile have addresses of their own. -/
theorem listeners_distinct_front :
    ∃ plan config, planWithOverlaysAndDevices profiledHost profiledFront OverlayOptions.none ∅ = .ok plan ∧
      plan.hostRouterConfig = some config ∧ config.spec.listeners.length = 3 ∧ (config.spec.listeners.map (·.bind)).Nodup := by
  have hrun : (planWithOverlaysAndDevices profiledHost profiledFront OverlayOptions.none ∅).toOption.map
      (fun plan => plan.hostRouterConfig.map fun config => config.spec.listeners.length) = some (some 3) := by decide +kernel
  obtain ⟨plan, hplan, hlength⟩ := exists_ok_of_toOption hrun
  obtain ⟨config, hconfig, hlength⟩ := Option.map_eq_some_iff.mp hlength
  refine ⟨plan, config, hplan, hconfig, hlength,
    (listeners_distinct_iff profiledHost _ OverlayOptions.none ∅ plan hplan config hconfig).mpr ?_⟩
  intro authored hauthored
  obtain rfl := Option.some.inj hauthored
  have hconsumers : ∀ a ∈ profiledRouter.spec.listeners, ∀ b ∈ profiledRouter.spec.listeners, a.bind = b.bind →
      a.consumer = b.consumer := by decide
  have hports : proxyPorts profiledHost.toPlatform profiledFront.document OverlayOptions.none = [28240] := by
    decide +kernel
  refine ⟨hconsumers, fun a ha port hport => ?_⟩
  rw [hports, List.mem_singleton] at hport
  have hother : ∀ a ∈ profiledRouter.spec.listeners, a.bind = ⟨IpAddr.localhost, 28240⟩ → a.consumer = none := by decide
  exact hport ▸ hother a ha

end Apmpr.Planner
