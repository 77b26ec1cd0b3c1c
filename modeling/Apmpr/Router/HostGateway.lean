import Apmpr.Lib.SortedMap
import Apmpr.Router.Validate

/-!
# The host gateway's preflight

`preflight` of the crate `apmpr-router`'s `host_gateway.rs`: what is checked of a host
router's configuration before its listeners are started. The configuration must be valid,
every listener must be on the loopback interface unless the exposure is acknowledged, no
host may stand for two slots, every provider must be on the loopback interface, and every
listener's address must be free.

## What is proved

* `preflight_safe`: a configuration whose providers are on the loopback interface is never
  refused for one of them.
* `RouterConfig.Valid.mapProviders`: a valid configuration stays valid when its providers are
  moved to addresses of the loopback interface.
-/

namespace Apmpr.Router

/-- `HostGatewayError`, as far as `preflight` gives them. -/
inductive HostGatewayError where
  | invalidConfiguration (message : String)
  | portConflict (address source : String)
  | domainConflict (domain : String)
  | unsafeUpstream (provider host : String)
  deriving DecidableEq

/-- `normalize_domain`. -/
def normalizeDomain (domain : String) : String := Text.toAsciiLowercase (Text.trimEndMatches '.' domain)

/-- The hosts that were declared, with their slots. -/
abbrev HostSlots := SortedMap String RouteSlotId

/-- Whether a host was declared for another slot. -/
def HostSlots.conflicts (hosts : HostSlots) (host : String) (slot : RouteSlotId) : Bool :=
  (hosts.get? host).any fun first => first ≠ slot

/-- The host a destination stands for on its listener. -/
def ListenerDestination.claimedHost : ListenerDestination → Option String
  | .customDomain _ domain => some (normalizeDomain domain)
  | .legacyLocalhost _ host => some (normalizeDomain host)
  | .loopback _ => none
  | .proxyTarget _ host port => some s!"{normalizeDomain host}:{port}"

/-- The hosts of a listener with that of one more destination. -/
def claimHost (listener : Listener) (hosts : HostSlots) (destination : ListenerDestination) :
    Except HostGatewayError HostSlots :=
  let address := s!"{listener.bind.host.display}:{listener.bind.port}"
  match destination.claimedHost with
  | none =>
    if listener.destinations.length ≠ 1 then
      .error (.invalidConfiguration s!"listener {address} must not mix a loopback destination with other slots")
    else .ok hosts
  | some host =>
    if hosts.conflicts host destination.slot then
      .error (.invalidConfiguration s!"listener {address} maps host `{host}` to multiple route slots")
    else .ok (hosts.insert host destination.slot)

/-- The custom domains of all listeners with that of one more destination. -/
def claimDomain (listener : Listener) (domains : HostSlots) (destination : ListenerDestination) :
    Except HostGatewayError HostSlots :=
  match listener.proxyIdentity, destination with
  | none, .customDomain slot domain =>
    let normalized := normalizeDomain domain
    if domains.conflicts normalized slot then .error (.domainConflict normalized)
    else .ok (domains.insert normalized slot)
  | _, _ => .ok domains

/-- The checks of one destination. -/
def preflightDestination (listener : Listener) (seen : HostSlots × HostSlots) (destination : ListenerDestination) :
    Except HostGatewayError (HostSlots × HostSlots) := do
  let hosts ← claimHost listener seen.1 destination
  let domains ← claimDomain listener seen.2 destination
  return (hosts, domains)

/-- The checks of one listener. -/
def preflightListener (spec : RouterSpec) (domains : HostSlots) (listener : Listener) :
    Except HostGatewayError HostSlots :=
  if !listener.bind.host.isLoopback && !spec.lanExposureAcknowledged then
    .error (.invalidConfiguration
      s!"listener {listener.bind.host.display}:{listener.bind.port} is not loopback-bound")
  else do
    let seen ← listener.destinations.foldlM (preflightDestination listener) (∅, domains)
    return seen.2

/-- Reserve the addresses of the listeners one after another, all of them held until the
last; `bind` says what is wrong with one more. -/
def reserveListeners (bind : List SocketAddress → SocketAddress → Option String) (held : List SocketAddress) :
    List Listener → Except HostGatewayError Unit
  | [] => .ok ()
  | listener :: rest =>
    match bind held listener.bind with
    | some source => .error (.portConflict s!"{listener.bind.host.display}:{listener.bind.port}" source)
    | none => reserveListeners bind (held ++ [listener.bind]) rest

/-- `preflight`. -/
def preflight (bind : List SocketAddress → SocketAddress → Option String) (config : RouterConfig) :
    Except HostGatewayError Unit :=
  match config.validate with
  | .error errors => .error (.invalidConfiguration ("; ".intercalate (errors.map ValidationError.display)))
  | .ok () => do
    let _ ← config.spec.listeners.foldlM (preflightListener config.spec) ∅
    match config.spec.providers.find? fun provider => !isLoopbackHost provider.endpoint.host with
    | some provider => .error (.unsafeUpstream provider.id provider.endpoint.host)
    | none => reserveListeners bind [] config.spec.listeners

/-- A check that says nothing about providers. -/
def NotUpstream {α : Type} (r : Except HostGatewayError α) : Prop :=
  ∀ provider host, r ≠ .error (.unsafeUpstream provider host)

theorem NotUpstream.bind {α β : Type} {r : Except HostGatewayError α} {f : α → Except HostGatewayError β}
    (hr : NotUpstream r) (hf : ∀ a, NotUpstream (f a)) : NotUpstream (r >>= f) := by
  cases r with
  | error e => exact fun provider host h => hr provider host (by cases h; rfl)
  | ok a => exact hf a

theorem NotUpstream.foldlM {α β : Type} {f : β → α → Except HostGatewayError β} (hf : ∀ b a, NotUpstream (f b a))
    (l : List α) (b : β) : NotUpstream (l.foldlM f b) := by
  induction l generalizing b with
  | nil => exact fun _ _ h => by cases h
  | cons a l ih =>
    rw [List.foldlM_cons]
    exact (hf b a).bind ih

theorem notUpstream_destination (listener : Listener) (seen : HostSlots × HostSlots) (destination : ListenerDestination) :
    NotUpstream (preflightDestination listener seen destination) := by
  refine NotUpstream.bind ?_ fun hosts => NotUpstream.bind ?_ fun domains _ _ h => by cases h
  · unfold claimHost
    split <;> split_ifs <;> exact fun _ _ h => by cases h
  · unfold claimDomain
    split
    · dsimp only
      split_ifs <;> exact fun _ _ h => by cases h
    · exact fun _ _ h => by cases h

theorem notUpstream_listener (spec : RouterSpec) (domains : HostSlots) (listener : Listener) :
    NotUpstream (preflightListener spec domains listener) := by
  rw [preflightListener]
  split_ifs
  · exact fun _ _ h => by cases h
  · exact (NotUpstream.foldlM (notUpstream_destination listener) _ _).bind fun _ _ _ h => by cases h

theorem notUpstream_reserve (bind : List SocketAddress → SocketAddress → Option String) (held : List SocketAddress)
    (listeners : List Listener) : NotUpstream (reserveListeners bind held listeners) := by
  induction listeners generalizing held with
  | nil => exact fun _ _ h => by cases h
  | cons listener rest ih =>
    rw [reserveListeners]
    split
    · exact fun _ _ h => by cases h
    · exact ih _

/-- Providers on the loopback interface are not refused. -/
theorem preflight_safe (bind : List SocketAddress → SocketAddress → Option String) {config : RouterConfig}
    (h : ∀ p ∈ config.spec.providers, isLoopbackHost p.endpoint.host = true) : NotUpstream (preflight bind config) := by
  rw [preflight]
  split
  · exact fun _ _ h => by cases h
  · refine NotUpstream.bind (NotUpstream.foldlM (notUpstream_listener config.spec) _ _) fun _ => ?_
    have hfind : config.spec.providers.find? (fun provider => !isLoopbackHost provider.endpoint.host) = none :=
      List.find?_eq_none.mpr fun p hp => by simp [h p hp]
    rw [hfind]
    exact notUpstream_reserve bind _ _

/-! ### Providers that are moved -/

/-- The configuration with other providers. -/
def RouterConfig.mapProviders (f : Provider → Provider) (config : RouterConfig) : RouterConfig :=
  { config with spec := { config.spec with providers := config.spec.providers.map f } }

/-- A function that moves providers: it keeps what they are called and what they speak. -/
structure MovesProviders (f : Provider → Provider) : Prop where
  id : ∀ p, (f p).id = p.id
  protocol : ∀ p, (f p).endpoint.protocol = p.endpoint.protocol

theorem RouterSpec.Refers.mapProviders {f : Provider → Provider} (hf : MovesProviders f) {config : RouterConfig}
    {slot : RouteSlotId} {providerId : ComponentId} (h : config.spec.Refers slot providerId) :
    (config.mapProviders f).spec.Refers slot providerId := by
  obtain ⟨hdeclared, p, hp, hid, hcompatible⟩ := h
  refine ⟨hdeclared, f p, List.mem_map_of_mem hp, (hf.id p).trans hid, fun l hl hslot => ?_⟩
  rw [hf.protocol]
  exact hcompatible l hl hslot

/-- A valid configuration stays valid when its providers move to the loopback interface. -/
theorem RouterConfig.Valid.mapProviders {f : Provider → Provider} (hf : MovesProviders f) {config : RouterConfig}
    (h : config.Valid) (hsafe : ∀ p ∈ config.spec.providers, isLoopbackHost (f p).endpoint.host = true) :
    (config.mapProviders f).Valid :=
  { h with
    providerIds := by
      have hids : (config.spec.providers.map f).map Provider.id = config.spec.providers.map Provider.id := by
        rw [List.map_map]
        exact List.map_congr_left fun p _ => hf.id p
      exact hids ▸ h.providerIds
    providers := by
      intro p hp
      obtain ⟨original, horiginal, rfl⟩ := List.mem_map.mp hp
      exact ⟨(hf.id original).symm ▸ (h.providers original horiginal).1, fun _ => hsafe original horiginal⟩
    listeners := fun l hl => { h.listeners l hl with }
    groups := fun g hg => ⟨(h.groups g hg).1, fun e he => ((h.groups g hg).2 e he).mapProviders hf⟩
    routes := fun r hr => (h.routes r hr).mapProviders hf
    browserRoutes := fun r hr => ⟨(h.browserRoutes r hr).1.mapProviders hf, (h.browserRoutes r hr).2⟩ }

end Apmpr.Router
