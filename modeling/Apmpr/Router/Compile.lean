import Apmpr.Router.Validate

/-!
# Compiling a router configuration

`compile` of the crate `router-core` turns an accepted configuration into route
tables, and `lookup_consumer` and `lookup_browser` read them. The compiler indexes
its maps of groups and providers without a check — in the source a missing key is a
panic, here the result `CompileError.index` — and inserts routes into its tables with
the last writer winning. The tables are association lists, newest entry first. The
checksum of a snapshot is computed by the hash and JSON crates, which are not part of
the repository: it is a parameter `checksum`.

## What is proved

For a valid configuration the compiler never misses an index (`compile_ok`), a
consumer's lookup is its direct route or else its group's choice
(`lookupConsumer_iff`), a browser lookup is the one declared route
(`browserTarget_iff`), every target is a declared provider that speaks the slot's
protocol (`provider_of_lookupConsumer`, `provider_of_lookupBrowser`), and no lookup
sees the order of the configuration's lists (`lookupConsumer_reordered`,
`lookupBrowser_reordered`). `compile_validated` puts these together.
-/

namespace Apmpr.Router

/-! ### Compiled tables -/

/-- A provider selected by a compiled route. -/
structure RouteTarget where
  provider : ComponentId
  endpoint : UpstreamEndpoint
  healthCheck : Option HealthCheck
  receiveIdentityHeader : Bool
  deriving DecidableEq, Repr

/-- The target a provider makes. -/
def RouteTarget.of (p : Provider) : RouteTarget :=
  ⟨p.id, p.endpoint, p.healthCheck, p.receiveIdentityHeader⟩

/-- The identity a compiled browser route is found under. -/
inductive BrowserKey where
  | header (value : BindingId)
  | origin (value : String)
  | proxy (listener : RouteSlotId)
  deriving DecidableEq, Repr

/-- The key of a browser identity. -/
def BrowserIdentity.toKey : BrowserIdentity → BrowserKey
  | .explicitHeader value => .header value
  | .origin value => .origin value
  | .proxyListener listener => .proxy listener

theorem BrowserIdentity.toKey_injective : Function.Injective BrowserIdentity.toKey := by
  intro a b h
  cases a <;> cases b <;> simp_all [BrowserIdentity.toKey]

/-- A compiled snapshot. -/
structure CompiledSnapshot where
  config : RouterConfig
  checksum : String
  /-- Newest first. -/
  consumerRoutes : List ((InstanceId × RouteSlotId) × RouteTarget)
  /-- Newest first. -/
  browserRoutes : List ((RouteSlotId × BrowserKey) × RouteTarget)
  deriving DecidableEq

/-- A snapshot's version. -/
def CompiledSnapshot.version (s : CompiledSnapshot) : U64 := s.config.spec.snapshot.version

/-- `transition`: the policy of a protocol. -/
def CompiledSnapshot.transition (s : CompiledSnapshot) : Protocol → ConnectionTransitionPolicy
  | .http => s.config.spec.snapshot.transitions.http
  | .https => s.config.spec.snapshot.transitions.https
  | .websocket => s.config.spec.snapshot.transitions.websocket
  | .grpc => s.config.spec.snapshot.transitions.grpc
  | .tcp => s.config.spec.snapshot.transitions.tcp

/-- `lookup_consumer`. -/
def CompiledSnapshot.lookupConsumer (s : CompiledSnapshot) (consumer : InstanceId) (slot : RouteSlotId) :
    Option RouteTarget :=
  s.consumerRoutes.lookup (consumer, slot)

/-- What a browser request carries. -/
structure BrowserLookup where
  destination : RouteSlotId
  explicitHeader : Option String
  origin : Option String
  proxyListener : Option RouteSlotId

/-- Why a browser lookup fails. -/
inductive LookupError where
  | missingIdentity
  | unknownIdentity
  | conflictingIdentity
  deriving DecidableEq, Repr

/-- The compiled target of a destination and an identity. -/
def CompiledSnapshot.browserTarget (s : CompiledSnapshot) (destination : RouteSlotId) (key : BrowserKey) :
    Option RouteTarget :=
  s.browserRoutes.lookup (destination, key)

/-- A target, or the error of an identity no route knows. -/
def knownTarget : Option RouteTarget → Except LookupError RouteTarget
  | some target => .ok target
  | none => .error .unknownIdentity

/-- `lookup_browser`: the header, then the origin, then the proxy listener decides; a known
origin may not contradict the header. -/
def CompiledSnapshot.lookupBrowser (s : CompiledSnapshot) (lookup : BrowserLookup) :
    Except LookupError RouteTarget :=
  match lookup.explicitHeader with
  | some header =>
    match s.browserTarget lookup.destination (.header header) with
    | none => .error .unknownIdentity
    | some headerTarget =>
      match lookup.origin.bind fun origin => s.browserTarget lookup.destination (.origin origin) with
      | some originTarget =>
        if headerTarget.provider ≠ originTarget.provider then .error .conflictingIdentity
        else .ok headerTarget
      | none => .ok headerTarget
  | none =>
    match lookup.origin with
    | some origin => knownTarget (s.browserTarget lookup.destination (.origin origin))
    | none =>
      match lookup.proxyListener with
      | some proxy => knownTarget (s.browserTarget lookup.destination (.proxy proxy))
      | none => .error .missingIdentity

/-! ### The compiler -/

/-- How compiling fails: on an invalid configuration, or by indexing a map with a key it
does not have, which is a panic of the source. -/
inductive CompileError where
  | invalid (errors : List ValidationError)
  | index (key : String)
  deriving DecidableEq

/-- Unchecked indexing. -/
def indexed {ν : Type} (m : List (String × ν)) (key : String) : Except CompileError ν :=
  match m.lookup key with
  | some value => .ok value
  | none => .error (.index key)

/-- `target`. -/
def target (providerId : ComponentId) (providers : List (ComponentId × Provider)) :
    Except CompileError RouteTarget :=
  RouteTarget.of <$> indexed providers providerId

/-- The routes one binding inserts: its group's choice for each slot. -/
def bindingRoutes (spec : RouterSpec) (b : Binding) :
    Except CompileError (List ((InstanceId × RouteSlotId) × RouteTarget)) := do
  let group ← indexed spec.groupsById b.group
  group.providers.entries.mapM fun e => do
    let t ← target e.2 spec.providersById
    return ((b.consumer, e.1), t)

/-- The entry one direct route inserts. -/
def directRoute (spec : RouterSpec) (r : Route) :
    Except CompileError ((InstanceId × RouteSlotId) × RouteTarget) := do
  let t ← target r.provider spec.providersById
  return ((r.consumer, r.slot), t)

/-- The entry one browser route inserts. -/
def browserEntry (spec : RouterSpec) (r : BrowserRoute) :
    Except CompileError ((RouteSlotId × BrowserKey) × RouteTarget) := do
  let t ← target r.provider spec.providersById
  return ((r.destination, r.identity.toKey), t)

variable (checksum : RouterConfig → String)

/-- `compile`: the routes of the bound groups, then the direct routes over them, then the
browser routes. -/
def compile (config : RouterConfig) : Except CompileError CompiledSnapshot := do
  match config.validate with
  | .error errors => .error (.invalid errors)
  | .ok () =>
    let bound ← config.spec.bindings.mapM (bindingRoutes config.spec)
    let direct ← config.spec.routes.mapM (directRoute config.spec)
    let browser ← config.spec.browserRoutes.mapM (browserEntry config.spec)
    return ⟨config, checksum config, (bound.flatten ++ direct).reverse, browser.reverse⟩

/-! ### What the tables hold -/

theorem indexed_ok_iff {ν : Type} {m : List (String × ν)} {key : String} {value : ν} :
    indexed m key = .ok value ↔ m.lookup key = some value := by
  unfold indexed
  cases m.lookup key <;> simp

variable {checksum} {config : RouterConfig}

/-- Providers are found under their identifiers, and make the targets. -/
theorem target_ok_iff (hids : (config.spec.providers.map Provider.id).Nodup) {id : ComponentId}
    {t : RouteTarget} :
    target id config.spec.providersById = .ok t ↔ ∃ p ∈ config.spec.providers, p.id = id ∧ t = .of p := by
  rw [target, map_eq_pure_bind, bind_eq_ok_iff]
  constructor
  · rintro ⟨p, hp, ht⟩
    obtain ⟨hmem, hid⟩ := of_lookup_index (indexed_ok_iff.mp hp)
    exact ⟨p, hmem, hid, (Except.ok.inj ht).symm⟩
  · rintro ⟨p, hmem, rfl, rfl⟩
    exact ⟨p, indexed_ok_iff.mpr (lookup_index_of_mem hids hmem), rfl⟩

theorem directRoute_ok_iff (hids : (config.spec.providers.map Provider.id).Nodup) {r : Route}
    {e : (InstanceId × RouteSlotId) × RouteTarget} :
    directRoute config.spec r = .ok e ↔
      ∃ p ∈ config.spec.providers, p.id = r.provider ∧ e = ((r.consumer, r.slot), .of p) := by
  rw [directRoute, bind_eq_ok_iff]
  constructor
  · rintro ⟨t, ht, he⟩
    obtain ⟨p, hmem, hid, rfl⟩ := (target_ok_iff hids).mp ht
    exact ⟨p, hmem, hid, (Except.ok.inj he).symm⟩
  · rintro ⟨p, hmem, hid, rfl⟩
    exact ⟨.of p, (target_ok_iff hids).mpr ⟨p, hmem, hid, rfl⟩, rfl⟩

theorem browserEntry_ok_iff (hids : (config.spec.providers.map Provider.id).Nodup) {r : BrowserRoute}
    {e : (RouteSlotId × BrowserKey) × RouteTarget} :
    browserEntry config.spec r = .ok e ↔
      ∃ p ∈ config.spec.providers, p.id = r.provider ∧ e = ((r.destination, r.identity.toKey), .of p) := by
  rw [browserEntry, bind_eq_ok_iff]
  constructor
  · rintro ⟨t, ht, he⟩
    obtain ⟨p, hmem, hid, rfl⟩ := (target_ok_iff hids).mp ht
    exact ⟨p, hmem, hid, (Except.ok.inj he).symm⟩
  · rintro ⟨p, hmem, hid, rfl⟩
    exact ⟨.of p, (target_ok_iff hids).mpr ⟨p, hmem, hid, rfl⟩, rfl⟩

/-- A binding to a declared group inserts one route for each of the group's slots. -/
theorem mem_bindingRoutes_iff (hvalid : config.Valid) {b : Binding}
    {routes : List ((InstanceId × RouteSlotId) × RouteTarget)} (h : bindingRoutes config.spec b = .ok routes)
    {e : (InstanceId × RouteSlotId) × RouteTarget} :
    e ∈ routes ↔ ∃ g ∈ config.spec.groups, g.id = b.group ∧ ∃ slot id, g.providers.get? slot = some id ∧
      ∃ p ∈ config.spec.providers, p.id = id ∧ e = ((b.consumer, slot), .of p) := by
  rw [bindingRoutes, bind_eq_ok_iff] at h
  obtain ⟨g, hg, h⟩ := h
  obtain ⟨hmem, hid⟩ := of_lookup_index (indexed_ok_iff.mp hg)
  rw [mem_of_mapM_ok h]
  constructor
  · rintro ⟨⟨slot, id⟩, hentry, he⟩
    rw [bind_eq_ok_iff] at he
    obtain ⟨t, ht, he⟩ := he
    obtain ⟨p, hp, hpid, rfl⟩ := (target_ok_iff hvalid.providerIds).mp ht
    exact ⟨g, hmem, hid, slot, id, g.providers.mem_entries_iff.mp hentry, p, hp, hpid, (Except.ok.inj he).symm⟩
  · rintro ⟨g', hmem', hid', slot, id, hget, p, hp, hpid, rfl⟩
    obtain rfl := List.inj_on_of_nodup_map hvalid.groupIds hmem' hmem (hid'.trans hid.symm)
    refine ⟨(slot, id), g'.providers.mem_entries_iff.mpr hget, ?_⟩
    exact bind_eq_ok_iff.mpr ⟨.of p, (target_ok_iff hvalid.providerIds).mpr ⟨p, hp, hpid, rfl⟩, rfl⟩

/-- **No index is missed**: a valid configuration compiles. -/
theorem compile_ok (checksum : RouterConfig → String) (hvalid : config.Valid) : ∃ s, compile checksum config = .ok s := by
  have hrefers : ∀ {slot id}, config.spec.Refers slot id →
      ∃ t, target id config.spec.providersById = .ok t := by
    rintro slot id ⟨-, p, hp, hpid, -⟩
    exact ⟨.of p, (target_ok_iff hvalid.providerIds).mpr ⟨p, hp, hpid, rfl⟩⟩
  obtain ⟨bound, hbound⟩ : ∃ bound, config.spec.bindings.mapM (bindingRoutes config.spec) = .ok bound := by
    refine exists_mapM_ok fun b hb => ?_
    obtain ⟨-, -, g, hg, hid, -⟩ := hvalid.bindings b hb
    obtain ⟨routes, hroutes⟩ := exists_mapM_ok (f := fun e : RouteSlotId × ComponentId => do
        let t ← target e.2 config.spec.providersById
        return ((b.consumer, e.1), t)) (l := g.providers.entries) fun e he => by
      obtain ⟨t, ht⟩ := hrefers ((hvalid.groups g hg).2 e he)
      exact ⟨_, bind_eq_ok_iff.mpr ⟨t, ht, rfl⟩⟩
    refine ⟨routes, bind_eq_ok_iff.mpr ⟨g, indexed_ok_iff.mpr ?_, hroutes⟩⟩
    rw [← hid]
    exact lookup_index_of_mem hvalid.groupIds hg
  obtain ⟨direct, hdirect⟩ : ∃ direct, config.spec.routes.mapM (directRoute config.spec) = .ok direct := by
    refine exists_mapM_ok fun r hr => ?_
    obtain ⟨t, ht⟩ := hrefers (hvalid.routes r hr)
    exact ⟨_, bind_eq_ok_iff.mpr ⟨t, ht, rfl⟩⟩
  obtain ⟨browser, hbrowser⟩ :
      ∃ browser, config.spec.browserRoutes.mapM (browserEntry config.spec) = .ok browser := by
    refine exists_mapM_ok fun r hr => ?_
    obtain ⟨t, ht⟩ := hrefers (hvalid.browserRoutes r hr).1
    exact ⟨_, bind_eq_ok_iff.mpr ⟨t, ht, rfl⟩⟩
  refine ⟨⟨config, checksum config, (bound.flatten ++ direct).reverse, browser.reverse⟩, ?_⟩
  rw [compile, (validate_ok_iff config).mpr hvalid]
  simp only [hbound, hdirect, hbrowser]
  rfl

/-- What a configuration that compiled went through. -/
theorem compile_cases {s : CompiledSnapshot} (h : compile checksum config = .ok s) :
    config.Valid ∧ ∃ bound direct browser,
      config.spec.bindings.mapM (bindingRoutes config.spec) = .ok bound ∧
      config.spec.routes.mapM (directRoute config.spec) = .ok direct ∧
      config.spec.browserRoutes.mapM (browserEntry config.spec) = .ok browser ∧
      s = ⟨config, checksum config, (bound.flatten ++ direct).reverse, browser.reverse⟩ := by
  rw [compile] at h
  cases hv : config.validate with
  | error errors => rw [hv] at h; cases h
  | ok u =>
    rw [hv] at h
    obtain ⟨bound, hbound, h⟩ := bind_eq_ok_iff.mp h
    obtain ⟨direct, hdirect, h⟩ := bind_eq_ok_iff.mp h
    obtain ⟨browser, hbrowser, h⟩ := bind_eq_ok_iff.mp h
    exact ⟨(validate_ok_iff config).mp hv, bound, direct, browser, hbound, hdirect, hbrowser,
      (Except.ok.inj h).symm⟩

/-! ### What a configuration declares -/

/-- The configuration declares a provider that makes the target `t`. -/
def RouterSpec.Provides (spec : RouterSpec) (id : ComponentId) (t : RouteTarget) : Prop :=
  ∃ p ∈ spec.providers, p.id = id ∧ t = .of p

/-- A direct route of the consumer for the slot. -/
def RouterSpec.HasDirect (spec : RouterSpec) (consumer : InstanceId) (slot : RouteSlotId) : Prop :=
  ∃ r ∈ spec.routes, r.consumer = consumer ∧ r.slot = slot

/-- The configuration sends a consumer's slot to a target: by a direct route, or, where
there is none, by the group the consumer is bound to. -/
def RouterSpec.SelectsConsumer (spec : RouterSpec) (consumer : InstanceId) (slot : RouteSlotId)
    (t : RouteTarget) : Prop :=
  (∃ r ∈ spec.routes, r.consumer = consumer ∧ r.slot = slot ∧ spec.Provides r.provider t) ∨
    ¬ spec.HasDirect consumer slot ∧
      ∃ b ∈ spec.bindings, b.consumer = consumer ∧ ∃ g ∈ spec.groups, g.id = b.group ∧
        ∃ id, g.providers.get? slot = some id ∧ spec.Provides id t

/-- The configuration sends a browser identity's destination to a target. -/
def RouterSpec.SelectsBrowser (spec : RouterSpec) (destination : RouteSlotId) (key : BrowserKey)
    (t : RouteTarget) : Prop :=
  ∃ r ∈ spec.browserRoutes, r.destination = destination ∧ r.identity.toKey = key ∧ spec.Provides r.provider t

theorem RouterConfig.Valid.provides_unique (hvalid : config.Valid) {id : ComponentId} {t t' : RouteTarget}
    (h : config.spec.Provides id t) (h' : config.spec.Provides id t') : t = t' := by
  obtain ⟨p, hp, rfl, rfl⟩ := h
  obtain ⟨p', hp', hid, rfl⟩ := h'
  rw [List.inj_on_of_nodup_map hvalid.providerIds hp' hp hid]

theorem mem_direct_iff (hvalid : config.Valid) {direct : List ((InstanceId × RouteSlotId) × RouteTarget)}
    (h : config.spec.routes.mapM (directRoute config.spec) = .ok direct) {consumer : InstanceId}
    {slot : RouteSlotId} {t : RouteTarget} :
    ((consumer, slot), t) ∈ direct ↔
      ∃ r ∈ config.spec.routes, r.consumer = consumer ∧ r.slot = slot ∧ config.spec.Provides r.provider t := by
  rw [mem_of_mapM_ok h]
  simp only [directRoute_ok_iff hvalid.providerIds, Prod.mk.injEq]
  constructor
  · rintro ⟨r, hr, p, hp, hid, ⟨rfl, rfl⟩, rfl⟩
    exact ⟨r, hr, rfl, rfl, p, hp, hid, rfl⟩
  · rintro ⟨r, hr, rfl, rfl, p, hp, hid, rfl⟩
    exact ⟨r, hr, p, hp, hid, ⟨rfl, rfl⟩, rfl⟩

theorem mem_bound_iff (hvalid : config.Valid) {bound : List (List ((InstanceId × RouteSlotId) × RouteTarget))}
    (h : config.spec.bindings.mapM (bindingRoutes config.spec) = .ok bound) {consumer : InstanceId}
    {slot : RouteSlotId} {t : RouteTarget} :
    ((consumer, slot), t) ∈ bound.flatten ↔
      ∃ b ∈ config.spec.bindings, b.consumer = consumer ∧ ∃ g ∈ config.spec.groups, g.id = b.group ∧
        ∃ id, g.providers.get? slot = some id ∧ config.spec.Provides id t := by
  rw [List.mem_flatten]
  constructor
  · rintro ⟨routes, hroutes, he⟩
    obtain ⟨b, hb, hbr⟩ := (mem_of_mapM_ok h).mp hroutes
    obtain ⟨g, hg, hid, slot', id, hget, p, hp, hpid, heq⟩ := (mem_bindingRoutes_iff hvalid hbr).mp he
    simp only [Prod.mk.injEq] at heq
    obtain ⟨⟨rfl, rfl⟩, rfl⟩ := heq
    exact ⟨b, hb, rfl, g, hg, hid, id, hget, p, hp, hpid, rfl⟩
  · rintro ⟨b, hb, rfl, g, hg, hid, id, hget, p, hp, hpid, rfl⟩
    obtain ⟨routes, hbr⟩ := exists_ok_of_mapM_ok h hb
    exact ⟨routes, (mem_of_mapM_ok h).mpr ⟨b, hb, hbr⟩,
      (mem_bindingRoutes_iff hvalid hbr).mpr ⟨g, hg, hid, slot, id, hget, p, hp, hpid, rfl⟩⟩

variable {s : CompiledSnapshot}

/-- **A consumer's lookup is what the configuration declares.** -/
theorem lookupConsumer_iff (h : compile checksum config = .ok s) {consumer : InstanceId} {slot : RouteSlotId}
    {t : RouteTarget} :
    s.lookupConsumer consumer slot = some t ↔ config.spec.SelectsConsumer consumer slot t := by
  obtain ⟨hvalid, bound, direct, browser, hbound, hdirect, -, rfl⟩ := compile_cases h
  have hdirectUnique : ∀ t t', ((consumer, slot), t) ∈ direct.reverse → ((consumer, slot), t') ∈ direct.reverse →
      t = t' := by
    intro t t' ht ht'
    obtain ⟨r, hr, hc, hs, hp⟩ := (mem_direct_iff hvalid hdirect).mp (List.mem_reverse.mp ht)
    obtain ⟨r', hr', hc', hs', hp'⟩ := (mem_direct_iff hvalid hdirect).mp (List.mem_reverse.mp ht')
    obtain rfl : r = r' := List.inj_on_of_nodup_map hvalid.routeKeys hr hr' (by simp [hc, hs, hc', hs'])
    exact hvalid.provides_unique hp hp'
  have hboundUnique : ∀ t t', ((consumer, slot), t) ∈ bound.flatten.reverse →
      ((consumer, slot), t') ∈ bound.flatten.reverse → t = t' := by
    intro t t' ht ht'
    obtain ⟨b, hb, hc, g, hg, hid, id, hget, hp⟩ := (mem_bound_iff hvalid hbound).mp (List.mem_reverse.mp ht)
    obtain ⟨b', hb', hc', g', hg', hid', id', hget', hp'⟩ :=
      (mem_bound_iff hvalid hbound).mp (List.mem_reverse.mp ht')
    obtain rfl : b = b' := List.inj_on_of_nodup_map hvalid.bindingConsumers hb hb' (hc.trans hc'.symm)
    obtain rfl : g = g' := List.inj_on_of_nodup_map hvalid.groupIds hg hg' (hid.trans hid'.symm)
    obtain rfl : id = id' := Option.some.inj (hget.symm.trans hget')
    exact hvalid.provides_unique hp hp'
  have hno : (∀ z, ((consumer, slot), z) ∉ direct.reverse) ↔ ¬ config.spec.HasDirect consumer slot := by
    constructor
    · rintro hno ⟨r, hr, hc, hs⟩
      obtain ⟨-, p, hp, hid, -⟩ := hvalid.routes r hr
      exact hno (.of p) (List.mem_reverse.mpr ((mem_direct_iff hvalid hdirect).mpr ⟨r, hr, hc, hs, p, hp, hid, rfl⟩))
    · intro hno z hz
      obtain ⟨r, hr, hc, hs, -⟩ := (mem_direct_iff hvalid hdirect).mp (List.mem_reverse.mp hz)
      exact hno ⟨r, hr, hc, hs⟩
  simp only [CompiledSnapshot.lookupConsumer, List.reverse_append,
    lookup_append_eq_some_iff hdirectUnique hboundUnique, hno]
  rw [List.mem_reverse, List.mem_reverse, mem_direct_iff hvalid hdirect, mem_bound_iff hvalid hbound]
  rfl

/-- **A browser lookup is what the configuration declares.** -/
theorem browserTarget_iff (h : compile checksum config = .ok s) {destination : RouteSlotId} {key : BrowserKey}
    {t : RouteTarget} :
    s.browserTarget destination key = some t ↔ config.spec.SelectsBrowser destination key t := by
  obtain ⟨hvalid, bound, direct, browser, -, -, hbrowser, rfl⟩ := compile_cases h
  have hmem : ∀ t, ((destination, key), t) ∈ browser.reverse ↔ config.spec.SelectsBrowser destination key t := by
    intro t
    rw [List.mem_reverse, mem_of_mapM_ok hbrowser]
    simp only [browserEntry_ok_iff hvalid.providerIds, Prod.mk.injEq]
    constructor
    · rintro ⟨r, hr, p, hp, hid, ⟨rfl, rfl⟩, rfl⟩
      exact ⟨r, hr, rfl, rfl, p, hp, hid, rfl⟩
    · rintro ⟨r, hr, rfl, rfl, p, hp, hid, rfl⟩
      exact ⟨r, hr, p, hp, hid, ⟨rfl, rfl⟩, rfl⟩
  have hunique : ∀ t t', config.spec.SelectsBrowser destination key t →
      config.spec.SelectsBrowser destination key t' → t = t' := by
    rintro t t' ⟨r, hr, hd, hk, hp⟩ ⟨r', hr', hd', hk', hp'⟩
    obtain rfl : r = r' := List.inj_on_of_nodup_map hvalid.browserRouteKeys hr hr'
      (by simp [hd, hd', BrowserIdentity.toKey_injective (hk.trans hk'.symm)])
    exact hvalid.provides_unique hp hp'
  constructor
  · intro ht
    exact (hmem t).mp (mem_of_lookup ht)
  · intro ht
    exact lookup_of_mem ((hmem t).mpr ht) fun z hz => hunique z t ((hmem z).mp hz) ht

/-! ### What a target is -/

/-- The target is a declared provider, compatible with every listener of the slot. -/
def RouterSpec.Serves (spec : RouterSpec) (slot : RouteSlotId) (t : RouteTarget) : Prop :=
  ∃ p ∈ spec.providers, t = .of p ∧
    ∀ l ∈ spec.listeners, l.Declares slot → protocolsCompatible l.protocol p.endpoint.protocol = true

theorem serves_of_refers (hvalid : config.Valid) {slot : RouteSlotId} {id : ComponentId} {t : RouteTarget}
    (hrefers : config.spec.Refers slot id) (ht : config.spec.Provides id t) : config.spec.Serves slot t := by
  obtain ⟨-, p, hp, rfl, hcompat⟩ := hrefers
  obtain rfl := hvalid.provides_unique ht ⟨p, hp, rfl, rfl⟩
  exact ⟨p, hp, rfl, hcompat⟩

theorem provider_of_lookupConsumer (h : compile checksum config = .ok s) {consumer : InstanceId}
    {slot : RouteSlotId} {t : RouteTarget} (ht : s.lookupConsumer consumer slot = some t) :
    config.spec.Serves slot t := by
  have hvalid := (compile_cases h).1
  rcases (lookupConsumer_iff h).mp ht with ⟨r, hr, -, rfl, hp⟩ | ⟨-, b, -, -, g, hg, -, id, hget, hp⟩
  · exact serves_of_refers hvalid (hvalid.routes r hr) hp
  · exact serves_of_refers hvalid ((hvalid.groups g hg).2 _ (g.providers.mem_entries_iff.mpr hget)) hp

/-- A browser request that is answered is answered by a compiled route of one of the
identities it carries. -/
theorem browserTarget_of_lookupBrowser {lookup : BrowserLookup} {t : RouteTarget}
    (h : s.lookupBrowser lookup = .ok t) : ∃ key, s.browserTarget lookup.destination key = some t := by
  have hknown : ∀ {found : Option RouteTarget}, knownTarget found = .ok t → found = some t := by
    intro found hf
    cases found with
    | none => cases hf
    | some t' => rw [Except.ok.inj hf]
  unfold CompiledSnapshot.lookupBrowser at h
  split at h
  · split at h
    · cases h
    · rename_i header _ headerTarget hheader
      split at h
      · split at h
        · cases h
        · obtain rfl := Except.ok.inj h
          exact ⟨_, hheader⟩
      · obtain rfl := Except.ok.inj h
        exact ⟨_, hheader⟩
  · split at h
    · exact ⟨_, hknown h⟩
    · split at h
      · exact ⟨_, hknown h⟩
      · cases h

theorem provider_of_lookupBrowser (h : compile checksum config = .ok s) {lookup : BrowserLookup}
    {t : RouteTarget} (ht : s.lookupBrowser lookup = .ok t) : config.spec.Serves lookup.destination t := by
  have hvalid := (compile_cases h).1
  obtain ⟨key, hkey⟩ := browserTarget_of_lookupBrowser ht
  obtain ⟨r, hr, hd, -, hp⟩ := (browserTarget_iff h).mp hkey
  rw [← hd]
  exact serves_of_refers hvalid (hvalid.browserRoutes r hr).1 hp

/-! ### The order of the lists -/

section

variable {config' : RouterConfig} {s' : CompiledSnapshot}

theorem RouterConfig.Reordered.provides_iff (h : config.Reordered config') {id : ComponentId}
    {t : RouteTarget} : config'.spec.Provides id t ↔ config.spec.Provides id t := by
  simp only [RouterSpec.Provides, h.providers.mem_iff]

theorem lookupConsumer_reordered (hr : config.Reordered config') (h : compile checksum config = .ok s)
    (h' : compile checksum config' = .ok s') (consumer : InstanceId) (slot : RouteSlotId) :
    s'.lookupConsumer consumer slot = s.lookupConsumer consumer slot := by
  refine Option.ext fun t => ?_
  rw [lookupConsumer_iff h', lookupConsumer_iff h]
  simp only [RouterSpec.SelectsConsumer, RouterSpec.HasDirect, hr.provides_iff, hr.routes.mem_iff,
    hr.bindings.mem_iff, hr.groups.mem_iff]

theorem browserTarget_reordered (hr : config.Reordered config') (h : compile checksum config = .ok s)
    (h' : compile checksum config' = .ok s') (destination : RouteSlotId) (key : BrowserKey) :
    s'.browserTarget destination key = s.browserTarget destination key := by
  refine Option.ext fun t => ?_
  rw [browserTarget_iff h', browserTarget_iff h]
  simp only [RouterSpec.SelectsBrowser, hr.provides_iff, hr.browserRoutes.mem_iff]

theorem lookupBrowser_reordered (hr : config.Reordered config') (h : compile checksum config = .ok s)
    (h' : compile checksum config' = .ok s') (lookup : BrowserLookup) :
    s'.lookupBrowser lookup = s.lookupBrowser lookup := by
  simp only [CompiledSnapshot.lookupBrowser, browserTarget_reordered hr h h']

end

/-! ### Validation and compilation agree -/

/-- What the tables compiled from a configuration promise. -/
structure CompiledSnapshot.Implements (s : CompiledSnapshot) (config : RouterConfig) : Prop where
  /-- A direct route decides its consumer's slot. -/
  direct : ∀ r ∈ config.spec.routes,
    ∃ t, s.lookupConsumer r.consumer r.slot = some t ∧ config.spec.Provides r.provider t
  /-- A consumer is bound to one group. -/
  boundOnce : ∀ b ∈ config.spec.bindings, ∀ b' ∈ config.spec.bindings, b.consumer = b'.consumer → b = b'
  /-- Where there is no direct route, the group bound to decides. -/
  bound : ∀ b ∈ config.spec.bindings, ∃ g ∈ config.spec.groups, g.id = b.group ∧
    ∀ slot, ¬ config.spec.HasDirect b.consumer slot →
      match g.providers.get? slot with
      | some id => ∃ t, s.lookupConsumer b.consumer slot = some t ∧ config.spec.Provides id t
      | none => s.lookupConsumer b.consumer slot = none
  /-- A consumer that is bound to nothing has its direct routes only. -/
  unbound : ∀ consumer slot, ¬ config.spec.HasDirect consumer slot →
    (∀ b ∈ config.spec.bindings, b.consumer ≠ consumer) → s.lookupConsumer consumer slot = none
  /-- A destination and an identity have one route at most. -/
  browserOnce : ∀ r ∈ config.spec.browserRoutes, ∀ r' ∈ config.spec.browserRoutes,
    r.destination = r'.destination → r.identity = r'.identity → r = r'
  /-- The compiled target is the declared one. -/
  browser : ∀ destination identity t, s.browserTarget destination identity.toKey = some t ↔
    ∃ r ∈ config.spec.browserRoutes, r.destination = destination ∧ r.identity = identity ∧
      config.spec.Provides r.provider t
  consumerServes : ∀ consumer slot t, s.lookupConsumer consumer slot = some t → config.spec.Serves slot t
  browserServes : ∀ lookup t, s.lookupBrowser lookup = .ok t → config.spec.Serves lookup.destination t

theorem compile_implements (h : compile checksum config = .ok s) : s.Implements config := by
  have hvalid := (compile_cases h).1
  refine {
    direct := ?_
    boundOnce := fun b hb b' hb' => List.inj_on_of_nodup_map hvalid.bindingConsumers hb hb'
    bound := ?_
    unbound := ?_
    browserOnce := ?_
    browser := ?_
    consumerServes := fun _ _ _ => provider_of_lookupConsumer h
    browserServes := fun _ _ => provider_of_lookupBrowser h }
  · intro r hr
    obtain ⟨-, p, hp, hid, -⟩ := hvalid.routes r hr
    have hprovides : config.spec.Provides r.provider (.of p) := ⟨p, hp, hid, rfl⟩
    exact ⟨.of p, (lookupConsumer_iff h).mpr (Or.inl ⟨r, hr, rfl, rfl, hprovides⟩), hprovides⟩
  · intro b hb
    obtain ⟨-, -, g, hg, hid, -⟩ := hvalid.bindings b hb
    refine ⟨g, hg, hid, fun slot hdirect => ?_⟩
    cases hget : g.providers.get? slot with
    | some id =>
      obtain ⟨-, p, hp, hpid, -⟩ := (hvalid.groups g hg).2 _ (g.providers.mem_entries_iff.mpr hget)
      have hprovides : config.spec.Provides id (.of p) := ⟨p, hp, hpid, rfl⟩
      refine ⟨.of p, (lookupConsumer_iff h).mpr (Or.inr ⟨hdirect, ?_⟩), hprovides⟩
      exact ⟨b, hb, rfl, g, hg, hid, id, hget, hprovides⟩
    | none =>
      refine Option.eq_none_iff_forall_ne_some.mpr fun t ht => ?_
      rcases (lookupConsumer_iff h).mp ht with ⟨r, hr, hc, hs, -⟩ | ⟨-, b', hb', hc, g', hg', hid', id, hget', -⟩
      · exact hdirect ⟨r, hr, hc, hs⟩
      · obtain rfl := List.inj_on_of_nodup_map hvalid.bindingConsumers hb' hb hc
        obtain rfl := List.inj_on_of_nodup_map hvalid.groupIds hg' hg (hid'.trans hid.symm)
        rw [hget] at hget'
        cases hget'
  · intro consumer slot hdirect hunbound
    refine Option.eq_none_iff_forall_ne_some.mpr fun t ht => ?_
    rcases (lookupConsumer_iff h).mp ht with ⟨r, hr, hc, hs, -⟩ | ⟨-, b, hb, hc, -⟩
    · exact hdirect ⟨r, hr, hc, hs⟩
    · exact hunbound b hb hc
  · intro r hr r' hr' hd hi
    exact List.inj_on_of_nodup_map hvalid.browserRouteKeys hr hr' (by simp [hd, hi])
  · intro destination identity t
    rw [browserTarget_iff h]
    simp only [RouterSpec.SelectsBrowser, BrowserIdentity.toKey_injective.eq_iff]

/-- **Validation refines compilation**: an accepted configuration compiles, the tables are
what it declares, and reordering its lists changes no lookup. -/
theorem compile_validated (checksum : RouterConfig → String) (config : RouterConfig)
    (h : config.validate = .ok ()) :
    ∃ s, compile checksum config = .ok s ∧ s.Implements config ∧
      ∀ config', config.Reordered config' → ∃ s', compile checksum config' = .ok s' ∧
        (∀ consumer slot, s'.lookupConsumer consumer slot = s.lookupConsumer consumer slot) ∧
        ∀ lookup, s'.lookupBrowser lookup = s.lookupBrowser lookup := by
  have hvalid := (validate_ok_iff config).mp h
  obtain ⟨s, hs⟩ := compile_ok checksum hvalid
  refine ⟨s, hs, compile_implements hs, fun config' hr => ?_⟩
  obtain ⟨s', hs'⟩ := compile_ok checksum (hr.valid hvalid)
  exact ⟨s', hs', lookupConsumer_reordered hr hs hs', lookupBrowser_reordered hr hs hs'⟩

/-- A comparison deployment: one consumer bound to a group with two slots, one of them routed
directly, and a browser identity. -/
def comparisonConfig (version : U64) : RouterConfig where
  apiVersion := API_VERSION
  kind := KIND
  metadata := ⟨"comparison"⟩
  spec := {
    snapshot := ⟨"comparison-snapshot", version, ⟨.close, .close, .close, .close, .pin⟩⟩
    exposure := none
    listeners := [
      ⟨some "backend-1", ⟨.localhost, 9001⟩, .http, none, [.loopback "catalog", .loopback "search"], none, none⟩,
      ⟨none, ⟨.localhost, 8080⟩, .http, none, [.legacyLocalhost "browser-backend" "localhost"], none, none⟩]
    providers := [
      ⟨"services-main/catalog", ⟨.http, "127.0.0.1", 7001⟩, none, false⟩,
      ⟨"services-main/search", ⟨.http, "127.0.0.1", 7002⟩, none, false⟩,
      ⟨"backend-1", ⟨.http, "127.0.0.1", 7003⟩, none, true⟩]
    groups := [⟨"main", .ofList [("catalog", "services-main/search"), ("search", "services-main/search")]⟩]
    bindings := [⟨"backend-1-main", "backend-1", "main", ["search"]⟩]
    routes := [⟨"backend-1", "catalog", "services-main/catalog"⟩]
    browserRoutes := [⟨.explicitHeader "ui-1", "browser-backend", "backend-1"⟩]
    transparentProxy := none
    identity := .default }

theorem compile_validated_comparison :
    (comparisonConfig 1).validate = .ok () ∧
      ∃ s, compile (fun _ => "") (comparisonConfig 1) = .ok s ∧ s.Implements (comparisonConfig 1) ∧
        ∀ config', (comparisonConfig 1).Reordered config' → ∃ s', compile (fun _ => "") config' = .ok s' ∧
          (∀ consumer slot, s'.lookupConsumer consumer slot = s.lookupConsumer consumer slot) ∧
          ∀ lookup, s'.lookupBrowser lookup = s.lookupBrowser lookup :=
  ⟨by decide, compile_validated (fun _ => "") (comparisonConfig 1) (by decide)⟩

end Apmpr.Router
