import Apmpr.Lib.Address
import Apmpr.Planner.Groups
import Apmpr.Planner.HostListeners

/-!
# Derived browser routing

What `derived_host_router` derives of groups that resolve: every active member of a group is
routed, at each port the group serves, to the first of its active members that serves the
port, and there is a listener for each of these ports.

A member whose instance has no block is passed over when groups are resolved, so its instance
may be in two groups, but it is routed; the second of its routes to one port is then left out.

## What is proved

* `browser_routing`: the browser routes and the listeners of a derived router, where the
  instances of members are external or have a block.
* `browser_routing_dropped`: without a block a route may be missing.
-/

namespace Apmpr.Planner

open Router (RouterConfig BrowserRoute Listener)

/-! ### Who serves a port -/

section Serving

variable (upstreams : SortedMap String PublishedUpstream) (port : U16)

/-- An upstream is one of a member at a port; a member that names a service has no other. -/
structure HasUpstream (member provider : String) (upstream : PublishedUpstream) : Prop where
  published : upstreams.get? provider = some upstream
  inst : upstream.inst = memberInstance member
  port : upstream.port = port
  service : namesService member upstream.service = true

/-- A member serves a port. -/
def Serves (member : String) : Prop := ∃ provider upstream, HasUpstream upstreams port member provider upstream

/-- The upstream a member serves a port with: the first by name. -/
structure FirstUpstream (member provider : String) : Prop where
  serves : ∃ upstream, HasUpstream upstreams port member provider upstream
  first : ∀ other upstream, HasUpstream upstreams port member other upstream → provider ≤ other

/-- The first of some members that serves a port serves it with this upstream. -/
def Wins (members : List String) (provider : String) : Prop :=
  ∃ before winner after, members = before ++ winner :: after ∧ (∀ member ∈ before, ¬ Serves upstreams port member) ∧
    FirstUpstream upstreams port winner provider

variable {upstreams port}

/-- What is found in a map has the first key of all that could be. -/
theorem fst_le_of_find? {κ ν : Type} [LinearOrder κ] {m : SortedMap κ ν} {p : κ × ν → Bool} {found e : κ × ν}
    (h : m.entries.find? p = some found) (he : e ∈ m.entries) (hp : p e = true) : found.1 ≤ e.1 := by
  obtain ⟨-, before, after, hentries, hbefore⟩ := List.find?_eq_some_iff_append.mp h
  have hsorted := m.sorted
  rw [hentries] at he hsorted
  rcases List.mem_append.mp he with he | he
  · have hfalse := hbefore e he
    rw [hp] at hfalse
    cases hfalse
  · rcases List.mem_cons.mp he with rfl | he
    · exact le_rfl
    · exact ((List.pairwise_cons.mp (List.pairwise_append.mp hsorted).2.1).1 e he).le

/-- What the search for a member's upstream asks of an entry. -/
def serving (port : U16) (member : String) (entry : String × PublishedUpstream) : Bool :=
  entry.2.inst = memberInstance member && entry.2.port = port && namesService member entry.2.service

theorem hasUpstream_iff {member provider : String} {upstream : PublishedUpstream} :
    HasUpstream upstreams port member provider upstream ↔
      (provider, upstream) ∈ upstreams.entries ∧ serving port member (provider, upstream) = true := by
  rw [SortedMap.mem_entries_iff, serving]
  constructor
  · rintro ⟨hpublished, hinst, hport, hservice⟩
    exact ⟨hpublished, by simp [hinst, hport, hservice]⟩
  · rintro ⟨hpublished, hchecks⟩
    simp only [Bool.and_eq_true, decide_eq_true_eq] at hchecks
    exact ⟨hpublished, hchecks.1.1, hchecks.1.2, hchecks.2⟩

theorem memberUpstream_eq (member : String) :
    memberUpstream upstreams port member = (upstreams.entries.find? (serving port member)).map Prod.fst := rfl

theorem memberUpstream_iff {member provider : String} :
    memberUpstream upstreams port member = some provider ↔ FirstUpstream upstreams port member provider := by
  rw [memberUpstream_eq, Option.map_eq_some_iff]
  constructor
  · rintro ⟨⟨name, upstream⟩, hfind, rfl⟩
    refine ⟨⟨upstream, hasUpstream_iff.2 ⟨List.mem_of_find?_eq_some hfind, List.find?_some hfind⟩⟩,
      fun other upstream' hother => ?_⟩
    obtain ⟨hmem, hserving⟩ := hasUpstream_iff.1 hother
    exact fst_le_of_find? hfind hmem hserving
  · rintro ⟨⟨upstream, hupstream⟩, hfirst⟩
    obtain ⟨hmem, hserving⟩ := hasUpstream_iff.1 hupstream
    obtain ⟨found, hfound⟩ := Option.isSome_iff_exists.mp (List.find?_isSome.mpr ⟨_, hmem, hserving⟩)
    have hother := hasUpstream_iff.2 ⟨List.mem_of_find?_eq_some hfound, List.find?_some hfound⟩
    exact ⟨found, hfound, le_antisymm (fst_le_of_find? hfound hmem hserving) (hfirst found.1 found.2 hother)⟩

theorem memberUpstream_eq_none_iff {member : String} :
    memberUpstream upstreams port member = none ↔ ¬ Serves upstreams port member := by
  rw [memberUpstream_eq, Option.map_eq_none_iff, List.find?_eq_none]
  constructor
  · rintro h ⟨provider, upstream, hserves⟩
    obtain ⟨hmem, hserving⟩ := hasUpstream_iff.1 hserves
    exact h _ hmem hserving
  · exact fun h entry hmem hserving => h ⟨entry.1, entry.2, hasUpstream_iff.2 ⟨hmem, hserving⟩⟩

theorem portWinner_iff {members : List String} {provider : String} :
    portWinner upstreams members port = some provider ↔ Wins upstreams port members provider := by
  rw [portWinner, List.findSome?_eq_some_iff]
  constructor
  · rintro ⟨before, winner, after, rfl, hwinner, hbefore⟩
    exact ⟨before, winner, after, rfl, fun member hmember => memberUpstream_eq_none_iff.1 (hbefore member hmember),
      memberUpstream_iff.1 hwinner⟩
  · rintro ⟨before, winner, after, rfl, hbefore, hwinner⟩
    exact ⟨before, winner, after, rfl, memberUpstream_iff.2 hwinner,
      fun member hmember => memberUpstream_eq_none_iff.2 (hbefore member hmember)⟩

/-- A port has a winner exactly if a member serves it. -/
theorem exists_wins_iff {members : List String} :
    (∃ provider, Wins upstreams port members provider) ↔ ∃ member ∈ members, Serves upstreams port member := by
  constructor
  · rintro ⟨provider, before, winner, after, rfl, -, ⟨upstream, hupstream⟩, -⟩
    exact ⟨winner, by simp, provider, upstream, hupstream⟩
  · rintro ⟨member, hmember, hserves⟩
    cases hwinner : portWinner upstreams members port with
    | some provider => exact ⟨provider, portWinner_iff.1 hwinner⟩
    | none =>
      rw [portWinner, List.findSome?_eq_none_iff] at hwinner
      exact absurd hserves (memberUpstream_eq_none_iff.1 (hwinner member hmember))

end Serving

/-! ### The routes of resolved groups -/

/-- A printed number is one number's. -/
theorem toDigits_injective {m n : ℕ} (h : Nat.toDigits 10 m = Nat.toDigits 10 n) : m = n := by
  have hends : IpAddr.EndsNumber 10 [] := nofun
  have hread : ∀ k, k < m + n + 1 → Nat.toDigits 10 k = Nat.toDigits 10 m →
      IpAddr.readNumber 10 (Nat.toDigits 10 m).length (m + n + 1) true (Nat.toDigits 10 m ++ []) = some (k, []) := by
    intro k hk hdigits
    rw [← hdigits]
    exact IpAddr.readNumber_toDigits (by omega) (by omega) hk le_rfl (.inl rfl) hends
  have hsame := (hread m (by omega) rfl).symm.trans (hread n (by omega) h.symm)
  exact congrArg Prod.fst (Option.some.inj hsame)

theorem browserSlot_injective {p q : U16} (h : browserSlot p = browserSlot q) : p = q := by
  have htext : toString p = toString q := (String.append_right_inj _).mp h
  have hdigits : Nat.toDigits 10 p.val = Nat.toDigits 10 q.val := by
    rw [← Nat.toList_repr, ← Nat.toList_repr]
    exact congrArg String.toList htext
  exact Fin.ext (toDigits_injective hdigits)

/-- What a browser route is found by. -/
def routeKey (route : BrowserRoute) : Router.BrowserIdentity × Router.RouteSlotId := (route.identity, route.destination)

/-- Routes whose keys differ are all added. -/
theorem foldl_addBrowserRoute_of_nodup {routes added : List BrowserRoute} (h : ((routes ++ added).map routeKey).Nodup) :
    added.foldl addBrowserRoute routes = routes ++ added := by
  induction added generalizing routes with
  | nil => exact (List.append_nil routes).symm
  | cons route rest ih =>
    have hfresh : routes.any (fun existing =>
        existing.identity = route.identity && existing.destination = route.destination) = false := by
      rw [List.any_eq_false]
      intro existing hexisting hsame
      simp only [Bool.and_eq_true, decide_eq_true_eq] at hsame
      rw [List.map_append, List.nodup_append] at h
      exact h.2.2 _ (List.mem_map_of_mem hexisting) _ (List.mem_map_of_mem List.mem_cons_self)
        (Prod.ext hsame.1 hsame.2)
    have hadd : addBrowserRoute routes route = routes ++ [route] := by
      rw [addBrowserRoute, hfresh]
      rfl
    rw [List.foldl_cons, hadd, ih (by simpa using h), List.append_assoc, List.singleton_append]

section Routes

variable {spec : DeploymentSpec}

/-- The route of a member at a port. -/
def memberRoute (port : U16) (provider member : String) : BrowserRoute :=
  ⟨.explicitHeader (memberInstance member), browserSlot port, provider⟩

/-- A route is that of an active member of a group to the first of them that serves a port. -/
def BrowserRouted (spec : DeploymentSpec) (route : BrowserRoute) : Prop :=
  ∃ group ∈ spec.groups.values, ∃ port provider, Wins spec.hostUpstreams port group.activeMembers provider ∧
    ∃ member ∈ group.activeMembers, route = memberRoute port provider member

/-- The routes that are derived, before they are added. -/
def candidateRoutes (spec : DeploymentSpec) : List BrowserRoute :=
  spec.groups.values.flatMap fun group => (groupRoutes spec group).flatMap Prod.snd

/-- A port that is served is a published one. -/
theorem mem_candidatePorts_of_serves {port : U16} {member : String} (h : Serves spec.hostUpstreams port member) :
    port ∈ candidatePorts spec := by
  obtain ⟨provider, upstream, hpublished, -, hport, -⟩ := h
  rw [candidatePorts, SortedMap.mem_keys_iff]
  refine ⟨(), (SortedMap.get?_ofList_iff fun _ _ _ _ _ => rfl).mpr (List.mem_map.mpr ⟨upstream, ?_, by rw [hport]⟩)⟩
  exact List.mem_map.mpr ⟨(provider, upstream), (SortedMap.mem_entries_iff _).mpr hpublished, rfl⟩

theorem mem_groupRoutes_iff {group : ServiceGroup} {port : U16} {routes : List BrowserRoute} :
    (port, routes) ∈ groupRoutes spec group ↔ ∃ provider, Wins spec.hostUpstreams port group.activeMembers provider ∧
      routes = (group.activeMembers.filter fun member =>
        spec.instances.any fun inst => inst.name = memberInstance member).map (memberRoute port provider) := by
  rw [groupRoutes, List.mem_filterMap]
  constructor
  · rintro ⟨other, -, h⟩
    obtain ⟨provider, hwinner, heq⟩ := Option.map_eq_some_iff.mp h
    obtain ⟨rfl, rfl⟩ := Prod.mk.inj heq
    exact ⟨provider, portWinner_iff.1 hwinner, rfl⟩
  · rintro ⟨provider, hwins, rfl⟩
    obtain ⟨member, -, hserves⟩ := exists_wins_iff.1 ⟨provider, hwins⟩
    exact ⟨port, mem_candidatePorts_of_serves hserves, Option.map_eq_some_iff.mpr ⟨provider, portWinner_iff.2 hwins, rfl⟩⟩

theorem mem_candidateRoutes_iff
    (hexist : ∀ group ∈ spec.groups.values, ∀ member ∈ group.instances, ∃ inst ∈ spec.instances, inst.name = memberInstance member)
    {route : BrowserRoute} : route ∈ candidateRoutes spec ↔ BrowserRouted spec route := by
  rw [candidateRoutes, List.mem_flatMap]
  constructor
  · rintro ⟨group, hgroup, hroute⟩
    obtain ⟨⟨port, routes⟩, hroutes, hmem⟩ := List.mem_flatMap.mp hroute
    obtain ⟨provider, hwins, rfl⟩ := mem_groupRoutes_iff.1 hroutes
    obtain ⟨member, hmember, rfl⟩ := List.mem_map.mp hmem
    exact ⟨group, hgroup, port, provider, hwins, member, (List.mem_filter.mp hmember).1, rfl⟩
  · rintro ⟨group, hgroup, port, provider, hwins, member, hmember, rfl⟩
    obtain ⟨inst, hinst, hname⟩ := hexist group hgroup member (List.mem_filter.mp hmember).1
    refine ⟨group, hgroup, List.mem_flatMap.mpr ⟨_, mem_groupRoutes_iff.2 ⟨provider, hwins, rfl⟩, ?_⟩⟩
    refine List.mem_map_of_mem (List.mem_filter.mpr ⟨hmember, ?_⟩)
    exact List.any_eq_true.mpr ⟨inst, hinst, decide_eq_true hname⟩

theorem nodup_candidatePorts (spec : DeploymentSpec) : (candidatePorts spec).Nodup := by
  rw [candidatePorts, SortedMap.keys]
  exact (List.pairwise_map.mpr (SortedMap.sorted _)).imp fun hlt => ne_of_lt hlt

/-- A key of a group's routes is that of an active member at a port. -/
theorem of_mem_keys {group : ServiceGroup} {entry : U16 × List BrowserRoute} (h : entry ∈ groupRoutes spec group)
    {key : Router.BrowserIdentity × Router.RouteSlotId} (hkey : key ∈ entry.2.map routeKey) :
    ∃ inst ∈ group.activeMembers.map memberInstance, key = (.explicitHeader inst, browserSlot entry.1) := by
  obtain ⟨provider, -, hroutes⟩ := mem_groupRoutes_iff.1 h
  rw [hroutes] at hkey
  obtain ⟨route, hroute, rfl⟩ := List.mem_map.mp hkey
  obtain ⟨member, hmember, rfl⟩ := List.mem_map.mp hroute
  exact ⟨_, List.mem_map_of_mem (List.mem_filter.mp hmember).1, rfl⟩

theorem nodup_groupRoutes {group : ServiceGroup} (h : (group.activeMembers.map memberInstance).Nodup) :
    (((groupRoutes spec group).flatMap Prod.snd).map routeKey).Nodup := by
  rw [List.map_flatMap, List.nodup_flatMap]
  constructor
  · rintro ⟨port, routes⟩ hentry
    obtain ⟨provider, -, rfl⟩ := mem_groupRoutes_iff.1 hentry
    have hinsts : ((group.activeMembers.filter fun member =>
        spec.instances.any fun inst => inst.name = memberInstance member).map memberInstance).Nodup :=
      (List.filter_sublist.map memberInstance).nodup h
    have hkeys : ∀ members : List String, (members.map (memberRoute port provider)).map routeKey =
        (members.map memberInstance).map fun inst => (.explicitHeader inst, browserSlot port) := by
      intro members
      rw [List.map_map, List.map_map]
      rfl
    rw [hkeys]
    exact hinsts.map fun a b hab => Router.BrowserIdentity.explicitHeader.inj (Prod.mk.inj hab).1
  · -- the entries have different ports
    have hports : (groupRoutes spec group).Pairwise fun a b => a.1 ≠ b.1 := by
      rw [groupRoutes, List.pairwise_filterMap]
      refine (nodup_candidatePorts spec).imp ?_
      intro p q hpq a ha b hb
      obtain ⟨_, -, rfl⟩ := Option.map_eq_some_iff.mp ha
      obtain ⟨_, -, rfl⟩ := Option.map_eq_some_iff.mp hb
      exact hpq
    refine hports.imp_of_mem ?_
    intro a b ha hb hab key hkey hkey'
    obtain ⟨_, -, rfl⟩ := of_mem_keys ha hkey
    obtain ⟨_, -, hsame⟩ := of_mem_keys hb hkey'
    exact hab (browserSlot_injective (Prod.mk.inj hsame).2)

/-- Where no instance is active in two groups, no two routes have the same key. -/
theorem nodup_candidateRoutes
    (h : (spec.groups.values.flatMap fun group => group.activeMembers.map memberInstance).Nodup) :
    ((candidateRoutes spec).map routeKey).Nodup := by
  obtain ⟨hgroup, hgroups⟩ := List.nodup_flatMap.mp h
  rw [candidateRoutes, List.map_flatMap, List.nodup_flatMap]
  refine ⟨fun group hmem => nodup_groupRoutes (hgroup group hmem), hgroups.imp ?_⟩
  intro first second hdisjoint key hkey hkey'
  have hinst : ∀ group : ServiceGroup, key ∈ ((groupRoutes spec group).flatMap Prod.snd).map routeKey →
      ∃ inst ∈ group.activeMembers.map memberInstance, key.1 = .explicitHeader inst := by
    intro group hmem
    rw [List.map_flatMap, List.mem_flatMap] at hmem
    obtain ⟨entry, hentry, hmem⟩ := hmem
    obtain ⟨inst, hinst, rfl⟩ := of_mem_keys hentry hmem
    exact ⟨inst, hinst, rfl⟩
  obtain ⟨inst, hinst₁, hkey₁⟩ := hinst first hkey
  obtain ⟨inst', hinst₂, hkey₂⟩ := hinst second hkey'
  obtain rfl := Router.BrowserIdentity.explicitHeader.inj (hkey₁.symm.trans hkey₂)
  exact hdisjoint hinst₁ hinst₂

/-- The ports of browser listeners are those that are served. -/
theorem mem_browserPorts_iff {port : U16} :
    port ∈ browserPorts spec ↔ ∃ group ∈ spec.groups.values, ∃ member ∈ group.activeMembers,
      Serves spec.hostUpstreams port member := by
  rw [browserPorts, SortedMap.mem_keys_iff]
  have hget : ∀ u : Unit, (SortedMap.ofList (spec.groups.values.flatMap fun group =>
      (groupRoutes spec group).map fun r => (r.1, ()))).get? port = some u ↔
      ∃ group ∈ spec.groups.values, ∃ routes, (port, routes) ∈ groupRoutes spec group := by
    intro u
    rw [SortedMap.get?_ofList_iff fun _ _ _ _ _ => rfl, List.mem_flatMap]
    constructor
    · rintro ⟨group, hgroup, hmem⟩
      obtain ⟨⟨other, routes⟩, hroutes, heq⟩ := List.mem_map.mp hmem
      obtain ⟨rfl, -⟩ := Prod.mk.inj heq
      exact ⟨group, hgroup, routes, hroutes⟩
    · rintro ⟨group, hgroup, routes, hroutes⟩
      exact ⟨group, hgroup, List.mem_map.mpr ⟨_, hroutes, rfl⟩⟩
  constructor
  · rintro ⟨u, hu⟩
    obtain ⟨group, hgroup, routes, hroutes⟩ := (hget u).mp hu
    obtain ⟨provider, hwins, -⟩ := mem_groupRoutes_iff.1 hroutes
    exact ⟨group, hgroup, exists_wins_iff.1 ⟨provider, hwins⟩⟩
  · rintro ⟨group, hgroup, hserves⟩
    obtain ⟨provider, hwins⟩ := exists_wins_iff.2 hserves
    exact ⟨(), (hget ()).mpr ⟨group, hgroup, _, mem_groupRoutes_iff.2 ⟨provider, hwins, rfl⟩⟩⟩

theorem nodup_browserPorts (spec : DeploymentSpec) : (browserPorts spec).Nodup := by
  rw [browserPorts, SortedMap.keys]
  exact (List.pairwise_map.mpr (SortedMap.sorted _)).imp fun hlt => ne_of_lt hlt

/-- The members of resolved groups exist. -/
theorem exists_instance_of_resolved (h : Resolved spec) {group : ServiceGroup} (hgroup : group ∈ spec.groups.values)
    {member : String} (hmember : member ∈ group.instances) : ∃ inst ∈ spec.instances, inst.name = memberInstance member := by
  obtain ⟨entry, hentry, rfl⟩ := List.mem_map.mp hgroup
  obtain ⟨inst, hinst⟩ := (h.groups entry hentry).members member hmember
  obtain ⟨before, found, later, hlist, -, hname, -⟩ := SortedMap.get?_ofList_map_iff.mp hinst.found
  exact ⟨found, by rw [hlist]; simp, hname.symm⟩

/-- Where all members can be resolved, no instance is active twice. -/
theorem nodup_active_of_resolved (h : Resolved spec)
    (hknown : ∀ group ∈ spec.groups.values, ∀ member ∈ group.instances, spec.known member = true) :
    (spec.groups.values.flatMap fun group => group.activeMembers.map memberInstance).Nodup := by
  have hall : spec.groups.values.flatMap (fun group => group.instances.map memberInstance) =
      resolvedInstances spec spec.groups.values := by
    rw [resolvedInstances]
    refine List.flatMap_congr fun group hgroup => ?_
    rw [DeploymentSpec.resolvedMembers, List.filter_eq_self.mpr (hknown group hgroup)]
  have hnodup := h.distinct
  rw [← hall, List.nodup_flatMap] at hnodup
  rw [List.nodup_flatMap]
  have hsub : ∀ group : ServiceGroup, (group.activeMembers.map memberInstance).Sublist (group.instances.map memberInstance) :=
    fun group => List.filter_sublist.map memberInstance
  refine ⟨fun group hgroup => (hsub group).nodup (hnodup.1 group hgroup), hnodup.2.imp ?_⟩
  intro first second hdisjoint inst hinst hinst'
  exact hdisjoint ((hsub first).subset hinst) ((hsub second).subset hinst')

end Routes

/-- **Browser routing.** Where groups resolve, and the instances of their members are external
or have a block, the browser routes of a derived router are exactly those of the active members
of every group to the first of them that serves a port, one for each identity and port; there is
one listener for each port that is served, and one for the gateway, whose port differs. -/
theorem browser_routing (platform : Platform) (document effective : Document)
    (hrouter : document.spec.hostRouter = none) (haddresses : document.spec.hasAddresses = true)
    (hgroups : (resolveGroups document.spec).2 = [])
    (hknown : ∀ group ∈ document.spec.groups.values, ∀ member ∈ group.instances, document.spec.known member = true)
    (h : withDerivedHostRouting platform document = .ok effective) :
    ∃ (config : RouterConfig) (port : U16) (ports : List U16), effective.spec.hostRouter = some config ∧
      (∀ route, route ∈ config.spec.browserRoutes ↔ BrowserRouted effective.spec route) ∧
      (config.spec.browserRoutes.map routeKey).Nodup ∧
      config.spec.listeners = gatewayListener port :: ports.map browserListener ∧ ports.Nodup ∧
      (∀ p, p ∈ ports ↔ ∃ group ∈ effective.spec.groups.values, ∃ member ∈ group.activeMembers,
        Serves effective.spec.hostUpstreams p member) ∧
      18000 ≤ port.val ∧ port.val < 20000 ∧ port ∉ ports := by
  have hresolved := resolveGroups_errors_iff.mp hgroups
  obtain ⟨config, hconfig, rfl⟩ := withDerivedHostRouting_derived hrouter haddresses h
  obtain ⟨port, hport, hconfig⟩ := bind_eq_ok_iff.mp hconfig
  obtain ⟨hlow, hhigh, hfree⟩ := gatewayPort_ok hport
  cases hconfig
  have hexist : ∀ group ∈ document.spec.groups.values, ∀ member ∈ group.instances,
      ∃ inst ∈ document.spec.instances, inst.name = memberInstance member :=
    fun group hgroup member hmember => exists_instance_of_resolved hresolved hgroup hmember
  have hactive := @nodup_active_of_resolved document.spec hresolved hknown
  have hnodup := @nodup_candidateRoutes (published platform document).spec hactive
  have hroutes : derivedBrowserRoutes (published platform document).spec = candidateRoutes (published platform document).spec :=
    @foldl_addBrowserRoute_of_nodup [] _ hnodup
  refine ⟨_, port, browserPorts (published platform document).spec, rfl, fun route => ?_, ?_, rfl,
    nodup_browserPorts _, fun p => mem_browserPorts_iff, hlow, hhigh, hfree⟩
  · dsimp only
    rw [hroutes]
    exact @mem_candidateRoutes_iff (published platform document).spec hexist route
  · dsimp only
    rw [hroutes]
    exact hnodup

/-- A shop with a third server, whose block is missing, in the groups of both others. -/
def blocklessShop : Document :=
  shopBundle.document.withSpec { shopBundle.document.spec with
    instances := [webInstance "front" (some "front.localhost"), webInstance "back" none,
      { webInstance "side" none with block := "gone" }]
    groups := .ofList [("one", ⟨["front", "side"], [], none⟩), ("two", ⟨["back", "side"], [], none⟩)] }

/-- The third server is not routed to the second group. -/
theorem browser_routing_dropped :
    blocklessShop.spec.hostRouter = none ∧ blocklessShop.spec.hasAddresses = true ∧
      (resolveGroups blocklessShop.spec).2 = [] ∧
      ∃ effective config, withDerivedHostRouting shopHost.toPlatform blocklessShop = .ok effective ∧
        effective.spec.hostRouter = some config ∧
        ¬∀ route, route ∈ config.spec.browserRoutes ↔ BrowserRouted effective.spec route := by
  have hrun : (withDerivedHostRouting shopHost.toPlatform blocklessShop).toOption.map (fun effective =>
      (effective.spec.groups.values, portWinner effective.spec.hostUpstreams ["back", "side"] 3000,
        effective.spec.hostRouter.map fun config =>
          config.spec.browserRoutes.contains (memberRoute 3000 "back" "side"))) =
      some ([⟨["front", "side"], [], none⟩, ⟨["back", "side"], [], none⟩], some "back", some false) := by decide +kernel
  obtain ⟨effective, heffective, hvalues⟩ := exists_ok_of_toOption hrun
  obtain ⟨hgroups, hvalues⟩ := Prod.mk.inj hvalues
  obtain ⟨hwinner, hconfig⟩ := Prod.mk.inj hvalues
  obtain ⟨config, hconfig, hmissing⟩ := Option.map_eq_some_iff.mp hconfig
  refine ⟨rfl, by decide +kernel, by decide +kernel, effective, config, heffective, hconfig, fun hroutes => ?_⟩
  have hrouted : BrowserRouted effective.spec (memberRoute 3000 "back" "side") := by
    refine ⟨⟨["back", "side"], [], none⟩, by rw [hgroups]; simp, 3000, "back", portWinner_iff.mp ?_, "side", ?_, rfl⟩
    · exact hwinner
    · decide
  have hcontains := List.contains_iff_mem.mpr ((hroutes _).mpr hrouted)
  rw [hmissing] at hcontains
  cases hcontains

theorem browser_routing_shop :
    ∃ (effective : Document) (config : RouterConfig), withDerivedHostRouting shopHost.toPlatform shopBundle.document = .ok effective ∧
      effective.spec.hostRouter = some config ∧
      ∀ route, route ∈ config.spec.browserRoutes ↔ BrowserRouted effective.spec route := by
  have hrun : (withDerivedHostRouting shopHost.toPlatform shopBundle.document).toOption.map (fun effective =>
      effective.metadata.name) = some "shop" := by decide +kernel
  obtain ⟨effective, heffective, -⟩ := exists_ok_of_toOption hrun
  obtain ⟨config, _, _, hconfig, hroutes, -⟩ := browser_routing shopHost.toPlatform shopBundle.document effective rfl
    (by decide +kernel) (by decide +kernel) (by decide +kernel) heffective
  exact ⟨effective, config, heffective, hconfig, hroutes⟩

end Apmpr.Planner
