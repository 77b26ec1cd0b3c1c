import Apmpr.Planner.Groups
import Apmpr.Planner.Replan

/-!
# Moving a member keeps a partition

`move_instance_to_group` on groups that resolve. The instance is taken out of all groups, out
of the disabled members too, and is put at the end of its new group, under the first name it was
a member by. A member's name ends where its service begins, so that an instance with a slash in
its name is never found in a group, and a new member of that name is a member of another one.

## What is proved

* `move_partition`: the instance is in one group, all others stay where they are, and the groups
  resolve again.
* `move_not_partition`: with a slash in its name they may not.
-/

namespace Apmpr.Planner

/-! ### Disabled members -/

theorem validateName_eq_nil_iff {name path : String} : validateName name path = [] ↔ validName name = true := by
  rw [validateName]
  split_ifs with hvalid <;> simp [hvalid]

theorem reportIf_eq_nil_iff {condition : Bool} {d : Diagnostic} : reportIf condition d = [] ↔ condition = false := by
  cases condition <;> simp [reportIf]

/-- Nothing is wrong with disabled members exactly if each is a member, and listed once. -/
theorem disabledErrors_eq_nil_iff {group : String} {valid earlier disabled : List String} :
    disabledErrors group valid earlier disabled = [] ↔
      (∀ inst ∈ disabled, validName inst = true ∧ inst ∈ valid.map memberInstance ∧ inst ∉ earlier) ∧ disabled.Nodup := by
  induction disabled generalizing earlier with
  | nil => simp [disabledErrors]
  | cons inst rest ih =>
    have hcontains : (!(valid.map memberInstance).contains inst) = false ↔ inst ∈ valid.map memberInstance := by
      rw [Bool.not_eq_false', List.contains_iff_mem]
    have hearlier : earlier.contains inst = false ↔ inst ∉ earlier := by
      rw [← List.contains_iff_mem, Bool.not_eq_true]
    rw [disabledErrors]
    rw [List.append_eq_nil_iff, List.append_eq_nil_iff, List.append_eq_nil_iff, ih, validateName_eq_nil_iff,
      reportIf_eq_nil_iff, reportIf_eq_nil_iff, hcontains, hearlier, List.forall_mem_cons, List.nodup_cons]
    constructor
    · rintro ⟨⟨⟨hvalid, hmember⟩, hnew⟩, hrest, hnodup⟩
      refine ⟨⟨⟨hvalid, hmember, hnew⟩, fun other hother => ?_⟩, fun hmem => ?_, hnodup⟩
      · obtain ⟨hvalid', hmember', hnew'⟩ := hrest other hother
        exact ⟨hvalid', hmember', fun hmem => hnew' (List.mem_append_left _ hmem)⟩
      · exact (hrest inst hmem).2.2 (List.mem_append_right _ (List.mem_singleton.mpr rfl))
    · rintro ⟨⟨⟨hvalid, hmember, hnew⟩, hrest⟩, hfresh, hnodup⟩
      refine ⟨⟨⟨hvalid, hmember⟩, hnew⟩, fun other hother => ?_, hnodup⟩
      obtain ⟨hvalid', hmember', hnew'⟩ := hrest other hother
      refine ⟨hvalid', hmember', fun hmem => ?_⟩
      rcases List.mem_append.mp hmem with hmem | hmem
      · exact hnew' hmem
      · rw [← List.mem_singleton.mp hmem] at hfresh
        exact hfresh hother

/-! ### What a move does to a group -/

section Move

variable {document : Document} {inst target : String}

/-- The moved groups. -/
def movedGroup (document : Document) (inst target name : String) (group : ServiceGroup) : ServiceGroup :=
  let group := group.without inst
  if name = target then { group with instances := group.instances ++ [movedMember document.spec inst] } else group

theorem get?_groups_move (name : String) :
    (moveInstanceToGroup document inst target).spec.groups.get? name =
      (document.spec.groups.get? name).map (movedGroup document inst target name) :=
  SortedMap.get?_mapValues (movedGroup document inst target) document.spec.groups name

theorem disabled_movedGroup (name : String) (group : ServiceGroup) :
    (movedGroup document inst target name group).disabled = group.disabled.filter fun member => member ≠ inst := by
  rw [movedGroup]
  split_ifs <;> rfl

theorem instances_movedGroup (name : String) (group : ServiceGroup) :
    (movedGroup document inst target name group).instances =
      (group.instances.filter fun member => memberInstance member ≠ inst) ++
        if name = target then [movedMember document.spec inst] else [] := by
  rw [movedGroup]
  split_ifs with htarget
  · rfl
  · exact (List.append_nil _).symm

/-- A name without a slash is an instance's, and names no service. -/
theorem providerReference_of_not_mem {name : String} (h : '/' ∉ name.toList) : providerReference name = (name, none) := by
  have hsplit : Text.splitOnce '/' name = none := by
    rw [Text.splitOnce, Option.map_eq_none_iff]
    by_contra hsome
    obtain ⟨⟨before, after⟩, hparts⟩ := Option.ne_none_iff_exists'.mp hsome
    have htext := (Text.splitOnceChars_of_eq_some hparts).2
    rw [htext] at h
    exact h (List.mem_append_right _ List.mem_cons_self)
  rw [providerReference, hsplit]

/-- The instance is put in its group under the name it was a member by, or its own. -/
theorem movedMember_cases (spec : DeploymentSpec) (inst : String) :
    (∃ group ∈ spec.groups.values, movedMember spec inst ∈ group.instances ∧ memberInstance (movedMember spec inst) = inst) ∨
      (∀ group ∈ spec.groups.values, ∀ member ∈ group.instances, memberInstance member ≠ inst) ∧
        movedMember spec inst = inst := by
  rw [movedMember]
  cases hfind : (spec.groups.values.flatMap (·.instances)).find? fun member => memberInstance member = inst with
  | some member =>
    obtain ⟨group, hgroup, hmember⟩ := List.mem_flatMap.mp (List.mem_of_find?_eq_some hfind)
    have hsame := List.find?_some hfind
    exact .inl ⟨group, hgroup, hmember, of_decide_eq_true hsame⟩
  | none =>
    refine .inr ⟨fun group hgroup member hmember heq => ?_, rfl⟩
    exact List.find?_eq_none.mp hfind member (List.mem_flatMap.mpr ⟨group, hgroup, hmember⟩) (decide_eq_true heq)

theorem memberInstance_movedMember (spec : DeploymentSpec) (hslash : '/' ∉ inst.toList) :
    memberInstance (movedMember spec inst) = inst := by
  rcases movedMember_cases spec inst with ⟨_, -, -, hinst⟩ | ⟨-, hname⟩
  · exact hinst
  · rw [hname, memberInstance, providerReference_of_not_mem hslash]

/-- Of what has a key in a list there is a last one. -/
theorem exists_last {α κ : Type} {key : α → κ} {l : List α} {k : κ} (h : ∃ x ∈ l, key x = k) :
    ∃ before a later, l = before ++ a :: later ∧ key a = k ∧ ∀ other ∈ later, key other ≠ k := by
  induction l with
  | nil =>
    obtain ⟨x, hx, -⟩ := h
    cases hx
  | cons head rest ih =>
    by_cases hrest : ∃ x ∈ rest, key x = k
    · obtain ⟨before, a, later, rfl, hkey, hlater⟩ := ih hrest
      exact ⟨head :: before, a, later, rfl, hkey, hlater⟩
    · obtain ⟨x, hx, hkey⟩ := h
      rcases List.mem_cons.mp hx with rfl | hx
      · exact ⟨[], x, rest, rfl, hkey, fun other hother heq => hrest ⟨other, hother, heq⟩⟩
      · exact absurd ⟨x, hx, hkey⟩ hrest

/-- The moved member can be looked up. -/
theorem memberNamed_movedMember {spec : DeploymentSpec} (h : Resolved spec)
    (hinst : ∃ definition ∈ spec.instances, definition.name = inst) (hslash : '/' ∉ inst.toList) :
    ∃ definition, MemberNamed spec (movedMember spec inst) definition := by
  rcases movedMember_cases spec inst with ⟨group, hgroup, hmember, -⟩ | ⟨-, hname⟩
  · obtain ⟨entry, hentry, rfl⟩ := List.mem_map.mp hgroup
    exact (h.groups entry hentry).members _ hmember
  · have hreference := providerReference_of_not_mem hslash
    obtain ⟨before, found, later, hlist, hfoundName, hlater⟩ := exists_last hinst
    have hfound : (instanceMap spec).get? inst = some found :=
      SortedMap.get?_ofList_map_iff.mpr ⟨before, found, later, hlist, fun other hother => hfoundName ▸ hlater other hother,
        hfoundName.symm, rfl⟩
    rw [hname]
    refine ⟨found, ?_, fun _ => ?_, fun _ block _ service hservice => ?_⟩
    · rw [memberInstance, hreference]
      exact hfound
    · rw [hreference]
    · rw [hreference] at hservice
      cases hservice

/-- The members of a moved group that are resolved. -/
theorem resolvedMembers_movedGroup (name : String) (group : ServiceGroup) :
    document.spec.resolvedMembers (movedGroup document inst target name group) =
      ((document.spec.resolvedMembers group).filter fun member => memberInstance member ≠ inst) ++
        if name = target ∧ document.spec.known (movedMember document.spec inst) = true then [movedMember document.spec inst]
        else [] := by
  rw [DeploymentSpec.resolvedMembers, instances_movedGroup, List.filter_append, DeploymentSpec.resolvedMembers,
    List.filter_comm]
  congr 1
  by_cases htarget : name = target
  · by_cases hknown : document.spec.known (movedMember document.spec inst) = true <;> simp [htarget, hknown]
  · simp [htarget]

/-- How often an instance is resolved in a moved group. -/
theorem count_movedGroup (hslash : '/' ∉ inst.toList) (name : String) (group : ServiceGroup) (other : String) :
    ((document.spec.resolvedMembers (movedGroup document inst target name group)).map memberInstance).count other ≤
      if other = inst then if name = target then 1 else 0
      else ((document.spec.resolvedMembers group).map memberInstance).count other := by
  have hmoved := @memberInstance_movedMember inst document.spec hslash
  rw [resolvedMembers_movedGroup, List.map_append, List.count_append]
  by_cases hother : other = inst
  · subst hother
    have hgone : (((document.spec.resolvedMembers group).filter fun member => memberInstance member ≠ other).map
        memberInstance).count other = 0 := by
      rw [List.count_eq_zero, List.mem_map]
      rintro ⟨member, hmember, heq⟩
      simpa [heq] using (List.mem_filter.mp hmember).2
    rw [hgone, if_pos rfl]
    by_cases htarget : name = target
    · simp only [htarget, true_and, if_true]
      split_ifs <;> simp [hmoved]
    · simp [htarget]
  · have hlast : ((if name = target ∧ document.spec.known (movedMember document.spec inst) = true then
        [movedMember document.spec inst] else []).map memberInstance).count other = 0 := by
      split_ifs
      · rw [List.map_singleton, hmoved]
        simp [Ne.symm hother]
      · simp
    rw [hlast, if_neg hother, Nat.add_zero]
    exact (List.filter_sublist.map memberInstance).count_le other

/-- No instance is resolved twice after a move. -/
theorem nodup_move (h : Resolved document.spec) (hslash : '/' ∉ inst.toList) :
    (resolvedInstances document.spec (moveInstanceToGroup document inst target).spec.groups.values).Nodup := by
  have hvalues : (moveInstanceToGroup document inst target).spec.groups.values =
      document.spec.groups.entries.map fun entry => movedGroup document inst target entry.1 entry.2 := by
    simp only [moveInstanceToGroup, Document.withSpec, SortedMap.values, SortedMap.mapValues, List.map_map]
    rfl
  have hcount : ∀ (entries : List (String × ServiceGroup)) (other : String),
      (resolvedInstances document.spec (entries.map fun entry => movedGroup document inst target entry.1 entry.2)).count other ≤
        if other = inst then (entries.map Prod.fst).count target
        else (resolvedInstances document.spec (entries.map Prod.snd)).count other := by
    intro entries other
    induction entries with
    | nil => simp [resolvedInstances]
    | cons entry rest ih =>
      have hentry := @count_movedGroup document inst target hslash entry.1 entry.2 other
      simp only [resolvedInstances, List.map_cons, List.flatMap_cons, List.count_append] at ih ⊢
      by_cases hother : other = inst
      · rw [if_pos hother] at ih hentry ⊢
        rw [List.count_cons]
        by_cases hname : entry.1 = target <;> simp only [hname, if_true, if_false, beq_iff_eq] at hentry ⊢ <;> omega
      · rw [if_neg hother] at ih hentry ⊢
        omega
  rw [hvalues, List.nodup_iff_count_le_one]
  intro other
  refine (hcount _ other).trans ?_
  split_ifs
  · have hkeys : (document.spec.groups.entries.map Prod.fst).Nodup :=
      (List.pairwise_map.mpr document.spec.groups.sorted).imp fun hlt => ne_of_lt hlt
    exact List.nodup_iff_count_le_one.mp hkeys target
  · exact List.nodup_iff_count_le_one.mp h.distinct other

/-- Nothing is wrong with a moved group. -/
theorem groupResolved_move (h : Resolved document.spec) (hinst : ∃ definition ∈ document.spec.instances, definition.name = inst)
    (hslash : '/' ∉ inst.toList) {name : String} {group : ServiceGroup} (hgroup : GroupResolved document.spec name group) :
    GroupResolved document.spec name (movedGroup document inst target name group) where
  named := hgroup.named
  members := by
    intro member hmember
    rw [instances_movedGroup] at hmember
    rcases List.mem_append.mp hmember with hmember | hmember
    · exact hgroup.members member (List.mem_filter.mp hmember).1
    · split_ifs at hmember
      · rw [List.mem_singleton.mp hmember]
        exact memberNamed_movedMember h hinst hslash
      · cases hmember
  disabled := by
    obtain ⟨hmembers, hnodup⟩ := disabledErrors_eq_nil_iff.mp hgroup.disabled
    rw [disabled_movedGroup, resolvedMembers_movedGroup]
    refine disabledErrors_eq_nil_iff.mpr ⟨fun other hother => ?_, hnodup.filter _⟩
    obtain ⟨hother, hne⟩ := List.mem_filter.mp hother
    obtain ⟨hvalid, hmember, hearlier⟩ := hmembers other hother
    obtain ⟨member, hresolved, rfl⟩ := List.mem_map.mp hmember
    exact ⟨hvalid, List.mem_map_of_mem (List.mem_append_left _ (List.mem_filter.mpr ⟨hresolved, hne⟩)), hearlier⟩

/-- A move changes nothing that groups are resolved with. -/
theorem GroupResolved.move {name : String} {group : ServiceGroup} (h : GroupResolved document.spec name group) :
    GroupResolved (moveInstanceToGroup document inst target).spec name group where
  named := h.named
  members member hmember := by
    obtain ⟨definition, hdefinition⟩ := h.members member hmember
    exact ⟨definition, hdefinition.found, hdefinition.external, hdefinition.service⟩
  disabled := h.disabled

/-- **Groups resolve after a move.** -/
theorem resolved_move (h : Resolved document.spec) (hinst : ∃ definition ∈ document.spec.instances, definition.name = inst)
    (hslash : '/' ∉ inst.toList) : Resolved (moveInstanceToGroup document inst target).spec where
  groups := by
    intro entry hentry
    obtain ⟨original, horiginal, rfl⟩ := List.mem_map.mp hentry
    exact (groupResolved_move h hinst hslash (h.groups original horiginal)).move
  distinct := nodup_move h hslash

end Move

/-! ### The partition -/

/-- An instance was moved to a group: it is a member of that group alone, the last one, under a
name it was a member by or its own, and not disabled; the other members stay in their groups,
in their order, disabled or not. -/
structure MovedTo (before after : DeploymentSpec) (inst target : String) : Prop where
  member : ∃ member, memberInstance member = inst ∧
    ((∃ group ∈ before.groups.values, member ∈ group.instances) ∨
      (∀ group ∈ before.groups.values, ∀ other ∈ group.instances, memberInstance other ≠ inst) ∧ member = inst) ∧
    (∃ group, after.groups.get? target = some group ∧ group.instances.getLast? = some member) ∧
    ∀ name group, after.groups.get? name = some group →
      group.instances.filter (fun other => memberInstance other = inst) = if name = target then [member] else []
  enabled : ∀ name group, after.groups.get? name = some group → inst ∉ group.disabled
  others : ∀ name, (after.groups.get? name).map (fun group => group.instances.filter fun other => memberInstance other ≠ inst) =
    (before.groups.get? name).map fun group => group.instances.filter fun other => memberInstance other ≠ inst
  disabled : ∀ name, (after.groups.get? name).map (fun group => group.disabled.filter fun other => other ≠ inst) =
    (before.groups.get? name).map fun group => group.disabled.filter fun other => other ≠ inst

theorem movedTo_move {document : Document} {inst target : String} (hslash : '/' ∉ inst.toList)
    (htarget : document.spec.groups.contains target = true) :
    MovedTo document.spec (moveInstanceToGroup document inst target).spec inst target where
  member := by
    have hmoved := memberInstance_movedMember document.spec hslash
    refine ⟨movedMember document.spec inst, hmoved, ?_, ?_, fun name group hgroup => ?_⟩
    · rcases movedMember_cases document.spec inst with ⟨group, hgroup, hmember, -⟩ | hnone
      · exact .inl ⟨group, hgroup, hmember⟩
      · exact .inr hnone
    · obtain ⟨group, hgroup⟩ := (SortedMap.contains_iff _ _).mp htarget
      refine ⟨movedGroup document inst target target group, ?_, ?_⟩
      · rw [get?_groups_move, hgroup, Option.map_some]
      · rw [instances_movedGroup, if_pos rfl, List.getLast?_append]
        rfl
    · rw [get?_groups_move, Option.map_eq_some_iff] at hgroup
      obtain ⟨original, -, rfl⟩ := hgroup
      rw [instances_movedGroup, List.filter_append, List.filter_filter]
      have hnone : original.instances.filter (fun other =>
          decide (memberInstance other = inst) && decide (memberInstance other ≠ inst)) = [] := by
        rw [List.filter_eq_nil_iff]
        intro other _
        by_cases heq : memberInstance other = inst <;> simp [heq]
      rw [hnone, List.nil_append]
      split_ifs <;> simp [hmoved]
  enabled := by
    intro name group hgroup
    rw [get?_groups_move, Option.map_eq_some_iff] at hgroup
    obtain ⟨original, -, rfl⟩ := hgroup
    rw [disabled_movedGroup, List.mem_filter]
    simp
  others := by
    intro name
    have hmoved := memberInstance_movedMember document.spec hslash
    rw [get?_groups_move, Option.map_map]
    congr 1
    funext group
    rw [Function.comp_apply, instances_movedGroup, List.filter_append, List.filter_filter]
    simp only [Bool.and_self]
    split_ifs <;> simp [hmoved]
  disabled := by
    intro name
    rw [get?_groups_move, Option.map_map]
    congr 1
    funext group
    rw [Function.comp_apply, disabled_movedGroup, List.filter_filter]
    simp only [Bool.and_self]

/-- **A move keeps groups a partition.** Where groups resolve, an instance without a slash in its
name is moved to a group, and the groups resolve again: the active members of each are those
that are declared and not disabled, in their order, and all members are declared whose instance
is external or has a block. -/
theorem move_partition (document : Document) (inst target : String) (hgroups : (resolveGroups document.spec).2 = [])
    (hinst : ∃ definition ∈ document.spec.instances, definition.name = inst) (hslash : '/' ∉ inst.toList)
    (htarget : document.spec.groups.contains target = true) :
    MovedTo document.spec (moveInstanceToGroup document inst target).spec inst target ∧
      (resolveGroups (moveInstanceToGroup document inst target).spec).2 = [] ∧
      ∀ name group, (moveInstanceToGroup document inst target).spec.groups.get? name = some group →
        ∃ declared, (resolveGroups (moveInstanceToGroup document inst target).spec).1.declaredMembers.get? name = some declared ∧
          (resolveGroups (moveInstanceToGroup document inst target).spec).1.members.get? name =
            some (declared.filter fun member => !group.disabled.contains (memberInstance member)) ∧
          declared = group.instances.filter document.spec.known := by
  have hresolved := @resolved_move document inst target (resolveGroups_errors_iff.mp hgroups) hinst hslash
  refine ⟨movedTo_move hslash htarget, resolveGroups_errors_iff.mpr hresolved, fun name group hgroup => ?_⟩
  rw [resolveGroups_of_resolved hresolved]
  refine ⟨(moveInstanceToGroup document inst target).spec.resolvedMembers group, ?_, ?_, rfl⟩
  · dsimp only
    rw [SortedMap.get?_mapValues, hgroup]
    rfl
  · dsimp only
    rw [SortedMap.get?_mapValues, hgroup]
    rfl

/-- The shop as it is written. -/
def writtenShop : Document := shopBundle.document

theorem move_partition_shop : MovedTo writtenShop.spec (moveInstanceToGroup writtenShop "front" "two").spec "front" "two" :=
  (move_partition writtenShop "front" "two" (by decide +kernel) ⟨_, List.mem_cons_self, rfl⟩ (by decide) (by decide)).1

/-- A shop with a server whose name has a slash. -/
def slashShop : Document :=
  writtenShop.withSpec { writtenShop.spec with instances := [webInstance "a/b" none], groups := .ofList [("one", ⟨[], [], none⟩)] }

/-- It is moved as another instance's, and the groups do not resolve. -/
theorem move_not_partition :
    (resolveGroups slashShop.spec).2 = [] ∧ (∃ definition ∈ slashShop.spec.instances, definition.name = "a/b") ∧
      slashShop.spec.groups.contains "one" = true ∧
      (resolveGroups (moveInstanceToGroup slashShop "a/b" "one").spec).2 ≠ [] :=
  ⟨by decide +kernel, ⟨_, List.mem_cons_self, rfl⟩, by decide +kernel, by decide +kernel⟩

end Apmpr.Planner
