import Apmpr.Lib.Keyed
import Apmpr.Planner.Validate

/-!
# Groups that resolve

`resolve_groups` reads the groups in order and their members in order, and reports what is
wrong with them. Here is what it means that nothing is: every member can be looked up, no
instance is in two places, and a group's members are those it lists. A member whose instance
is not external and has no block is passed over.

## What is proved

* `resolveGroups_errors_iff`: nothing is reported exactly if the groups are `Resolved`.
* `resolveGroups_of_resolved`: what they are resolved to.
-/

namespace Apmpr.Planner

/-- A member's instance is external, or has a block. -/
def DeploymentSpec.known (spec : DeploymentSpec) (member : String) : Bool :=
  ((instanceMap spec).get? (memberInstance member)).any fun inst => inst.isExternal || spec.blocks.contains inst.block

/-- A member can be looked up: its instance exists, and has the service that is named. -/
structure MemberNamed (spec : DeploymentSpec) (member : String) (inst : Instance) : Prop where
  found : (instanceMap spec).get? (memberInstance member) = some inst
  external : inst.isExternal = true → (providerReference member).2 = none
  service : inst.isExternal = false → ∀ block, spec.blocks.get? inst.block = some block →
    ∀ service ∈ (providerReference member).2, block.services.contains service = true

/-- The members of a group that are resolved. -/
def DeploymentSpec.resolvedMembers (spec : DeploymentSpec) (group : ServiceGroup) : List String :=
  group.instances.filter spec.known

/-- Nothing is wrong with a group by itself. -/
structure GroupResolved (spec : DeploymentSpec) (name : String) (group : ServiceGroup) : Prop where
  named : validateName name s!"spec.groups.{name}" = []
  members : ∀ member ∈ group.instances, ∃ inst, MemberNamed spec member inst
  disabled : disabledErrors name (spec.resolvedMembers group) [] group.disabled = []

/-- The instances that are resolved in groups. -/
def resolvedInstances (spec : DeploymentSpec) (groups : List ServiceGroup) : List String :=
  groups.flatMap fun group => (spec.resolvedMembers group).map memberInstance

/-- Nothing is wrong with the groups. -/
structure Resolved (spec : DeploymentSpec) : Prop where
  groups : ∀ entry ∈ spec.groups.entries, GroupResolved spec entry.1 entry.2
  distinct : (resolvedInstances spec spec.groups.values).Nodup

section Scan

variable {spec : DeploymentSpec}

/-- The instances that were placed. -/
def GroupScan.placed (scan : GroupScan) : List String := scan.places.map Prod.fst

/-- What was seen was placed. -/
def GroupScan.Sees (scan : GroupScan) : Prop := ∀ member ∈ scan.seen, memberInstance member ∈ scan.placed

theorem find?_places {scan : GroupScan} {inst : String} :
    scan.places.find? (fun place => place.1 = inst) = none ↔ inst ∉ scan.placed := by
  rw [List.find?_eq_none, GroupScan.placed, List.mem_map]
  constructor
  · rintro h ⟨place, hplace, rfl⟩
    exact h place hplace (decide_eq_true rfl)
  · intro h place hplace heq
    exact h ⟨place, hplace, of_decide_eq_true heq⟩

/-- A scan goes on from one to another, past these members. -/
structure GroupScan.Passes (scan after : GroupScan) (members : List String) : Prop where
  valid : after.valid = scan.valid ++ members
  placed : ∀ inst, inst ∈ after.placed ↔ inst ∈ members.map memberInstance ∨ inst ∈ scan.placed

theorem GroupScan.Passes.refl (scan : GroupScan) : scan.Passes scan [] := ⟨(List.append_nil _).symm, by simp⟩

theorem GroupScan.Passes.trans {scan middle after : GroupScan} {first second : List String}
    (h : scan.Passes middle first) (h' : middle.Passes after second) : scan.Passes after (first ++ second) where
  valid := by rw [h'.valid, h.valid, List.append_assoc]
  placed inst := by
    rw [h'.placed, h.placed, List.map_append, List.mem_append]
    tauto

theorem placeMember_spec {scan : GroupScan} (h : scan.Sees) (group path advice member : String) (index : ℕ) :
    (placeMember group path advice scan member index).Sees ∧
      ((placeMember group path advice scan member index).errors = [] ↔
        scan.errors = [] ∧ memberInstance member ∉ scan.placed) ∧
      ((placeMember group path advice scan member index).errors = [] →
        scan.Passes (placeMember group path advice scan member index) [member]) := by
  rw [placeMember]
  dsimp only
  by_cases hseen : scan.seen.contains member = true
  · rw [if_pos hseen]
    have hplaced := h member (by simpa using hseen)
    exact ⟨h, by simp [hplaced], by simp⟩
  · rw [if_neg hseen]
    have hsees : ∀ other ∈ member :: scan.seen,
        memberInstance other ∈ memberInstance member :: scan.places.map Prod.fst := by
      intro other hother
      rcases List.mem_cons.mp hother with rfl | hother
      · exact List.mem_cons_self
      · exact List.mem_cons_of_mem _ (h other hother)
    split
    · rename_i place hfind
      have hplaced : memberInstance member ∈ scan.placed := by
        by_contra hnot
        rw [find?_places.mpr hnot] at hfind
        cases hfind
      exact ⟨hsees, by simp [hplaced], by simp⟩
    · rename_i hfind
      have hplaced := find?_places.mp hfind
      refine ⟨hsees, by simp [hplaced], fun _ => ⟨rfl, fun inst => ?_⟩⟩
      simp [GroupScan.placed]

/-- One member is passed if it can be looked up, and its instance was not placed before. -/
theorem scanMember_spec {scan : GroupScan} (h : scan.Sees) (group : String) (entry : String × ℕ) :
    (scanMember spec group scan entry).Sees ∧
      ((scanMember spec group scan entry).errors = [] ↔ scan.errors = [] ∧ (∃ inst, MemberNamed spec entry.1 inst) ∧
        (spec.known entry.1 = true → memberInstance entry.1 ∉ scan.placed)) ∧
      ((scanMember spec group scan entry).errors = [] →
        scan.Passes (scanMember spec group scan entry) ([entry.1].filter spec.known)) := by
  obtain ⟨member, index⟩ := entry
  rw [scanMember]
  dsimp only
  cases hinst : (instanceMap spec).get? (memberInstance member) with
  | none =>
    have hnone : ¬∃ inst, MemberNamed spec member inst := by
      rintro ⟨inst, hnamed⟩
      rw [hnamed.found] at hinst
      cases hinst
    exact ⟨h, by simp [hnone], by simp⟩
  | some inst =>
    have hsame : ∀ other, MemberNamed spec member other → other = inst :=
      fun other hother => Option.some.inj (hother.found.symm.trans hinst)
    have hknown : spec.known member = (inst.isExternal || spec.blocks.contains inst.block) := by
      rw [DeploymentSpec.known, hinst, Option.any_some]
    dsimp only
    by_cases hexternal : inst.isExternal = true
    · rw [if_pos hexternal]
      have htrue : spec.known member = true := by simp [hknown, hexternal]
      by_cases hservice : (providerReference member).2.isSome = true
      · have hnone : ¬∃ inst, MemberNamed spec member inst := by
          rintro ⟨other, hnamed⟩
          obtain rfl := hsame other hnamed
          rw [hnamed.external hexternal] at hservice
          cases hservice
        rw [if_pos hservice]
        exact ⟨h, by simp [hnone], by simp⟩
      · have hnamed : ∃ inst, MemberNamed spec member inst :=
          ⟨inst, hinst, fun _ => by simpa using hservice, fun hinternal => by simp [hexternal] at hinternal⟩
        rw [if_neg hservice, List.filter_singleton, htrue]
        simpa [hnamed] using placeMember_spec h group _ _ member index
    · rw [if_neg hexternal]
      have hinternal : inst.isExternal = false := by simpa using hexternal
      cases hblock : spec.blocks.get? inst.block with
      | none =>
        have hfalse : spec.known member = false := by simp [hknown, hinternal, SortedMap.contains, hblock]
        have hnamed : ∃ inst, MemberNamed spec member inst :=
          ⟨inst, hinst, fun htrue => absurd htrue hexternal, fun _ block hget => by rw [hblock] at hget; cases hget⟩
        dsimp only
        rw [List.filter_singleton, hfalse]
        exact ⟨h, by simp [hnamed], fun _ => GroupScan.Passes.refl scan⟩
      | some block =>
        have htrue : spec.known member = true := by simp [hknown, SortedMap.contains, hblock]
        dsimp only
        by_cases hmissing : ((providerReference member).2.any fun service => !block.services.contains service) = true
        · have hnone : ¬∃ inst, MemberNamed spec member inst := by
            rintro ⟨other, hnamed⟩
            obtain rfl := hsame other hnamed
            obtain ⟨service, hservice, habsent⟩ := Option.any_eq_true .. |>.mp hmissing
            rw [hnamed.service hinternal block hblock service hservice] at habsent
            cases habsent
          rw [if_pos hmissing]
          exact ⟨h, by simp [hnone], by simp⟩
        · have hnamed : ∃ inst, MemberNamed spec member inst := by
            refine ⟨inst, hinst, fun htrue => absurd htrue hexternal, fun _ other hget service hservice => ?_⟩
            obtain rfl := Option.some.inj (hblock.symm.trans hget)
            by_contra habsent
            exact hmissing (Option.any_eq_true .. |>.mpr ⟨service, hservice, by simpa using habsent⟩)
          rw [if_neg hmissing, List.filter_singleton, htrue]
          simpa [hnamed] using placeMember_spec h group _ _ member index

/-- The members of a group are passed if all of them can be looked up and their instances
differ, from one another and from those that were placed before. -/
theorem foldl_scanMember_spec {scan : GroupScan} (h : scan.Sees) (group : String) (entries : List (String × ℕ)) :
    (entries.foldl (scanMember spec group) scan).Sees ∧
      ((entries.foldl (scanMember spec group) scan).errors = [] ↔
        scan.errors = [] ∧ (∀ entry ∈ entries, ∃ inst, MemberNamed spec entry.1 inst) ∧
          (((entries.map Prod.fst).filter spec.known).map memberInstance).Nodup ∧
          ∀ inst ∈ ((entries.map Prod.fst).filter spec.known).map memberInstance, inst ∉ scan.placed) ∧
      ((entries.foldl (scanMember spec group) scan).errors = [] →
        scan.Passes (entries.foldl (scanMember spec group) scan) ((entries.map Prod.fst).filter spec.known)) := by
  induction entries generalizing scan with
  | nil => exact ⟨h, by simp, fun _ => GroupScan.Passes.refl scan⟩
  | cons entry rest ih =>
    obtain ⟨hsees, hiff, hpasses⟩ := scanMember_spec h group entry
    obtain ⟨hsees', hiff', hpasses'⟩ := ih hsees
    have hcons : (((entry :: rest).map Prod.fst).filter spec.known)
        = [entry.1].filter spec.known ++ (rest.map Prod.fst).filter spec.known := by
      rw [List.map_cons, ← List.singleton_append, List.filter_append]
    rw [List.foldl_cons]
    refine ⟨hsees', ?_, fun herrors => ?_⟩
    · rw [hiff', hcons, List.map_append, List.nodup_append]
      constructor
      · rintro ⟨hstep, hnamed, hnodup, hfresh⟩
        obtain ⟨hscan, hentry, hplace⟩ := hiff.mp hstep
        have hplaced := (hpasses hstep).placed
        refine ⟨hscan, List.forall_mem_cons.mpr ⟨hentry, hnamed⟩, ⟨?_, hnodup, ?_⟩, ?_⟩
        · cases hknown : spec.known entry.1 <;> simp [hknown]
        · intro first hfirst second hsecond heq
          subst heq
          exact hfresh first hsecond ((hplaced first).mpr (.inl hfirst))
        · intro inst hinst
          rcases List.mem_append.mp hinst with hinst | hinst
          · obtain ⟨member, hmember, rfl⟩ := List.mem_map.mp hinst
            obtain ⟨hmem, hknown⟩ := List.mem_filter.mp hmember
            obtain rfl := List.mem_singleton.mp hmem
            exact hplace hknown
          · exact fun hmem => hfresh inst hinst ((hplaced inst).mpr (.inr hmem))
      · rintro ⟨hscan, hnamed, ⟨-, hnodup, hdisjoint⟩, hfresh⟩
        obtain ⟨hentry, hrest⟩ := List.forall_mem_cons.mp hnamed
        have hstep := hiff.mpr ⟨hscan, hentry, fun hknown =>
          hfresh _ (List.mem_append_left _ (by simp [hknown]))⟩
        have hplaced := (hpasses hstep).placed
        refine ⟨hstep, hrest, hnodup, fun inst hinst hmem => ?_⟩
        rcases (hplaced inst).mp hmem with hmem | hmem
        · exact hdisjoint inst hmem inst hinst rfl
        · exact hfresh inst (List.mem_append_right _ hinst) hmem
    · rw [hcons]
      exact (hpasses (hiff'.mp herrors).1).trans (hpasses' herrors)

/-- The instances that were placed in groups. -/
def GroupsScan.placed (state : GroupsScan) : List String := state.places.map Prod.fst

/-- The active ones of the members that are resolved. -/
def DeploymentSpec.activeResolved (spec : DeploymentSpec) (group : ServiceGroup) : List String :=
  (spec.resolvedMembers group).filter fun member => !group.disabled.contains (memberInstance member)

/-- One group is passed if nothing is wrong with it, and its instances were not placed before. -/
theorem scanGroup_spec (state : GroupsScan) (entry : String × ServiceGroup) :
    ((scanGroup spec state entry).errors = [] ↔
      state.errors = [] ∧ GroupResolved spec entry.1 entry.2 ∧
        ((spec.resolvedMembers entry.2).map memberInstance).Nodup ∧
        ∀ inst ∈ (spec.resolvedMembers entry.2).map memberInstance, inst ∉ state.placed) ∧
      ((scanGroup spec state entry).errors = [] →
        (scanGroup spec state entry).groups = ⟨state.groups.members.insert entry.1 (spec.activeResolved entry.2),
          state.groups.declaredMembers.insert entry.1 (spec.resolvedMembers entry.2)⟩ ∧
        ∀ inst, inst ∈ (scanGroup spec state entry).placed ↔
          inst ∈ (spec.resolvedMembers entry.2).map memberInstance ∨ inst ∈ state.placed) := by
  obtain ⟨name, group⟩ := entry
  have hstart : (⟨[], [], state.places, validateName name s!"spec.groups.{name}"⟩ : GroupScan).Sees := nofun
  obtain ⟨-, hiff, hpasses⟩ := @foldl_scanMember_spec spec _ hstart name group.instances.zipIdx
  rw [List.zipIdx_map_fst] at hiff hpasses
  have hmembers : (∀ entry ∈ group.instances.zipIdx, ∃ inst, MemberNamed spec entry.1 inst) ↔
      ∀ member ∈ group.instances, ∃ inst, MemberNamed spec member inst := by
    constructor
    · intro h member hmember
      obtain ⟨index, hindex⟩ := List.getElem?_of_mem hmember
      exact h (member, index) (List.mk_mem_zipIdx_iff_getElem?.mpr hindex)
    · exact fun h entry hentry => h _ (List.fst_mem_of_mem_zipIdx hentry)
  rw [hmembers] at hiff
  rw [scanGroup]
  dsimp only
  constructor
  · rw [List.append_eq_nil_iff, List.append_eq_nil_iff, hiff]
    constructor
    · rintro ⟨⟨hstate, hscan⟩, hdisabled⟩
      rw [(hpasses (hiff.mpr hscan)).valid, List.nil_append] at hdisabled
      exact ⟨hstate, ⟨hscan.1, hscan.2.1, hdisabled⟩, hscan.2.2⟩
    · rintro ⟨hstate, hgroup, hdistinct⟩
      have hscan := hiff.mpr ⟨hgroup.named, hgroup.members, hdistinct⟩
      refine ⟨⟨hstate, hiff.mp hscan⟩, ?_⟩
      rw [(hpasses hscan).valid, List.nil_append]
      exact hgroup.disabled
  · intro herrors
    have hscan := (List.append_eq_nil_iff.mp (List.append_eq_nil_iff.mp herrors).1).2
    obtain ⟨hvalid, hplaced⟩ := hpasses hscan
    rw [List.nil_append] at hvalid
    refine ⟨?_, hplaced⟩
    rw [hvalid]
    rfl

/-- All groups are passed if nothing is wrong with any, and their instances differ. -/
theorem foldl_scanGroup_spec (state : GroupsScan) (entries : List (String × ServiceGroup)) :
    ((entries.foldl (scanGroup spec) state).errors = [] ↔
      state.errors = [] ∧ (∀ entry ∈ entries, GroupResolved spec entry.1 entry.2) ∧
        (resolvedInstances spec (entries.map Prod.snd)).Nodup ∧
        ∀ inst ∈ resolvedInstances spec (entries.map Prod.snd), inst ∉ state.placed) ∧
      ((entries.foldl (scanGroup spec) state).errors = [] →
        (entries.foldl (scanGroup spec) state).groups =
          ⟨state.groups.members.insertAll (entries.map fun entry => (entry.1, spec.activeResolved entry.2)),
            state.groups.declaredMembers.insertAll (entries.map fun entry => (entry.1, spec.resolvedMembers entry.2))⟩) := by
  induction entries generalizing state with
  | nil => exact ⟨by simp [resolvedInstances], fun _ => rfl⟩
  | cons entry rest ih =>
    obtain ⟨hiff, hgroup⟩ := @scanGroup_spec spec state entry
    obtain ⟨hiff', hgroups⟩ := ih (scanGroup spec state entry)
    have hcons : resolvedInstances spec ((entry :: rest).map Prod.snd)
        = (spec.resolvedMembers entry.2).map memberInstance ++ resolvedInstances spec (rest.map Prod.snd) := by
      rw [resolvedInstances, List.map_cons, List.flatMap_cons]
      rfl
    rw [List.foldl_cons]
    constructor
    · rw [hiff', hcons, List.nodup_append]
      constructor
      · rintro ⟨hstep, hrest, hnodup, hfresh⟩
        obtain ⟨hstate, hentry, hdistinct, hplace⟩ := hiff.mp hstep
        have hplaced := (hgroup hstep).2
        refine ⟨hstate, List.forall_mem_cons.mpr ⟨hentry, hrest⟩, ⟨hdistinct, hnodup, ?_⟩, ?_⟩
        · intro first hfirst second hsecond heq
          subst heq
          exact hfresh first hsecond ((hplaced first).mpr (.inl hfirst))
        · intro inst hinst
          rcases List.mem_append.mp hinst with hinst | hinst
          · exact hplace inst hinst
          · exact fun hmem => hfresh inst hinst ((hplaced inst).mpr (.inr hmem))
      · rintro ⟨hstate, hall, ⟨hdistinct, hnodup, hdisjoint⟩, hfresh⟩
        obtain ⟨hentry, hrest⟩ := List.forall_mem_cons.mp hall
        have hstep := hiff.mpr ⟨hstate, hentry, hdistinct, fun inst hinst => hfresh inst (List.mem_append_left _ hinst)⟩
        have hplaced := (hgroup hstep).2
        refine ⟨hstep, hrest, hnodup, fun inst hinst hmem => ?_⟩
        rcases (hplaced inst).mp hmem with hmem | hmem
        · exact hdisjoint inst hmem inst hinst rfl
        · exact hfresh inst (List.mem_append_right _ hinst) hmem
    · intro herrors
      rw [hgroups herrors, (hgroup (hiff'.mp herrors).1).1]
      rfl

end Scan

/-- **Nothing is reported of groups exactly if they are resolved.** -/
theorem resolveGroups_errors_iff {spec : DeploymentSpec} : (resolveGroups spec).2 = [] ↔ Resolved spec := by
  obtain ⟨hiff, -⟩ := @foldl_scanGroup_spec spec ⟨⟨∅, ∅⟩, [], []⟩ spec.groups.entries
  refine hiff.trans ?_
  constructor
  · rintro ⟨-, hgroups, hnodup, -⟩
    exact ⟨hgroups, hnodup⟩
  · rintro ⟨hgroups, hnodup⟩
    exact ⟨rfl, hgroups, hnodup, fun _ _ => List.not_mem_nil⟩

/-- What groups are resolved to. -/
theorem resolveGroups_of_resolved {spec : DeploymentSpec} (h : Resolved spec) :
    (resolveGroups spec).1 = ⟨spec.groups.mapValues fun _ group => spec.activeResolved group,
      spec.groups.mapValues fun _ group => spec.resolvedMembers group⟩ := by
  obtain ⟨-, hgroups⟩ := @foldl_scanGroup_spec spec ⟨⟨∅, ∅⟩, [], []⟩ spec.groups.entries
  refine (hgroups (resolveGroups_errors_iff.mpr h)).trans ?_
  congr 1
  · exact ofList_entries (spec.groups.mapValues fun _ group => spec.activeResolved group)
  · exact ofList_entries (spec.groups.mapValues fun _ group => spec.resolvedMembers group)

end Apmpr.Planner
