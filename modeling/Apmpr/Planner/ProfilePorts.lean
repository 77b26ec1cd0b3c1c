import Apmpr.Planner.Panics

/-!
# The ports of managed profiles

Each managed profile of a deployment is given a port of its own between 24000 and 31999: a
hash of its name says where the search starts, and the loop of `managed_profiles` goes on from
there, around the end of the range, until it finds a port that no profile before it has. The
loop is stated here turn by turn (`probe`), for a number of turns, and compared with the search
of the model (`probe_eq_some_iff`, `assignWithin_iff`).

**`assignsPorts_iff`** says when the loop does what it is for: with at most 8000 profiles it
ends, the ports are different and in the range, and nothing but the name of the deployment and
the names of the profiles decides them. With more profiles than ports the loop of one of them
comes by used ports for ever; nothing looks at their number before.
-/

namespace Apmpr.Planner

/-! ### The loop -/

section Loop

variable {used : List U16}

/-- The loop over ports, for a number of turns: `none` where it has not ended by then. -/
def probe (used : List U16) : ℕ → U16 → Option U16
  | 0, _ => none
  | turns + 1, port => if port ∈ used then probe used turns (24000 + (port - 24000 + 1) % 8000) else some port

/-- The port the search starts at. -/
def startPort (offset : ℕ) : U16 := Fin.ofNat 65536 (24000 + offset % 8000)

/-- The next port is the one that the search would start at one further on. -/
theorem next_startPort (offset : ℕ) :
    24000 + (startPort offset - 24000 + 1) % 8000 = startPort (offset + 1) := by
  have hlt : offset % 8000 < 8000 := Nat.mod_lt _ (by omega)
  apply Fin.ext
  simp only [startPort, Fin.val_add, Fin.val_sub, Fin.mod_val, Fin.val_ofNat]
  rw [show ((24000 : U16) : ℕ) = 24000 from rfl, show ((8000 : U16) : ℕ) = 8000 from rfl,
    show ((1 : U16) : ℕ) = 1 from rfl]
  omega

theorem probe_eq_find? (turns offset : ℕ) : probe used turns (startPort offset) =
    ((List.range turns).map fun k => startPort (offset + k)).find? fun port => !used.contains port := by
  induction turns generalizing offset with
  | zero => rfl
  | succ turns ih =>
    rw [List.range_succ_eq_map, List.map_cons, List.find?_cons, List.map_map, Nat.add_zero, probe, next_startPort, ih]
    have hshift : ((fun k => startPort (offset + k)) ∘ Nat.succ) = fun k => startPort (offset + 1 + k) := by
      funext k
      rw [Function.comp, Nat.succ_eq_add_one, Nat.add_assoc, Nat.add_comm 1 k]
    rw [hshift]
    by_cases hport : startPort offset ∈ used
    · simp [hport]
    · simp [hport]

/-- More turns find the same port. -/
theorem probe_mono {turns more : ℕ} {start port : U16} (h : probe used turns start = some port) (hle : turns ≤ more) :
    probe used more start = some port := by
  induction turns generalizing start more with
  | zero => cases h
  | succ turns ih =>
    obtain ⟨more, rfl⟩ : ∃ k, more = k + 1 := ⟨more - 1, by omega⟩
    rw [probe] at h ⊢
    split_ifs at h ⊢
    · exact ih h (by omega)
    · exact h

/-- A full turn around the range is the search of the model. -/
theorem probe_range (offset : ℕ) {port : U16} :
    probe used 8000 (startPort offset) = some port ↔ profilePort used offset = .ok port := by
  rw [probe_eq_find?, profilePort_eq_find?]
  have hsearched : ((List.range 8000).map fun k => startPort (offset + k)) = searchedPorts offset := rfl
  rw [hsearched]
  cases (searchedPorts offset).find? fun port => !used.contains port with
  | none => simp
  | some found => simp

/-- What the loop finds, in any number of turns, is found in one turn around the range. -/
theorem probe_eq_some_iff (offset : ℕ) {port : U16} :
    (∃ turns, probe used turns (startPort offset) = some port) ↔ profilePort used offset = .ok port := by
  refine Iff.trans ⟨fun ⟨turns, h⟩ => ?_, fun h => ⟨8000, h⟩⟩ (probe_range offset)
  have hfound := h
  rw [probe_eq_find?] at hfound
  obtain ⟨k, -, hk⟩ := List.mem_map.mp (List.mem_of_find?_eq_some hfound)
  have hfree := List.find?_some hfound
  -- the port is among those of one turn around the range, so that turn finds one too
  have hrange : port ∈ profilePorts := (mem_searchedPorts_iff (offset + k) port).mp
    (List.mem_map.mpr ⟨0, List.mem_range.mpr (by omega), by rw [← hk, startPort, Nat.add_zero]⟩)
  have hsearched := (mem_searchedPorts_iff offset port).mpr hrange
  obtain ⟨first, hfirst⟩ : ∃ first, probe used 8000 (startPort offset) = some first := by
    rw [probe_eq_find?]
    exact Option.isSome_iff_exists.mp (List.find?_isSome.mpr ⟨port, hsearched, hfree⟩)
  have hmore := probe_mono h (Nat.le_add_right turns 8000)
  rw [probe_mono hfirst (Nat.le_add_left 8000 turns)] at hmore
  rw [hfirst, hmore]

end Loop

/-! ### The profiles -/

section Profiles

variable {platform : Platform} {deployment : String}

/-- The profiles with their ports, each search taking at most a number of turns. -/
def assignWithin (platform : Platform) (deployment : String) (turns : ℕ) :
    List (String × ManagedProfile) → List U16 → Option (List (String × ManagedProfilePlan))
  | [], _ => some []
  | (inst, profile) :: rest, used => do
    let offset := digestPrefix (platform.sha256 s!"{deployment}\x00{inst}") % 8000
    let port ← probe used turns (startPort offset)
    let plans ← assignWithin platform deployment turns rest (port :: used)
    return (inst, ⟨deployment, inst, profile.route, port, profile.startUrl⟩) :: plans

/-- `managed_profiles`, each of its loops taking at most a number of turns. -/
def managedProfilesWithin (platform : Platform) (document : Document) (turns : ℕ) :
    Option (List (String × ManagedProfilePlan)) :=
  assignWithin platform document.metadata.name turns document.spec.managedProfiles.entries []

theorem assignWithin_cons {turns : ℕ} {entry : String × ManagedProfile} {rest : List (String × ManagedProfile)}
    {used : List U16} {plans : List (String × ManagedProfilePlan)} :
    assignWithin platform deployment turns (entry :: rest) used = some plans ↔
      ∃ port others,
        probe used turns (startPort (digestPrefix (platform.sha256 s!"{deployment}\x00{entry.1}") % 8000)) = some port ∧
        assignWithin platform deployment turns rest (port :: used) = some others ∧
        plans = (entry.1, ⟨deployment, entry.1, entry.2.route, port, entry.2.startUrl⟩) :: others := by
  rw [assignWithin]
  simp only [Option.bind_eq_bind, Option.bind_eq_some_iff, Option.pure_def, Option.some.injEq]
  constructor
  · rintro ⟨port, hport, others, hothers, rfl⟩
    exact ⟨port, others, hport, hothers, rfl⟩
  · rintro ⟨port, others, hport, hothers, rfl⟩
    exact ⟨port, hport, others, hothers, rfl⟩

/-- A full turn around the range is enough for each of the loops. -/
theorem assignWithin_range {entries : List (String × ManagedProfile)} {used : List U16}
    {plans : List (String × ManagedProfilePlan)} (h : assignProfiles platform deployment entries used = .ok plans) :
    assignWithin platform deployment 8000 entries used = some plans := by
  induction entries generalizing used plans with
  | nil =>
    cases h
    rfl
  | cons entry rest ih =>
    obtain ⟨port, hport, h⟩ := bind_eq_ok_iff.mp h
    obtain ⟨others, hothers, h⟩ := bind_eq_ok_iff.mp h
    cases h
    exact assignWithin_cons.mpr ⟨port, others, (probe_range _).mpr hport, ih hothers, rfl⟩

/-- What the loops end with, in any number of turns, are the plans of the model. -/
theorem assignProfiles_of_assignWithin {turns : ℕ} {entries : List (String × ManagedProfile)} {used : List U16}
    {plans : List (String × ManagedProfilePlan)}
    (h : assignWithin platform deployment turns entries used = some plans) :
    assignProfiles platform deployment entries used = .ok plans := by
  induction entries generalizing used plans with
  | nil =>
    cases h
    rfl
  | cons entry rest ih =>
    obtain ⟨port, others, hport, hothers, rfl⟩ := assignWithin_cons.mp h
    rw [assignProfiles]
    exact bind_eq_ok_iff.mpr ⟨port, (probe_eq_some_iff _).mp ⟨turns, hport⟩,
      bind_eq_ok_iff.mpr ⟨others, ih hothers, rfl⟩⟩

/-- The loops of `managed_profiles` end with its plans, or not at all. -/
theorem managedProfilesWithin_iff {document : Document} {plans : List (String × ManagedProfilePlan)} :
    (∃ turns, managedProfilesWithin platform document turns = some plans) ↔
      managedProfiles platform document = .ok plans :=
  ⟨fun ⟨_, h⟩ => assignProfiles_of_assignWithin h, fun h => ⟨8000, assignWithin_range h⟩⟩

theorem names_of_assignProfiles {entries : List (String × ManagedProfile)} {used : List U16}
    {plans : List (String × ManagedProfilePlan)} (h : assignProfiles platform deployment entries used = .ok plans) :
    plans.map Prod.fst = entries.map Prod.fst := by
  induction entries generalizing used plans with
  | nil =>
    cases h
    rfl
  | cons entry rest ih =>
    obtain ⟨port, hport, h⟩ := bind_eq_ok_iff.mp h
    obtain ⟨others, hothers, h⟩ := bind_eq_ok_iff.mp h
    cases h
    rw [List.map_cons, List.map_cons, ih hothers]

/-- The ports are different, also from the ones in use before. -/
theorem nodup_of_assignProfiles {entries : List (String × ManagedProfile)} {used : List U16}
    {plans : List (String × ManagedProfilePlan)} (h : assignProfiles platform deployment entries used = .ok plans) :
    (plans.map fun plan => plan.2.proxyPort).Nodup ∧ ∀ plan ∈ plans, plan.2.proxyPort ∈ profilePorts ∧ plan.2.proxyPort ∉ used := by
  induction entries generalizing used plans with
  | nil =>
    cases h
    exact ⟨List.nodup_nil, fun plan hplan => absurd hplan List.not_mem_nil⟩
  | cons entry rest ih =>
    obtain ⟨port, hport, h⟩ := bind_eq_ok_iff.mp h
    obtain ⟨others, hothers, h⟩ := bind_eq_ok_iff.mp h
    cases h
    obtain ⟨hnodup, hothers⟩ := ih hothers
    constructor
    · refine List.nodup_cons.mpr ⟨fun hmem => ?_, hnodup⟩
      obtain ⟨other, hother, heq⟩ := List.mem_map.mp hmem
      exact (hothers other hother).2 (heq ▸ List.mem_cons_self)
    · refine List.forall_mem_cons.mpr ⟨profilePort_ok hport, fun other hother => ?_⟩
      obtain ⟨hrange, hfree⟩ := hothers other hother
      exact ⟨hrange, fun hused => hfree (List.mem_cons_of_mem _ hused)⟩

/-- The names and ports of plans. -/
def portsOf (plans : List (String × ManagedProfilePlan)) : List (String × U16) :=
  plans.map fun plan => (plan.1, plan.2.proxyPort)

/-- Routes and start addresses do not count. -/
theorem portsOf_of_names {entries entries' : List (String × ManagedProfile)} {used : List U16}
    (hnames : entries.map Prod.fst = entries'.map Prod.fst) {plans : List (String × ManagedProfilePlan)}
    (h : assignProfiles platform deployment entries used = .ok plans) :
    ∃ plans', assignProfiles platform deployment entries' used = .ok plans' ∧ portsOf plans' = portsOf plans := by
  induction entries generalizing entries' used plans with
  | nil =>
    cases h
    obtain rfl := List.map_eq_nil_iff.mp hnames.symm
    exact ⟨[], rfl, rfl⟩
  | cons entry rest ih =>
    obtain ⟨entry', rest', rfl, hentry, hrest⟩ := List.map_eq_cons_iff.mp hnames.symm
    obtain ⟨port, hport, h⟩ := bind_eq_ok_iff.mp h
    obtain ⟨others, hothers, h⟩ := bind_eq_ok_iff.mp h
    cases h
    obtain ⟨others', hothers', hports⟩ := ih hrest.symm hothers
    refine ⟨_, bind_eq_ok_iff.mpr ⟨port, ?_, bind_eq_ok_iff.mpr ⟨others', hothers', rfl⟩⟩, ?_⟩
    · rw [hentry]
      exact hport
    · rw [portsOf, List.map_cons, hentry]
      exact congrArg _ hports

/-- The loops of `managed_profiles` do what they are for: they end, every profile has a port of
its own in the range, and only the names of the deployment and of its profiles decide which. -/
structure AssignsPorts (platform : Platform) (document : Document) : Prop where
  ends : ∃ turns plans, managedProfilesWithin platform document turns = some plans
  named : ∀ turns plans, managedProfilesWithin platform document turns = some plans →
    plans.map Prod.fst = document.spec.managedProfiles.keys
  different : ∀ turns plans, managedProfilesWithin platform document turns = some plans →
    (plans.map fun plan => plan.2.proxyPort).Nodup
  inRange : ∀ turns plans, managedProfilesWithin platform document turns = some plans →
    ∀ plan ∈ plans, 24000 ≤ plan.2.proxyPort.val ∧ plan.2.proxyPort.val ≤ 31999
  determined : ∀ other : Document, other.metadata.name = document.metadata.name →
    other.spec.managedProfiles.keys = document.spec.managedProfiles.keys →
    ∀ turns plans, managedProfilesWithin platform document turns = some plans →
    (∃ turns' plans', managedProfilesWithin platform other turns' = some plans') ∧
      ∀ turns' plans', managedProfilesWithin platform other turns' = some plans' → portsOf plans' = portsOf plans

/-- **The ports of managed profiles are assigned exactly where there are at most 8000 of them.** -/
theorem assignsPorts_iff (platform : Platform) (document : Document) :
    AssignsPorts platform document ↔ document.spec.managedProfiles.entries.length ≤ 8000 := by
  have hends : (∃ turns plans, managedProfilesWithin platform document turns = some plans) ↔
      document.spec.managedProfiles.entries.length ≤ 8000 := by
    rw [← answers_managedProfiles_iff platform, exists_comm]
    simp only [managedProfilesWithin_iff]
    rcases assignProfiles_eq platform document.metadata.name document.spec.managedProfiles.entries List.nodup_nil
      (fun port hport => absurd hport List.not_mem_nil) with ⟨-, plans, hplans⟩ | ⟨-, hdiverged⟩
    · exact iff_of_true ⟨plans, hplans⟩ (by rw [managedProfiles, hplans]; exact answers_ok plans)
    · rw [managedProfiles, hdiverged]
      refine iff_of_false ?_ (not_answers_diverged _)
      rintro ⟨plans, hplans⟩
      cases hplans
  refine ⟨fun h => hends.mp h.ends, fun hcount => ⟨hends.mpr hcount, ?_, ?_, ?_, ?_⟩⟩
  · exact fun turns plans h => names_of_assignProfiles (assignProfiles_of_assignWithin h)
  · exact fun turns plans h => (nodup_of_assignProfiles (assignProfiles_of_assignWithin h)).1
  · intro turns plans h plan hplan
    have hrange := ((nodup_of_assignProfiles (assignProfiles_of_assignWithin h)).2 plan hplan).1
    rw [profilePorts, Finset.mem_Ico, Fin.le_def, Fin.lt_def] at hrange
    exact ⟨hrange.1, Nat.le_of_lt_succ hrange.2⟩
  · intro other hname hkeys turns plans h
    obtain ⟨plans', hplans', hports⟩ := portsOf_of_names hkeys.symm (assignProfiles_of_assignWithin h)
    rw [← hname] at hplans'
    refine ⟨⟨8000, plans', assignWithin_range hplans'⟩, fun turns' plans'' h' => ?_⟩
    have hplans'' := assignProfiles_of_assignWithin h'
    obtain rfl := Except.ok.inj (hplans'.symm.trans hplans'')
    exact hports

/-- A deployment with a number of instances of the web server, each with a profile. -/
def profiledShop (count : ℕ) : Document :=
  shopBundle.document.withSpec { shopBundle.document.spec with
    instances := (List.range count).map fun n => webInstance ("web" ++ n.repr) none
    managedProfiles := .ofList ((List.range count).map fun n => ("web" ++ n.repr, ⟨"proxy", "http://shop.localhost"⟩)) }

theorem length_profiledShop (count : ℕ) : (profiledShop count).spec.managedProfiles.entries.length = count := by
  have hinjective : Function.Injective fun n : ℕ => "web" ++ n.repr := by
    intro m n h
    have hdigits : Nat.toDigits 10 m = Nat.toDigits 10 n := by
      rw [← Nat.toList_repr, ← Nat.toList_repr]
      simpa using congrArg String.toList h
    rw [← @Nat.ofDigitChars_ten_toDigits m, hdigits, Nat.ofDigitChars_ten_toDigits]
  have hnames : ((List.range count).map fun n : ℕ => "web" ++ n.repr).Nodup := List.nodup_range.map hinjective
  have hlength := length_keys_ofList
    ((List.range count).map fun n => ("web" ++ n.repr, (⟨"proxy", "http://shop.localhost"⟩ : ManagedProfile)))
  rw [List.map_map] at hlength
  change _ = ((List.range count).map fun n : ℕ => "web" ++ n.repr).dedup.length at hlength
  rw [hnames.dedup, List.length_map, List.length_range, SortedMap.keys, List.length_map] at hlength
  exact hlength

/-- With one profile more than there are ports, the last search goes on for ever. -/
theorem profiles_diverge : ¬ AssignsPorts shopHost.toPlatform (profiledShop 8001) ∧
    ∀ turns, managedProfilesWithin shopHost.toPlatform (profiledShop 8001) turns = none := by
  have hcount : ¬ Answers (managedProfiles shopHost.toPlatform (profiledShop 8001)) := by
    rw [answers_managedProfiles_iff, length_profiledShop]
    omega
  have hnone : ∀ turns, managedProfilesWithin shopHost.toPlatform (profiledShop 8001) turns = none := by
    intro turns
    rw [Option.eq_none_iff_forall_ne_some]
    intro plans hplans
    rw [managedProfilesWithin_iff.mp ⟨turns, hplans⟩] at hcount
    exact hcount (answers_ok plans)
  refine ⟨fun h => ?_, hnone⟩
  obtain ⟨turns, plans, hplans⟩ := h.ends
  rw [hnone turns] at hplans
  cases hplans

end Profiles

end Apmpr.Planner
