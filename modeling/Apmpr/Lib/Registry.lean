import Mathlib.Data.List.Basic
import Mathlib.Data.List.Nodup
import Mathlib.Data.List.Perm.Basic

/-!
# Registering items under keys

Programs check a list of declarations by walking it with a map of what was
declared before: look the key of an item up, complain if it is taken, register
the item, go on. `registerAll` is that loop, with whatever else is complained
about for an item; it stays silent exactly when the keys are distinct and every
item passes its own checks (`registerAll_eq_nil_iff`).

A map whose order is never looked at is an association list, newest entry first:
`List.lookup` then finds what the last writer wrote. `index` collects a list into
such a map.
-/

namespace Apmpr

universe u v w x

variable {α : Type u} {κ : Type v} {ν : Type w} {ε : Type x} [BEq κ] [LawfulBEq κ]

/-- An entry found by lookup is in the list. -/
theorem mem_of_lookup {m : List (κ × ν)} {k : κ} {y : ν} (h : m.lookup k = some y) : (k, y) ∈ m := by
  obtain ⟨l₁, l₂, rfl, -⟩ := List.lookup_eq_some_iff.mp h
  simp

/-- A key that is in the list is found. -/
theorem exists_lookup_of_mem {m : List (κ × ν)} {k : κ} {y : ν} (h : (k, y) ∈ m) :
    ∃ z, m.lookup k = some z := by
  cases hl : m.lookup k with
  | some z => exact ⟨z, rfl⟩
  | none =>
    rw [List.lookup_eq_none_iff] at hl
    simpa using hl _ h

/-- Where all entries of a key agree, lookup finds any of them. -/
theorem lookup_of_mem {m : List (κ × ν)} {k : κ} {y : ν} (h : (k, y) ∈ m)
    (huniq : ∀ z, (k, z) ∈ m → z = y) : m.lookup k = some y := by
  obtain ⟨z, hz⟩ := exists_lookup_of_mem h
  rw [hz, huniq z (mem_of_lookup hz)]

/-- Where the newest entries say nothing about a key, the older ones decide. -/
theorem lookup_append_eq_some_iff {m₁ m₂ : List (κ × ν)} {k : κ} {y : ν}
    (h₁ : ∀ z z', (k, z) ∈ m₁ → (k, z') ∈ m₁ → z = z') (h₂ : ∀ z z', (k, z) ∈ m₂ → (k, z') ∈ m₂ → z = z') :
    (m₁ ++ m₂).lookup k = some y ↔ (k, y) ∈ m₁ ∨ (∀ z, (k, z) ∉ m₁) ∧ (k, y) ∈ m₂ := by
  rw [List.lookup_append]
  cases h : m₁.lookup k with
  | some z =>
    have hz := mem_of_lookup h
    rw [Option.some_or, Option.some.injEq]
    constructor
    · rintro rfl
      exact Or.inl hz
    · rintro (hy | ⟨hno, -⟩)
      · exact h₁ z y hz hy
      · exact absurd hz (hno z)
  | none =>
    have hno : ∀ z, (k, z) ∉ m₁ := by
      intro z hz
      obtain ⟨z', hz'⟩ := exists_lookup_of_mem hz
      rw [h] at hz'
      cases hz'
    simp only [Option.none_or]
    constructor
    · intro hy
      exact Or.inr ⟨hno, mem_of_lookup hy⟩
    · rintro (hy | ⟨-, hy⟩)
      · exact absurd hy (hno y)
      · exact lookup_of_mem hy fun z hz => h₂ z y hz hy

/-! ### Collecting -/

/-- Collect a list into a map, the last writer winning. -/
def index (key : α → κ) (l : List α) : List (κ × α) := (l.map fun a => (key a, a)).reverse

omit [BEq κ] [LawfulBEq κ] in
theorem mem_index {key : α → κ} {l : List α} {k : κ} {a : α} : (k, a) ∈ index key l ↔ a ∈ l ∧ key a = k := by
  simp only [index, List.mem_reverse, List.mem_map, Prod.mk.injEq]
  constructor
  · rintro ⟨b, hb, rfl, rfl⟩
    exact ⟨hb, rfl⟩
  · rintro ⟨ha, rfl⟩
    exact ⟨a, ha, rfl, rfl⟩

theorem of_lookup_index {key : α → κ} {l : List α} {k : κ} {a : α} (h : (index key l).lookup k = some a) :
    a ∈ l ∧ key a = k :=
  mem_index.mp (mem_of_lookup h)

/-- With distinct keys, an item is found under its key. -/
theorem lookup_index_of_mem {key : α → κ} {l : List α} (hnodup : (l.map key).Nodup) {a : α} (ha : a ∈ l) :
    (index key l).lookup (key a) = some a := by
  refine lookup_of_mem (mem_index.mpr ⟨ha, rfl⟩) fun b hb => ?_
  obtain ⟨hb, hkey⟩ := mem_index.mp hb
  exact List.inj_on_of_nodup_map hnodup hb ha hkey

/-! ### The registration loop -/

/-- Walk a list from index `i` with what was registered before: complain about each
item, given what its key already stands for, and register it. -/
def registerAll (key : α → κ) (value : ℕ → α → ν) (check : ℕ → α → Option ν → List ε) :
    ℕ → List (κ × ν) → List α → List ε
  | _, _, [] => []
  | i, seen, a :: rest =>
    check i a (seen.lookup (key a)) ++
      registerAll key value check (i + 1) ((key a, value i a) :: seen) rest

theorem registerAll_eq_nil_iff_of_seen {key : α → κ} {value : ℕ → α → ν}
    {check : ℕ → α → Option ν → List ε} {Ok : α → Prop}
    (hfree : ∀ i a, check i a none = [] ↔ Ok a) (htaken : ∀ i a y, check i a (some y) ≠ [])
    (i : ℕ) (seen : List (κ × ν)) (l : List α) :
    registerAll key value check i seen l = [] ↔
      (l.map key).Nodup ∧ (∀ a ∈ l, ∀ e ∈ seen, e.1 ≠ key a) ∧ ∀ a ∈ l, Ok a := by
  induction l generalizing i seen with
  | nil => simp [registerAll]
  | cons a rest ih =>
    have hnone : check i a (seen.lookup (key a)) = [] ↔ (∀ e ∈ seen, e.1 ≠ key a) ∧ Ok a := by
      cases h : seen.lookup (key a) with
      | none =>
        rw [hfree]
        rw [List.lookup_eq_none_iff] at h
        refine ⟨fun hok => ⟨fun e he heq => ?_, hok⟩, fun hok => hok.2⟩
        simpa [heq] using h e he
      | some y =>
        refine ⟨fun hc => absurd hc (htaken i a y), fun hok => ?_⟩
        exact absurd rfl (hok.1 _ (mem_of_lookup h))
    simp only [registerAll, List.append_eq_nil_iff, hnone, ih, List.map_cons, List.nodup_cons,
      List.mem_cons, List.mem_map]
    constructor
    · rintro ⟨⟨hseen, hok⟩, hnodup, hsep, hall⟩
      refine ⟨⟨?_, hnodup⟩, ?_, ?_⟩
      · rintro ⟨b, hb, hkey⟩
        exact hsep b hb _ (Or.inl rfl) hkey.symm
      · rintro b (rfl | hb) e he
        · exact hseen e he
        · exact hsep b hb e (Or.inr he)
      · rintro b (rfl | hb)
        · exact hok
        · exact hall b hb
    · rintro ⟨⟨hnew, hnodup⟩, hsep, hall⟩
      refine ⟨⟨hsep a (Or.inl rfl), hall a (Or.inl rfl)⟩, hnodup, ?_, fun b hb => hall b (Or.inr hb)⟩
      rintro b hb e (rfl | he)
      · exact fun hkey => hnew ⟨b, hb, hkey.symm⟩
      · exact hsep b (Or.inr hb) e he

/-- The loop is silent exactly when the keys are distinct and every item is fine. -/
theorem registerAll_eq_nil_iff {key : α → κ} {value : ℕ → α → ν} {check : ℕ → α → Option ν → List ε}
    {Ok : α → Prop} (hfree : ∀ i a, check i a none = [] ↔ Ok a)
    (htaken : ∀ i a y, check i a (some y) ≠ []) (i : ℕ) (l : List α) :
    registerAll key value check i [] l = [] ↔ (l.map key).Nodup ∧ ∀ a ∈ l, Ok a := by
  rw [registerAll_eq_nil_iff_of_seen hfree htaken]
  simp

/-! ### Loops that may fail -/

section

variable {β : Type w}

/-- What a sequence of two computations that succeeded went through. -/
theorem bind_eq_ok_iff {γ : Type w} {x : Except ε β} {f : β → Except ε γ} {c : γ} :
    (x >>= f) = .ok c ↔ ∃ b, x = .ok b ∧ f b = .ok c := by
  cases x with
  | error e => simp [bind, Except.bind]
  | ok b => simp [bind, Except.bind]

/-- A loop whose every step succeeds succeeds. -/
theorem exists_mapM_ok {f : α → Except ε β} {l : List α} (h : ∀ a ∈ l, ∃ b, f a = .ok b) :
    ∃ bs, l.mapM f = .ok bs := by
  induction l with
  | nil => exact ⟨[], rfl⟩
  | cons a rest ih =>
    obtain ⟨b, hb⟩ := h a (List.mem_cons_self ..)
    obtain ⟨bs, hbs⟩ := ih fun a' ha' => h a' (List.mem_cons_of_mem _ ha')
    exact ⟨b :: bs, by rw [List.mapM_cons, hb, hbs]; rfl⟩

/-- Loops with the same steps are the same. -/
theorem mapM_congr_left {f g : α → Except ε β} {l : List α} (h : ∀ a ∈ l, f a = g a) : l.mapM f = l.mapM g := by
  induction l with
  | nil => rfl
  | cons a rest ih =>
    rw [List.mapM_cons, List.mapM_cons, h a (List.mem_cons_self ..), ih fun b hb => h b (List.mem_cons_of_mem _ hb)]

/-- Every step of a loop that succeeded succeeded. -/
theorem exists_ok_of_mapM_ok {f : α → Except ε β} {l : List α} {bs : List β} (h : l.mapM f = .ok bs) {a : α}
    (ha : a ∈ l) : ∃ b, f a = .ok b := by
  induction l generalizing bs with
  | nil => cases ha
  | cons a' rest ih =>
    rw [List.mapM_cons] at h
    obtain ⟨b', ha', h⟩ := bind_eq_ok_iff.mp h
    obtain ⟨bs', hr, -⟩ := bind_eq_ok_iff.mp h
    rcases List.mem_cons.mp ha with rfl | ha
    · exact ⟨b', ha'⟩
    · exact ih hr ha

/-- The results of a loop that succeeded are the results of its steps. -/
theorem mem_of_mapM_ok {f : α → Except ε β} {l : List α} {bs : List β} (h : l.mapM f = .ok bs) {b : β} :
    b ∈ bs ↔ ∃ a ∈ l, f a = .ok b := by
  induction l generalizing bs with
  | nil =>
    obtain rfl : [] = bs := Except.ok.inj h
    simp
  | cons a rest ih =>
    rw [List.mapM_cons] at h
    obtain ⟨b', ha, h⟩ := bind_eq_ok_iff.mp h
    obtain ⟨bs', hr, h⟩ := bind_eq_ok_iff.mp h
    obtain rfl : b' :: bs' = bs := Except.ok.inj h
    rw [List.mem_cons, ih hr]
    constructor
    · rintro (rfl | ⟨a', ha', hb⟩)
      · exact ⟨a, List.mem_cons_self .., ha⟩
      · exact ⟨a', List.mem_cons_of_mem _ ha', hb⟩
    · rintro ⟨a', ha', hb⟩
      rcases List.mem_cons.mp ha' with rfl | ha'
      · rw [ha] at hb
        exact Or.inl (Except.ok.inj hb).symm
      · exact Or.inr ⟨a', ha', hb⟩

/-- The results of a loop that succeeded are in the order of its steps. -/
theorem forall₂_of_mapM_ok {f : α → Except ε β} {l : List α} {bs : List β} (h : l.mapM f = .ok bs) :
    List.Forall₂ (fun a b => a ∈ l ∧ f a = .ok b) l bs := by
  induction l generalizing bs with
  | nil =>
    obtain rfl : [] = bs := Except.ok.inj h
    exact .nil
  | cons a rest ih =>
    rw [List.mapM_cons] at h
    obtain ⟨b', ha, h⟩ := bind_eq_ok_iff.mp h
    obtain ⟨bs', hr, h⟩ := bind_eq_ok_iff.mp h
    obtain rfl : b' :: bs' = bs := Except.ok.inj h
    exact .cons ⟨List.mem_cons_self .., ha⟩
      ((ih hr).imp fun a' b hb => ⟨List.mem_cons_of_mem _ hb.1, hb.2⟩)

end

/-! ### Lists in step -/

section

variable {β : Type w} {R : α → β → Prop}

/-- A list that is in step with a split one is split in the same way. -/
theorem exists_of_forall₂_append_cons {before after : List α} {a : α} {l : List β}
    (h : List.Forall₂ R (before ++ a :: after) l) :
    ∃ before' b after', l = before' ++ b :: after' ∧ R a b ∧ List.Forall₂ R after after' := by
  induction before generalizing l with
  | nil =>
    obtain ⟨b, after', hab, hafter, rfl⟩ := List.forall₂_cons_left_iff.mp h
    exact ⟨[], b, after', rfl, hab, hafter⟩
  | cons first rest ih =>
    obtain ⟨b, l', -, hrest, rfl⟩ := List.forall₂_cons_left_iff.mp h
    obtain ⟨before', b', after', rfl, hab, hafter⟩ := ih hrest
    exact ⟨b :: before', b', after', rfl, hab, hafter⟩

/-- Lists in step, whose elements show the same, show the same. -/
theorem map_eq_of_forall₂ {α' : Type u} {γ : Type w} {R : α → α' → Prop} {f : α → γ} {g : α' → γ} {l : List α}
    {l' : List α'} (h : List.Forall₂ R l l') (hshow : ∀ a a', R a a' → f a = g a') : l.map f = l'.map g := by
  induction h with
  | nil => rfl
  | cons hfirst _ ih => rw [List.map_cons, List.map_cons, hshow _ _ hfirst, ih]

/-- Two loops in step that succeeded, and whose steps show the same, show the same. -/
theorem map_eq_of_mapM_ok {α' : Type u} {γ : Type w} {f : α → Except ε β} {f' : α' → Except ε β} {g : β → γ} {l : List α}
    {l' : List α'} (h : List.Forall₂ (fun a a' => ∀ b b', f a = .ok b → f' a' = .ok b' → g b = g b') l l')
    {bs bs' : List β} (hbs : l.mapM f = .ok bs) (hbs' : l'.mapM f' = .ok bs') : bs.map g = bs'.map g := by
  induction h generalizing bs bs' with
  | nil =>
    obtain rfl : [] = bs := Except.ok.inj hbs
    obtain rfl : [] = bs' := Except.ok.inj hbs'
    rfl
  | cons hstep hrest ih =>
    rw [List.mapM_cons] at hbs hbs'
    obtain ⟨b, hb, hbs⟩ := bind_eq_ok_iff.mp hbs
    obtain ⟨rest, hrest, hbs⟩ := bind_eq_ok_iff.mp hbs
    obtain rfl : b :: rest = bs := Except.ok.inj hbs
    obtain ⟨b', hb', hbs'⟩ := bind_eq_ok_iff.mp hbs'
    obtain ⟨rest', hrest', hbs'⟩ := bind_eq_ok_iff.mp hbs'
    obtain rfl : b' :: rest' = bs' := Except.ok.inj hbs'
    rw [List.map_cons, List.map_cons, hstep b b' hb hb', ih hrest hrest']

/-- Every element of a list in step with another has its partner there. -/
theorem exists_of_mem_forall₂ {l : List α} {l' : List β} (h : List.Forall₂ R l l') {a : α} (ha : a ∈ l) :
    ∃ b ∈ l', R a b := by
  obtain ⟨before, after, rfl⟩ := List.append_of_mem ha
  obtain ⟨before', b, after', rfl, hab, -⟩ := exists_of_forall₂_append_cons h
  exact ⟨b, by simp, hab⟩

end

/-! ### Values that must differ -/

/-- One value of a list whose values must differ: it is reported if it was seen before. -/
def distinctStep {α β : Type} [DecidableEq α] (report : α → β) (state : List α × List β) (value : α) : List α × List β :=
  if state.1.contains value then (state.1, state.2 ++ [report value]) else (value :: state.1, state.2)

/-- Nothing is reported only if the values differ, from one another and from those before. -/
theorem foldl_distinctStep {α β : Type} [DecidableEq α] (report : α → β) (values : List α) (state : List α × List β)
    (h : (values.foldl (distinctStep report) state).2 = []) :
    state.2 = [] ∧ (values.foldl (distinctStep report) state).1 = values.reverse ++ state.1 ∧
      (state.1.Nodup → (values.reverse ++ state.1).Nodup) := by
  induction values generalizing state with
  | nil => exact ⟨h, rfl, id⟩
  | cons value rest ih =>
    rw [List.foldl_cons] at h ⊢
    obtain ⟨herrors, hseen, hnodup⟩ := ih _ h
    by_cases hmem : state.1.contains value = true
    · rw [distinctStep, if_pos hmem] at herrors
      simp at herrors
    · have hstep : distinctStep report state value = (value :: state.1, state.2) := if_neg hmem
      rw [hstep] at herrors hseen hnodup ⊢
      have hfresh : value ∉ state.1 := by simpa using hmem
      refine ⟨herrors, ?_, fun hstate => ?_⟩
      · rw [hseen]
        simp
      · have hall := hnodup (List.nodup_cons.mpr ⟨hfresh, hstate⟩)
        simpa using hall

/-- The only element of a list that passes a test is all that is left of it. -/
theorem filter_eq_of_unique {α : Type} {p : α → Bool} {l : List α} (hnodup : l.Nodup) {x : α} (hx : x ∈ l)
    (h : ∀ a ∈ l, p a = true → a = x) : l.filter p = if p x then [x] else [] := by
  obtain ⟨before, after, rfl⟩ := List.append_of_mem hx
  obtain ⟨-, hafter, hdisjoint⟩ := List.nodup_append.mp hnodup
  have hbefore : before.filter p = [] := by
    refine List.filter_eq_nil_iff.mpr fun a ha hpa => ?_
    have heq := h a (List.mem_append_left _ ha) hpa
    exact hdisjoint a ha x List.mem_cons_self heq
  have hafter : after.filter p = [] := by
    refine List.filter_eq_nil_iff.mpr fun a ha hpa => ?_
    have heq := h a (List.mem_append_right _ (List.mem_cons_of_mem _ ha)) hpa
    rw [heq] at ha
    exact (List.nodup_cons.mp hafter).1 ha
  rw [List.filter_append, List.filter_cons, hbefore, hafter, List.nil_append]

/-! ### Lists that are read -/

/-- The elements of parts that are read one after the other. -/
theorem mapM_flatMap_some {α β γ : Type} {d : β → Option γ} {f : α → List β} {g : α → List γ} {l : List α}
    (h : ∀ a ∈ l, (f a).mapM d = some (g a)) : (l.flatMap f).mapM d = some (l.flatMap g) := by
  induction l with
  | nil => rfl
  | cons a rest ih =>
    rw [List.forall_mem_cons] at h
    rw [List.flatMap_cons, List.flatMap_cons, List.mapM_append, h.1, ih h.2]
    rfl

theorem mapM_map_some {α β γ : Type} {d : β → Option γ} {f : α → β} {g : α → γ} {l : List α}
    (h : ∀ a ∈ l, d (f a) = some (g a)) : (l.map f).mapM d = some (l.map g) := by
  induction l with
  | nil => rfl
  | cons a rest ih =>
    rw [List.forall_mem_cons] at h
    rw [List.map_cons, List.map_cons, List.mapM_cons, h.1, ih h.2]
    rfl

end Apmpr
