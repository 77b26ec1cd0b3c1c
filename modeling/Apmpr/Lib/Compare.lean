import Mathlib.Data.List.Lex
import Mathlib.Data.Prod.Lex
import Mathlib.Order.Compare

/-!
# Greatest elements

Finding the last of the greatest elements of a list the way `Iterator::max_by` does it: one
comparison after another, each of which may fail. Where the comparison is the one of a key into
a linear order that some elements do not have, `maxBy_of_keys` and `maxBy_eq_none` say what is
found.
-/

namespace Apmpr

variable {α β : Type*}

/-- `Iterator::max_by`, with a comparison that may fail: then nothing is found, not even that
there is nothing. -/
def maxBy (cmp : α → α → Option Ordering) : List α → Option (Option α)
  | [] => some none
  | first :: rest =>
    (rest.foldlM (fun best next => (cmp best next).map fun o => if o = .gt then best else next) first).map some

/-- Comparing by a key that some elements do not have. -/
def compareBy [Ord β] (key : α → Option β) (a b : α) : Option Ordering :=
  (key a).bind fun x => (key b).map fun y => compare x y

section MaxBy

variable [LinearOrder β] {key : α → Option β}

/-- One step of the search keeps one of the two elements, and its key is the greater one. -/
theorem better_compareBy {best next : α} {x y : β} (hbest : key best = some x) (hnext : key next = some y) :
    ∃ better z, (compareBy key best next).map (fun o => if o = .gt then best else next) = some better ∧
      better ∈ [best, next] ∧ key better = some z ∧ x ≤ z ∧ y ≤ z := by
  have hcompare : compareBy key best next = some (compare x y) := by
    rw [compareBy, hbest, hnext]
    rfl
  rw [hcompare, Option.map_some]
  by_cases hgt : compare x y = .gt
  · exact ⟨best, x, by rw [if_pos hgt], by simp, hbest, le_rfl, (compare_gt_iff_gt.mp hgt).le⟩
  · exact ⟨next, y, by rw [if_neg hgt], by simp, hnext, le_of_not_gt fun h => hgt (compare_gt_iff_gt.mpr h), le_rfl⟩

/-- From an element with a key on, over others that have one. -/
theorem foldlM_compareBy {rest : List α} (hrest : ∀ a ∈ rest, (key a).isSome) {first : α} {x : β}
    (hfirst : key first = some x) : ∃ best z,
      rest.foldlM (fun best next => (compareBy key best next).map fun o => if o = .gt then best else next) first =
        some best ∧
      best ∈ first :: rest ∧ key best = some z ∧ x ≤ z ∧ ∀ a ∈ rest, ∀ y ∈ key a, y ≤ z := by
  induction rest generalizing first x with
  | nil => exact ⟨first, x, rfl, List.mem_cons_self, hfirst, le_rfl, by simp⟩
  | cons next rest ih =>
    obtain ⟨hnext, hrest⟩ := List.forall_mem_cons.mp hrest
    obtain ⟨y, hnext⟩ := Option.isSome_iff_exists.mp hnext
    obtain ⟨better, w, hstep, hbetter, hkey, hx, hy⟩ := better_compareBy hfirst hnext
    obtain ⟨best, z, hfound, hbest, hgreatest, hw, hall⟩ := ih hrest hkey
    refine ⟨best, z, by rw [List.foldlM_cons, hstep]; exact hfound, ?_, hgreatest, hx.trans hw, ?_⟩
    · rcases List.mem_cons.mp hbest with rfl | hbest
      · simp only [List.mem_cons, List.not_mem_nil, or_false] at hbetter
        rcases hbetter with rfl | rfl <;> simp
      · simp [hbest]
    · refine List.forall_mem_cons.mpr ⟨fun y' hy' => ?_, hall⟩
      rw [hnext] at hy'
      exact Option.some.inj hy' ▸ hy.trans hw

/-- **Where all have a key, the search finds an element with a greatest one**, if there is one. -/
theorem maxBy_of_keys {l : List α} (hkeys : ∀ a ∈ l, (key a).isSome) :
    ∃ found, maxBy (compareBy key) l = some found ∧ (found = none → l = []) ∧
      ∀ best ∈ found, best ∈ l ∧ ∃ z, key best = some z ∧ ∀ a ∈ l, ∀ y ∈ key a, y ≤ z := by
  cases l with
  | nil => exact ⟨none, rfl, fun _ => rfl, by simp⟩
  | cons first rest =>
    obtain ⟨hfirst, hrest⟩ := List.forall_mem_cons.mp hkeys
    obtain ⟨x, hfirst⟩ := Option.isSome_iff_exists.mp hfirst
    obtain ⟨best, z, hfound, hbest, hkey, hx, hall⟩ := foldlM_compareBy hrest hfirst
    refine ⟨some best, by rw [maxBy, hfound]; rfl, nofun, fun other hother => ?_⟩
    obtain rfl := Option.some.inj hother
    refine ⟨hbest, z, hkey, List.forall_mem_cons.mpr ⟨fun y hy => ?_, hall⟩⟩
    rw [hfirst] at hy
    exact Option.some.inj hy ▸ hx

/-- From an element on, with one among them that has no key and is compared. -/
theorem foldlM_compareBy_none {rest : List α} {first : α} (hrest : rest ≠ [])
    (hnone : ∃ a ∈ first :: rest, key a = none) :
    rest.foldlM (fun best next => (compareBy key best next).map fun o => if o = .gt then best else next) first =
      none := by
  induction rest generalizing first with
  | nil => exact absurd rfl hrest
  | cons next rest ih =>
    rw [List.foldlM_cons]
    cases hfirst : key first with
    | none => rw [compareBy, hfirst]; rfl
    | some x =>
      cases hnext : key next with
      | none => rw [compareBy, hfirst, hnext]; rfl
      | some y =>
        obtain ⟨better, z, hstep, -, hkey, -⟩ := better_compareBy hfirst hnext
        obtain ⟨a, ha, hkeyless⟩ := hnone
        have hlater : a ∈ rest := by
          rcases List.mem_cons.mp ha with rfl | ha
          · rw [hfirst] at hkeyless
            cases hkeyless
          · rcases List.mem_cons.mp ha with rfl | ha
            · rw [hnext] at hkeyless
              cases hkeyless
            · exact ha
        rw [hstep]
        exact ih (List.ne_nil_of_mem hlater) ⟨a, List.mem_cons_of_mem _ hlater, hkeyless⟩

/-- Of more elements than one, none may be without a key. -/
theorem maxBy_eq_none {l : List α} (hlength : 2 ≤ l.length) (hnone : ∃ a ∈ l, key a = none) :
    maxBy (compareBy key) l = none := by
  cases l with
  | nil => simp at hlength
  | cons first rest =>
    have hrest : rest ≠ [] := by
      rintro rfl
      simp at hlength
    rw [maxBy, foldlM_compareBy_none hrest hnone]
    rfl

end MaxBy

end Apmpr
