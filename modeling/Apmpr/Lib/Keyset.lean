import Mathlib.Data.List.Sort
import Mathlib.Order.Basic

/-!
# Keyset pagination

Rows with a key are listed in pages, from the largest key down. A page has a number of rows at
most, and is asked for by a cursor, the key of the last row shown before it. The rows may change
from one page to the next.

## What is proved

`newest_eq` — the rows from the largest key down are the one list in that order. `walk_complete`
— following the cursors ends, and shows every row that was there at first once and in order,
if what is stored below the row shown first stays the same.
-/

namespace Apmpr.Keyset

universe u v

variable {α : Type u} {κ : Type v} [LinearOrder κ] (key : α → κ)

/-- The rows from the largest key down. -/
def newest (rows : List α) : List α := rows.insertionSort fun a b => key b ≤ key a

/-- The rows below a cursor. -/
def below (cursor : Option κ) (rows : List α) : List α := rows.filter fun row => cursor.all fun c => decide (key row < c)

/-- From the largest key down, no key twice. -/
def Descending (rows : List α) : Prop := rows.Pairwise fun a b => key b < key a

/-- The pages that are shown, of at most `size` rows each: where there are more rows, the key of
the last one shown is the next cursor. What is stored may be different for each page. -/
inductive Walk (size : ℕ) : (ℕ → List α) → Option κ → List (List α) → Prop where
  | last {stored : ℕ → List α} {cursor : Option κ} (h : (newest key (below key cursor (stored 0))).length ≤ size) :
      Walk size stored cursor [newest key (below key cursor (stored 0))]
  | next {stored : ℕ → List α} {cursor : Option κ} {shown : List α} {row : α} {pages : List (List α)}
      (hmore : size < (newest key (below key cursor (stored 0))).length)
      (hshown : (newest key (below key cursor (stored 0))).take size = shown ++ [row])
      (h : Walk size (fun i => stored (i + 1)) (some (key row)) pages) : Walk size stored cursor ((shown ++ [row]) :: pages)

variable {key}

theorem mem_below {cursor : Option κ} {rows : List α} {row : α} :
    row ∈ below key cursor rows ↔ row ∈ rows ∧ ∀ c ∈ cursor, key row < c := by
  cases cursor <;> simp [below]

theorem mem_newest {rows : List α} {row : α} : row ∈ newest key rows ↔ row ∈ rows := by
  simp [newest]

theorem descending_newest {rows : List α} (h : (rows.map key).Nodup) : Descending key (newest key rows) := by
  have htotal : Std.Total fun a b : α => key b ≤ key a := ⟨fun a b => le_total (key b) (key a)⟩
  have htrans : IsTrans α fun a b => key b ≤ key a := ⟨fun _ _ _ hab hbc => hbc.trans hab⟩
  have hsorted : (newest key rows).Pairwise fun a b => key b ≤ key a := List.pairwise_insertionSort _ rows
  have hnodup : ((newest key rows).map key).Nodup :=
    ((List.perm_insertionSort _ rows).map key).nodup_iff.mpr h
  refine hsorted.imp₂ (fun a b hle hne => lt_of_le_of_ne hle (Ne.symm hne)) (List.pairwise_map.mp hnodup)

/-- Two lists from the largest key down with the same rows are the same. -/
theorem Descending.eq {rows rows' : List α} (h : Descending key rows) (h' : Descending key rows')
    (hmem : ∀ row, row ∈ rows ↔ row ∈ rows') : rows = rows' := by
  have hirrefl : Std.Irrefl fun a b : α => key b < key a := ⟨fun a => lt_irrefl (key a)⟩
  have hantisymm : Std.Antisymm fun a b : α => key b < key a := ⟨fun _ _ hab hba => absurd hab (lt_asymm hba)⟩
  exact List.Pairwise.eq_of_mem_iff h h' hmem

/-- The rows from the largest key down are the one list in that order. -/
theorem newest_eq {rows listed : List α} (hnodup : (rows.map key).Nodup) (h : Descending key listed)
    (hmem : ∀ row, row ∈ rows ↔ row ∈ listed) : newest key rows = listed :=
  (descending_newest hnodup).eq h fun row => mem_newest.trans (hmem row)

/-- A page of what is seen of some rows, if their keys are. -/
theorem map_newest_below {β : Type*} {key' : β → κ} {f : α → β} (hf : ∀ row, key' (f row) = key row) (cursor : Option κ)
    (rows : List α) :
    (newest key (below key cursor rows)).map f = newest key' (below key' cursor (rows.map f)) := by
  have hbelow : below key' cursor (rows.map f) = (below key cursor rows).map f := by
    unfold below
    rw [List.filter_map]
    congr 1
    apply List.filter_congr
    intro row _
    simp [hf]
  rw [hbelow]
  apply List.map_insertionSort
  intro a _ b _
  rw [hf, hf]

theorem nodup_below {cursor : Option κ} {rows : List α} (h : (rows.map key).Nodup) :
    ((below key cursor rows).map key).Nodup :=
  h.sublist (List.filter_sublist.map key)

/-- The rows below one of them are those listed after it. -/
theorem Descending.lt_iff {shown rest : List α} {row : α} (h : Descending key (shown ++ row :: rest)) {r : α} :
    r ∈ shown ++ row :: rest ∧ key r < key row ↔ r ∈ rest := by
  obtain ⟨-, htail, hfront⟩ := List.pairwise_append.mp h
  obtain ⟨hrow, -⟩ := List.pairwise_cons.mp htail
  constructor
  · rintro ⟨hmem, hlt⟩
    rcases List.mem_append.mp hmem with hmem | hmem
    · exact absurd hlt (lt_asymm (hfront r hmem row (List.mem_cons_self ..)))
    · rcases List.mem_cons.mp hmem with rfl | hmem
      · exact absurd hlt (lt_irrefl _)
      · exact hmem
  · intro hmem
    exact ⟨List.mem_append_right _ (List.mem_cons_of_mem _ hmem), hrow r hmem⟩

/-- **Every row once**: the walk from a cursor ends, and shows the rows that are listed below it,
if below each of them the same rows stay stored. -/
theorem walk_complete {size : ℕ} (hsize : 0 < size) {listed : List α} {stored : ℕ → List α} {cursor : Option κ}
    (hnodup : ∀ i, ((stored i).map key).Nodup) (hlisted : Descending key listed)
    (hfirst : ∀ row, row ∈ below key cursor (stored 0) ↔ row ∈ listed)
    (hstays : ∀ i, ∀ a ∈ listed, ∀ row, key row < key a → (row ∈ stored (i + 1) ↔ row ∈ listed)) :
    ∃ pages, Walk key size stored cursor pages ∧ pages.flatten = listed := by
  induction hn : listed.length using Nat.strong_induction_on generalizing listed stored cursor with
  | _ n ih =>
    have hnewest : newest key (below key cursor (stored 0)) = listed := newest_eq (nodup_below (hnodup 0)) hlisted hfirst
    by_cases hmore : size < listed.length
    · obtain ⟨shown, row, hshown⟩ : ∃ shown row, listed.take size = shown ++ [row] := by
        rcases List.eq_nil_or_concat (listed.take size) with hnil | ⟨shown, row, hshown⟩
        · have := congrArg List.length hnil
          rw [List.length_take, List.length_nil] at this
          omega
        · exact ⟨shown, row, by rw [hshown, List.concat_eq_append]⟩
      have hsplit : listed = shown ++ row :: listed.drop size := by
        rw [List.append_cons, ← hshown, List.take_append_drop]
      have hrest : Descending key (listed.drop size) := hlisted.sublist (List.drop_sublist size listed)
      have hmem : row ∈ listed := by
        rw [hsplit]
        simp
      have hbelow : ∀ r, r ∈ listed ∧ key r < key row ↔ r ∈ listed.drop size := by
        intro r
        have hlt := Descending.lt_iff (r := r) (hsplit ▸ hlisted)
        rwa [← hsplit] at hlt
      obtain ⟨pages, hwalk, hpages⟩ := ih (listed.drop size).length (by rw [List.length_drop]; omega)
        (fun i => hnodup (i + 1)) hrest
        (by
          intro r
          rw [mem_below, ← hbelow]
          constructor
          · rintro ⟨hr, hlt⟩
            exact ⟨(hstays 0 row hmem r (hlt _ rfl)).mp hr, hlt _ rfl⟩
          · rintro ⟨hr, hlt⟩
            refine ⟨(hstays 0 row hmem r hlt).mpr hr, ?_⟩
            rintro _ ⟨⟩
            exact hlt)
        (by
          intro i a ha r hlt
          obtain ⟨ha, hrow⟩ := (hbelow a).mpr ha
          rw [hstays (i + 1) a ha r hlt, ← hbelow]
          exact ⟨fun hr => ⟨hr, hlt.trans hrow⟩, fun hr => hr.1⟩)
        rfl
      refine ⟨(shown ++ [row]) :: pages, .next (by rwa [hnewest]) (by rwa [hnewest]) hwalk, ?_⟩
      rw [List.flatten_cons, hpages, ← hshown, List.take_append_drop]
    · refine ⟨[newest key (below key cursor (stored 0))], .last (by rw [hnewest]; omega), ?_⟩
      simp [hnewest]

end Apmpr.Keyset
