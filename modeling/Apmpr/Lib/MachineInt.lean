import Mathlib.Algebra.CharZero.Defs
import Mathlib.Algebra.Ring.Int.Defs
import Mathlib.Algebra.Ring.Nat
import Mathlib.Data.Fin.Basic

/-!
# Machine integers

Fixed-width integers whose arithmetic is checked: an operation that leaves the range
has no result. A signed number carries its range with it.
-/

namespace Apmpr

/-- A 16-bit unsigned number. -/
abbrev U16 := Fin 65536

/-- A 64-bit unsigned number. -/
abbrev U64 := Fin (2 ^ 64)

instance U8.neZero : NeZero 256 := ⟨by decide⟩

instance U16.neZero : NeZero 65536 := ⟨by decide⟩

instance U64.neZero : NeZero (2 ^ 64) := ⟨by decide⟩

/-- The next number, unless there is none. -/
def U64.checkedSucc (n : U64) : Option U64 :=
  if h : n.val + 1 < 2 ^ 64 then some ⟨n.val + 1, h⟩ else none

theorem U64.val_of_checkedSucc {n m : U64} (h : n.checkedSucc = some m) : m.val = n.val + 1 := by
  unfold checkedSucc at h
  split at h
  · rw [← Option.some.inj h]
  · cases h

/-- A 64-bit signed number. -/
structure I64 where
  val : ℤ
  lower : -(2 ^ 63) ≤ val
  upper : val < 2 ^ 63
  deriving DecidableEq

namespace I64

instance : LE I64 := ⟨fun a b => a.val ≤ b.val⟩

instance : LT I64 := ⟨fun a b => a.val < b.val⟩

instance (a b : I64) : Decidable (a ≤ b) := inferInstanceAs (Decidable (a.val ≤ b.val))

instance (a b : I64) : Decidable (a < b) := inferInstanceAs (Decidable (a.val < b.val))

instance : Zero I64 := ⟨⟨0, by decide, by decide⟩⟩

theorem le_def {a b : I64} : a ≤ b ↔ a.val ≤ b.val := Iff.rfl

theorem lt_def {a b : I64} : a < b ↔ a.val < b.val := Iff.rfl

theorem not_lt {a b : I64} : ¬ a < b ↔ b ≤ a := by
  exact Int.not_lt

@[simp] theorem val_zero : (0 : I64).val = 0 := rfl

/-- A number in the range. -/
def ofInt? (n : ℤ) : Option I64 :=
  if h : -(2 ^ 63) ≤ n ∧ n < 2 ^ 63 then some ⟨n, h.1, h.2⟩ else none

/-- The sum, unless it leaves the range. -/
def checkedAdd (a b : I64) : Option I64 := ofInt? (a.val + b.val)

theorem ofInt?_eq_some_iff {n : ℤ} {a : I64} : ofInt? n = some a ↔ a.val = n := by
  unfold ofInt?
  constructor
  · intro h
    split at h
    · rw [← Option.some.inj h]
    · cases h
  · rintro rfl
    rw [dif_pos ⟨a.lower, a.upper⟩]

theorem checkedAdd_eq_some_iff {a b c : I64} : checkedAdd a b = some c ↔ c.val = a.val + b.val :=
  ofInt?_eq_some_iff

end I64

/-- An unsigned number in the signed range. -/
def U64.FitsI64 (n : U64) : Prop := n.val < 2 ^ 63

/-- `i64::try_from`. -/
def U64.toI64? (n : U64) : Option I64 := I64.ofInt? (n.val : ℤ)

theorem U64.toI64?_isSome_iff {n : U64} : n.toI64?.isSome = true ↔ n.FitsI64 := by
  unfold toI64? FitsI64 I64.ofInt?
  split
  · rename_i h
    simp only [Option.isSome_some, true_iff]
    exact_mod_cast h.2
  · rename_i h
    simp only [Option.isSome_none, Bool.false_eq_true, false_iff]
    intro hn
    exact h ⟨by omega, by exact_mod_cast hn⟩

/-- Below a number that fits, every number fits. -/
theorem U64.FitsI64.of_checkedSucc {n m : U64} (h : m.FitsI64) (hm : n.checkedSucc = some m) : n.FitsI64 := by
  have hval := val_of_checkedSucc hm
  unfold FitsI64 at h ⊢
  omega

end Apmpr
