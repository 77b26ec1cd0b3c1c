import Mathlib.Data.List.Infix
import Mathlib.Tactic

/-!
# Replacing a part of a text

`replace pat out text` puts `out` in the place of every occurrence of `pat`, from the left and
without overlaps. `Replaces` is the same as a relation: the text is cut into pieces without the
pattern, which are put together again with `out` between them.

What occurs in the result is said for patterns that are `Fenced`: where `out` stands, an
occurrence of such a pattern ends before it or begins after it. These are the patterns that are not
in `out`, do not have it in them and have no end in common with it (`fenced_iff`).
-/

namespace Apmpr.Replace

variable {α β : Type*}

section

variable [DecidableEq α]

/-- Replace in a text of which the first elements belong to an occurrence that is replaced. -/
def replaceFrom (pat out : List α) : ℕ → List α → List α
  | _, [] => []
  | skip + 1, _ :: rest => replaceFrom pat out skip rest
  | 0, a :: rest =>
    if pat.isPrefixOf (a :: rest) then out ++ replaceFrom pat out (pat.length - 1) rest
    else a :: replaceFrom pat out 0 rest

/-- `text` with `out` for every `pat`. -/
def replace (pat out text : List α) : List α := replaceFrom pat out 0 text

theorem replaceFrom_drop (pat out : List α) (skip : ℕ) (text : List α) :
    replaceFrom pat out skip text = replaceFrom pat out 0 (text.drop skip) := by
  induction skip generalizing text with
  | zero => rfl
  | succ skip ih =>
    cases text with
    | nil => rfl
    | cons a rest => exact ih rest

end

/-- Pieces without `pat`, put together with `out`. -/
inductive Replaces (pat out : List α) : List α → List α → Prop where
  /-- The last piece. -/
  | last {piece : List α} (hpiece : ¬pat <:+: piece) : Replaces pat out piece piece
  /-- A piece before an occurrence. -/
  | next {piece rest result : List α} (hpiece : ¬pat <:+: piece) (h : Replaces pat out rest result) :
    Replaces pat out (piece ++ pat ++ rest) (piece ++ out ++ result)

theorem Replaces.absent_nil {pat : List α} (hpat : pat ≠ []) : ¬pat <:+: [] := fun h => hpat (List.infix_nil.mp h)

/-- An element before a text that does not begin with the pattern. -/
theorem Replaces.cons {pat out text result : List α} (h : Replaces pat out text result) {a : α}
    (hstart : ¬pat <+: a :: text) : Replaces pat out (a :: text) (a :: result) := by
  cases h with
  | last hpiece => exact .last fun hoccurs => (List.infix_cons_iff.mp hoccurs).elim hstart hpiece
  | @next piece rest result hpiece hrest =>
    refine @Replaces.next _ pat out (a :: piece) rest result (fun hoccurs => ?_) hrest
    refine (List.infix_cons_iff.mp hoccurs).elim (fun hpre => hstart ?_) hpiece
    exact hpre.trans ⟨pat ++ rest, by simp⟩

theorem replaces_replace [DecidableEq α] {pat : List α} (hpat : pat ≠ []) (out text : List α) :
    Replaces pat out text (replace pat out text) := by
  induction hlength : text.length using Nat.strongRecOn generalizing text with
  | ind n ih =>
    cases text with
    | nil => exact .last (Replaces.absent_nil hpat)
    | cons a rest =>
      rw [replace, replaceFrom]
      by_cases hstart : pat.isPrefixOf (a :: rest) = true
      · obtain ⟨after, hafter⟩ := List.isPrefixOf_iff_prefix.mp hstart
        have hpositive : 0 < pat.length := List.length_pos_of_ne_nil hpat
        have hdrop : rest.drop (pat.length - 1) = after := by
          obtain ⟨b, tail, rfl⟩ := List.exists_cons_of_ne_nil hpat
          obtain ⟨-, rfl⟩ := List.cons.inj hafter
          simp
        have hlt : after.length < n := by
          have := congrArg List.length hafter
          rw [List.length_append, hlength] at this
          omega
        rw [if_pos hstart, replaceFrom_drop, hdrop, ← hafter]
        exact @Replaces.next _ pat out [] _ _ (Replaces.absent_nil hpat) (ih _ hlt after rfl)
      · have hlt : rest.length < n := by
          rw [← hlength]
          exact Nat.lt_succ_self _
        rw [if_neg hstart]
        exact (ih _ hlt rest rfl).cons fun hpre => hstart (List.isPrefixOf_iff_prefix.mpr hpre)

/-- Without an occurrence nothing is replaced. -/
theorem Replaces.eq_of_absent {pat out text result : List α} (h : Replaces pat out text result)
    (hnot : ¬pat <:+: text) : result = text := by
  cases h with
  | last => rfl
  | @next piece rest => exact absurd ⟨piece, rest, rfl⟩ hnot

/-- With an occurrence, what it is replaced by occurs in the result. -/
theorem Replaces.occurs_out {pat out text result : List α} (h : Replaces pat out text result) (hoccurs : pat <:+: text) :
    out <:+: result := by
  cases h with
  | last hpiece => exact absurd hoccurs hpiece
  | @next piece rest result => exact ⟨piece, result, rfl⟩

/-! ### What occurs afterwards -/

/-- An occurrence of `p` ends before `fence` or begins after it. -/
def Fenced (fence p : List α) : Prop := ∀ l r : List α, p <:+: l ++ fence ++ r → p <:+: l ∨ p <:+: r

/-- Whether `p` ends with something that `q` begins with. -/
def Touches (p q : List α) : Prop := ∃ part ≠ [], part <:+ p ∧ part <+: q

instance [DecidableEq α] (p q : List α) : Decidable (Touches p q) :=
  decidable_of_iff (∃ part ∈ p.tails, part ≠ [] ∧ part <+: q) <| by
    simp only [List.mem_tails]
    exact ⟨fun ⟨part, hend, hne, hstart⟩ => ⟨part, hne, hend, hstart⟩, fun ⟨part, hne, hend, hstart⟩ => ⟨part, hend, hne, hstart⟩⟩

/-- **A fence for a pattern**: neither is in the other, and they do not touch. -/
theorem fenced_iff {fence p : List α} (hfence : fence ≠ []) (hp : p ≠ []) :
    Fenced fence p ↔ ¬p <:+: fence ∧ ¬fence <:+: p ∧ ¬Touches p fence ∧ ¬Touches fence p := by
  constructor
  · intro h
    have hlong {l r : List α} (hpart : p <:+: l ++ fence ++ r) (hl : l.length < p.length) (hr : r.length < p.length) : False :=
      (h l r hpart).elim (fun hleft => absurd hleft.length_le (by omega)) fun hright => absurd hright.length_le (by omega)
    have hpos := List.length_pos_of_ne_nil hp
    have hpos' := List.length_pos_of_ne_nil hfence
    refine ⟨fun hin => ?_, fun ⟨l, r, hout⟩ => ?_, fun ⟨part, hne, ⟨before, hend⟩, ⟨after, hstart⟩⟩ => ?_,
      fun ⟨part, hne, ⟨before, hend⟩, ⟨after, hstart⟩⟩ => ?_⟩
    · exact @hlong [] [] (by simpa using hin) hpos hpos
    · have hlength := congrArg List.length hout
      simp only [List.length_append] at hlength
      exact @hlong l r (hout ▸ List.infix_rfl) (by omega) (by omega)
    · have hlength := congrArg List.length hend
      have hpart := List.length_pos_of_ne_nil hne
      rw [List.length_append] at hlength
      exact @hlong before [] ⟨[], after, by rw [← hend, ← hstart]; simp⟩ (by omega) hpos
    · have hlength := congrArg List.length hstart
      have hpart := List.length_pos_of_ne_nil hne
      rw [List.length_append] at hlength
      exact @hlong [] after ⟨before, [], by rw [← hend, ← hstart]; simp⟩ hpos (by omega)
  · rintro ⟨hin, hout, hbefore, hafter⟩ l r ⟨before, after, h⟩
    rw [List.append_assoc, List.append_assoc] at h
    obtain ⟨middle, rfl, hmiddle⟩ | ⟨middle, rfl, hmiddle⟩ := List.append_eq_append_iff.mp h
    · -- the occurrence begins before the fence
      obtain ⟨more, rfl, hmore⟩ | ⟨more, rfl, hmore⟩ := List.append_eq_append_iff.mp hmiddle
      · exact .inl ⟨before, more, by simp⟩
      · by_cases hnil : more = []
        · exact .inl ⟨before, [], by simp [hnil]⟩
        · obtain ⟨rest, rfl, -⟩ | ⟨rest, rfl, -⟩ := List.append_eq_append_iff.mp hmore
          · exact absurd ⟨middle, rest, by simp⟩ hout
          · exact absurd ⟨more, hnil, ⟨middle, rfl⟩, ⟨rest, rfl⟩⟩ hbefore
    · -- it begins within the fence, or after it
      obtain ⟨more, rfl, hmore⟩ | ⟨more, rfl, hmore⟩ := List.append_eq_append_iff.mp hmiddle
      · exact .inr ⟨more, after, by rw [hmore]; simp⟩
      · by_cases hnil : more = []
        · exact .inr ⟨[], after, by simpa [hnil] using hmore⟩
        · obtain ⟨rest, rfl, -⟩ | ⟨rest, rfl, -⟩ := List.append_eq_append_iff.mp hmore
          · exact absurd ⟨middle, rest, by simp⟩ hin
          · exact absurd ⟨more, hnil, ⟨middle, rfl⟩, ⟨rest, rfl⟩⟩ hafter

/-- What is read off the result, letter by letter, occurs in the text as well. -/
theorem Replaces.occurs_map {pat out text result : List α} (h : Replaces pat out text result) {f : α → β} {p : List β}
    (hfence : Fenced (out.map f) p) (hoccurs : p <:+: result.map f) : p <:+: text.map f := by
  induction h with
  | last => exact hoccurs
  | @next piece rest result hpiece h ih =>
    rw [List.map_append, List.map_append] at hoccurs ⊢
    rcases hfence _ _ hoccurs with hleft | hright
    · exact hleft.trans ⟨[], pat.map f ++ rest.map f, by simp⟩
    · exact (ih hright).trans ⟨piece.map f ++ pat.map f, [], by simp⟩

theorem Replaces.occurs {pat out text result : List α} (h : Replaces pat out text result) {p : List α}
    (hfence : Fenced out p) (hoccurs : p <:+: result) : p <:+: text := by
  have hmap := h.occurs_map (f := id) (p := p) (by simpa using hfence) (by simpa using hoccurs)
  simpa using hmap

/-- **The pattern is gone**, where it cannot touch what it is replaced by. -/
theorem Replaces.removed {pat out text result : List α} (h : Replaces pat out text result) (hfence : Fenced out pat) :
    ¬pat <:+: result := by
  induction h with
  | last hpiece => exact hpiece
  | @next piece rest result hpiece h ih => exact fun hoccurs => (hfence _ _ hoccurs).elim hpiece ih

end Apmpr.Replace
