import Apmpr.Lib.Compare
import Apmpr.Lib.Text
import Mathlib.Data.Sum.Order
import Mathlib.Order.WithBot

/-!
# Semantic versions

Versions after Semantic Versioning 2.0: three numbers, identifiers of a prerelease after a
hyphen, and identifiers of a build after a plus sign (`SemVer`), their text, and their
precedence, a key in a linear order. The build has no part in the precedence; a release comes
after its prereleases; identifiers of a prerelease are compared one after another, numbers by
their values and before everything else.

A numeric identifier may start with zeros here, which Semantic Versioning excludes; it counts as
its value.
-/

namespace Apmpr

/-- The digits of a number without zeros in front. -/
structure IsNumber (digits : List Char) : Prop where
  ne_nil : digits ≠ []
  digit : ∀ c ∈ digits, Text.isAsciiDigit c = true
  no_zero : digits = ['0'] ∨ digits.head? ≠ some '0'

/-- An identifier of a prerelease or of a build. -/
structure IsIdentifier (id : List Char) : Prop where
  ne_nil : id ≠ []
  char : ∀ c ∈ id, Text.isAsciiAlphanumeric c = true ∨ c = '-'

/-- A semantic version, its parts as texts. -/
structure SemVer where
  major : List Char
  minor : List Char
  patch : List Char
  prerelease : List (List Char)
  build : List (List Char)
  major_number : IsNumber major
  minor_number : IsNumber minor
  patch_number : IsNumber patch
  prerelease_ids : ∀ id ∈ prerelease, IsIdentifier id
  build_ids : ∀ id ∈ build, IsIdentifier id

/-- Texts with dots between them. -/
def dotted : List (List Char) → List Char
  | [] => []
  | [last] => last
  | part :: next :: rest => part ++ '.' :: dotted (next :: rest)

/-- A precedence: the numbers, and then a release last or the identifiers of a prerelease. -/
abbrev Precedence := ℕ ×ₗ ℕ ×ₗ ℕ ×ₗ WithTop (List (ℕ ⊕ₗ String))

namespace SemVer

/-- The three numbers as they are written. -/
def core (v : SemVer) : List Char := dotted [v.major, v.minor, v.patch]

/-- What follows a separator, if there is something. -/
def suffix (separator : Char) (ids : List (List Char)) : List Char :=
  if ids = [] then [] else separator :: dotted ids

/-- The version as it is written. -/
def text (v : SemVer) : List Char := v.core ++ (suffix '-' v.prerelease ++ suffix '+' v.build)

/-- The value of digits. -/
def value (digits : List Char) : ℕ := Nat.ofDigitChars 10 digits 0

/-- An identifier that has nothing but digits is a number. -/
def isNumeric (id : List Char) : Bool := id.all Text.isAsciiDigit

/-- How an identifier is compared. -/
def identifier (id : List Char) : ℕ ⊕ₗ String :=
  if isNumeric id then Sum.inlₗ (value id) else Sum.inrₗ (String.ofList id)

/-- How a prerelease is compared, and a release, which has none. -/
def stage (ids : List (List Char)) : WithTop (List (ℕ ⊕ₗ String)) :=
  if ids = [] then ⊤ else ((ids.map identifier : List (ℕ ⊕ₗ String)) : WithTop (List (ℕ ⊕ₗ String)))

/-- The precedence of a version. -/
def precedence (v : SemVer) : Precedence :=
  toLex (value v.major, toLex (value v.minor, toLex (value v.patch, stage v.prerelease)))

end SemVer

/-! ### Dots -/

theorem Text.splitOnceChars_eq_none_iff {c : Char} {text : List Char} :
    Text.splitOnceChars c text = none ↔ c ∉ text := by
  induction text with
  | nil => simp [Text.splitOnceChars]
  | cons a text ih =>
    rw [Text.splitOnceChars]
    split_ifs with heq
    · simp [heq]
    · rw [Option.map_eq_none_iff, ih, List.mem_cons, not_or]
      exact ⟨fun h => ⟨fun hc => heq hc.symm, h⟩, And.right⟩

/-- What has no separator stays before the first one. -/
theorem Text.splitOnceChars_append_left {c : Char} {before : List Char} (h : c ∉ before) (text : List Char) :
    Text.splitOnceChars c (before ++ text) = (Text.splitOnceChars c text).map fun parts => (before ++ parts.1, parts.2) := by
  cases hsplit : Text.splitOnceChars c text with
  | none =>
    have hnot := Text.splitOnceChars_eq_none_iff.mp hsplit
    rw [Option.map_none, Text.splitOnceChars_eq_none_iff, List.mem_append, not_or]
    exact ⟨h, hnot⟩
  | some parts =>
    obtain ⟨hnot, htext⟩ := Text.splitOnceChars_of_eq_some hsplit
    rw [htext, ← List.append_assoc, Text.splitOnceChars_append fun hmem => (List.mem_append.mp hmem).elim h hnot]
    rfl

theorem splitChars_dotted {ids : List (List Char)} (hne : ids ≠ []) (hdot : ∀ id ∈ ids, '.' ∉ id) :
    Text.splitChars '.' (dotted ids) = ids := by
  induction ids with
  | nil => exact absurd rfl hne
  | cons id rest ih =>
    obtain ⟨hid, hrest⟩ := List.forall_mem_cons.mp hdot
    cases rest with
    | nil => rw [dotted, Text.splitChars_of_not_mem hid]
    | cons next rest =>
      rw [dotted, Text.splitChars_append_cons, Text.splitChars_of_not_mem hid, ih (List.cons_ne_nil _ _) hrest]
      rfl

theorem dotted_splitChars (text : List Char) : dotted (Text.splitChars '.' text) = text := by
  induction text with
  | nil => rfl
  | cons c text ih =>
    obtain ⟨first, parts, hparts⟩ := List.exists_cons_of_ne_nil (Text.splitChars_ne_nil '.' text)
    rw [hparts] at ih
    rw [Text.splitChars, hparts]
    split_ifs with hdot
    · rw [dotted, ih, hdot, List.nil_append]
    · cases parts with
      | nil => rw [dotted] at ih ⊢; rw [ih]
      | cons next rest => rw [dotted] at ih ⊢; rw [List.cons_append, ih]

theorem mem_dotted {ids : List (List Char)} {c : Char} (h : c ∈ dotted ids) : c = '.' ∨ ∃ id ∈ ids, c ∈ id := by
  induction ids with
  | nil => cases h
  | cons id rest ih =>
    cases rest with
    | nil => exact .inr ⟨id, List.mem_cons_self, h⟩
    | cons next rest =>
      rw [dotted, List.mem_append, List.mem_cons] at h
      rcases h with h | rfl | h
      · exact .inr ⟨id, List.mem_cons_self, h⟩
      · exact .inl rfl
      · rcases ih h with hdot | ⟨other, hother, hc⟩
        · exact .inl hdot
        · exact .inr ⟨other, List.mem_cons_of_mem _ hother, hc⟩

namespace IsIdentifier

variable {id : List Char}

theorem not_mem (h : IsIdentifier id) {c : Char} (hc : Text.isAsciiAlphanumeric c = false) (hhyphen : c ≠ '-') :
    c ∉ id := by
  intro hmem
  rcases h.char c hmem with halnum | heq
  · rw [hc] at halnum
    cases halnum
  · exact hhyphen heq

end IsIdentifier

theorem IsNumber.not_mem {digits : List Char} (h : IsNumber digits) {c : Char} (hc : Text.isAsciiDigit c = false) :
    c ∉ digits := by
  intro hmem
  rw [h.digit c hmem] at hc
  cases hc

namespace SemVer

variable (v : SemVer)

/-- The numbers of a version are before everything with a hyphen or a plus sign. -/
theorem not_mem_core {c : Char} (hc : Text.isAsciiDigit c = false) (hdot : c ≠ '.') : c ∉ v.core := by
  intro hmem
  rcases mem_dotted hmem with heq | ⟨part, hpart, hmem⟩
  · exact hdot heq
  · simp only [List.mem_cons, List.not_mem_nil, or_false] at hpart
    rcases hpart with rfl | rfl | rfl
    · exact v.major_number.not_mem hc hmem
    · exact v.minor_number.not_mem hc hmem
    · exact v.patch_number.not_mem hc hmem

theorem not_mem_dotted {ids : List (List Char)} (hids : ∀ id ∈ ids, IsIdentifier id) {c : Char}
    (hc : Text.isAsciiAlphanumeric c = false) (hhyphen : c ≠ '-') (hdot : c ≠ '.') : c ∉ dotted ids := by
  intro hmem
  rcases mem_dotted hmem with heq | ⟨id, hid, hmem⟩
  · exact hdot heq
  · exact (hids id hid).not_mem hc hhyphen hmem

end SemVer

end Apmpr
