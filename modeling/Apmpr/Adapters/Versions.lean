import Apmpr.Lib.SemVer

/-!
# Versions of adapters

`is_semantic_version` and `compare_semantic_versions` of the crate `apmpr-adapter-sdk`. The two
take a version apart on their own: the first one finds the build after the first plus sign and
the prerelease after the first hyphen before it, the second one looks for the first hyphen
anywhere, and reads numbers as 64-bit ones.

`isSemanticVersion_iff` says that exactly the texts of a `SemVer` are accepted: semantic versions,
and those with zeros in front of a number in the prerelease.
`compareSemanticVersions_eq` says that the comparison is always that of a key (`readKey`), which
is missing, so that the comparison panics, where one of the three numbers is too large; and
`readKey_eq_precedence` that the key is the precedence of a version that is read right: its
numbers fit, and it has no hyphen in its build if it has no prerelease.
-/

namespace Apmpr.Adapters

open Text (splitChars splitOnceChars)

/-! ### Acceptance -/

/-- A text and what follows the first separator in it, if there is one. -/
def splitSuffix (separator : Char) (text : List Char) : List Char × Option (List Char) :=
  match splitOnceChars separator text with
  | some (before, after) => (before, some after)
  | none => (text, none)

/-- `valid_number`. -/
def validNumber (part : List Char) : Bool :=
  !part.isEmpty && part.all Text.isAsciiDigit && (part = ['0'] || part.head? ≠ some '0')

/-- Three numbers with dots between them. -/
def validCore (core : List Char) : Bool :=
  match splitChars '.' core with
  | [major, minor, patch] => validNumber major && validNumber minor && validNumber patch
  | _ => false

/-- `identifiers_valid`. -/
def identifiersValid : Option (List Char) → Bool
  | none => true
  | some suffix =>
    !suffix.isEmpty && (splitChars '.' suffix).all fun identifier =>
      !identifier.isEmpty && identifier.all fun c => Text.isAsciiAlphanumeric c || c = '-'

/-- `is_semantic_version`. -/
def isSemanticVersion (value : String) : Bool :=
  let (withoutBuild, build) := splitSuffix '+' value.toList
  let (core, prerelease) := splitSuffix '-' withoutBuild
  validCore core && identifiersValid prerelease && identifiersValid build

/-! ### Comparison -/

/-- `str::parse::<u64>`. -/
def parseU64 (text : List Char) : Option ℕ :=
  let digits := if text.head? = some '+' then text.tail else text
  if !digits.isEmpty && SemVer.isNumeric digits && SemVer.value digits < 2 ^ 64 then some (SemVer.value digits) else none

/-- `core`; there is nothing where it panics. -/
def core (version : String) : Option (ℕ × ℕ × ℕ) :=
  match splitChars '.' (version.toList.takeWhile fun c => c ≠ '-' && c ≠ '+') with
  | major :: minor :: patch :: _ => do return (← parseU64 major, ← parseU64 minor, ← parseU64 patch)
  | _ => none

/-- `prerelease`. -/
def prerelease (version : String) : Option (List Char) :=
  (splitOnceChars '-' version.toList).map fun parts => parts.2.takeWhile (· ≠ '+')

/-- The order of two identifiers. -/
def compareIdentifiers (left right : List Char) : Ordering :=
  match parseU64 left, parseU64 right with
  | some l, some r => compare l r
  | some _, none => .lt
  | none, some _ => .gt
  | none, none => compare (String.ofList left) (String.ofList right)

/-- `compare_prerelease`, after the split at dots. -/
def comparePrerelease : List (List Char) → List (List Char) → Ordering
  | [], [] => .eq
  | [], _ :: _ => .lt
  | _ :: _, [] => .gt
  | left :: lefts, right :: rights =>
    let ordering := compareIdentifiers left right
    if ordering ≠ .eq then ordering else comparePrerelease lefts rights

/-- A release comes after its prereleases. -/
def compareStages (left right : Option (List Char)) : Ordering :=
  match left, right with
  | none, none => .eq
  | none, some _ => .gt
  | some _, none => .lt
  | some left, some right => comparePrerelease (splitChars '.' left) (splitChars '.' right)

/-- `compare_semantic_versions`; there is nothing where it panics. -/
def compareSemanticVersions (left right : String) : Option Ordering := do
  let l ← core left
  let r ← core right
  return (((compare l.1 r.1).then (compare l.2.1 r.2.1)).then (compare l.2.2 r.2.2)).then
    (compareStages (prerelease left) (prerelease right))

/-! ### What is accepted -/

theorem validNumber_iff {part : List Char} : validNumber part = true ↔ IsNumber part := by
  rw [validNumber, Bool.and_eq_true, Bool.and_eq_true, List.all_eq_true, Bool.not_eq_true', List.isEmpty_eq_false_iff,
    Bool.or_eq_true, decide_eq_true_eq, decide_eq_true_eq]
  exact ⟨fun ⟨⟨hne, hdigit⟩, hzero⟩ => ⟨hne, hdigit, hzero⟩, fun ⟨hne, hdigit, hzero⟩ => ⟨⟨hne, hdigit⟩, hzero⟩⟩

theorem validCore_iff {text : List Char} : validCore text = true ↔ ∃ major minor patch,
    text = dotted [major, minor, patch] ∧ IsNumber major ∧ IsNumber minor ∧ IsNumber patch := by
  rw [validCore]
  constructor
  · intro h
    split at h
    · rename_i major minor patch hsplit
      simp only [Bool.and_eq_true, validNumber_iff] at h
      refine ⟨major, minor, patch, ?_, h.1.1, h.1.2, h.2⟩
      rw [← hsplit, dotted_splitChars]
    · cases h
  · rintro ⟨major, minor, patch, rfl, hmajor, hminor, hpatch⟩
    have hdot : ∀ part ∈ [major, minor, patch], '.' ∉ part := by
      simp [hmajor.not_mem, hminor.not_mem, hpatch.not_mem, Text.isAsciiDigit]
    rw [splitChars_dotted (List.cons_ne_nil _ _) hdot]
    simp [validNumber_iff, hmajor, hminor, hpatch]

theorem isIdentifier_iff {id : List Char} :
    (!id.isEmpty && id.all fun c => Text.isAsciiAlphanumeric c || c = '-') = true ↔ IsIdentifier id := by
  rw [Bool.and_eq_true, Bool.not_eq_true', List.isEmpty_eq_false_iff, List.all_eq_true]
  simp only [Bool.or_eq_true, decide_eq_true_eq]
  exact ⟨fun ⟨hne, hchar⟩ => ⟨hne, hchar⟩, fun ⟨hne, hchar⟩ => ⟨hne, hchar⟩⟩

theorem identifiersValid_some_iff {text : List Char} : identifiersValid (some text) = true ↔
    ∃ ids, ids ≠ [] ∧ text = dotted ids ∧ ∀ id ∈ ids, IsIdentifier id := by
  rw [identifiersValid, Bool.and_eq_true, List.all_eq_true]
  simp only [isIdentifier_iff]
  constructor
  · rintro ⟨-, hids⟩
    exact ⟨splitChars '.' text, Text.splitChars_ne_nil '.' text, (dotted_splitChars text).symm, hids⟩
  · rintro ⟨ids, hne, rfl, hids⟩
    have hdot : ∀ id ∈ ids, '.' ∉ id := fun id hid => (hids id hid).not_mem (by decide) (by decide)
    rw [splitChars_dotted hne hdot]
    refine ⟨?_, hids⟩
    obtain ⟨id, rest, rfl⟩ := List.exists_cons_of_ne_nil hne
    obtain ⟨c, hc⟩ := List.exists_mem_of_ne_nil _ (hids id List.mem_cons_self).ne_nil
    have hmem : c ∈ dotted (id :: rest) := by
      cases rest with
      | nil => exact hc
      | cons next rest => exact List.mem_append_left _ hc
    simpa using List.ne_nil_of_mem hmem

/-- A suffix is valid if it is nothing, or identifiers with dots between them. -/
theorem identifiersValid_iff {suffix : Option (List Char)} : identifiersValid suffix = true ↔
    ∃ ids, (∀ id ∈ ids, IsIdentifier id) ∧ suffix = if ids = [] then none else some (dotted ids) := by
  cases suffix with
  | none =>
    refine iff_of_true rfl ⟨[], by simp, rfl⟩
  | some text =>
    rw [identifiersValid_some_iff]
    constructor
    · rintro ⟨ids, hne, rfl, hids⟩
      exact ⟨ids, hids, by rw [if_neg hne]⟩
    · rintro ⟨ids, hids, hsome⟩
      by_cases hne : ids = []
      · simp [hne] at hsome
      · rw [if_neg hne] at hsome
        exact ⟨ids, hne, Option.some.inj hsome, hids⟩

/-- A text is split where its suffix starts. -/
theorem splitSuffix_iff {separator : Char} {text before : List Char} {after : Option (List Char)} :
    splitSuffix separator text = (before, after) ↔
      separator ∉ before ∧ text = before ++ (after.map (separator :: ·)).getD [] := by
  rw [splitSuffix]
  constructor
  · intro h
    split at h
    · rename_i first rest hsplit
      obtain ⟨rfl, rfl⟩ := Prod.mk.inj h
      exact Text.splitOnceChars_of_eq_some hsplit
    · rename_i hsplit
      obtain ⟨rfl, rfl⟩ := Prod.mk.inj h
      exact ⟨Text.splitOnceChars_eq_none_iff.mp hsplit, by simp⟩
  · rintro ⟨hnot, rfl⟩
    cases after with
    | none =>
      rw [Option.map_none, Option.getD_none, List.append_nil, Text.splitOnceChars_eq_none_iff.mpr hnot]
    | some rest => rw [Option.map_some, Option.getD_some, Text.splitOnceChars_append hnot]

theorem getD_suffix (separator : Char) (ids : List (List Char)) :
    ((if ids = [] then none else some (dotted ids)).map (separator :: ·)).getD [] = SemVer.suffix separator ids := by
  rw [SemVer.suffix]
  split_ifs <;> rfl

/-- A version is taken apart into its parts. -/
theorem splitSuffix_text (v : SemVer) :
    splitSuffix '+' v.text =
        (v.core ++ SemVer.suffix '-' v.prerelease, if v.build = [] then none else some (dotted v.build)) ∧
      splitSuffix '-' (v.core ++ SemVer.suffix '-' v.prerelease) =
        (v.core, if v.prerelease = [] then none else some (dotted v.prerelease)) := by
  have hplus : '+' ∉ v.core ++ SemVer.suffix '-' v.prerelease := by
    rw [SemVer.suffix, List.mem_append, not_or]
    refine ⟨v.not_mem_core (by decide) (by decide), ?_⟩
    split_ifs
    · exact List.not_mem_nil
    · exact List.not_mem_cons_of_ne_of_not_mem (by decide)
        (SemVer.not_mem_dotted v.prerelease_ids (by decide) (by decide) (by decide))
  rw [splitSuffix_iff, getD_suffix, splitSuffix_iff, getD_suffix, SemVer.text, List.append_assoc]
  exact ⟨⟨hplus, rfl⟩, v.not_mem_core (by decide) (by decide), rfl⟩

/-- **Exactly semantic versions are accepted**, with zeros in front of the numbers of a prerelease. -/
theorem isSemanticVersion_iff {value : String} :
    isSemanticVersion value = true ↔ ∃ v : SemVer, v.text = value.toList := by
  constructor
  · intro h
    rw [isSemanticVersion] at h
    rcases hbuild : splitSuffix '+' value.toList with ⟨withoutBuild, build⟩
    rcases hprerelease : splitSuffix '-' withoutBuild with ⟨core, prerelease⟩
    rw [hbuild] at h
    dsimp only at h
    rw [hprerelease] at h
    simp only [Bool.and_eq_true, validCore_iff, identifiersValid_iff] at h
    obtain ⟨⟨⟨major, minor, patch, rfl, hmajor, hminor, hpatch⟩, ids, hids, rfl⟩, builds, hbuilds, rfl⟩ := h
    refine ⟨⟨major, minor, patch, ids, builds, hmajor, hminor, hpatch, hids, hbuilds⟩, ?_⟩
    rw [(splitSuffix_iff.mp hbuild).2, (splitSuffix_iff.mp hprerelease).2, getD_suffix, getD_suffix, List.append_assoc]
    rfl
  · rintro ⟨v, hv⟩
    rw [isSemanticVersion, ← hv, (splitSuffix_text v).1]
    dsimp only
    rw [(splitSuffix_text v).2]
    simp only [Bool.and_eq_true, validCore_iff, identifiersValid_iff]
    exact ⟨⟨⟨_, _, _, rfl, v.major_number, v.minor_number, v.patch_number⟩, _, v.prerelease_ids, rfl⟩, _, v.build_ids, rfl⟩

/-- Identifiers are told by their text. -/
theorem ids_eq {ids ids' : List (List Char)} (hids : ∀ id ∈ ids, IsIdentifier id) (hids' : ∀ id ∈ ids', IsIdentifier id)
    (h : (if ids = [] then none else some (dotted ids)) = if ids' = [] then none else some (dotted ids')) : ids = ids' := by
  have hdot : ∀ {ids : List (List Char)}, (∀ id ∈ ids, IsIdentifier id) → ∀ id ∈ ids, '.' ∉ id :=
    fun hids id hid => (hids id hid).not_mem (by decide) (by decide)
  split_ifs at h with hne hne' hne'
  · rw [hne, hne']
  · rw [← splitChars_dotted hne (hdot hids), Option.some.inj h, splitChars_dotted hne' (hdot hids')]

/-- A text is that of one version only. -/
theorem text_injective : Function.Injective SemVer.text := by
  intro v w h
  have hbuild := (splitSuffix_text v).1
  rw [h, (splitSuffix_text w).1] at hbuild
  obtain ⟨hwithout, hbuild⟩ := Prod.mk.inj hbuild
  have hprerelease := (splitSuffix_text v).2
  rw [← hwithout, (splitSuffix_text w).2] at hprerelease
  obtain ⟨hcore, hprerelease⟩ := Prod.mk.inj hprerelease
  have hparts : ∀ u : SemVer, splitChars '.' u.core = [u.major, u.minor, u.patch] := fun u =>
    splitChars_dotted (List.cons_ne_nil _ _)
      (by simp [u.major_number.not_mem, u.minor_number.not_mem, u.patch_number.not_mem, Text.isAsciiDigit])
  have hnumbers := hparts v
  rw [← hcore, hparts w] at hnumbers
  simp only [List.cons.injEq, and_true] at hnumbers
  have hids := ids_eq w.prerelease_ids v.prerelease_ids hprerelease
  have hbuilds := ids_eq w.build_ids v.build_ids hbuild
  cases v
  cases w
  simp_all

/-! ### What the comparison reads -/

/-- How the comparison reads an identifier: as a number only if it fits. -/
def parsedIdentifier (id : List Char) : ℕ ⊕ₗ String :=
  match parseU64 id with
  | some n => Sum.inlₗ n
  | none => Sum.inrₗ (String.ofList id)

/-- How it reads what comes after a hyphen. -/
def readStage : Option (List Char) → WithTop (List (ℕ ⊕ₗ String))
  | none => ⊤
  | some text => (((splitChars '.' text).map parsedIdentifier : List (ℕ ⊕ₗ String)) : WithTop (List (ℕ ⊕ₗ String)))

/-- What the comparison makes of a version; there is nothing where it panics. -/
def readKey (version : String) : Option Precedence :=
  (core version).map fun n => toLex (n.1, toLex (n.2.1, toLex (n.2.2, readStage (prerelease version))))

theorem compareIdentifiers_compares (left right : List Char) :
    (compareIdentifiers left right).Compares (parsedIdentifier left) (parsedIdentifier right) := by
  rw [compareIdentifiers, parsedIdentifier, parsedIdentifier]
  cases parseU64 left with
  | some l =>
    cases parseU64 right with
    | some r =>
      dsimp only
      cases hcompare : compare l r with
      | lt => exact Sum.Lex.inl_lt_inl_iff.mpr (compare_lt_iff_lt.mp hcompare)
      | eq => exact congrArg Sum.inlₗ (compare_eq_iff_eq.mp hcompare)
      | gt => exact Sum.Lex.inl_lt_inl_iff.mpr (compare_gt_iff_gt.mp hcompare)
    | none => exact Sum.Lex.inl_lt_inr _ _
  | none =>
    cases parseU64 right with
    | some r => exact Sum.Lex.inl_lt_inr _ _
    | none =>
      dsimp only
      cases hcompare : compare (String.ofList left) (String.ofList right) with
      | lt => exact Sum.Lex.inr_lt_inr_iff.mpr (compare_lt_iff_lt.mp hcompare)
      | eq => exact congrArg Sum.inrₗ (compare_eq_iff_eq.mp hcompare)
      | gt => exact Sum.Lex.inr_lt_inr_iff.mpr (compare_gt_iff_gt.mp hcompare)

/-- Identifiers are compared one after another, and a shorter list comes first. -/
theorem comparePrerelease_compares (left right : List (List Char)) :
    (comparePrerelease left right).Compares (left.map parsedIdentifier) (right.map parsedIdentifier) := by
  induction left generalizing right with
  | nil =>
    cases right with
    | nil => exact rfl
    | cons r rights => exact List.nil_lt_cons _ _
  | cons l lefts ih =>
    cases right with
    | nil => exact List.nil_lt_cons _ _
    | cons r rights =>
      have hfirst := compareIdentifiers_compares l r
      have hrest := ih rights
      rw [comparePrerelease, List.map_cons, List.map_cons]
      cases hid : compareIdentifiers l r with
      | lt =>
        rw [hid] at hfirst
        exact List.cons_lt_cons_iff.mpr (.inl hfirst)
      | gt =>
        rw [hid] at hfirst
        exact List.cons_lt_cons_iff.mpr (.inl hfirst)
      | eq =>
        rw [hid] at hfirst
        rw [hfirst]
        cases hids : comparePrerelease lefts rights with
        | lt =>
          rw [hids] at hrest
          exact List.cons_lt_cons_iff.mpr (.inr ⟨rfl, hrest⟩)
        | gt =>
          rw [hids] at hrest
          exact List.cons_lt_cons_iff.mpr (.inr ⟨rfl, hrest⟩)
        | eq =>
          rw [hids] at hrest
          exact congrArg _ hrest

theorem compareStages_eq (left right : Option (List Char)) :
    compareStages left right = compare (readStage left) (readStage right) := by
  refine Eq.symm ((compare_iff _ _).mpr ?_)
  unfold compareStages readStage
  cases left with
  | none =>
    cases right with
    | none => exact rfl
    | some r => exact WithTop.coe_lt_top _
  | some l =>
    cases right with
    | none => exact WithTop.coe_lt_top _
    | some r =>
      have hcompares := comparePrerelease_compares (splitChars '.' l) (splitChars '.' r)
      dsimp only
      cases hids : comparePrerelease (splitChars '.' l) (splitChars '.' r) with
      | lt =>
        rw [hids] at hcompares
        exact WithTop.coe_lt_coe.mpr hcompares
      | gt =>
        rw [hids] at hcompares
        exact WithTop.coe_lt_coe.mpr hcompares
      | eq =>
        rw [hids] at hcompares
        exact congrArg _ hcompares

/-- **The comparison is the one of what it reads.** -/
theorem compareSemanticVersions_eq : compareSemanticVersions = compareBy readKey := by
  funext left right
  rw [compareSemanticVersions, compareBy, readKey, readKey]
  cases core left with
  | none => rfl
  | some l =>
    cases core right with
    | none => rfl
    | some r =>
      change some (Ordering.then (Ordering.then (Ordering.then _ _) _) _) = some (Ordering.then _ (Ordering.then _ (Ordering.then _ _)))
      rw [compareStages_eq, Ordering.then_assoc, Ordering.then_assoc]
      rfl

/-! ### Versions that are read right -/

/-- The three numbers of a version are 64-bit ones. -/
def FitsCore (v : SemVer) : Prop :=
  SemVer.value v.major < 2 ^ 64 ∧ SemVer.value v.minor < 2 ^ 64 ∧ SemVer.value v.patch < 2 ^ 64

instance (v : SemVer) : Decidable (FitsCore v) := inferInstanceAs (Decidable (_ ∧ _))

/-- The comparison reads a version as what it is: its numbers are 64-bit ones, the ones among its
identifiers too, and a release has no hyphen in its build. -/
structure ReadRight (v : SemVer) : Prop where
  core : FitsCore v
  identifiers : ∀ id ∈ v.prerelease, SemVer.isNumeric id = true → SemVer.value id < 2 ^ 64
  release : v.prerelease = [] → '-' ∉ dotted v.build

section Reading

variable {version : String} {v : SemVer}

theorem parseU64_eq {text : List Char} (hne : text ≠ []) (hplus : '+' ∉ text) : parseU64 text =
    if SemVer.isNumeric text = true ∧ SemVer.value text < 2 ^ 64 then some (SemVer.value text) else none := by
  have hhead : text.head? ≠ some '+' := fun hhead => hplus (List.mem_of_mem_head? hhead)
  rw [parseU64, if_neg hhead]
  simp [hne]

theorem parseU64_of_isNumber {digits : List Char} (h : IsNumber digits) :
    parseU64 digits = if SemVer.value digits < 2 ^ 64 then some (SemVer.value digits) else none := by
  have hnumeric : SemVer.isNumeric digits = true := List.all_eq_true.mpr h.digit
  rw [parseU64_eq h.ne_nil (h.not_mem (by decide))]
  simp only [hnumeric, true_and]

theorem parsedIdentifier_eq {id : List Char} (hid : IsIdentifier id)
    (hfits : SemVer.isNumeric id = true → SemVer.value id < 2 ^ 64) : parsedIdentifier id = SemVer.identifier id := by
  rw [parsedIdentifier, SemVer.identifier, parseU64_eq hid.ne_nil (hid.not_mem (by decide) (by decide))]
  by_cases hnumeric : SemVer.isNumeric id = true
  · rw [if_pos ⟨hnumeric, hfits hnumeric⟩, if_pos hnumeric]
  · rw [if_neg fun h => hnumeric h.1, if_neg hnumeric]

/-- What is before the first hyphen or plus sign are the numbers. -/
theorem takeWhile_text (v : SemVer) : v.text.takeWhile (fun c => c ≠ '-' && c ≠ '+') = v.core := by
  have hcore : ∀ c ∈ v.core, (c ≠ '-' && c ≠ '+') = true := by
    intro c hc
    have hhyphen : c ≠ '-' := fun heq => v.not_mem_core (by decide) (by decide) (heq ▸ hc)
    have hplus : c ≠ '+' := fun heq => v.not_mem_core (by decide) (by decide) (heq ▸ hc)
    simp [hhyphen, hplus]
  rw [SemVer.text, List.takeWhile_append_of_pos hcore, SemVer.suffix, SemVer.suffix]
  split_ifs <;> simp

theorem core_of_text (hv : v.text = version.toList) : core version =
    if FitsCore v then some (SemVer.value v.major, SemVer.value v.minor, SemVer.value v.patch) else none := by
  have hdot : ∀ part ∈ [v.major, v.minor, v.patch], '.' ∉ part := by
    simp [v.major_number.not_mem, v.minor_number.not_mem, v.patch_number.not_mem, Text.isAsciiDigit]
  rw [core, ← hv, takeWhile_text, SemVer.core, splitChars_dotted (List.cons_ne_nil _ _) hdot]
  simp only [parseU64_of_isNumber v.major_number, parseU64_of_isNumber v.minor_number,
    parseU64_of_isNumber v.patch_number, FitsCore]
  by_cases hmajor : SemVer.value v.major < 2 ^ 64
  · by_cases hminor : SemVer.value v.minor < 2 ^ 64
    · by_cases hpatch : SemVer.value v.patch < 2 ^ 64
      · simp only [hmajor, hminor, hpatch]
        rfl
      · simp only [hmajor, hminor, hpatch]
        rfl
    · simp only [hmajor, hminor]
      rfl
  · simp only [hmajor]
    rfl

theorem prerelease_of_text (hv : v.text = version.toList) (hne : v.prerelease ≠ []) :
    prerelease version = some (dotted v.prerelease) := by
  have hplus : ∀ c ∈ dotted v.prerelease, decide (c ≠ '+') = true := by
    intro c hc
    have hmem := SemVer.not_mem_dotted v.prerelease_ids (show Text.isAsciiAlphanumeric '+' = false by decide)
      (by decide) (by decide)
    simpa using fun heq : c = '+' => hmem (heq ▸ hc)
  have hrest : SemVer.suffix '-' v.prerelease = '-' :: dotted v.prerelease := if_neg hne
  rw [prerelease, ← hv, SemVer.text, hrest, List.cons_append,
    Text.splitOnceChars_append (v.not_mem_core (by decide) (by decide)), Option.map_some,
    List.takeWhile_append_of_pos hplus, SemVer.suffix]
  split_ifs <;> simp

/-- Of a release the comparison reads what follows a hyphen in the build. -/
theorem prerelease_of_release (hv : v.text = version.toList) (hrelease : v.prerelease = []) :
    ('-' ∉ dotted v.build → prerelease version = none) ∧
      ('-' ∈ dotted v.build → ∃ after, prerelease version = some after ∧ ∀ c ∈ after, c ∈ dotted v.build) := by
  have hcore : '-' ∉ v.core := v.not_mem_core (by decide) (by decide)
  have htext : v.text = v.core ++ SemVer.suffix '+' v.build := by
    rw [SemVer.text, hrelease]
    rfl
  rw [prerelease, ← hv, htext, Text.splitOnceChars_append_left hcore]
  constructor
  · intro hbuild
    have hsuffix : '-' ∉ SemVer.suffix '+' v.build := by
      rw [SemVer.suffix]
      split_ifs
      · exact List.not_mem_nil
      · exact List.not_mem_cons_of_ne_of_not_mem (by decide) hbuild
    rw [Text.splitOnceChars_eq_none_iff.mpr hsuffix]
    rfl
  · intro hbuild
    have hne : v.build ≠ [] := by
      rintro hnil
      rw [hnil] at hbuild
      cases hbuild
    rw [SemVer.suffix, if_neg hne, ← List.singleton_append, Text.splitOnceChars_append_left (by decide)]
    cases hsplit : splitOnceChars '-' (dotted v.build) with
    | none => exact absurd hbuild (Text.splitOnceChars_eq_none_iff.mp hsplit)
    | some parts =>
      obtain ⟨before, after⟩ := parts
      refine ⟨_, rfl, fun c hc => ?_⟩
      rw [(Text.splitOnceChars_of_eq_some hsplit).2]
      exact List.mem_append_right _ (List.mem_cons_of_mem _ ((List.takeWhile_sublist _).mem hc))

/-- **A version that is read right is compared by its precedence.** -/
theorem readKey_eq_precedence (hv : v.text = version.toList) (h : ReadRight v) :
    readKey version = some v.precedence := by
  have hstage : readStage (prerelease version) = SemVer.stage v.prerelease := by
    by_cases hne : v.prerelease = []
    · rw [(prerelease_of_release hv hne).1 (h.release hne), SemVer.stage, if_pos hne]
      rfl
    · have hdot : ∀ id ∈ v.prerelease, '.' ∉ id := fun id hid =>
        (v.prerelease_ids id hid).not_mem (by decide) (by decide)
      have hids : v.prerelease.map parsedIdentifier = v.prerelease.map SemVer.identifier :=
        List.map_congr_left fun id hid => parsedIdentifier_eq (v.prerelease_ids id hid) (h.identifiers id hid)
      rw [prerelease_of_text hv hne, SemVer.stage, if_neg hne, readStage, splitChars_dotted hne hdot, hids]
  rw [readKey, core_of_text hv, if_pos h.core, hstage]
  rfl

theorem readKey_eq_none (hv : v.text = version.toList) (h : ¬ FitsCore v) : readKey version = none := by
  rw [readKey, core_of_text hv, if_neg h]
  rfl

/-! ### Versions that are read wrong -/

/-- A text is before a longer one of a character that comes after all of its own. -/
theorem lt_replicate {text : List Char} {c : Char} (h : ∀ d ∈ text, d ≤ c) :
    text < List.replicate (text.length + 1) c := by
  induction text with
  | nil => exact List.nil_lt_cons _ _
  | cons d text ih =>
    obtain ⟨hd, hrest⟩ := List.forall_mem_cons.mp h
    rw [List.length_cons, List.replicate_succ, List.cons_lt_cons_iff]
    rcases hd.lt_or_eq with hlt | heq
    · exact .inl hlt
    · exact .inr ⟨heq, ih hrest⟩

theorem le_z_of_identifier {c : Char} (h : Text.isAsciiAlphanumeric c = true ∨ c = '-') : c ≤ 'z' := by
  rcases h with h | rfl
  · simp only [Text.isAsciiAlphanumeric, Text.isAsciiLower, Text.isAsciiUpper, Text.isAsciiDigit, Bool.or_eq_true,
      Bool.and_eq_true, decide_eq_true_eq] at h
    rcases h with (h | h) | h
    · exact h.2
    · exact h.2.trans (by decide)
    · exact h.2.trans (by decide)
  · decide

/-- The same numbers with other identifiers, and no build. -/
def withPrerelease (v : SemVer) (ids : List (List Char)) (hids : ∀ id ∈ ids, IsIdentifier id) : SemVer :=
  { v with prerelease := ids, build := [], prerelease_ids := hids, build_ids := by simp }

/-- The precedence with another stage. -/
def atStage (v : SemVer) (stage : WithTop (List (ℕ ⊕ₗ String))) : Precedence :=
  toLex (SemVer.value v.major, toLex (SemVer.value v.minor, toLex (SemVer.value v.patch, stage)))

theorem atStage_lt_iff {stage stage' : WithTop (List (ℕ ⊕ₗ String))} :
    atStage v stage < atStage v stage' ↔ stage < stage' := by
  simp [atStage, Prod.Lex.toLex_lt_toLex]

theorem precedence_eq (v : SemVer) : v.precedence = atStage v (SemVer.stage v.prerelease) := rfl

theorem precedence_withPrerelease {ids : List (List Char)} (hids : ∀ id ∈ ids, IsIdentifier id) :
    (withPrerelease v ids hids).precedence = atStage v (SemVer.stage ids) := rfl

theorem readKey_of_fits (hv : v.text = version.toList) (h : FitsCore v) :
    readKey version = some (atStage v (readStage (prerelease version))) := by
  rw [readKey, core_of_text hv, if_pos h]
  rfl

/-- A version is read wrong next to another one: it has no key, or it is on the other side. -/
def Misread (version : String) (v w : SemVer) : Prop :=
  ∀ key ∈ readKey version, key < w.precedence ∧ w.precedence < v.precedence ∨ w.precedence < key ∧ v.precedence < w.precedence

/-- A number among the identifiers that does not fit is compared as a text. -/
theorem exists_rival_of_identifier (hv : v.text = version.toList) (hfits : FitsCore v)
    (hwrong : ∃ id ∈ v.prerelease, SemVer.isNumeric id = true ∧ ¬ SemVer.value id < 2 ^ 64) :
    ∃ w, ReadRight w ∧ Misread version v w := by
  obtain ⟨bad, hbad, hnumeric, hlarge⟩ := hwrong
  -- the first one decides, and a hyphen is a text before it
  have hfound : (v.prerelease.find? fun id => SemVer.isNumeric id && !decide (SemVer.value id < 2 ^ 64)).isSome = true :=
    List.find?_isSome.mpr ⟨bad, hbad, by simpa [hnumeric] using hlarge⟩
  obtain ⟨id, hfound⟩ := Option.isSome_iff_exists.mp hfound
  obtain ⟨hid, before, rest, hsplit, hbefore⟩ := List.find?_eq_some_iff_append.mp hfound
  simp only [Bool.and_eq_true, Bool.not_eq_true', decide_eq_false_iff_not] at hid
  have hhyphen : IsIdentifier ['-'] := ⟨by simp, by simp⟩
  have hids : ∀ other ∈ before ++ [['-']], IsIdentifier other := by
    intro other hother
    rcases List.mem_append.mp hother with hother | hother
    · exact v.prerelease_ids other (by rw [hsplit]; exact List.mem_append_left _ hother)
    · rw [List.mem_singleton.mp hother]
      exact hhyphen
  have hsmall : ∀ other ∈ before, SemVer.isNumeric other = true → SemVer.value other < 2 ^ 64 := by
    intro other hother hdigits
    have hnot := hbefore other hother
    simpa [hdigits] using hnot
  have hnotNumeric : SemVer.isNumeric ['-'] = false := by decide
  have hright : ReadRight (withPrerelease v (before ++ [['-']]) hids) := by
    refine ⟨hfits, fun other hother hdigits => ?_, fun _ => List.not_mem_nil⟩
    rcases List.mem_append.mp hother with hother | hother
    · exact hsmall other hother hdigits
    · rw [List.mem_singleton.mp hother, hnotNumeric] at hdigits
      cases hdigits
  refine ⟨withPrerelease v (before ++ [['-']]) hids, hright, fun key hkey => .inr ?_⟩
  rw [readKey_of_fits hv hfits, Option.mem_def, Option.some.injEq] at hkey
  subst hkey
  have hne : v.prerelease ≠ [] := List.ne_nil_of_mem hbad
  have hdot : ∀ other ∈ v.prerelease, '.' ∉ other := fun other hother =>
    (v.prerelease_ids other hother).not_mem (by decide) (by decide)
  have hidentifier := v.prerelease_ids id (hsplit ▸ List.mem_append_right _ List.mem_cons_self)
  have hbeforeIds : before.map parsedIdentifier = before.map SemVer.identifier :=
    List.map_congr_left fun other hother =>
      parsedIdentifier_eq (v.prerelease_ids other (hsplit ▸ List.mem_append_left _ hother)) (hsmall other hother)
  have hparsed : parsedIdentifier id = Sum.inrₗ (String.ofList id) := by
    rw [parsedIdentifier, parseU64_eq hidentifier.ne_nil (hidentifier.not_mem (by decide) (by decide)),
      if_neg fun h => hid.2 h.2]
  have hnumber : SemVer.identifier id = Sum.inlₗ (SemVer.value id) := if_pos hid.1
  have htext : SemVer.identifier ['-'] = Sum.inrₗ "-" := if_neg (by decide)
  have hfirst : "-" < String.ofList id := by
    obtain ⟨c, digits, rfl⟩ := List.exists_cons_of_ne_nil hidentifier.ne_nil
    have hdigit := List.all_eq_true.mp hid.1 c List.mem_cons_self
    simp only [Text.isAsciiDigit, Bool.and_eq_true, decide_eq_true_eq] at hdigit
    rw [String.lt_iff_toList_lt, @String.toList_ofList (c :: digits)]
    exact List.cons_lt_cons_iff.mpr (.inl ((show '-' < '0' by decide).trans_le hdigit.1))
  have hstage : SemVer.stage (before ++ [['-']]) =
      ((before.map SemVer.identifier ++ [Sum.inrₗ "-"] : List (ℕ ⊕ₗ String)) : WithTop (List (ℕ ⊕ₗ String))) := by
    rw [SemVer.stage, if_neg (by simp), List.map_append, List.map_singleton, htext]
  constructor
  · rw [precedence_withPrerelease, atStage_lt_iff, hstage, prerelease_of_text hv hne, readStage, splitChars_dotted hne hdot, hsplit, List.map_append,
      List.map_cons, hbeforeIds, hparsed, WithTop.coe_lt_coe]
    exact List.append_left_lt (List.cons_lt_cons_iff.mpr (.inl (Sum.Lex.inr_lt_inr_iff.mpr hfirst)))
  · rw [precedence_withPrerelease, precedence_eq, atStage_lt_iff, hstage, SemVer.stage, if_neg hne, hsplit, List.map_append, List.map_cons, hnumber,
      WithTop.coe_lt_coe]
    exact List.append_left_lt (List.cons_lt_cons_iff.mpr (.inl (Sum.Lex.inl_lt_inr _ _)))

/-- A hyphen in the build of a release makes it one of its prereleases. -/
theorem exists_rival_of_release (hv : v.text = version.toList) (hfits : FitsCore v) (hrelease : v.prerelease = [])
    (hhyphen : '-' ∈ dotted v.build) : ∃ w, ReadRight w ∧ Misread version v w := by
  obtain ⟨after, hafter, hchars⟩ := (prerelease_of_release hv hrelease).2 hhyphen
  obtain ⟨first, rest, hsplit⟩ := List.exists_cons_of_ne_nil (Text.splitChars_ne_nil '.' after)
  -- letters `z`, more of them than the first identifier is long
  have hz : ∀ c ∈ first, c ≤ 'z' := by
    intro c hc
    have hmem := Text.mem_of_mem_splitChars (hsplit ▸ List.mem_cons_self : first ∈ splitChars '.' after) hc
    rcases mem_dotted (hchars c hmem) with rfl | ⟨id, hid, hmem⟩
    · decide
    · exact le_z_of_identifier ((v.build_ids id hid).char c hmem)
  have hzs : IsIdentifier (List.replicate (first.length + 1) 'z') := by
    refine ⟨by simp, fun c hc => .inl ?_⟩
    rw [List.eq_of_mem_replicate hc]
    decide
  have htext : SemVer.isNumeric (List.replicate (first.length + 1) 'z') = false := by
    rw [List.replicate_succ]
    rfl
  have hids : ∀ id ∈ [List.replicate (first.length + 1) 'z'], IsIdentifier id := by
    simpa using hzs
  refine ⟨withPrerelease v _ hids, ⟨hfits, ?_, fun _ => List.not_mem_nil⟩, fun key hkey => .inl ?_⟩
  · intro id hid hdigits
    rw [List.mem_singleton.mp hid, htext] at hdigits
    cases hdigits
  rw [readKey_of_fits hv hfits, Option.mem_def, Option.some.injEq] at hkey
  subst hkey
  have hstage : SemVer.stage [List.replicate (first.length + 1) 'z'] =
      (([Sum.inrₗ (String.ofList (List.replicate (first.length + 1) 'z'))] : List (ℕ ⊕ₗ String)) :
        WithTop (List (ℕ ⊕ₗ String))) := by
    rw [SemVer.stage, if_neg (List.cons_ne_nil _ _), List.map_singleton, SemVer.identifier, if_neg (by simp [htext])]
  constructor
  · rw [precedence_withPrerelease, atStage_lt_iff, hstage, hafter, readStage, hsplit, List.map_cons, WithTop.coe_lt_coe]
    refine List.cons_lt_cons_iff.mpr (.inl ?_)
    rw [parsedIdentifier]
    cases parseU64 first with
    | some n => exact Sum.Lex.inl_lt_inr _ _
    | none =>
      refine Sum.Lex.inr_lt_inr_iff.mpr ?_
      rw [String.lt_iff_toList_lt, String.toList_ofList, String.toList_ofList]
      exact lt_replicate hz
  · rw [precedence_withPrerelease, precedence_eq, atStage_lt_iff, hstage, hrelease]
    exact WithTop.coe_lt_top _

/-- The first version there is. -/
def firstVersion : SemVer where
  major := ['0']
  minor := ['0']
  patch := ['0']
  prerelease := []
  build := []
  major_number := ⟨by decide, List.all_eq_true.mp (by decide), .inl rfl⟩
  minor_number := ⟨by decide, List.all_eq_true.mp (by decide), .inl rfl⟩
  patch_number := ⟨by decide, List.all_eq_true.mp (by decide), .inl rfl⟩
  prerelease_ids := by simp
  build_ids := by simp

/-- **Every version that is not read right is read wrong next to one that is.** -/
theorem exists_rival (hv : v.text = version.toList) (hwrong : ¬ ReadRight v) :
    ∃ w, ReadRight w ∧ Misread version v w := by
  by_cases hfits : FitsCore v
  · by_cases hids : ∃ id ∈ v.prerelease, SemVer.isNumeric id = true ∧ ¬ SemVer.value id < 2 ^ 64
    · exact exists_rival_of_identifier hv hfits hids
    · have hsmall : ∀ id ∈ v.prerelease, SemVer.isNumeric id = true → SemVer.value id < 2 ^ 64 := by
        intro id hid hdigits
        by_contra hlarge
        exact hids ⟨id, hid, hdigits, hlarge⟩
      have hrelease : ¬ (v.prerelease = [] → '-' ∉ dotted v.build) := fun h => hwrong ⟨hfits, hsmall, h⟩
      rw [Classical.not_imp, not_not] at hrelease
      exact exists_rival_of_release hv hfits hrelease.1 hrelease.2
  · have hright : ReadRight firstVersion := by
      refine ⟨?_, by simp [firstVersion], fun _ => List.not_mem_nil⟩
      unfold FitsCore
      decide
    refine ⟨firstVersion, hright, fun key hkey => ?_⟩
    rw [readKey_eq_none hv hfits] at hkey
    cases hkey

end Reading

end Apmpr.Adapters
