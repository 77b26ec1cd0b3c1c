import Apmpr.Lib.Replace
import Apmpr.Lib.Utf8
import Apmpr.Planner.Portable

/-!
# Redaction of diagnostics

`Redactor` of `apmpr-cli/src/diagnostics.rs`: before a report is written, the values of fields
that are named like a credential are blanked, so is a text with a word that goes with a
credential, and so are the credentials of the process's environment and the daemon's token
wherever they occur in a text.

The secrets are taken out one after the other, and what they are replaced by is a text of its
own. A secret that is in a mark or has it in it, or that begins as the mark `[REDACTED:environment]`
ends or the other way round, could be there afterwards because of the mark; the results are about
those that are `Foreign` to the marks. The names of fields are not changed and may be anything.
-/

namespace Apmpr.Cli.Diagnostics

open Planner Replace

/-- `REDACTED`. -/
def redacted : String := "[REDACTED]"

/-- `REDACTED_ENVIRONMENT`. -/
def redactedEnvironment : String := "[REDACTED:environment]"

/-- The words that `redact_event_line` looks for. -/
def eventWords : List String := ["authorization", "password", "secret", "token", "private_key"]

/-- `redact_event_line` of `apmpr-planner`. -/
def redactEventLine (line : String) : String :=
  if eventWords.any (Text.contains (Text.toAsciiLowercase line) ·) then "[REDACTED]" else line

/-- How many bytes a text has. -/
def byteLength (text : String) : ℕ := (Utf8.encode text.toList).length

/-- `str::replace`. -/
def replaceText (text pat out : String) : String := String.ofList (replace pat.toList out.toList text.toList)

/-- `Redactor`. -/
structure Redactor where
  environmentValues : List String

/-- `Vec::dedup`. -/
def dedup : List String → List String
  | first :: second :: rest => if first = second then dedup (second :: rest) else first :: dedup (second :: rest)
  | values => values

/-- The token of the daemon, where its file has one. -/
def discoveredToken (discovery : Option Json) : Option String :=
  discovery.bind fun value => (value.asObject.bind fun fields => fields.lookup "token").bind Json.asStr

/-- `Redactor::from_process`, with the variables of the process (those that are no text are
`none`) and the daemon's file, where it is JSON. -/
def Redactor.fromProcess (vars : List (Option String × Option String)) (discovery : Option Json) : Redactor :=
  let environmentValues := vars.filterMap fun (name, value) =>
    name.bind fun name => if credentialLikeKey name then value else none
  let values := environmentValues.filter (· ≠ "") ++ (discoveredToken discovery).toList
  ⟨dedup (values.mergeSort fun a b => byteLength b ≤ byteLength a)⟩

/-- The loop over the secrets. -/
def redactSecrets : List String → String → String
  | [], text => text
  | secret :: rest, text =>
    if text = secret then redactedEnvironment
    else if 4 ≤ byteLength secret && Text.contains text secret then
      redactSecrets rest (replaceText text secret redactedEnvironment)
    else redactSecrets rest text

/-- `Redactor::redact_string`. -/
def Redactor.redactString (r : Redactor) (text : String) : String :=
  if redactEventLine text = redacted then redacted else redactSecrets r.environmentValues text

mutual

/-- `Redactor::redact`. -/
def Redactor.redact (r : Redactor) : Json → Json
  | .object fields => .object (r.redactObject fields)
  | .array values => .array (r.redactValues values)
  | .string text => .string (r.redactString text)
  | .null => .null
  | .bool value => .bool value
  | .number text => .number text

/-- `Redactor::redact_object`. -/
def Redactor.redactObject (r : Redactor) : List (String × Json) → List (String × Json)
  | [] => []
  | (key, value) :: rest =>
    (key, if credentialLikeKey key then .string redacted else r.redact value) :: r.redactObject rest

/-- The loop over the values of an array. -/
def Redactor.redactValues (r : Redactor) : List Json → List Json
  | [] => []
  | value :: rest => r.redact value :: r.redactValues rest

end

/-! ### Clean reports -/

/-- A secret that the marks cannot bring back: none has it, the mark that takes the place of a part
is not in it, and does not touch it. What is never a part is foreign to them all. -/
def Foreign (secret : String) : Prop :=
  4 ≤ byteLength secret → ¬secret.toList <:+: redacted.toList ∧
    ¬secret.toList <:+: redactedEnvironment.toList ∧ ¬redactedEnvironment.toList <:+: secret.toList ∧
    ¬Touches secret.toList redactedEnvironment.toList ∧ ¬Touches redactedEnvironment.toList secret.toList

instance (secret : String) : Decidable (Foreign secret) := by
  unfold Foreign
  infer_instance

/-- A text without traces of these secrets, and without the words that go with one. -/
structure CleanText (secrets : List String) (text : String) : Prop where
  words : ∀ word ∈ eventWords, Text.contains (Text.toAsciiLowercase text) word = false
  whole : text ∉ secrets
  parts : ∀ secret ∈ secrets, 4 ≤ byteLength secret → Text.contains text secret = false

/-- A report whose texts are clean, and whose credentials are blank. -/
inductive Clean (secrets : List String) : Json → Prop where
  | null : Clean secrets .null
  | bool (value : Bool) : Clean secrets (.bool value)
  | number (text : String) : Clean secrets (.number text)
  | string {text : String} : CleanText secrets text → Clean secrets (.string text)
  | array {items : List Json} : (∀ item ∈ items, Clean secrets item) → Clean secrets (.array items)
  | object {fields : List (String × Json)} :
      (∀ field ∈ fields, credentialLikeKey field.1 = true → field.2 = .string redacted) →
      (∀ field ∈ fields, Clean secrets field.2) → Clean secrets (.object fields)

/-! ### Occurrences -/

theorem containsChars_iff {pat text : List Char} : Text.containsChars pat text = true ↔ pat <:+: text := by
  induction text with
  | nil => simp [Text.containsChars]
  | cons c text ih => rw [Text.containsChars, Bool.or_eq_true, ih, List.isPrefixOf_iff_prefix, List.infix_cons_iff]

theorem contains_iff {text pat : String} : Text.contains text pat = true ↔ pat.toList <:+: text.toList :=
  containsChars_iff

theorem contains_eq_false_iff {text pat : String} : Text.contains text pat = false ↔ ¬pat.toList <:+: text.toList := by
  rw [← contains_iff, Bool.not_eq_true]

section Foreign

variable {secret : String}

theorem ne_nil_of_byteLength (h : 4 ≤ byteLength secret) : secret.toList ≠ [] := by
  intro hnil
  rw [byteLength, hnil] at h
  exact absurd h (by decide)

/-- The mark is a fence for a secret exactly where it is foreign to it. -/
theorem foreign_iff (hlength : 4 ≤ byteLength secret) : Foreign secret ↔
    ¬secret.toList <:+: redacted.toList ∧ Fenced redactedEnvironment.toList secret.toList := by
  rw [fenced_iff (by decide) (ne_nil_of_byteLength hlength), Foreign]
  exact ⟨fun h => h hlength, fun h _ => h⟩

/-- No mark holds it. -/
theorem not_occurs_mark (h : Foreign secret) (hlength : 4 ≤ byteLength secret) :
    ¬secret.toList <:+: redacted.toList ∧ ¬secret.toList <:+: redactedEnvironment.toList :=
  ⟨(h hlength).1, (h hlength).2.1⟩

/-- It holds no mark either. -/
theorem not_occurs_in (h : Foreign secret) : ¬redactedEnvironment.toList <:+: secret.toList := by
  intro hoccurs
  have hlong : 4 ≤ byteLength secret :=
    le_trans (le_trans (by decide) hoccurs.length_le) (Utf8.length_le_length_encode secret.toList)
  exact (h hlong).2.2.1 hoccurs

end Foreign

/-! ### Texts -/

section Texts

variable {secret text : String}

theorem replaces_replaceText (hlength : 4 ≤ byteLength secret) :
    Replaces secret.toList redactedEnvironment.toList text.toList (replaceText text secret redactedEnvironment).toList := by
  rw [replaceText, String.toList_ofList]
  exact replaces_replace (ne_nil_of_byteLength hlength) _ _

/-- What is read off a text once the secrets are out, was there before. -/
theorem occurs_redactSecrets {β : Type} {f : Char → β} {p : List β} (hfence : Fenced (redactedEnvironment.toList.map f) p)
    (hmark : ¬p <:+: redactedEnvironment.toList.map f) (secrets : List String)
    (h : p <:+: (redactSecrets secrets text).toList.map f) : p <:+: text.toList.map f := by
  induction secrets generalizing text with
  | nil => exact h
  | cons secret rest ih =>
    rw [redactSecrets] at h
    by_cases heq : text = secret
    · rw [if_pos heq] at h
      exact absurd h hmark
    · rw [if_neg heq] at h
      split_ifs at h with hpart
      · have hpart := Bool.and_eq_true_iff.mp hpart
        exact (replaces_replaceText (of_decide_eq_true hpart.1)).occurs_map hfence (ih h)
      · exact ih h

theorem not_occurs_redactSecrets (hforeign : Foreign secret) (hlength : 4 ≤ byteLength secret)
    {secrets : List String} (hsecret : secret ∈ secrets) : ¬secret.toList <:+: (redactSecrets secrets text).toList := by
  have hfence := ((foreign_iff hlength).mp hforeign).2
  have hmark := (not_occurs_mark hforeign hlength).2
  -- once it is out, it does not come back
  have hstays (text : String) (rest : List String) (hout : ¬secret.toList <:+: text.toList) :
      ¬secret.toList <:+: (redactSecrets rest text).toList := by
    intro hoccurs
    refine hout ?_
    simpa using occurs_redactSecrets (f := id) (p := secret.toList) (by simpa using hfence) (by simpa using hmark) rest
      (by simpa using hoccurs)
  induction secrets generalizing text with
  | nil => cases hsecret
  | cons first rest ih =>
    rw [redactSecrets]
    by_cases heq : text = first
    · rw [if_pos heq]
      exact hmark
    · rw [if_neg heq]
      obtain rfl | hrest := List.mem_cons.mp hsecret
      · split_ifs with hpart
        · exact hstays _ _ ((replaces_replaceText hlength).removed hfence)
        · rw [decide_eq_true hlength, Bool.true_and, Bool.not_eq_true] at hpart
          exact hstays _ _ (contains_eq_false_iff.mp hpart)
      · split_ifs <;> exact ih hrest

/-- Without a mark in it, the text was never changed. -/
theorem redactSecrets_of_not_occurs {secrets : List String}
    (h : ¬redactedEnvironment.toList <:+: (redactSecrets secrets text).toList) :
    redactSecrets secrets text = text ∧ text ∉ secrets := by
  induction secrets generalizing text with
  | nil => exact ⟨rfl, List.not_mem_nil⟩
  | cons secret rest ih =>
    rw [redactSecrets] at h ⊢
    by_cases heq : text = secret
    · rw [if_pos heq] at h
      exact absurd List.infix_rfl h
    · rw [if_neg heq] at h ⊢
      by_cases hpart : (4 ≤ byteLength secret && Text.contains text secret) = true
      · rw [if_pos hpart] at h
        have hpart := Bool.and_eq_true_iff.mp hpart
        have hmark := (@replaces_replaceText secret text (of_decide_eq_true hpart.1)).occurs_out (contains_iff.mp hpart.2)
        rw [(ih h).1] at h
        exact absurd hmark h
      · rw [if_neg hpart] at h ⊢
        obtain ⟨hsame, hrest⟩ := ih h
        exact ⟨hsame, fun hmem => (List.mem_cons.mp hmem).elim heq hrest⟩

/-- The words are not in the mark, and none can be completed by it. -/
theorem fenced_eventWords {word : String} (hword : word ∈ eventWords) :
    Fenced (redactedEnvironment.toList.map Text.asciiLowerChar) word.toList ∧
      ¬word.toList <:+: redactedEnvironment.toList.map Text.asciiLowerChar := by
  have hcheck : ∀ word ∈ eventWords, word.toList ≠ [] ∧
      (¬word.toList <:+: redactedEnvironment.toList.map Text.asciiLowerChar ∧
        ¬redactedEnvironment.toList.map Text.asciiLowerChar <:+: word.toList ∧
        ¬Touches word.toList (redactedEnvironment.toList.map Text.asciiLowerChar) ∧
        ¬Touches (redactedEnvironment.toList.map Text.asciiLowerChar) word.toList) := by decide
  obtain ⟨hne, hapart⟩ := hcheck word hword
  exact ⟨(fenced_iff (by decide) hne).mpr hapart, hapart.1⟩

theorem toList_toAsciiLowercase (text : String) :
    (Text.toAsciiLowercase text).toList = text.toList.map Text.asciiLowerChar := String.toList_ofList

theorem words_of_redactEventLine (h : redactEventLine text ≠ redacted) {word : String} (hword : word ∈ eventWords) :
    Text.contains (Text.toAsciiLowercase text) word = false := by
  rw [Bool.eq_false_iff]
  intro hcontains
  exact h (if_pos (List.any_eq_true.mpr ⟨word, hword, hcontains⟩))

theorem words_redacted {word : String} (hword : word ∈ eventWords) :
    Text.contains (Text.toAsciiLowercase redacted) word = false := by
  have hcheck := List.all_eq_true.mp (show (eventWords.all fun word =>
    !Text.contains (Text.toAsciiLowercase redacted) word) = true by decide) word hword
  simpa using hcheck

theorem blank_redactObject (r : Redactor) (fields : List (String × Json)) :
    ∀ field ∈ r.redactObject fields, credentialLikeKey field.1 = true → field.2 = .string redacted := by
  induction fields with
  | nil => exact fun _ h => absurd h List.not_mem_nil
  | cons field rest ih => exact List.forall_mem_cons.mpr ⟨fun hkey => if_pos hkey, ih⟩

section Clean

variable {secrets : List String} {r : Redactor}

theorem cleanText_redacted (hforeign : ∀ secret ∈ secrets, Foreign secret) : CleanText secrets redacted where
  words _ := words_redacted
  whole hmem := (not_occurs_mark (hforeign _ hmem) (by decide)).1 List.infix_rfl
  parts _ hsecret hlength := contains_eq_false_iff.mpr (not_occurs_mark (hforeign _ hsecret) hlength).1

theorem cleanText_redactString (hforeign : ∀ secret ∈ secrets, Foreign secret)
    (hknown : secrets ⊆ r.environmentValues) (text : String) : CleanText secrets (r.redactString text) := by
  unfold Redactor.redactString
  split_ifs with hline
  · exact cleanText_redacted hforeign
  refine ⟨fun word hword => ?_, fun hmem => ?_, fun secret hsecret hlength => ?_⟩
  · obtain ⟨hfence, hmark⟩ := fenced_eventWords hword
    have hbefore := contains_eq_false_iff.mp (words_of_redactEventLine hline hword)
    rw [toList_toAsciiLowercase] at hbefore
    rw [contains_eq_false_iff, toList_toAsciiLowercase]
    exact fun hoccurs => hbefore (occurs_redactSecrets hfence hmark _ hoccurs)
  · have hsame := redactSecrets_of_not_occurs (not_occurs_in (hforeign _ hmem))
    rw [hsame.1] at hmem
    exact hsame.2 (hknown hmem)
  · exact contains_eq_false_iff.mpr (not_occurs_redactSecrets (hforeign _ hsecret) hlength (hknown hsecret))

mutual

/-- **A redacted value is clean** of every secret the redactor knows that is foreign to its
marks. -/
theorem clean_redact (hforeign : ∀ secret ∈ secrets, Foreign secret) (hknown : secrets ⊆ r.environmentValues) :
    (value : Json) → Clean secrets (r.redact value)
  | .null => .null
  | .bool value => .bool value
  | .number text => .number text
  | .string text => .string (cleanText_redactString hforeign hknown text)
  | .array items => .array (clean_redactValues hforeign hknown items)
  | .object fields => .object (blank_redactObject r fields) (clean_redactObject hforeign hknown fields)

theorem clean_redactValues (hforeign : ∀ secret ∈ secrets, Foreign secret)
    (hknown : secrets ⊆ r.environmentValues) : (items : List Json) → ∀ item ∈ r.redactValues items, Clean secrets item
  | [] => fun _ h => absurd h List.not_mem_nil
  | value :: rest =>
    List.forall_mem_cons.mpr ⟨clean_redact hforeign hknown value, clean_redactValues hforeign hknown rest⟩

theorem clean_redactObject (hforeign : ∀ secret ∈ secrets, Foreign secret)
    (hknown : secrets ⊆ r.environmentValues) : (fields : List (String × Json)) →
    ∀ field ∈ r.redactObject fields, Clean secrets field.2
  | [] => fun _ h => absurd h List.not_mem_nil
  | (key, value) :: rest => by
    refine List.forall_mem_cons.mpr ⟨?_, clean_redactObject hforeign hknown rest⟩
    have hvalue := clean_redact hforeign hknown value
    cases credentialLikeKey key
    · exact hvalue
    · exact .string (cleanText_redacted hforeign)

end

end Clean

end Texts

/-! ### What the process knows -/

/-- A secret that the process knows: a variable that is named like a credential, or the daemon's
token. -/
inductive Planted (vars : List (Option String × Option String)) (discovery : Option Json) : String → Prop where
  | environment {name value : String} : (some name, some value) ∈ vars → credentialLikeKey name = true → value ≠ "" →
      Planted vars discovery value
  | token {value : String} : discoveredToken discovery = some value → Planted vars discovery value

theorem mem_dedup (values : List String) (value : String) : value ∈ dedup values ↔ value ∈ values := by
  induction values using dedup.induct with
  | case1 second rest ih =>
    rw [dedup, if_pos rfl, ih]
    simp
  | case2 first second rest hne ih =>
    rw [dedup, if_neg hne, List.mem_cons, ih]
    exact List.mem_cons.symm
  | case3 values hshort =>
    rw [dedup]
    exact hshort

theorem mem_environmentValues {vars : List (Option String × Option String)} {discovery : Option Json} {secret : String}
    (h : Planted vars discovery secret) : secret ∈ (Redactor.fromProcess vars discovery).environmentValues := by
  rw [Redactor.fromProcess, mem_dedup, List.mem_mergeSort, List.mem_append]
  cases h with
  | environment hvar hkey hne =>
    exact .inl (List.mem_filter.mpr ⟨List.mem_filterMap.mpr ⟨_, hvar, by simp [hkey]⟩, by simpa using hne⟩)
  | token htoken => exact .inr (by simp [htoken])

/-- **A report of diagnostics has no secret of the process in its values**: no value of a field named
like a credential, no text with a word that goes with one, and no text with a credential of the
environment or the daemon's token. -/
theorem diagnostics_clean {vars : List (Option String × Option String)} {discovery : Option Json}
    {secrets : List String} (hsecrets : ∀ secret ∈ secrets, Planted vars discovery secret ∧ Foreign secret)
    (report : Json) : Clean secrets ((Redactor.fromProcess vars discovery).redact report) :=
  clean_redact (fun secret h => (hsecrets secret h).2) (fun secret h => mem_environmentValues (hsecrets secret h).1) report

/-- A report with passwords of the environment in its lines, and the daemon's token. -/
theorem diagnostics_clean_log : Clean ["env-value-9a27", "p[ssw0rd", "daemon-value-22cc"]
    ((Redactor.fromProcess [(some "DB_PASSWORD", some "env-value-9a27"), (some "HOME", some "/root"),
        (some "API_TOKEN", some "p[ssw0rd")]
      (some (.object [("token", .string "daemon-value-22cc")]))).redact
      (.object [("database_password", .string "hunter2"),
        ("lines", .array [.string "prefix env-value-9a27 and p[ssw0rd", .string "daemon-value-22cc"])])) := by
  refine diagnostics_clean (List.forall_mem_cons.mpr ⟨⟨.environment (List.mem_cons_self ..) (by decide) (by decide), by decide⟩,
    List.forall_mem_cons.mpr ⟨⟨@Planted.environment _ _ "API_TOKEN" _ ?_ (by decide) (by decide), by decide⟩,
      List.forall_mem_singleton.mpr ⟨.token rfl, by decide⟩⟩⟩) _
  exact List.mem_cons_of_mem _ (List.mem_cons_of_mem _ (List.mem_singleton_self _))

/-! ### What is kept -/

theorem redactSecrets_of_clean {secrets : List String} {text : String} (hwhole : text ∉ secrets)
    (hparts : ∀ secret ∈ secrets, 4 ≤ byteLength secret → Text.contains text secret = false) :
    redactSecrets secrets text = text := by
  induction secrets with
  | nil => rfl
  | cons secret rest ih =>
    have hpart : ¬(4 ≤ byteLength secret && Text.contains text secret) = true := by
      rw [Bool.and_eq_true, decide_eq_true_eq, not_and, Bool.not_eq_true]
      exact hparts secret (List.mem_cons_self ..)
    have hne : text ≠ secret := fun heq => hwhole (heq ▸ List.mem_cons_self ..)
    rw [redactSecrets, if_neg hne, if_neg hpart]
    exact ih (fun hmem => hwhole (List.mem_cons_of_mem _ hmem)) fun s hs => hparts s (List.mem_cons_of_mem _ hs)

theorem redactString_of_clean {r : Redactor} {text : String} (h : CleanText r.environmentValues text) :
    r.redactString text = text := by
  have hline : redactEventLine text = text := by
    refine if_neg fun hany => ?_
    obtain ⟨word, hword, hcontains⟩ := List.any_eq_true.mp hany
    rw [h.words word hword] at hcontains
    cases hcontains
  unfold Redactor.redactString
  split_ifs with hredacted
  · rw [← hredacted, hline]
  · exact redactSecrets_of_clean h.whole h.parts

theorem redactValues_of_forall {r : Redactor} {items : List Json} (h : ∀ item ∈ items, r.redact item = item) :
    r.redactValues items = items := by
  induction items with
  | nil => rfl
  | cons item rest ih =>
    obtain ⟨hitem, hrest⟩ := List.forall_mem_cons.mp h
    rw [Redactor.redactValues, hitem, ih hrest]

theorem redactObject_of_forall {r : Redactor} {fields : List (String × Json)}
    (hblank : ∀ field ∈ fields, credentialLikeKey field.1 = true → field.2 = .string redacted)
    (h : ∀ field ∈ fields, r.redact field.2 = field.2) : r.redactObject fields = fields := by
  induction fields with
  | nil => rfl
  | cons field rest ih =>
    obtain ⟨key, value⟩ := field
    obtain ⟨hvalue, hrest⟩ := List.forall_mem_cons.mp h
    obtain ⟨hkey, hkeys⟩ := List.forall_mem_cons.mp hblank
    have hfield : (if credentialLikeKey key = true then .string redacted else r.redact value) = value := by
      by_cases hsecret : credentialLikeKey key = true
      · rw [if_pos hsecret]
        exact (hkey hsecret).symm
      · rw [if_neg hsecret]
        exact hvalue
    rw [Redactor.redactObject, ih hkeys hrest, hfield]

theorem redact_of_clean {r : Redactor} {value : Json} (h : Clean r.environmentValues value) : r.redact value = value := by
  induction h with
  | null => rfl
  | bool => rfl
  | number => rfl
  | string htext => exact congrArg Json.string (redactString_of_clean htext)
  | array _ ih => exact congrArg Json.array (redactValues_of_forall ih)
  | object hblank _ ih => exact congrArg Json.object (redactObject_of_forall hblank ih)

/-- **Redaction changes what it has to and nothing else**: a report stays as it is exactly where it
is clean, so redacting twice is redacting once. -/
theorem redact_eq_self_iff {r : Redactor} (hforeign : ∀ secret ∈ r.environmentValues, Foreign secret)
    (report : Json) : (r.redact report = report ↔ Clean r.environmentValues report) ∧
      r.redact (r.redact report) = r.redact report :=
  ⟨⟨fun h => h ▸ clean_redact hforeign (fun _ h => h) report, redact_of_clean⟩,
    redact_of_clean (clean_redact hforeign (fun _ h => h) report)⟩

/-- A line with two secrets in it is not clean; redacted once it stays as it is. -/
theorem redact_eq_self_iff_line :
    let r : Redactor := ⟨["env-value-9a27", "p[ssw0rd"]⟩
    let once : Json := .string "at [REDACTED:environment], [REDACTED:environment]"
    r.redact (.string "at env-value-9a27, p[ssw0rd") = once ∧
      ¬Clean r.environmentValues (.string "at env-value-9a27, p[ssw0rd") ∧ r.redact once = once := by
  intro r once
  have hforeign : ∀ secret ∈ r.environmentValues, Foreign secret := by decide
  obtain ⟨hkept, htwice⟩ := redact_eq_self_iff hforeign (.string "at env-value-9a27, p[ssw0rd")
  have honce : r.redact (.string "at env-value-9a27, p[ssw0rd") = once := by
    rw [Redactor.redact]
    exact congrArg Json.string (by decide)
  rw [honce] at hkept htwice
  refine ⟨honce, fun hclean => ?_, htwice⟩
  exact absurd (Json.string.inj (hkept.mpr hclean)) (by decide)

end Apmpr.Cli.Diagnostics
