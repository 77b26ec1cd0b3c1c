import Apmpr.Lib.Json
import Apmpr.Lib.MachineInt

/-!
# Structured contexts

What the store keeps beside a record to explain it is JSON, and it must not hold a
secret: under a name that looks like one (`secret_like`) only a reference to an
environment variable or a file may stand. `StructuredContext` is a value that passed the
check, and `validateNoSecretValues_ok_iff` says what passing means.
-/

namespace Apmpr.State

/-- `StateError`, without the failures of the database and the file system. -/
inductive StateError where
  | invalidInput (code context : String)
  | lockContended (deployment owner : String) (expiresAt : I64)
  | lockLost (deployment : String)
  deriving DecidableEq

/-- The stable code of an error. -/
def StateError.code : StateError → String
  | .invalidInput code _ => code
  | .lockContended _ _ _ => "operation_lock_contended"
  | .lockLost _ => "operation_lock_lost"

/-- The text of an error. -/
def StateError.display : StateError → String
  | .invalidInput code context => s!"{code}: {context}"
  | .lockContended deployment owner expiresAt =>
    s!"deployment `{deployment}` is locked by `{owner}` until {expiresAt.val}"
  | .lockLost deployment => s!"operation lock for `{deployment}` is no longer owned"

/-- `secret_like`. -/
def secretLike (key : String) : Bool :=
  let normalized := String.ofList
    ((Text.toAsciiLowercase key).toList.filter fun c => c ≠ '-' && c ≠ '_')
  ["secret", "password", "passwd", "token", "apikey", "privatekey"].any (Text.contains normalized ·) &&
    !Text.endsWith normalized "reference" && !Text.endsWith normalized "ref"

/-- `SecretReference::environment`, as a test: an upper-case variable name. -/
def environmentReference (name : String) : Bool :=
  name ≠ "" && name.toList.zipIdx.all fun (c, index) =>
    c = '_' || Text.isAsciiUpper c || (0 < index && Text.isAsciiDigit c)

/-- `SecretReference::file`, as a test. -/
def fileReference (path : String) : Bool := path ≠ ""

/-- The reference a field of a secret's object holds. -/
def validReferenceField (kind : String) (value : Json) : Bool :=
  match value.asStr with
  | none => false
  | some text =>
    if kind = "environmentVariable" then environmentReference text
    else if kind = "file" then fileReference text
    else false

/-- `valid_secret_reference`. -/
def validSecretReference (value : Json) : Bool :=
  match value.asObject with
  | none => false
  | some fields => fields.length = 1 && fields.all fun (kind, value) => validReferenceField kind value

mutual

/-- `validate_no_secret_values`. -/
def validateNoSecretValues (path : String) : Json → Except StateError Unit
  | .object fields => validateFields path fields
  | .array values => validateItems path 0 values
  | _ => .ok ()

/-- The loop over the fields of an object. -/
def validateFields (path : String) : List (String × Json) → Except StateError Unit
  | [] => .ok ()
  | (key, child) :: rest =>
    let childPath := s!"{path}.{key}"
    if secretLike key && !validSecretReference child then
      .error (.invalidInput "secret_value_forbidden"
        s!"{childPath} must contain an environmentVariable or file reference")
    else do
      validateNoSecretValues childPath child
      validateFields path rest

/-- The loop over the items of an array. -/
def validateItems (path : String) (index : ℕ) : List Json → Except StateError Unit
  | [] => .ok ()
  | child :: rest => do
    validateNoSecretValues s!"{path}[{index}]" child
    validateItems path (index + 1) rest

end

/-- No field that looks like a secret holds anything but a reference. -/
inductive SecretFree : Json → Prop where
  | null : SecretFree .null
  | bool (value : Bool) : SecretFree (.bool value)
  | number (text : String) : SecretFree (.number text)
  | string (text : String) : SecretFree (.string text)
  | array {items : List Json} : (∀ item ∈ items, SecretFree item) → SecretFree (.array items)
  | object {fields : List (String × Json)} :
      (∀ field ∈ fields, secretLike field.1 = true → validSecretReference field.2 = true) →
      (∀ field ∈ fields, SecretFree field.2) → SecretFree (.object fields)

/-- An object no name of which looks like a secret. -/
theorem SecretFree.of_plain_names {fields : List (String × Json)}
    (hnames : ∀ field ∈ fields, secretLike field.1 = false) (h : ∀ field ∈ fields, SecretFree field.2) :
    SecretFree (.object fields) := by
  refine .object (fun field hfield hsecret => ?_) h
  rw [hnames field hfield] at hsecret
  cases hsecret

theorem seq_eq_ok_iff {ε : Type} {x y : Except ε Unit} :
    (x >>= fun _ => y) = .ok () ↔ x = .ok () ∧ y = .ok () := by
  cases x <;> simp [bind, Except.bind]

theorem guarded_eq_ok_iff {ε : Type} {b : Bool} {e : ε} {x : Except ε Unit} :
    (if b = true then .error e else x) = .ok () ↔ b = false ∧ x = .ok () := by
  cases b <;> simp

theorem validateFields_cons_ok_iff (path key : String) (child : Json) (rest : List (String × Json)) :
    validateFields path ((key, child) :: rest) = .ok () ↔
      (secretLike key = true → validSecretReference child = true) ∧
        validateNoSecretValues s!"{path}.{key}" child = .ok () ∧ validateFields path rest = .ok () := by
  rw [validateFields, guarded_eq_ok_iff, seq_eq_ok_iff]
  cases secretLike key <;> cases validSecretReference child <;> simp

mutual

/-- **What the check accepts.** -/
theorem validateNoSecretValues_ok_iff (path : String) :
    (value : Json) → (validateNoSecretValues path value = .ok () ↔ SecretFree value)
  | .null => ⟨fun _ => .null, fun _ => rfl⟩
  | .bool value => ⟨fun _ => .bool value, fun _ => rfl⟩
  | .number text => ⟨fun _ => .number text, fun _ => rfl⟩
  | .string text => ⟨fun _ => .string text, fun _ => rfl⟩
  | .array items => by
    rw [validateNoSecretValues, validateItems_ok_iff path 0 items]
    exact ⟨.array, fun | .array h => h⟩
  | .object fields => by
    rw [validateNoSecretValues, validateFields_ok_iff path fields]
    exact ⟨fun h => .object h.1 h.2, fun | .object h₁ h₂ => ⟨h₁, h₂⟩⟩

theorem validateFields_ok_iff (path : String) :
    (fields : List (String × Json)) → (validateFields path fields = .ok () ↔
      (∀ field ∈ fields, secretLike field.1 = true → validSecretReference field.2 = true) ∧
        ∀ field ∈ fields, SecretFree field.2)
  | [] => by simp [validateFields]
  | (key, child) :: rest => by
    have hchild := validateNoSecretValues_ok_iff s!"{path}.{key}" child
    have hrest := validateFields_ok_iff path rest
    rw [validateFields_cons_ok_iff, hchild, hrest]
    simp only [List.forall_mem_cons]
    tauto

theorem validateItems_ok_iff (path : String) (index : ℕ) :
    (items : List Json) → (validateItems path index items = .ok () ↔ ∀ item ∈ items, SecretFree item)
  | [] => by simp [validateItems]
  | child :: rest => by
    have hchild := validateNoSecretValues_ok_iff s!"{path}[{index}]" child
    have hrest := validateItems_ok_iff path (index + 1) rest
    rw [validateItems, seq_eq_ok_iff, hchild, hrest, List.forall_mem_cons]

end

/-- `StructuredContext`: a value without literal secrets. -/
structure StructuredContext where
  value : Json
  secretFree : SecretFree value

/-- `StructuredContext::new`. -/
def StructuredContext.new (value : Json) : Except StateError StructuredContext :=
  match h : validateNoSecretValues "$" value with
  | .ok () => .ok ⟨value, (validateNoSecretValues_ok_iff "$" value).mp h⟩
  | .error e => .error e

theorem StructuredContext.new_eq_ok {value : Json} (h : SecretFree value) :
    StructuredContext.new value = .ok ⟨value, h⟩ := by
  have hok := (validateNoSecretValues_ok_iff "$" value).mpr h
  unfold StructuredContext.new
  split
  · rfl
  · rename_i e he
    rw [hok] at he
    cases he

theorem StructuredContext.new_isOk_iff {value : Json} :
    (∃ context, StructuredContext.new value = .ok context) ↔ SecretFree value := by
  constructor
  · rintro ⟨context, h⟩
    refine (validateNoSecretValues_ok_iff "$" value).mp ?_
    unfold StructuredContext.new at h
    split at h
    · assumption
    · cases h
  · intro h
    exact ⟨_, new_eq_ok h⟩

end Apmpr.State
