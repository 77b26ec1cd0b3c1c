import Apmpr.Lib.SortedMap
import Apmpr.Lib.Text

/-!
# JSON values

A JSON value as programs pass it around. Numbers are kept as they are written, and an
object is the list of its fields in the order they are iterated in.
-/

namespace Apmpr

/-- A JSON value. -/
inductive Json where
  | null
  | bool (value : Bool)
  | number (text : String)
  | string (text : String)
  | array (items : List Json)
  | object (fields : List (String × Json))

namespace Json

/-- The object of a map. -/
def ofMap (m : SortedMap String Json) : Json := .object m.entries

/-- The object of these fields, in the order of their names. -/
def obj (fields : List (String × Json)) : Json := ofMap (.ofList fields)

/-- The array of these texts. -/
def strings (texts : List String) : Json := .array (texts.map .string)

/-- The object of a map of texts. -/
def ofTexts (m : SortedMap String String) : Json := .object (m.entries.map fun (key, value) => (key, .string value))

/-- A natural number. -/
def nat (n : ℕ) : Json := .number (toString n)

mutual

/-- Whether two values are the same. -/
def decideEq : (a b : Json) → Decidable (a = b)
  | .null, .null => isTrue rfl
  | .bool x, .bool y => decidable_of_iff (x = y) (by simp)
  | .number x, .number y => decidable_of_iff (x = y) (by simp)
  | .string x, .string y => decidable_of_iff (x = y) (by simp)
  | .array x, .array y => @decidable_of_iff _ (x = y) (by simp) (decideItems x y)
  | .object x, .object y => @decidable_of_iff _ (x = y) (by simp) (decideFields x y)
  | .null, .bool _ | .null, .number _ | .null, .string _ | .null, .array _ | .null, .object _
  | .bool _, .null | .bool _, .number _ | .bool _, .string _ | .bool _, .array _ | .bool _, .object _
  | .number _, .null | .number _, .bool _ | .number _, .string _ | .number _, .array _ | .number _, .object _
  | .string _, .null | .string _, .bool _ | .string _, .number _ | .string _, .array _ | .string _, .object _
  | .array _, .null | .array _, .bool _ | .array _, .number _ | .array _, .string _ | .array _, .object _
  | .object _, .null | .object _, .bool _ | .object _, .number _ | .object _, .string _ | .object _, .array _ =>
    isFalse nofun

/-- Whether the items of two arrays are the same. -/
def decideItems : (a b : List Json) → Decidable (a = b)
  | [], [] => isTrue rfl
  | x :: xs, y :: ys => @decidable_of_iff _ (x = y ∧ xs = ys) (by simp) (@instDecidableAnd _ _ (decideEq x y) (decideItems xs ys))
  | [], _ :: _ | _ :: _, [] => isFalse nofun

/-- Whether the fields of two objects are the same. -/
def decideFields : (a b : List (String × Json)) → Decidable (a = b)
  | [], [] => isTrue rfl
  | (k, x) :: xs, (l, y) :: ys =>
    @decidable_of_iff _ (k = l ∧ x = y ∧ xs = ys) (by simp [and_assoc])
      (@instDecidableAnd _ _ _ (@instDecidableAnd _ _ (decideEq x y) (decideFields xs ys)))
  | [], _ :: _ | _ :: _, [] => isFalse nofun

end

instance : DecidableEq Json := decideEq

/-- How a character stands in a string: quotes, backslashes and control characters are escaped. -/
def escapeChar (c : Char) : List Char :=
  if c = '"' then ['\\', '"']
  else if c = '\\' then ['\\', '\\']
  else if c = '\n' then ['\\', 'n']
  else if c = '\r' then ['\\', 'r']
  else if c = '\t' then ['\\', 't']
  else if c = Char.ofNat 8 then ['\\', 'b']
  else if c = Char.ofNat 12 then ['\\', 'f']
  else if c.toNat < 32 then
    ['\\', 'u', '0', '0'] ++ (if c.toNat < 16 then ['0'] else []) ++ Nat.toDigits 16 c.toNat
  else [c]

/-- A string between quotes. -/
def quote (s : String) : String := String.ofList ('"' :: s.toList.flatMap escapeChar ++ ['"'])

mutual

/-- The value in its compact form. -/
def render : Json → String
  | .null => "null"
  | .bool value => if value then "true" else "false"
  | .number text => text
  | .string text => quote text
  | .array items => "[" ++ ",".intercalate (renderItems items) ++ "]"
  | .object fields => "\x7b" ++ ",".intercalate (renderFields fields) ++ "\x7d"

/-- The items of an array. -/
def renderItems : List Json → List String
  | [] => []
  | item :: rest => render item :: renderItems rest

/-- The fields of an object. -/
def renderFields : List (String × Json) → List String
  | [] => []
  | (key, value) :: rest => (quote key ++ ":" ++ render value) :: renderFields rest

end

/-- The fields of an object. -/
def asObject : Json → Option (List (String × Json))
  | .object fields => some fields
  | _ => none

/-- The text of a string. -/
def asStr : Json → Option String
  | .string text => some text
  | _ => none

example : (Json.object [("a", .array [.nat 1, .null]), ("b", .string "x\n")]).render
    = "\x7b\"a\":[1,null],\"b\":\"x\\n\"\x7d" := by decide

end Json

end Apmpr
