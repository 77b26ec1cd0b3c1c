import Apmpr.Lib.Address
import Apmpr.Lib.Json

/-!
# The text of a JSON value

A value in its compact form is one line: breaks inside of strings are escaped, and there are none
between the parts.
-/

namespace Apmpr.Json

/-- No line break. -/
def OneLine (text : List Char) : Prop := ∀ c ∈ text, c ≠ '\n' ∧ c ≠ '\r'

theorem OneLine.append {text more : List Char} (h : OneLine text) (hmore : OneLine more) : OneLine (text ++ more) :=
  List.forall_mem_append.mpr ⟨h, hmore⟩

/-- A value whose numbers are written without line breaks, as numbers are. -/
inductive Printable : Json → Prop where
  | null : Printable .null
  | bool (value : Bool) : Printable (.bool value)
  | number {text : String} : OneLine text.toList → Printable (.number text)
  | string (text : String) : Printable (.string text)
  | array {items : List Json} : (∀ item ∈ items, Printable item) → Printable (.array items)
  | object {fields : List (String × Json)} : (∀ field ∈ fields, Printable field.2) → Printable (.object fields)

theorem oneLine_toDigits {base : ℕ} (hbase : 1 < base) (hbase' : base ≤ 16) (n : ℕ) : OneLine (Nat.toDigits base n) := by
  obtain ⟨digits, htext, hdigits, -⟩ := IpAddr.exists_digits hbase n
  rw [htext]
  intro c hc
  obtain ⟨digit, hdigit, rfl⟩ := List.mem_map.mp hc
  have hall : ∀ digit < 16, Nat.digitChar digit ≠ '\n' ∧ Nat.digitChar digit ≠ '\r' := by decide
  exact hall digit (lt_of_lt_of_le (hdigits digit hdigit) hbase')

theorem oneLine_of_all {text : List Char} (h : (text.all fun c => c ≠ '\n' && c ≠ '\r') = true) : OneLine text := by
  intro c hc
  have hc := List.all_eq_true.mp h c hc
  rw [Bool.and_eq_true, decide_eq_true_eq, decide_eq_true_eq] at hc
  exact hc

theorem oneLine_escapeChar (c : Char) : OneLine (escapeChar c) := by
  unfold escapeChar
  split_ifs with h1 h2 h3 h4 h5 h6 h7 h8
  · exact oneLine_of_all (by decide)
  · exact oneLine_of_all (by decide)
  · exact oneLine_of_all (by decide)
  · exact oneLine_of_all (by decide)
  · exact oneLine_of_all (by decide)
  · exact oneLine_of_all (by decide)
  · exact oneLine_of_all (by decide)
  · exact (@oneLine_of_all ['\\', 'u', '0', '0', '0'] (by decide)).append (oneLine_toDigits (by decide) (by decide) _)
  · exact (@oneLine_of_all ['\\', 'u', '0', '0'] (by decide)).append (oneLine_toDigits (by decide) (by decide) _)
  · exact fun d hd => List.mem_singleton.mp hd ▸ ⟨h3, h4⟩

theorem oneLine_quote (text : String) : OneLine (quote text).toList := by
  rw [quote, String.toList_ofList]
  intro c hc
  rcases List.mem_cons.mp hc with rfl | hc
  · exact ⟨by decide, by decide⟩
  · rcases List.mem_append.mp hc with hc | hc
    · obtain ⟨d, -, hd⟩ := List.mem_flatMap.mp hc
      exact oneLine_escapeChar d c hd
    · obtain rfl := List.mem_singleton.mp hc
      exact ⟨by decide, by decide⟩

theorem oneLine_intercalate {texts : List String} (h : ∀ text ∈ texts, OneLine text.toList) :
    OneLine (",".intercalate texts).toList := by
  induction texts with
  | nil => exact fun c hc => by cases hc
  | cons text rest ih =>
    obtain ⟨htext, hrest⟩ := List.forall_mem_cons.mp h
    cases rest with
    | nil => exact htext
    | cons next rest =>
      rw [String.intercalate_cons_cons, String.toList_append, String.toList_append]
      refine (htext.append fun c hc => ?_).append (ih hrest)
      obtain rfl := List.mem_singleton.mp hc
      exact ⟨by decide, by decide⟩

theorem oneLine_renderItems {items : List Json} (h : ∀ item ∈ items, OneLine item.render.toList) :
    ∀ text ∈ renderItems items, OneLine text.toList := by
  induction items with
  | nil => exact fun _ htext => absurd htext List.not_mem_nil
  | cons item rest ih =>
    obtain ⟨hitem, hrest⟩ := List.forall_mem_cons.mp h
    exact List.forall_mem_cons.mpr ⟨hitem, ih hrest⟩

theorem oneLine_renderFields {fields : List (String × Json)} (h : ∀ field ∈ fields, OneLine field.2.render.toList) :
    ∀ text ∈ renderFields fields, OneLine text.toList := by
  induction fields with
  | nil => exact fun _ htext => absurd htext List.not_mem_nil
  | cons field rest ih =>
    obtain ⟨hfield, hrest⟩ := List.forall_mem_cons.mp h
    refine List.forall_mem_cons.mpr ⟨?_, ih hrest⟩
    rw [String.toList_append, String.toList_append]
    refine ((oneLine_quote field.1).append fun c hc => ?_).append hfield
    obtain rfl := List.mem_singleton.mp hc
    exact ⟨by decide, by decide⟩

/-- **The compact form of a value** is one line. -/
theorem oneLine_render {value : Json} (h : Printable value) : OneLine value.render.toList := by
  have hone (c : Char) (hc : c ≠ '\n' ∧ c ≠ '\r') : OneLine [c] := fun d hd => List.mem_singleton.mp hd ▸ hc
  induction h with
  | null => exact oneLine_of_all (by decide)
  | bool value => cases value <;> exact oneLine_of_all (by decide)
  | number htext => exact htext
  | string text => exact oneLine_quote text
  | array _ ih =>
    rw [render, String.toList_append, String.toList_append]
    exact ((hone '[' (by decide)).append (oneLine_intercalate (oneLine_renderItems ih))).append (hone ']' (by decide))
  | object _ ih =>
    rw [render, String.toList_append, String.toList_append]
    exact ((hone _ (by decide)).append (oneLine_intercalate (oneLine_renderFields ih))).append (hone _ (by decide))

/-! ### The characters -/

mutual

/-- The characters of the compact form. -/
def chars : Json → List Char
  | .null => "null".toList
  | .bool value => (if value then "true" else "false").toList
  | .number text => text.toList
  | .string text => '"' :: text.toList.flatMap escapeChar ++ ['"']
  | .array items => '[' :: [','].intercalate (charsItems items) ++ [']']
  | .object fields => '\x7b' :: [','].intercalate (charsFields fields) ++ ['\x7d']

def charsItems : List Json → List (List Char)
  | [] => []
  | item :: rest => item.chars :: charsItems rest

def charsFields : List (String × Json) → List (List Char)
  | [] => []
  | (name, value) :: rest => (('"' :: name.toList.flatMap escapeChar ++ ['"']) ++ ':' :: value.chars) :: charsFields rest

end

/-- The characters of a string between quotes. -/
theorem toList_quote (s : String) : (quote s).toList = '"' :: s.toList.flatMap escapeChar ++ ['"'] := String.toList_ofList

mutual

/-- **The characters of the compact form.** -/
theorem toList_render : (value : Json) → value.render.toList = value.chars
  | .null => rfl
  | .bool _ => rfl
  | .number _ => rfl
  | .string text => toList_quote text
  | .array items => by
    rw [render, chars, String.toList_append, String.toList_append, String.toList_intercalate, toList_renderItems items]
    rfl
  | .object fields => by
    rw [render, chars, String.toList_append, String.toList_append, String.toList_intercalate, toList_renderFields fields]
    rfl

theorem toList_renderItems : (items : List Json) → (renderItems items).map String.toList = charsItems items
  | [] => rfl
  | item :: rest => congrArg₂ List.cons (toList_render item) (toList_renderItems rest)

theorem toList_renderFields : (fields : List (String × Json)) → (renderFields fields).map String.toList = charsFields fields
  | [] => rfl
  | (key, value) :: rest => by
    rw [renderFields, charsFields, List.map_cons, String.toList_append, String.toList_append, toList_quote, toList_render value,
      toList_renderFields rest, List.append_assoc]
    rfl

end

end Apmpr.Json
