import Apmpr.Lib.Json
import Apmpr.Lib.Keyed
import Apmpr.Lib.MachineInt
import Apmpr.Lib.Registry

/-!
# JSON codecs

How a value is written as JSON and read back, as the derived code of a serialisation library
does it. A codec carries the proof that what it writes it reads. An object is put together of
fields (`Fields`): some must be there, some have a default, and some are left out where they
have their default; an object with a field that is not known, or with a field twice, is
refused. An enumeration whose variants have fields is an object with a tag (`Variants`).
-/

namespace Apmpr

/-- How values are written and read. -/
structure Codec (α : Type) where
  /-- The JSON of a value. -/
  encode : α → Json
  /-- The value of a JSON, unless it is refused. -/
  decode : Json → Option α
  /-- What is written is read. -/
  decode_encode : ∀ a, decode (encode a) = some a

namespace Codec

variable {α β : Type}

/-- Another type with the same JSON. -/
def imap (codec : Codec α) (pack : α → β) (unpack : β → α) (h : ∀ b, pack (unpack b) = b) : Codec β where
  encode b := codec.encode (unpack b)
  decode value := (codec.decode value).map pack
  decode_encode b := by rw [codec.decode_encode, Option.map_some, h]

/-- A text. -/
def string : Codec String where
  encode text := .string text
  decode
    | .string text => some text
    | _ => none
  decode_encode _ := rfl

/-- A path is its text. -/
def path : Codec PathBuf := string.imap PathBuf.mk PathBuf.text fun _ => rfl

theorem string_ne_null : ∀ text, string.encode text ≠ .null := by rintro _ ⟨⟩

theorem path_ne_null : ∀ p, path.encode p ≠ .null := by rintro _ ⟨⟩

/-- A truth value. -/
def bool : Codec Bool where
  encode value := .bool value
  decode
    | .bool value => some value
    | _ => none
  decode_encode _ := rfl

/-- The number below a bound that a text of digits stands for. -/
def readBounded (n : ℕ) (text : String) : Option (Fin n) :=
  if text.toList ≠ [] ∧ text.toList.all Char.isDigit = true then
    if h : Nat.ofDigitChars 10 text.toList 0 < n then some ⟨Nat.ofDigitChars 10 text.toList 0, h⟩ else none
  else none

theorem readBounded_toString {n : ℕ} (k : Fin n) : readBounded n (toString k.val) = some k := by
  have htext : (toString k.val).toList = Nat.toDigits 10 k.val := Nat.toList_repr
  have hvalue : Nat.ofDigitChars 10 (Nat.toDigits 10 k.val) 0 = k.val := Nat.ofDigitChars_ten_toDigits
  have hdigits : (Nat.toDigits 10 k.val).all Char.isDigit = true :=
    List.all_eq_true.mpr fun c hc => Nat.isDigit_of_mem_toDigits (by decide) (by decide) hc
  simp only [readBounded, htext, hvalue]
  rw [if_pos ⟨Nat.toDigits_ne_nil, hdigits⟩, dif_pos k.isLt]

/-- The number below a bound that a text stands for: digits, perhaps after a plus. -/
def readUnsigned (n : ℕ) (text : String) : Option (Fin n) := readBounded n ((Text.afterStart "+" text).getD text)

theorem not_mem_toString {n : ℕ} {c : Char} (h : c.isDigit = false) : c ∉ (toString n).toList := by
  intro hmem
  rw [show (toString n).toList = Nat.toDigits 10 n from Nat.toList_repr] at hmem
  rw [Nat.isDigit_of_mem_toDigits (by decide) (by decide) hmem] at h
  cases h

theorem readUnsigned_toString {n : ℕ} (k : Fin n) : readUnsigned n (toString k.val) = some k := by
  have hplus : Text.afterStart "+" (toString k.val) = none := by
    rw [Text.afterStart, if_neg]
    intro hstart
    obtain ⟨rest, hrest⟩ := List.isPrefixOf_iff_prefix.mp hstart
    refine not_mem_toString (show Char.isDigit '+' = false by decide) (n := k.val) ?_
    rw [← hrest]
    exact List.mem_append_left _ (by decide)
  rw [readUnsigned, hplus]
  exact readBounded_toString k

/-- A number below a bound. -/
def bounded (n : ℕ) : Codec (Fin n) where
  encode k := .nat k
  decode
    | .number text => readBounded n text
    | _ => none
  decode_encode k := readBounded_toString k

/-- A value that may be absent: `null` stands for none, and for no value. -/
def option (codec : Codec α)
    (h : ∀ a, codec.encode a ≠ .null := by first | exact Codec.string_ne_null | exact Codec.path_ne_null | rintro _ ⟨⟩) :
    Codec (Option α) where
  encode
    | none => .null
    | some a => codec.encode a
  decode
    | .null => some none
    | value => (codec.decode value).map some
  decode_encode a := by
    cases a with
    | none => rfl
    | some a =>
      have hread := codec.decode_encode a
      have hnull := h a
      revert hread hnull
      dsimp only
      generalize codec.encode a = value
      intro hread hnull
      cases value <;> simp_all

@[simp] theorem decode_string (text : String) : string.decode (.string text) = some text := rfl

theorem decode_option (codec : Codec α) (h : ∀ a, codec.encode a ≠ .null) {value : Json} (hne : value ≠ .null) :
    (codec.option h).decode value = (codec.decode value).map some := by
  cases value with
  | null => exact absurd rfl hne
  | _ => rfl

theorem mapM_decode (codec : Codec α) (items : List α) : (items.map codec.encode).mapM codec.decode = some items := by
  induction items with
  | nil => rfl
  | cons item rest ih => simp [codec.decode_encode, ih]

/-- A list of values. -/
def list (codec : Codec α) : Codec (List α) where
  encode items := .array (items.map codec.encode)
  decode
    | .array items => items.mapM codec.decode
    | _ => none
  decode_encode items := codec.mapM_decode items

/-- One entry of a map. -/
def entry (codec : Codec α) (field : String × Json) : Option (String × α) :=
  (codec.decode field.2).map (field.1, ·)

theorem mapM_entry (codec : Codec α) (entries : List (String × α)) :
    (entries.map fun e => (e.1, codec.encode e.2)).mapM codec.entry = some entries := by
  induction entries with
  | nil => rfl
  | cons e rest ih => simp [entry, codec.decode_encode, ih]

/-- A map from texts, read so that the last entry of a key counts. -/
def map (codec : Codec α) : Codec (SortedMap String α) where
  encode m := .object (m.entries.map fun e => (e.1, codec.encode e.2))
  decode
    | .object fields => (fields.mapM codec.entry).map SortedMap.ofList
    | _ => none
  decode_encode m := by simp only [codec.mapM_entry, Option.map_some, ofList_entries]

/-- A value of an enumeration, by its name. -/
def enum (all : List α) (name : α → String) (h : ∀ a, all.find? (fun b => name b = name a) = some a) : Codec α where
  encode a := .string (name a)
  decode
    | .string text => all.find? fun b => name b = text
    | _ => none
  decode_encode a := h a

/-- One of two kinds of values; the second kind is tried where the first one refuses. -/
def either (first : Codec α) (second : Codec β) (h : ∀ b, first.decode (second.encode b) = none) : Codec (α ⊕ β) where
  encode
    | .inl a => first.encode a
    | .inr b => second.encode b
  decode value :=
    match first.decode value with
    | some a => some (.inl a)
    | none => (second.decode value).map .inr
  decode_encode value := by
    cases value with
    | inl a => simp only [first.decode_encode]
    | inr b => simp only [h, second.decode_encode, Option.map_some]

end Codec

/-! ### Fields -/

/-- The fields of an object that are written for a value. -/
structure Fields (α : Type) where
  /-- The names of the fields. -/
  names : List String
  /-- The fields of a value. -/
  encode : α → List (String × Json)
  /-- The value of some fields. -/
  decode : (String → Option Json) → Option α
  /-- Only fields with these names are written, each once and in this order. -/
  sublist : ∀ a, ((encode a).map Prod.fst).Sublist names
  /-- What is written is read. -/
  decode_encode : ∀ a read, (∀ name ∈ names, read name = (encode a).lookup name) → decode read = some a

namespace Fields

variable {α β : Type}

/-- A field that must be there. -/
def required (name : String) (codec : Codec α) : Fields α where
  names := [name]
  encode a := [(name, codec.encode a)]
  decode read := (read name).bind codec.decode
  sublist _ := List.Sublist.refl _
  decode_encode a read h := by
    rw [h name (List.mem_singleton_self _)]
    simp [codec.decode_encode]

/-- A field with a default, left out where `skip` says so. -/
def defaulted (name : String) (codec : Codec α) (default : α) (skip : α → Bool) (h : ∀ a, skip a = true → a = default) :
    Fields α where
  names := [name]
  encode a := if skip a then [] else [(name, codec.encode a)]
  decode read :=
    match read name with
    | none => some default
    | some value => codec.decode value
  sublist a := by
    split_ifs
    · exact List.nil_sublist _
    · exact List.Sublist.refl _
  decode_encode a read hread := by
    rw [hread name (List.mem_singleton_self _)]
    split_ifs with hskip
    · simp [List.lookup_nil, h a hskip]
    · simp [codec.decode_encode]

/-- A field with a default that is always written. -/
def withDefault (name : String) (codec : Codec α) (default : α) : Fields α :=
  defaulted name codec default (fun _ => false) fun _ h => by cases h

/-- A field that is left out where there is no value. -/
def optional (name : String) (codec : Codec α)
    (h : ∀ a, codec.encode a ≠ .null := by first | exact Codec.string_ne_null | exact Codec.path_ne_null | rintro _ ⟨⟩) :
    Fields (Option α) :=
  defaulted name (codec.option h) none Option.isNone fun a ha => by simpa using ha

theorem lookup_of_not_mem {fields : List (String × Json)} {name : String} (h : name ∉ fields.map Prod.fst) :
    fields.lookup name = none := by
  rw [List.lookup_eq_none_iff]
  intro field hfield
  simp only [bne_iff_ne, ne_eq]
  rintro rfl
  exact h (List.mem_map.mpr ⟨field, hfield, rfl⟩)

/-- The fields of two values, one after the other. -/
def and (first : Fields α) (second : Fields β) (h : ∀ name ∈ first.names, name ∉ second.names := by decide) :
    Fields (α × β) where
  names := first.names ++ second.names
  encode pair := first.encode pair.1 ++ second.encode pair.2
  decode read := do
    let a ← first.decode read
    let b ← second.decode read
    return (a, b)
  sublist pair := by
    rw [List.map_append]
    exact (first.sublist pair.1).append (second.sublist pair.2)
  decode_encode pair read hread := by
    have hfirst : first.decode read = some pair.1 := by
      refine first.decode_encode pair.1 read fun name hname => ?_
      have habsent : (second.encode pair.2).lookup name = none :=
        lookup_of_not_mem fun hmem => h name hname ((second.sublist pair.2).subset hmem)
      rw [hread name (List.mem_append_left _ hname), List.lookup_append, habsent, Option.or_none]
    have hsecond : second.decode read = some pair.2 := by
      refine second.decode_encode pair.2 read fun name hname => ?_
      have habsent : (first.encode pair.1).lookup name = none :=
        lookup_of_not_mem fun hmem => h name ((first.sublist pair.1).subset hmem) hname
      rw [hread name (List.mem_append_right _ hname), List.lookup_append, habsent, Option.none_or]
    simp [hfirst, hsecond]

/-- Another type with the same fields. -/
def imap (fields : Fields α) (pack : α → β) (unpack : β → α) (h : ∀ b, pack (unpack b) = b) : Fields β where
  names := fields.names
  encode b := fields.encode (unpack b)
  decode read := (fields.decode read).map pack
  sublist b := fields.sublist (unpack b)
  decode_encode b read hread := by rw [fields.decode_encode _ read hread, Option.map_some, h]

/-- No fields. -/
def empty : Fields Unit where
  names := []
  encode _ := []
  decode _ := some ()
  sublist _ := List.Sublist.refl _
  decode_encode _ _ _ := rfl

/-- Whether an object has only known fields, each at most once. -/
def wellFormed (names : List String) (fields : List (String × Json)) : Bool :=
  (fields.map Prod.fst).all names.contains && decide (fields.map Prod.fst).Nodup

theorem wellFormed_of_sublist {names : List String} (hnodup : names.Nodup) {fields : List (String × Json)}
    (h : (fields.map Prod.fst).Sublist names) : wellFormed names fields = true := by
  rw [wellFormed, Bool.and_eq_true, List.all_eq_true, decide_eq_true_eq]
  exact ⟨fun name hname => List.contains_iff_mem.mpr (h.subset hname), hnodup.sublist h⟩

/-- The object of these fields; no other field is accepted. -/
def object (fields : Fields α) (hnodup : fields.names.Nodup := by decide) : Codec α where
  encode a := .object (fields.encode a)
  decode
    | .object entries => if wellFormed fields.names entries then fields.decode (List.lookup · entries) else none
    | _ => none
  decode_encode a := by
    simp only [wellFormed_of_sublist hnodup (fields.sublist a), if_true]
    exact fields.decode_encode a _ fun _ _ => rfl

@[simp] theorem decode_required (name : String) (codec : Codec α) (read : String → Option Json) :
    (required name codec).decode read = (read name).bind codec.decode := rfl

@[simp] theorem decode_defaulted (name : String) (codec : Codec α) (default : α) (skip : α → Bool)
    (h : ∀ a, skip a = true → a = default) (read : String → Option Json) :
    (defaulted name codec default skip h).decode read = (read name).elim (some default) codec.decode := by
  rw [defaulted]
  dsimp only
  cases read name <;> rfl

@[simp] theorem decode_and (first : Fields α) (second : Fields β) (h : ∀ name ∈ first.names, name ∉ second.names)
    (read : String → Option Json) :
    (first.and second h).decode read = (first.decode read).bind fun a => (second.decode read).map fun b => (a, b) := by
  show (first.decode read >>= fun a => second.decode read >>= fun b => pure (a, b)) = _
  cases first.decode read with
  | none => rfl
  | some a => cases second.decode read <;> rfl

@[simp] theorem decode_imap (fields : Fields α) (pack : α → β) (unpack : β → α) (h : ∀ b, pack (unpack b) = b)
    (read : String → Option Json) : (fields.imap pack unpack h).decode read = (fields.decode read).map pack := rfl

/-- An object is read field by field, whatever order it is written in. -/
theorem decode_obj (fields : Fields α) (hnodup : fields.names.Nodup) (entries : List (String × Json))
    (h : (entries.map Prod.fst).all fields.names.contains = true) :
    (fields.object hnodup).decode (.obj entries) = fields.decode (SortedMap.ofList entries).get? := by
  have hformed : wellFormed fields.names (SortedMap.ofList entries).entries = true := by
    rw [wellFormed, Bool.and_eq_true, decide_eq_true_eq]
    refine ⟨List.all_eq_true.mpr fun name hname => ?_, ?_⟩
    · exact List.all_eq_true.mp h name (mem_keys_ofList.mp hname)
    · exact (SortedMap.ofList entries).nodup_keys
  have hread : (List.lookup · (SortedMap.ofList entries).entries) = (SortedMap.ofList entries).get? :=
    funext fun name => SortedMap.lookup_eq_lookup name _
  rw [object, ← hread]
  exact if_pos hformed

end Fields

/-! ### Variants -/

/-- The variants of an enumeration: the tag and the fields of a value. -/
structure Variants (α : Type) where
  /-- The tags. -/
  tags : List String
  /-- The tag of a value. -/
  tag : α → String
  /-- The names of the fields of a tag's variant. -/
  names : String → List String
  /-- The fields of a value. -/
  encode : α → List (String × Json)
  /-- The value of a tag and some fields. -/
  decode : String → (String → Option Json) → Option α
  /-- Every value has one of the tags. -/
  tag_mem : ∀ a, tag a ∈ tags
  /-- No tag but these is read. -/
  decode_of_not_mem : ∀ tag read, tag ∉ tags → decode tag read = none
  /-- Only the fields of the variant are written. -/
  sublist : ∀ a, ((encode a).map Prod.fst).Sublist (names (tag a))
  /-- What is written is read. -/
  decode_encode : ∀ a read, (∀ name ∈ names (tag a), read name = (encode a).lookup name) → decode (tag a) read = some a

namespace Variants

variable {α β : Type}

/-- One variant. -/
def one (tag : String) (fields : Fields α) : Variants α where
  tags := [tag]
  tag _ := tag
  names _ := fields.names
  encode := fields.encode
  decode found read := if found = tag then fields.decode read else none
  tag_mem _ := List.mem_singleton_self _
  decode_of_not_mem found read h := by rw [if_neg (fun heq => h (List.mem_singleton.mpr heq))]
  sublist := fields.sublist
  decode_encode a read hread := by
    rw [if_pos rfl]
    exact fields.decode_encode a read hread

/-- The variants of two enumerations. -/
def or (first : Variants α) (second : Variants β) (h : ∀ tag ∈ first.tags, tag ∉ second.tags := by decide) :
    Variants (α ⊕ β) where
  tags := first.tags ++ second.tags
  tag := Sum.elim first.tag second.tag
  names tag := if tag ∈ first.tags then first.names tag else second.names tag
  encode := Sum.elim first.encode second.encode
  decode tag read := if tag ∈ first.tags then (first.decode tag read).map .inl else (second.decode tag read).map .inr
  tag_mem value := by
    cases value with
    | inl a => exact List.mem_append_left _ (first.tag_mem a)
    | inr b => exact List.mem_append_right _ (second.tag_mem b)
  decode_of_not_mem tag read hnot := by
    rw [List.mem_append, not_or] at hnot
    rw [if_neg hnot.1, second.decode_of_not_mem tag read hnot.2, Option.map_none]
  sublist value := by
    cases value with
    | inl a =>
      rw [Sum.elim_inl, Sum.elim_inl, if_pos (first.tag_mem a)]
      exact first.sublist a
    | inr b =>
      rw [Sum.elim_inr, Sum.elim_inr, if_neg fun hmem => h _ hmem (second.tag_mem b)]
      exact second.sublist b
  decode_encode value read hread := by
    cases value with
    | inl a =>
      rw [Sum.elim_inl, Sum.elim_inl, if_pos (first.tag_mem a)] at hread
      rw [Sum.elim_inl, if_pos (first.tag_mem a), first.decode_encode a read hread, Option.map_some]
    | inr b =>
      have hnot : second.tag b ∉ first.tags := fun hmem => h _ hmem (second.tag_mem b)
      rw [Sum.elim_inr, Sum.elim_inr, if_neg hnot] at hread
      rw [Sum.elim_inr, if_neg hnot, second.decode_encode b read hread, Option.map_some]

/-- Another type with the same variants. -/
def imap (variants : Variants α) (pack : α → β) (unpack : β → α) (h : ∀ b, pack (unpack b) = b) : Variants β where
  tags := variants.tags
  tag b := variants.tag (unpack b)
  names := variants.names
  encode b := variants.encode (unpack b)
  decode tag read := (variants.decode tag read).map pack
  tag_mem b := variants.tag_mem (unpack b)
  decode_of_not_mem tag read hnot := by rw [variants.decode_of_not_mem tag read hnot, Option.map_none]
  sublist b := variants.sublist (unpack b)
  decode_encode b read hread := by rw [variants.decode_encode _ read hread, Option.map_some, h]

/-- The object of a variant: its tag in one field, beside its other fields. -/
def tagged (variants : Variants α) (field : String)
    (h : ∀ tag ∈ variants.tags, (field :: variants.names tag).Nodup := by decide) : Codec α where
  encode a := .object ((field, .string (variants.tag a)) :: variants.encode a)
  decode
    | .object entries =>
      match entries.lookup field with
      | some (.string tag) =>
        if Fields.wellFormed (field :: variants.names tag) entries then variants.decode tag (List.lookup · entries) else none
      | _ => none
    | _ => none
  decode_encode a := by
    have hnodup := h _ (variants.tag_mem a)
    have hformed := Fields.wellFormed_of_sublist hnodup
      (show (((field, Json.string (variants.tag a)) :: variants.encode a).map Prod.fst).Sublist _ from
        (variants.sublist a).cons_cons field)
    simp only [List.lookup_cons_self, hformed, if_true]
    refine variants.decode_encode a _ fun name hname => ?_
    have hne : name ≠ field := fun heq => (List.nodup_cons.mp hnodup).1 (heq ▸ hname)
    rw [List.lookup_cons, beq_false_of_ne hne]

end Variants

end Apmpr
