import Apmpr.Lib.Codec
import Apmpr.Lib.JsonText

/-!
# The text of what codecs write

Whatever codecs are put together of, what they write is printable, and so its text is one line.
-/

namespace Apmpr

/-- What a codec writes is printable. -/
class Codec.Printable {α : Type} (codec : Codec α) : Prop where
  printable : ∀ a, Json.Printable (codec.encode a)

/-- What is written for the fields of an object is printable. -/
class Fields.Printable {α : Type} (fields : Fields α) : Prop where
  printable : ∀ a, ∀ field ∈ fields.encode a, Json.Printable field.2

/-- What is written for the fields of a variant is printable. -/
class Variants.Printable {α : Type} (variants : Variants α) : Prop where
  printable : ∀ a, ∀ field ∈ variants.encode a, Json.Printable field.2

namespace Json

theorem oneLine_nat (n : ℕ) : OneLine (toString n).toList := by
  rw [Nat.toString_eq_repr, Nat.toList_repr]
  exact oneLine_toDigits (by decide) (by decide) n

theorem Printable.nat (n : ℕ) : Printable (.nat n) := .number (oneLine_nat n)

end Json

variable {α β : Type}

namespace Codec.Printable

variable {codec : Codec α}

instance string : Codec.string.Printable := ⟨fun text => .string text⟩

instance path : Codec.path.Printable := ⟨fun p => .string p.text⟩

instance bool : Codec.bool.Printable := ⟨fun value => .bool value⟩

instance bounded (n : ℕ) : (Codec.bounded n).Printable := ⟨fun k => .nat k.val⟩

instance enum (all : List α) (name : α → String) (h : ∀ a, all.find? (fun b => name b = name a) = some a) :
    (Codec.enum all name h).Printable := ⟨fun a => .string (name a)⟩

instance imap [hcodec : codec.Printable] (pack : α → β) (unpack : β → α) (h : ∀ b, pack (unpack b) = b) :
    (codec.imap pack unpack h).Printable := ⟨fun b => hcodec.printable (unpack b)⟩

instance option [hcodec : codec.Printable] (h : ∀ a, codec.encode a ≠ .null) : (codec.option h).Printable := by
  refine ⟨fun a => ?_⟩
  cases a with
  | none => exact .null
  | some a => exact hcodec.printable a

instance list [hcodec : codec.Printable] : codec.list.Printable := by
  refine ⟨fun items => .array fun item hitem => ?_⟩
  obtain ⟨a, -, rfl⟩ := List.mem_map.mp hitem
  exact hcodec.printable a

instance map [hcodec : codec.Printable] : codec.map.Printable := by
  refine ⟨fun m => .object fun field hfield => ?_⟩
  obtain ⟨e, -, rfl⟩ := List.mem_map.mp hfield
  exact hcodec.printable e.2

end Codec.Printable

namespace Fields.Printable

variable {first : Fields α} {second : Fields β}

instance required (name : String) {codec : Codec α} [h : codec.Printable] : (Fields.required name codec).Printable := by
  refine ⟨fun a field hfield => ?_⟩
  obtain rfl := List.mem_singleton.mp hfield
  exact h.printable a

instance defaulted (name : String) {codec : Codec α} [hcodec : codec.Printable] (default : α) (skip : α → Bool)
    (h : ∀ a, skip a = true → a = default) : (Fields.defaulted name codec default skip h).Printable := by
  refine ⟨fun a field hfield => ?_⟩
  simp only [Fields.defaulted] at hfield
  split_ifs at hfield
  · cases hfield
  · obtain rfl := List.mem_singleton.mp hfield
    exact hcodec.printable a

instance withDefault (name : String) {codec : Codec α} [h : codec.Printable] (default : α) :
    (Fields.withDefault name codec default).Printable := defaulted ..

instance optional (name : String) {codec : Codec α} [hcodec : codec.Printable] (h : ∀ a, codec.encode a ≠ .null) :
    (Fields.optional name codec h).Printable := defaulted ..

instance and [hfirst : first.Printable] [hsecond : second.Printable] (h : ∀ name ∈ first.names, name ∉ second.names) :
    (first.and second h).Printable := by
  refine ⟨fun pair field hfield => ?_⟩
  rcases List.mem_append.mp hfield with hfield | hfield
  · exact hfirst.printable pair.1 field hfield
  · exact hsecond.printable pair.2 field hfield

instance imap [hfirst : first.Printable] (pack : α → β) (unpack : β → α) (h : ∀ b, pack (unpack b) = b) :
    (first.imap pack unpack h).Printable := ⟨fun b => hfirst.printable (unpack b)⟩

instance empty : Fields.empty.Printable := ⟨fun _ _ h => absurd h List.not_mem_nil⟩

instance object [hfirst : first.Printable] (hnodup : first.names.Nodup) : (first.object hnodup).Printable :=
  ⟨fun a => .object (hfirst.printable a)⟩

end Fields.Printable

namespace Variants.Printable

variable {first : Variants α} {second : Variants β}

instance one (tag : String) {fields : Fields α} [h : fields.Printable] : (Variants.one tag fields).Printable :=
  ⟨h.printable⟩

instance or [hfirst : first.Printable] [hsecond : second.Printable] (h : ∀ tag ∈ first.tags, tag ∉ second.tags) :
    (first.or second h).Printable := by
  refine ⟨fun value => ?_⟩
  cases value with
  | inl a => exact hfirst.printable a
  | inr b => exact hsecond.printable b

instance imap [hfirst : first.Printable] (pack : α → β) (unpack : β → α) (h : ∀ b, pack (unpack b) = b) :
    (first.imap pack unpack h).Printable := ⟨fun b => hfirst.printable (unpack b)⟩

instance tagged [hfirst : first.Printable] (field : String)
    (h : ∀ tag ∈ first.tags, (field :: first.names tag).Nodup) : (first.tagged field h).Printable :=
  ⟨fun a => .object (List.forall_mem_cons.mpr ⟨.string _, hfirst.printable a⟩)⟩

end Variants.Printable

end Apmpr
