import Mathlib.Data.List.Basic

/-!
# UTF-8

Texts as bytes. Encoding is that of the core library, character by character; decoding reads
a leading byte, the bytes that continue it, and the character they stand for, and refuses
what is longer than it needs to be or no character.

## What is proved

* `decode_encode`: an encoded text is read back.
* `eq_of_mem_encodeChar`: a byte below 128 in an encoded character is the character itself.
* `lossy_encode`: nothing of an encoded text is lost where bytes that are no text are replaced.
* `shape_lossy`: of pieces that are cut anywhere nothing of ASCII is lost, and nothing is added.
* `exists_of_shape`: texts of one shape are taken apart at the same characters of ASCII.
-/

namespace Apmpr.Utf8

/-- The bytes of a text. -/
def encode (text : List Char) : List UInt8 := text.flatMap String.utf8EncodeChar

/-- What a leading byte says: how many bytes follow, its part of the value, and the least value. -/
def leading (byte : UInt8) : Option (ℕ × ℕ × ℕ) :=
  let a := byte.toNat
  if a < 0x80 then some (0, a, 0)
  else if a < 0xC0 then none
  else if a < 0xE0 then some (1, a - 0xC0, 0x80)
  else if a < 0xF0 then some (2, a - 0xE0, 0x800)
  else if a < 0xF8 then some (3, a - 0xF0, 0x10000)
  else none

/-- Whether a byte continues a character. -/
def continues (byte : UInt8) : Bool := 0x80 ≤ byte.toNat && byte.toNat < 0xC0

/-- The first character of some bytes, and the bytes after it. -/
def decodeChar : List UInt8 → Option (Char × List UInt8)
  | [] => none
  | byte :: rest =>
    match leading byte with
    | none => none
    | some (count, value, least) =>
      let tail := rest.take count
      let value := tail.foldl (fun acc b => acc * 64 + (b.toNat - 0x80)) value
      if tail.length = count ∧ tail.all continues = true ∧ least ≤ value ∧ value.isValidChar then
        some (Char.ofNat value, rest.drop count)
      else none

/-- The text of some bytes, of at most a number of characters. -/
def decodeUpTo : ℕ → List UInt8 → Option (List Char)
  | _, [] => some []
  | 0, _ :: _ => none
  | fuel + 1, byte :: rest =>
    match decodeChar (byte :: rest) with
    | none => none
    | some (c, rest) => (decodeUpTo fuel rest).map (c :: ·)

/-- `std::str::from_utf8`. -/
def decode (bytes : List UInt8) : Option (List Char) := decodeUpTo bytes.length bytes

theorem encode_cons (c : Char) (text : List Char) : encode (c :: text) = String.utf8EncodeChar c ++ encode text := rfl

theorem encode_append (l r : List Char) : encode (l ++ r) = encode l ++ encode r := List.flatMap_append

theorem length_encodeChar_pos (c : Char) : 0 < (String.utf8EncodeChar c).length := by
  rw [String.utf8EncodeChar]
  split_ifs <;> simp

theorem length_le_length_encode (text : List Char) : text.length ≤ (encode text).length := by
  induction text with
  | nil => simp
  | cons c text ih =>
    have := length_encodeChar_pos c
    rw [encode_cons, List.length_append, List.length_cons]
    omega

theorem length_encode_le (text : List Char) : (encode text).length ≤ 4 * text.length := by
  induction text with
  | nil => simp [encode]
  | cons c text ih =>
    have hc := c.utf8Size_le_four
    rw [← String.length_utf8EncodeChar] at hc
    rw [encode_cons, List.length_append, List.length_cons]
    omega

/-- A leading byte and the bytes that continue it are one character. -/
theorem decodeChar_of_leading {byte : UInt8} {v : ℕ} (count value least : ℕ) (tail rest : List UInt8)
    (hlead : leading byte = some (count, value, least)) (hcount : tail.length = count)
    (htail : tail.all continues = true) (hv : tail.foldl (fun acc b => acc * 64 + (b.toNat - 0x80)) value = v)
    (hleast : least ≤ v) (hvalid : v.isValidChar) : decodeChar (byte :: (tail ++ rest)) = some (Char.ofNat v, rest) := by
  have htake : (tail ++ rest).take count = tail := by rw [← hcount, List.take_left]
  have hdrop : (tail ++ rest).drop count = rest := by rw [← hcount, List.drop_left]
  rw [decodeChar, hlead]
  simp only [htake, hdrop, hv]
  rw [if_pos ⟨hcount, htail, hleast, hvalid⟩]

theorem toNat_ofNat {n : ℕ} (h : n < 256) : (UInt8.ofNat n).toNat = n := by
  rw [UInt8.toNat_ofNat', Nat.mod_eq_of_lt h]

theorem continues_ofNat {n : ℕ} (h : n < 64) : continues (UInt8.ofNat (n + 0x80)) = true := by
  rw [continues, toNat_ofNat (by omega), Bool.and_eq_true, decide_eq_true_eq, decide_eq_true_eq]
  omega

/-- An encoded character is read back. -/
theorem decodeChar_encodeChar (c : Char) (rest : List UInt8) :
    decodeChar (String.utf8EncodeChar c ++ rest) = some (c, rest) := by
  have hvalid : c.val.toNat.isValidChar := c.valid
  have hbound : c.val.toNat < 0x110000 := by
    rcases hvalid with h | h
    · omega
    · exact h.2
  have hchar : Char.ofNat c.val.toNat = c := Char.ofNat_toNat c
  rw [String.utf8EncodeChar]
  generalize c.val.toNat = v at hvalid hbound hchar
  rw [← hchar]
  split_ifs with h1 h2 h3
  · refine decodeChar_of_leading 0 v 0 [] rest ?_ rfl rfl rfl (by omega) hvalid
    rw [leading, toNat_ofNat (by omega), if_pos (by omega)]
  · refine decodeChar_of_leading 1 (v / 64 % 32) 0x80 [_] rest ?_ rfl ?_ ?_ (by omega) hvalid
    · rw [leading, toNat_ofNat (by omega), if_neg (by omega), if_neg (by omega), if_pos (by omega)]
      simp
    · simp only [List.all_cons, List.all_nil, Bool.and_true]
      exact continues_ofNat (by omega)
    · simp only [List.foldl_cons, List.foldl_nil]
      rw [toNat_ofNat (by omega)]
      omega
  · refine decodeChar_of_leading 2 (v / 4096 % 16) 0x800 [_, _] rest ?_ rfl ?_ ?_ (by omega) hvalid
    · rw [leading, toNat_ofNat (by omega), if_neg (by omega), if_neg (by omega), if_neg (by omega), if_pos (by omega)]
      simp
    · simp only [List.all_cons, List.all_nil, Bool.and_true, Bool.and_eq_true]
      exact ⟨continues_ofNat (by omega), continues_ofNat (by omega)⟩
    · simp only [List.foldl_cons, List.foldl_nil]
      rw [toNat_ofNat (by omega), toNat_ofNat (by omega)]
      omega
  · refine decodeChar_of_leading 3 (v / 262144 % 8) 0x10000 [_, _, _] rest ?_ rfl ?_ ?_ (by omega) hvalid
    · rw [leading, toNat_ofNat (by omega), if_neg (by omega), if_neg (by omega), if_neg (by omega), if_neg (by omega),
        if_pos (by omega)]
      simp
    · simp only [List.all_cons, List.all_nil, Bool.and_true, Bool.and_eq_true]
      exact ⟨continues_ofNat (by omega), continues_ofNat (by omega), continues_ofNat (by omega)⟩
    · simp only [List.foldl_cons, List.foldl_nil]
      rw [toNat_ofNat (by omega), toNat_ofNat (by omega), toNat_ofNat (by omega)]
      omega

theorem decodeUpTo_encode {text : List Char} {fuel : ℕ} (h : text.length ≤ fuel) :
    decodeUpTo fuel (encode text) = some text := by
  induction text generalizing fuel with
  | nil => cases fuel <;> rfl
  | cons c text ih =>
    obtain ⟨fuel, rfl⟩ : ∃ n, fuel = n + 1 := ⟨fuel - 1, by rw [List.length_cons] at h; omega⟩
    obtain ⟨byte, bytes, hbytes⟩ := List.exists_cons_of_length_pos (length_encodeChar_pos c)
    have hread := decodeChar_encodeChar c (encode text)
    rw [encode_cons]
    rw [hbytes] at hread ⊢
    rw [List.cons_append] at hread ⊢
    rw [decodeUpTo, hread]
    dsimp only
    rw [ih (by rw [List.length_cons] at h; omega), Option.map_some]

/-- An encoded text is read back. -/
theorem decode_encode (text : List Char) : decode (encode text) = some text :=
  decodeUpTo_encode (length_le_length_encode text)

/-- A byte below 128 in an encoded character is the character itself. -/
theorem eq_of_mem_encodeChar {c : Char} {byte : UInt8} (h : byte ∈ String.utf8EncodeChar c) (hascii : byte.toNat < 128) :
    c = Char.ofNat byte.toNat := by
  have hchar : Char.ofNat c.val.toNat = c := Char.ofNat_toNat c
  rw [String.utf8EncodeChar] at h
  have hbig : ∀ n k, 0x80 ≤ k → n + k < 256 → byte = UInt8.ofNat (n + k) → False := by
    rintro n k hk hn rfl
    rw [toNat_ofNat hn] at hascii
    omega
  split_ifs at h with h1 h2 h3
  · obtain rfl := List.mem_singleton.mp h
    rw [toNat_ofNat (by omega)]
    exact hchar.symm
  all_goals
    exfalso
    simp only [List.mem_cons, List.not_mem_nil, or_false] at h
  · rcases h with h | h
    · exact hbig _ _ (by omega) (by omega) h
    · exact hbig _ _ (by omega) (by omega) h
  · rcases h with h | h | h
    · exact hbig _ _ (by omega) (by omega) h
    · exact hbig _ _ (by omega) (by omega) h
    · exact hbig _ _ (by omega) (by omega) h
  · rcases h with h | h | h | h
    · exact hbig _ _ (by omega) (by omega) h
    · exact hbig _ _ (by omega) (by omega) h
    · exact hbig _ _ (by omega) (by omega) h
    · exact hbig _ _ (by omega) (by omega) h

/-- A byte below 128 is encoded as itself. -/
theorem encodeChar_of_ascii {byte : UInt8} (h : byte.toNat < 128) :
    String.utf8EncodeChar (Char.ofNat byte.toNat) = [byte] := by
  have hval : (Char.ofNat byte.toNat).val.toNat = byte.toNat := by
    rw [Char.ofNat, dif_pos (.inl (by omega) : byte.toNat.isValidChar)]
    rfl
  unfold String.utf8EncodeChar
  rw [hval, if_pos (by omega), UInt8.ofNat_toNat]

/-! ### Bytes that are no text -/

/-- Whether a second byte goes on with a first one, of a character of three or four bytes. -/
def secondGoesOn (first second : UInt8) : Bool :=
  let (low, high) : ℕ × ℕ :=
    if first = 0xE0 then (0xA0, 0xC0)
    else if first = 0xED then (0x80, 0xA0)
    else if first = 0xF0 then (0x90, 0xC0)
    else if first = 0xF4 then (0x80, 0x90)
    else (0x80, 0xC0)
  low ≤ second.toNat && second.toNat < high

/-- How many bytes belong together at the front of bytes that begin with no character. -/
def brokenLength : List UInt8 → ℕ
  | first :: second :: rest =>
    if 0xE0 ≤ first.toNat && first.toNat < 0xF5 && secondGoesOn first second then
      match rest with
      | third :: _ => if 0xF0 ≤ first.toNat && continues third then 3 else 2
      | [] => 2
    else 1
  | _ => 1

/-- The text of some bytes, with U+FFFD for each part that is no text. -/
def lossyUpTo : ℕ → List UInt8 → List Char
  | _, [] => []
  | 0, _ :: _ => []
  | fuel + 1, byte :: rest =>
    match decodeChar (byte :: rest) with
    | some (c, rest) => c :: lossyUpTo fuel rest
    | none => Char.ofNat 0xFFFD :: lossyUpTo fuel ((byte :: rest).drop (brokenLength (byte :: rest)))

/-- `String::from_utf8_lossy`. -/
def lossy (bytes : List UInt8) : List Char := lossyUpTo bytes.length bytes

theorem lossyUpTo_encode {text : List Char} {fuel : ℕ} (h : text.length ≤ fuel) : lossyUpTo fuel (encode text) = text := by
  induction text generalizing fuel with
  | nil => cases fuel <;> rfl
  | cons c text ih =>
    obtain ⟨fuel, rfl⟩ : ∃ n, fuel = n + 1 := ⟨fuel - 1, by rw [List.length_cons] at h; omega⟩
    obtain ⟨byte, bytes, hbytes⟩ := List.exists_cons_of_length_pos (length_encodeChar_pos c)
    have hread := decodeChar_encodeChar c (encode text)
    rw [encode_cons]
    rw [hbytes] at hread ⊢
    rw [List.cons_append] at hread ⊢
    rw [lossyUpTo, hread]
    dsimp only
    rw [ih (by rw [List.length_cons] at h; omega)]

/-- A text is read back as it is. -/
theorem lossy_encode (text : List Char) : lossy (encode text) = text :=
  lossyUpTo_encode (length_le_length_encode text)

/-! ### Texts up to what is not ASCII -/

/-- Marks, where several of the unknown ones in a row are one. -/
def collapse : List (Option Char) → List (Option Char)
  | [] => []
  | some c :: marks => some c :: collapse marks
  | none :: marks => if (collapse marks).head? = some none then collapse marks else none :: collapse marks

/-- A character of ASCII. -/
def mark (c : Char) : Option Char := if c.toNat < 128 then some c else none

/-- A byte of ASCII. -/
def markByte (byte : UInt8) : Option Char := if byte.toNat < 128 then some (Char.ofNat byte.toNat) else none

/-- The shape of a text: its characters of ASCII, and where there are others. -/
def shape (text : List Char) : List (Option Char) := collapse (text.map mark)

/-- The shape of the text that some bytes are. -/
def shapeBytes (bytes : List UInt8) : List (Option Char) := collapse (bytes.map markByte)

theorem head?_collapse_none (marks : List (Option Char)) : (collapse (none :: marks)).head? = some none := by
  rw [collapse]
  split_ifs with h
  · exact h
  · rfl

/-- What follows counts by its shape. -/
theorem collapse_append_right (marks : List (Option Char)) {later later' : List (Option Char)}
    (h : collapse later = collapse later') : collapse (marks ++ later) = collapse (marks ++ later') := by
  induction marks with
  | nil => exact h
  | cons mark marks ih => cases mark <;> simp only [List.cons_append, collapse, ih]

/-- What comes before counts by its shape. -/
theorem collapse_append_left (marks later : List (Option Char)) :
    collapse (collapse marks ++ later) = collapse (marks ++ later) := by
  induction marks with
  | nil => rfl
  | cons mark marks ih =>
    cases mark with
    | some c => simp only [List.cons_append, collapse, ih]
    | none =>
      rw [collapse]
      split_ifs with h
      · -- what comes first is unknown already
        obtain ⟨rest, hrest⟩ := List.head?_eq_some_iff.mp h
        have hfirst : (collapse (marks ++ later)).head? = some none := by
          rw [← ih, hrest]
          exact head?_collapse_none _
        rw [ih, List.cons_append, collapse, if_pos hfirst]
      · simp only [List.cons_append, collapse, ih]

theorem collapse_append_congr {marks marks' later later' : List (Option Char)} (h : collapse marks = collapse marks')
    (hlater : collapse later = collapse later') : collapse (marks ++ later) = collapse (marks' ++ later') := by
  rw [← collapse_append_left, h, collapse_append_left]
  exact collapse_append_right marks' hlater

/-- Unknown marks are one. -/
theorem collapse_unknown {marks : List (Option Char)} (hne : marks ≠ []) (h : ∀ mark ∈ marks, mark = none) :
    collapse marks = [none] := by
  induction marks with
  | nil => exact absurd rfl hne
  | cons mark marks ih =>
    obtain ⟨rfl, hrest⟩ := List.forall_mem_cons.mp h
    rw [collapse]
    by_cases hnil : marks = []
    · subst hnil
      rfl
    · rw [ih hnil hrest]
      rfl

theorem toNat_charOfNat {n : ℕ} (h : n.isValidChar) : (Char.ofNat n).toNat = n := by
  rw [Char.ofNat, dif_pos h]
  rfl

/-- A text of which every character is tested to be ASCII. -/
theorem ascii_of_all {text : List Char} (h : (text.all fun c => c.toNat < 128) = true) : ∀ c ∈ text, c.toNat < 128 :=
  fun c hc => of_decide_eq_true (List.all_eq_true.mp h c hc)

theorem mark_of_ascii {c : Char} (h : c.toNat < 128) : mark c = some c := if_pos h

theorem mark_of_not_ascii {c : Char} (h : 128 ≤ c.toNat) : mark c = none := if_neg (Nat.not_lt.mpr h)

/-- A character and its bytes have one shape. -/
theorem collapse_encodeChar (c : Char) : collapse ((String.utf8EncodeChar c).map markByte) = collapse [mark c] := by
  by_cases hascii : c.toNat < 128
  · have hbyte : (UInt8.ofNat c.toNat).toNat = c.toNat := toNat_ofNat (by omega)
    have hchar : Char.ofNat (UInt8.ofNat c.toNat).toNat = c := by rw [hbyte, Char.ofNat_toNat]
    have hencode := @encodeChar_of_ascii (UInt8.ofNat c.toNat) (by omega)
    rw [hchar] at hencode
    rw [hencode, mark_of_ascii hascii, List.map_singleton, markByte, if_pos (by omega), hchar]
  · have hbytes : ∀ mark ∈ (String.utf8EncodeChar c).map markByte, mark = none := by
      intro mark hmark
      obtain ⟨byte, hbyte, rfl⟩ := List.mem_map.mp hmark
      refine if_neg fun hsmall => hascii ?_
      rw [eq_of_mem_encodeChar hbyte hsmall, toNat_charOfNat (.inl (by omega))]
      exact hsmall
    have hne : (String.utf8EncodeChar c).map markByte ≠ [] := by
      rw [Ne, List.map_eq_nil_iff]
      exact List.ne_nil_of_length_pos (length_encodeChar_pos c)
    rw [collapse_unknown hne hbytes, mark_of_not_ascii (by omega)]
    rfl

/-- A text and its bytes have one shape. -/
theorem shapeBytes_encode (text : List Char) : shapeBytes (encode text) = shape text := by
  induction text with
  | nil => rfl
  | cons c text ih =>
    rw [shapeBytes, shape, encode_cons, List.map_append, List.map_cons]
    exact collapse_append_congr (collapse_encodeChar c) ih

theorem leading_of_not_ascii {byte : UInt8} {count value least : ℕ} (hbyte : 128 ≤ byte.toNat)
    (h : leading byte = some (count, value, least)) : 128 ≤ least := by
  rw [leading] at h
  split_ifs at h <;> first | omega | (simp only [Option.some.injEq, Prod.mk.injEq] at h; omega)

theorem not_ascii_of_continues {byte : UInt8} (h : continues byte = true) : 128 ≤ byte.toNat := by
  rw [continues, Bool.and_eq_true, decide_eq_true_eq] at h
  exact h.1

/-- The bytes of the first character have its shape. -/
theorem shape_decodeChar {bytes rest : List UInt8} {c : Char} (h : decodeChar bytes = some (c, rest)) :
    ∃ first, bytes = first ++ rest ∧ first ≠ [] ∧ collapse (first.map markByte) = collapse [mark c] := by
  cases bytes with
  | nil => cases h
  | cons byte bytes =>
    rw [decodeChar] at h
    cases hlead : leading byte with
    | none =>
      rw [hlead] at h
      cases h
    | some lead =>
      obtain ⟨count, value, least⟩ := lead
      simp only [hlead] at h
      split_ifs at h with hwhole
      obtain ⟨-, htail, hleast, hvalid⟩ := hwhole
      obtain ⟨rfl, rfl⟩ := Prod.mk.inj (Option.some.inj h)
      refine ⟨byte :: bytes.take count, by rw [List.cons_append, List.take_append_drop], List.cons_ne_nil _ _, ?_⟩
      by_cases hascii : byte.toNat < 128
      · rw [leading, if_pos hascii] at hlead
        obtain ⟨rfl, rfl, rfl⟩ : count = 0 ∧ value = byte.toNat ∧ least = 0 := by
          simp only [Option.some.injEq, Prod.mk.injEq] at hlead
          omega
        rw [List.take_zero, List.foldl_nil]
        have hchar : (Char.ofNat byte.toNat).toNat = byte.toNat := toNat_charOfNat (.inl (by omega))
        rw [mark_of_ascii (by omega), List.map_singleton, markByte, if_pos hascii]
      · have hbig := leading_of_not_ascii (by omega) hlead
        have hbytes : ∀ mark ∈ (byte :: bytes.take count).map markByte, mark = none := by
          intro mark hmark
          obtain ⟨other, hother, rfl⟩ := List.mem_map.mp hmark
          refine if_neg (Nat.not_lt.mpr ?_)
          rcases List.mem_cons.mp hother with rfl | hother
          · omega
          · exact not_ascii_of_continues (List.all_eq_true.mp htail other hother)
        rw [collapse_unknown (by simp) hbytes, mark_of_not_ascii]
        · rfl
        · rw [toNat_charOfNat hvalid]
          omega

/-- Bytes that begin with no character begin with some that are not ASCII. -/
theorem shape_broken {byte : UInt8} {bytes : List UInt8} (h : decodeChar (byte :: bytes) = none) :
    ∃ broken, byte :: bytes = broken ++ (byte :: bytes).drop (brokenLength (byte :: bytes)) ∧ broken ≠ [] ∧
      ∀ other ∈ broken, 128 ≤ other.toNat := by
  have hbyte : 128 ≤ byte.toNat := by
    by_contra hascii
    have hlead : leading byte = some (0, byte.toNat, 0) := by rw [leading, if_pos (by omega)]
    rw [decodeChar, hlead] at h
    dsimp only at h
    rw [List.take_zero, List.foldl_nil, if_pos ⟨rfl, rfl, Nat.zero_le _, .inl (by omega)⟩] at h
    cases h
  have hone : ∃ broken, byte :: bytes = broken ++ (byte :: bytes).drop 1 ∧ broken ≠ [] ∧ ∀ other ∈ broken, 128 ≤ other.toNat :=
    ⟨[byte], rfl, List.cons_ne_nil _ _, List.forall_mem_singleton.mpr hbyte⟩
  have hsecond {first second : UInt8} (hgoes : secondGoesOn first second = true) : 128 ≤ second.toNat := by
    rw [secondGoesOn] at hgoes
    dsimp only at hgoes
    rw [Bool.and_eq_true, decide_eq_true_eq] at hgoes
    have := hgoes.1
    split_ifs at this <;> omega
  cases bytes with
  | nil => exact hone
  | cons second rest =>
    unfold brokenLength
    dsimp only
    split_ifs with hgoes
    · rw [Bool.and_eq_true] at hgoes
      have hboth : ∀ other ∈ [byte, second], 128 ≤ other.toNat :=
        List.forall_mem_cons.mpr ⟨hbyte, List.forall_mem_singleton.mpr (hsecond hgoes.2)⟩
      cases rest with
      | nil => exact ⟨[byte, second], rfl, by simp, hboth⟩
      | cons third rest =>
        dsimp only
        split_ifs with hthird
        · refine ⟨[byte, second, third], rfl, by simp, ?_⟩
          rw [Bool.and_eq_true] at hthird
          exact List.forall_mem_cons.mpr ⟨hbyte, List.forall_mem_cons.mpr
            ⟨hsecond hgoes.2, List.forall_mem_singleton.mpr (not_ascii_of_continues hthird.2)⟩⟩
        · exact ⟨[byte, second], rfl, by simp, hboth⟩
    · exact hone

theorem shape_lossyUpTo {fuel : ℕ} {bytes : List UInt8} (h : bytes.length ≤ fuel) :
    shape (lossyUpTo fuel bytes) = shapeBytes bytes := by
  induction fuel generalizing bytes with
  | zero =>
    obtain rfl := List.length_eq_zero_iff.mp (Nat.le_zero.mp h)
    rfl
  | succ fuel ih =>
    cases bytes with
    | nil => rfl
    | cons byte bytes =>
      rw [lossyUpTo]
      cases hchar : decodeChar (byte :: bytes) with
      | some found =>
        obtain ⟨c, rest⟩ := found
        obtain ⟨first, hfirst, hne, hshape⟩ := shape_decodeChar hchar
        have hlength := congrArg List.length hfirst
        have hpos := List.length_pos_of_ne_nil hne
        rw [List.length_append] at hlength
        have hrest := ih (by omega : rest.length ≤ fuel)
        rw [hfirst, shapeBytes, shape, List.map_append, List.map_cons]
        exact (collapse_append_congr hshape hrest.symm).symm
      | none =>
        obtain ⟨broken, hbroken, hne, hbytes⟩ := shape_broken hchar
        generalize (byte :: bytes).drop (brokenLength (byte :: bytes)) = rest at hbroken ⊢
        have hlength := congrArg List.length hbroken
        have hpos := List.length_pos_of_ne_nil hne
        rw [List.length_append] at hlength
        have hrest := ih (by omega : rest.length ≤ fuel)
        have hmarks : ∀ mark ∈ broken.map markByte, mark = none := by
          intro mark hmark
          obtain ⟨other, hother, rfl⟩ := List.mem_map.mp hmark
          exact if_neg (Nat.not_lt.mpr (hbytes other hother))
        have hshape : collapse (broken.map markByte) = collapse [mark (Char.ofNat 0xFFFD)] :=
          collapse_unknown (by simpa using hne) hmarks
        rw [hbroken, shapeBytes, shape, List.map_append, List.map_cons]
        exact (collapse_append_congr hshape hrest.symm).symm

/-- **However the bytes of a text are cut**, the texts of the pieces together have its shape. -/
theorem shape_lossy {text : List Char} {pieces : List (List UInt8)} (h : pieces.flatten = encode text) :
    shape (pieces.flatMap lossy) = shape text := by
  have hpieces : shape (pieces.flatMap lossy) = shapeBytes pieces.flatten := by
    clear h
    induction pieces with
    | nil => rfl
    | cons piece pieces ih =>
      rw [List.flatMap_cons, List.flatten_cons, shape, shapeBytes, List.map_append, List.map_append]
      exact collapse_append_congr (shape_lossyUpTo (Nat.le_refl _)) ih
  rw [hpieces, h, shapeBytes_encode]

theorem shape_append_congr {text text' more more' : List Char} (h : shape text = shape text') (hmore : shape more = shape more') :
    shape (text ++ more) = shape (text' ++ more') := by
  rw [shape, shape, List.map_append, List.map_append]
  exact collapse_append_congr h hmore

/-- A character of ASCII parts the shape of a text. -/
theorem shape_append_cons {c : Char} (hc : c.toNat < 128) (before after : List Char) :
    shape (before ++ c :: after) = shape before ++ some c :: shape after := by
  induction before with
  | nil =>
    rw [List.nil_append, shape, List.map_cons, mark_of_ascii hc]
    rfl
  | cons d before ih =>
    rw [shape, shape] at ih
    rw [List.cons_append, shape, shape, List.map_cons, List.map_cons]
    cases mark d with
    | some e => rw [collapse, collapse, ih, List.cons_append]
    | none =>
      rw [collapse, collapse, ih]
      cases collapse (before.map mark) with
      | nil => rfl
      | cons first rest =>
        rw [List.cons_append, List.head?_cons, List.head?_cons]
        split_ifs <;> rfl

/-- **A text whose shape has a character of ASCII** has it there too. -/
theorem exists_of_shape {text : List Char} {x y : List (Option Char)} {c : Char} (h : shape text = x ++ some c :: y) :
    ∃ before after, text = before ++ c :: after ∧ shape before = x ∧ shape after = y := by
  induction text generalizing x with
  | nil =>
    cases x with
    | nil => cases h
    | cons _ _ => cases h
  | cons d text ih =>
    rw [shape, List.map_cons] at h
    by_cases hd : d.toNat < 128
    · rw [mark_of_ascii hd, collapse] at h
      cases x with
      | nil =>
        obtain ⟨hc, hy⟩ := List.cons.inj h
        obtain rfl := Option.some.inj hc
        exact ⟨[], text, rfl, rfl, hy⟩
      | cons first x =>
        obtain ⟨rfl, hx⟩ := List.cons.inj h
        obtain ⟨before, after, rfl, hbefore, hafter⟩ := ih hx
        refine ⟨d :: before, after, rfl, ?_, hafter⟩
        rw [shape, List.map_cons, mark_of_ascii hd, collapse]
        exact congrArg _ hbefore
    · rw [mark_of_not_ascii (by omega), collapse] at h
      have hshape (before : List Char) : shape (d :: before) =
          if (shape before).head? = some none then shape before else none :: shape before := by
        rw [shape, List.map_cons, mark_of_not_ascii (by omega), collapse]
        rfl
      split_ifs at h with hhead
      · obtain ⟨before, after, rfl, hbefore, hafter⟩ := ih h
        refine ⟨d :: before, after, rfl, ?_, hafter⟩
        have hfirst : x.head? = some none := by
          rw [h] at hhead
          cases x with
          | nil => cases hhead
          | cons first x => exact hhead
        rw [hshape, hbefore, if_pos hfirst]
      · cases x with
        | nil => cases h
        | cons first x =>
          obtain ⟨rfl, hx⟩ := List.cons.inj h
          obtain ⟨before, after, rfl, hbefore, hafter⟩ := ih hx
          refine ⟨d :: before, after, rfl, ?_, hafter⟩
          have hfirst : ¬x.head? = some none := by
            intro hfirst
            rw [hx] at hhead
            cases x with
            | nil => cases hfirst
            | cons first x => exact hhead hfirst
          rw [hshape, hbefore, if_neg hfirst]

theorem eq_nil_of_shape {text : List Char} (h : shape text = []) : text = [] := by
  cases text with
  | nil => rfl
  | cons c text =>
    exfalso
    rw [shape, List.map_cons] at h
    cases hmark : mark c with
    | some d =>
      rw [hmark, collapse] at h
      cases h
    | none =>
      have hhead := head?_collapse_none (text.map mark)
      rw [hmark] at h
      rw [h] at hhead
      cases hhead

/-- A text that is parted by a character of ASCII. -/
theorem exists_of_shape_append {text before after : List Char} {c : Char} (hc : c.toNat < 128)
    (h : shape text = shape (before ++ c :: after)) :
    ∃ before' after', text = before' ++ c :: after' ∧ shape before' = shape before ∧ shape after' = shape after :=
  exists_of_shape (h.trans (shape_append_cons hc before after))

/-- **A text of ASCII** has its shape alone, also before another text. -/
theorem exists_of_shape_ascii {ascii : List Char} (hascii : ∀ c ∈ ascii, c.toNat < 128) {text after : List Char}
    (h : shape text = shape (ascii ++ after)) : ∃ after', text = ascii ++ after' ∧ shape after' = shape after := by
  induction ascii generalizing text with
  | nil => exact ⟨text, rfl, h⟩
  | cons c ascii ih =>
    obtain ⟨hc, hrest⟩ := List.forall_mem_cons.mp hascii
    obtain ⟨before', after', rfl, hbefore, hafter⟩ := @exists_of_shape_append _ [] (ascii ++ after) c hc h
    obtain rfl := eq_nil_of_shape hbefore
    obtain ⟨after'', rfl, hlast⟩ := ih hrest hafter
    exact ⟨after'', rfl, hlast⟩

theorem eq_of_shape_ascii {ascii : List Char} (hascii : ∀ c ∈ ascii, c.toNat < 128) {text : List Char}
    (h : shape text = shape ascii) : text = ascii := by
  rw [← List.append_nil ascii] at h
  obtain ⟨after, rfl, hafter⟩ := exists_of_shape_ascii hascii h
  rw [eq_nil_of_shape hafter, List.append_nil]

/-- Of two texts of one shape either both have a character of ASCII, or none of them. -/
theorem mem_of_shape {text text' : List Char} {c : Char} (hc : c.toNat < 128) (h : shape text = shape text') (hmem : c ∈ text) :
    c ∈ text' := by
  obtain ⟨before, after, rfl⟩ := List.append_of_mem hmem
  obtain ⟨before', after', rfl, -, -⟩ := exists_of_shape_append hc h.symm
  exact List.mem_append_right _ (List.mem_cons_self ..)

/-! ### Lines of bytes -/

/-- The bytes up to a newline, and those after it. -/
def takeLine : List UInt8 → List UInt8 × List UInt8
  | [] => ([], [])
  | byte :: rest => if byte = 10 then ([byte], rest) else ((byte :: (takeLine rest).1), (takeLine rest).2)

theorem length_takeLine (input : List UInt8) : (takeLine input).1.length + (takeLine input).2.length = input.length := by
  induction input with
  | nil => rfl
  | cons byte rest ih =>
    rw [takeLine]
    split_ifs
    · simp only [List.length_cons, List.length_nil]
      omega
    · simp only [List.length_cons]
      omega

theorem newline_not_mem_encode {text : List Char} (h : '\n' ∉ text) : (10 : UInt8) ∉ encode text := by
  intro hmem
  obtain ⟨c, hc, hbyte⟩ := List.mem_flatMap.mp hmem
  have heq : c = '\n' := eq_of_mem_encodeChar hbyte (by decide)
  exact h (heq ▸ hc)

theorem takeLine_newline {bytes : List UInt8} (h : 10 ∉ bytes) (more : List UInt8) :
    takeLine (bytes ++ 10 :: more) = (bytes ++ [10], more) := by
  induction bytes with
  | nil => rfl
  | cons byte bytes ih =>
    rw [List.mem_cons, not_or] at h
    obtain ⟨hbyte, hrest⟩ := h
    rw [List.cons_append, takeLine, if_neg (Ne.symm hbyte), ih hrest]
    rfl

theorem takeLine_last {bytes : List UInt8} (h : 10 ∉ bytes) : takeLine bytes = (bytes, []) := by
  induction bytes with
  | nil => rfl
  | cons byte bytes ih =>
    rw [List.mem_cons, not_or] at h
    obtain ⟨hbyte, hrest⟩ := h
    rw [takeLine, if_neg (Ne.symm hbyte), ih hrest]

end Apmpr.Utf8
