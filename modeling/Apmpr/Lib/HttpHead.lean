import Apmpr.Lib.Lines
import Apmpr.Lib.Utf8

/-!
# Heads of HTTP messages

A message is a head and a body. The head is a sequence of lines, each ended by a carriage
return and a line feed, and is ended by a blank line; the lines after the first are header
fields, a name and a value with a colon between.

## What is proved

* `blankEnd_append`, `blankEnd_of_append`: where a head ends does not depend on what follows
  it, so that it can be looked for while the message is read piece by piece.
* `readHead_render`: a head that is made of lines is read back as these lines, whatever
  follows it.
* `field_line`: a field that is written is read back.
-/

namespace Apmpr.HttpHead

/-- Where the first blank line ends. -/
def blankEnd : List UInt8 → Option ℕ
  | [] => none
  | byte :: rest =>
    if [13, 10, 13, 10].isPrefixOf (byte :: rest) then some 4 else (blankEnd rest).map (· + 1)

/-- The lines of a text, split at every carriage return with a line feed. -/
def splitLines : List Char → List (List Char)
  | [] => [[]]
  | '\r' :: '\n' :: rest => [] :: splitLines rest
  | c :: rest =>
    match splitLines rest with
    | [] => [[c]]
    | first :: lines => (c :: first) :: lines

/-- The lines of a head: without the blank line that ends it. -/
def headLines (text : List Char) : List (List Char) := splitLines (text.take (text.length - 4))

/-- The head of a message, and what follows it. -/
def readHead (bytes : List UInt8) : Option (List (List Char) × List UInt8) :=
  match blankEnd bytes with
  | none => none
  | some stop => (Utf8.decode (bytes.take stop)).map fun text => (headLines text, bytes.drop stop)

/-- A head with these lines. -/
def render (lines : List (List Char)) : List Char := lines.flatMap (· ++ ['\r', '\n']) ++ ['\r', '\n']

/-- The name and value of a header field. -/
def field (line : List Char) : Option (String × String) :=
  (Text.splitOnce ':' (String.ofList line)).map fun (name, value) => (name, Text.trim value)

/-- A header field as a line. -/
def fieldLine (name value : String) : List Char := (name ++ ": " ++ value).toList

/-! ### Where a head ends -/

theorem blankEnd_bounds {bytes : List UInt8} {stop : ℕ} (h : blankEnd bytes = some stop) :
    4 ≤ stop ∧ stop ≤ bytes.length := by
  induction bytes generalizing stop with
  | nil => cases h
  | cons byte rest ih =>
    rw [blankEnd] at h
    split_ifs at h with hblank
    · obtain rfl := Option.some.inj h
      have hlength := (List.isPrefixOf_iff_prefix.mp hblank).length_le
      simpa using hlength
    · obtain ⟨n, hn, rfl⟩ := Option.map_eq_some_iff.mp h
      obtain ⟨hleast, hmost⟩ := ih hn
      rw [List.length_cons]
      omega

/-- What follows a head does not change where it ends. -/
theorem blankEnd_append {bytes : List UInt8} {stop : ℕ} (h : blankEnd bytes = some stop) (more : List UInt8) :
    blankEnd (bytes ++ more) = some stop := by
  induction bytes generalizing stop with
  | nil => cases h
  | cons byte rest ih =>
    rw [blankEnd] at h
    rw [List.cons_append, blankEnd]
    split_ifs at h with hblank
    · obtain rfl := Option.some.inj h
      have hprefix := (List.isPrefixOf_iff_prefix.mp hblank).trans (List.prefix_append (byte :: rest) more)
      exact if_pos (List.isPrefixOf_iff_prefix.mpr hprefix)
    · obtain ⟨n, hn, rfl⟩ := Option.map_eq_some_iff.mp h
      -- the rest is long enough for a blank line, so that what is added is not part of one here
      have hlength := blankEnd_bounds hn
      rw [if_neg, ih hn, Option.map_some]
      intro hlonger
      refine hblank (List.isPrefixOf_iff_prefix.mpr ?_)
      refine List.prefix_of_prefix_length_le (List.isPrefixOf_iff_prefix.mp hlonger)
        (List.prefix_append (byte :: rest) more) ?_
      simp only [List.length_cons, List.length_nil]
      omega

/-- A head that ends within a part of a message ends there in the part. -/
theorem blankEnd_of_append {bytes more : List UInt8} {stop : ℕ} (h : blankEnd (bytes ++ more) = some stop)
    (hstop : stop ≤ bytes.length) : blankEnd bytes = some stop := by
  induction bytes generalizing stop with
  | nil =>
    have := (blankEnd_bounds h).1
    rw [List.length_nil] at hstop
    omega
  | cons byte rest ih =>
    rw [List.cons_append, blankEnd] at h
    rw [blankEnd]
    split_ifs at h with hlonger
    · obtain rfl := Option.some.inj h
      rw [if_pos (List.isPrefixOf_iff_prefix.mpr (List.prefix_of_prefix_length_le
        (List.isPrefixOf_iff_prefix.mp hlonger) (List.prefix_append (byte :: rest) more) hstop))]
    · obtain ⟨n, hn, rfl⟩ := Option.map_eq_some_iff.mp h
      rw [if_neg, ih hn (by rw [List.length_cons] at hstop; omega), Option.map_some]
      intro hblank
      exact hlonger (List.isPrefixOf_iff_prefix.mpr
        ((List.isPrefixOf_iff_prefix.mp hblank).trans (List.prefix_append (byte :: rest) more)))

/-! ### Reading a head that was made -/

/-- Bytes without a carriage return are passed over. -/
theorem blankEnd_skip {bytes : List UInt8} (h : 13 ∉ bytes) (more : List UInt8) :
    blankEnd (bytes ++ more) = (blankEnd more).map (· + bytes.length) := by
  induction bytes with
  | nil => simp
  | cons byte rest ih =>
    have hbyte : (13 : UInt8) ≠ byte := fun hb => h (hb ▸ List.mem_cons_self ..)
    rw [List.cons_append, blankEnd, if_neg (by simp [List.isPrefixOf, hbyte]), ih fun hr => h (List.mem_cons_of_mem _ hr),
      Option.map_map]
    congr 1

/-- A line end before more text is passed over. -/
theorem blankEnd_lineEnd {byte : UInt8} (h : byte ≠ 13) (more : List UInt8) :
    blankEnd (13 :: 10 :: byte :: more) = (blankEnd (byte :: more)).map (· + 2) := by
  rw [blankEnd, if_neg (by simp [List.isPrefixOf, h.symm]), blankEnd, if_neg (by simp [List.isPrefixOf]), Option.map_map]
  rfl

theorem blankEnd_blank (more : List UInt8) : blankEnd (13 :: 10 :: 13 :: 10 :: more) = some 4 := by
  rw [blankEnd, if_pos (by simp [List.isPrefixOf])]

/-- A line of a head: some text without a carriage return. -/
def IsLine (line : List Char) : Prop := line ≠ [] ∧ '\r' ∉ line

theorem not_mem_encode_line {line : List Char} (h : IsLine line) : 13 ∉ Utf8.encode line := by
  intro hmem
  obtain ⟨c, hc, hbyte⟩ := List.mem_flatMap.mp hmem
  have hcr : c = '\r' := Utf8.eq_of_mem_encodeChar hbyte (by decide)
  exact h.2 (hcr ▸ hc)

/-- The end of a head that was made is found, whatever follows it. -/
theorem blankEnd_render {lines : List (List Char)} (hne : lines ≠ []) (h : ∀ line ∈ lines, IsLine line)
    (more : List UInt8) :
    blankEnd (Utf8.encode (render lines) ++ more) = some (Utf8.encode (render lines)).length := by
  induction lines with
  | nil => exact absurd rfl hne
  | cons line rest ih =>
    have hline := not_mem_encode_line (h line (List.mem_cons_self ..))
    have hrender : Utf8.encode (render (line :: rest)) = Utf8.encode line ++ 13 :: 10 :: Utf8.encode (render rest) := by
      rw [render, List.flatMap_cons, List.append_assoc, List.append_assoc, Utf8.encode_append]
      rfl
    rw [hrender, List.append_assoc, blankEnd_skip hline]
    cases rest with
    | nil =>
      rw [show Utf8.encode (render []) = [13, 10] from rfl]
      simp only [List.cons_append, List.nil_append, blankEnd_blank, Option.map_some, List.length_append, List.length_cons,
        List.length_nil]
      congr 1
      omega
    | cons next rest =>
      have hnext := h next (List.mem_cons_of_mem _ (List.mem_cons_self ..))
      have hfirst : ∃ byte bytes, Utf8.encode (render (next :: rest)) = byte :: bytes ∧ byte ≠ 13 := by
        have hmem := not_mem_encode_line hnext
        have hlength := Utf8.length_le_length_encode next
        have hpos : 0 < next.length := List.length_pos_iff.mpr hnext.1
        obtain ⟨byte, bytes, hbytes⟩ := List.exists_cons_of_length_pos (show 0 < (Utf8.encode next).length by omega)
        refine ⟨byte, bytes ++ Utf8.encode (['\r', '\n'] ++ render rest), ?_, ?_⟩
        · rw [render, List.flatMap_cons, List.append_assoc, List.append_assoc, Utf8.encode_append, hbytes]
          rfl
        · rintro rfl
          exact hmem (hbytes ▸ List.mem_cons_self ..)
      obtain ⟨byte, bytes, hbytes, hbyte⟩ := hfirst
      have hrest := ih (by simp) fun l hl => h l (List.mem_cons_of_mem _ hl)
      rw [hbytes] at hrest ⊢
      rw [List.cons_append, List.cons_append, List.cons_append, blankEnd_lineEnd hbyte]
      rw [List.cons_append] at hrest
      rw [hrest]
      simp only [Option.map_some, List.length_append, List.length_cons]
      congr 1
      omega

/-! ### Lines -/

theorem splitLines_cons {c : Char} (h : c ≠ '\r') (rest : List Char) {first : List Char} {lines : List (List Char)}
    (hrest : splitLines rest = first :: lines) : splitLines (c :: rest) = (c :: first) :: lines := by
  rw [splitLines, hrest]
  rintro _ rfl
  exact absurd rfl h

theorem splitLines_of_not_mem {line : List Char} (h : '\r' ∉ line) : splitLines line = [line] := by
  induction line with
  | nil => rfl
  | cons c line ih =>
    have hc : c ≠ '\r' := fun hc => h (hc ▸ List.mem_cons_self ..)
    exact splitLines_cons hc line (ih fun hl => h (List.mem_cons_of_mem _ hl))

theorem splitLines_append {line : List Char} (h : '\r' ∉ line) (rest : List Char) :
    splitLines (line ++ '\r' :: '\n' :: rest) = line :: splitLines rest := by
  induction line with
  | nil => rw [List.nil_append, splitLines]
  | cons c line ih =>
    have hc : c ≠ '\r' := fun hc => h (hc ▸ List.mem_cons_self ..)
    exact splitLines_cons hc _ (ih fun hl => h (List.mem_cons_of_mem _ hl))

/-- The lines of a head that was made are read back. -/
theorem headLines_render {lines : List (List Char)} (hne : lines ≠ []) (h : ∀ line ∈ lines, IsLine line) :
    headLines (render lines) = lines := by
  induction lines with
  | nil => exact absurd rfl hne
  | cons line rest ih =>
    have hline := (h line (List.mem_cons_self ..)).2
    have hrender : render (line :: rest) = line ++ '\r' :: '\n' :: render rest := by
      rw [render, List.flatMap_cons, List.append_assoc, List.append_assoc]
      rfl
    cases rest with
    | nil =>
      have htake : (render [line]).take ((render [line]).length - 4) = line := by
        rw [hrender, show render [] = ['\r', '\n'] from rfl]
        simp
      rw [headLines, htake, splitLines_of_not_mem hline]
    | cons next rest =>
      have hlong : 4 ≤ (render (next :: rest)).length := by
        have hpos := List.length_pos_iff.mpr (h next (List.mem_cons_of_mem _ (List.mem_cons_self ..))).1
        simp only [render, List.flatMap_cons, List.length_append, List.length_cons, List.length_nil]
        omega
      have htake : (render (line :: next :: rest)).take ((render (line :: next :: rest)).length - 4) =
          line ++ '\r' :: '\n' :: (render (next :: rest)).take ((render (next :: rest)).length - 4) := by
        rw [hrender, List.take_append, List.length_append, List.length_cons, List.length_cons,
          List.take_of_length_le (by omega)]
        congr 1
        rw [show line.length + ((render (next :: rest)).length + 1 + 1) - 4 - line.length =
          (render (next :: rest)).length - 4 + 1 + 1 by omega, List.take_succ_cons, List.take_succ_cons]
      rw [headLines, htake, splitLines_append hline]
      exact congrArg (line :: ·) (ih (by simp) fun l hl => h l (List.mem_cons_of_mem _ hl))

/-- A head that is made of lines is read back, and what follows it is left. -/
theorem readHead_render {lines : List (List Char)} (hne : lines ≠ []) (h : ∀ line ∈ lines, IsLine line)
    (more : List UInt8) : readHead (Utf8.encode (render lines) ++ more) = some (lines, more) := by
  rw [readHead, blankEnd_render hne h more]
  dsimp only
  rw [List.take_left, List.drop_left, Utf8.decode_encode, Option.map_some, headLines_render hne h]

/-! ### Fields -/

/-- A field that is written is read back. -/
theorem field_line {name value : String} (hname : ':' ∉ name.toList) (hvalue : Text.trim value = value) :
    field (fieldLine name value) = some (name, value) := by
  have hlist : (name ++ ": " ++ value).toList = name.toList ++ ':' :: ' ' :: value.toList := by simp
  have htrim : Text.trim (String.ofList (' ' :: value.toList)) = Text.trim value := by
    rw [Text.trim, Text.trim, String.toList_ofList, List.dropWhile_cons_of_pos (by decide)]
  rw [field, fieldLine, String.ofList_toList, Text.splitOnce, hlist, Text.splitOnceChars_append hname]
  simp only [Option.map_some, String.ofList_toList]
  rw [htrim, hvalue]

end Apmpr.HttpHead
