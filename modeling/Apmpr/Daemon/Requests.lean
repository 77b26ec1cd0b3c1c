import Apmpr.Daemon.EventClient
import Apmpr.Daemon.Listing

/-!
# Requests to the daemon

What `json_request_with_timeouts` of `apmpr-daemon/src/client.rs` makes of the bytes of a response,
with `decode_chunked`. The response is read to its end before anything is looked at, so that a
body in chunks may come short: the connection may close anywhere.

The answer is that of the whole body however it was sent, and a body in chunks that was cut off
gives an error (`readResponse_transfer`).
-/

namespace Apmpr.Daemon.Requests

open EventClient Listing
open Utf8 (newline_not_mem_encode)

/-- `ClientError`, with what the API answers. -/
inductive RequestError where
  | client (error : ClientError)
  | api (status : Fin 65536) (error : ApiErrorV1)

/-- The bytes before the first window of these bytes, and those after it. -/
def splitWindow (window : List UInt8) : List UInt8 → Option (List UInt8 × List UInt8)
  | [] => none
  | byte :: rest =>
    if window.isPrefixOf (byte :: rest) then some ([], (byte :: rest).drop window.length)
    else (splitWindow window rest).map fun found => (byte :: found.1, found.2)

/-- The size in the head of a chunk. -/
def headSize (head : List UInt8) : Except String ℕ :=
  fromStrRadix (((Text.splitChars ';' (Utf8.lossy head)).head?).getD [])

theorem length_of_splitWindow {window input before after : List UInt8} (h : splitWindow window input = some (before, after)) :
    before.length + window.length + after.length = input.length := by
  induction input generalizing before after with
  | nil => cases h
  | cons byte rest ih =>
    rw [splitWindow] at h
    split_ifs at h with hwindow
    · obtain ⟨rfl, rfl⟩ := Prod.mk.inj (Option.some.inj h)
      have hle := (List.isPrefixOf_iff_prefix.mp hwindow).length_le
      simp only [List.length_nil, List.length_drop]
      omega
    · obtain ⟨⟨before', after'⟩, hfound, heq⟩ := Option.map_eq_some_iff.mp h
      obtain ⟨rfl, rfl⟩ := Prod.mk.inj heq
      have hlength := ih hfound
      simp only [List.length_cons]
      omega

/-- `decode_chunked`, or `none` where it panics: the end of a chunk is past every address. -/
def decodeChunked (input : List UInt8) : Option (Except ClientError (List UInt8)) :=
  match _hline : splitWindow [13, 10] input with
  | none => some (.error (.invalidResponse "invalid chunk header"))
  | some (head, rest) =>
    match headSize head with
    | .error message => some (.error (.invalidResponse message))
    | .ok 0 => some (.ok [])
    | .ok size =>
      if 2 ^ 64 ≤ size + 2 then none
      else if rest.length < size + 2 then some (.error (.invalidResponse "truncated chunk"))
      else (decodeChunked (rest.drop (size + 2))).map fun decoded => decoded.map (rest.take size ++ ·)
termination_by input.length
decreasing_by
  have hlength := length_of_splitWindow ‹_›
  simp only [List.length_drop, List.length_cons, List.length_nil] at hlength ⊢
  omega

section Request

variable {T : Type} (decodeError : List UInt8 → Option ApiErrorV1) (decode : List UInt8 → Except String T)

/-- The answer that a status and a body are. -/
def answer (status : Fin 65536) (body : List UInt8) : Except RequestError T :=
  if status.val < 200 || 300 ≤ status.val then
    .error (.api status ((decodeError body).getD ⟨"http_error", String.ofList (Utf8.lossy body), none⟩))
  else
    match decode (if body = [] then Utf8.encode "null".toList else body) with
    | .error message => .error (.client (.invalidResponse message))
    | .ok value => .ok value

/-- `json_request_with_timeouts`, with the bytes of the response; `none` where it panics. -/
def readResponse (response : List UInt8) : Option (Except RequestError T) :=
  match splitWindow [13, 10, 13, 10] response with
  | none => some (.error (.client (.invalidResponse "missing HTTP header terminator")))
  | some (head, body) =>
    match status (Utf8.lossy head) with
    | none => some (.error (.client (.invalidResponse "missing HTTP status")))
    | some status =>
      if chunked (Utf8.lossy head) then
        match decodeChunked body with
        | none => none
        | some (.error e) => some (.error (.client e))
        | some (.ok body) => some (answer decodeError decode status body)
      else some (answer decodeError decode status body)

end Request

/-! ### Windows -/

theorem splitWindow_cons_of_not {window : List UInt8} {byte : UInt8} {rest : List UInt8} (h : ¬ window <+: byte :: rest) :
    splitWindow window (byte :: rest) = (splitWindow window rest).map fun found => (byte :: found.1, found.2) := by
  rw [splitWindow, if_neg fun hwindow => h (List.isPrefixOf_iff_prefix.mp hwindow)]

theorem splitWindow_of_prefix {window : List UInt8} (hne : window ≠ []) (rest : List UInt8) :
    splitWindow window (window ++ rest) = some ([], rest) := by
  obtain ⟨byte, more, rfl⟩ := List.exists_cons_of_ne_nil hne
  rw [List.cons_append, splitWindow,
    if_pos (List.isPrefixOf_iff_prefix.mpr ⟨rest, (List.cons_append ..)⟩), ← List.cons_append, List.drop_left]

/-- A window whose second byte is a newline does not begin on a line. -/
theorem splitWindow_line {window line more : List UInt8} (hline : 10 ∉ line) :
    splitWindow (13 :: 10 :: window) (line ++ 13 :: more) =
      (splitWindow (13 :: 10 :: window) (13 :: more)).map fun found => (line ++ found.1, found.2) := by
  induction line with
  | nil => simp
  | cons byte line ih =>
    rw [List.mem_cons, not_or] at hline
    obtain ⟨-, hline⟩ := hline
    have hnot : ¬ (13 :: 10 :: window) <+: byte :: (line ++ 13 :: more) := by
      intro hwindow
      obtain ⟨-, hwindow⟩ := List.cons_prefix_cons.mp hwindow
      cases line with
      | nil => exact absurd (List.cons_prefix_cons.mp hwindow).1 (by decide)
      | cons next line => exact hline (List.mem_cons.mpr (.inl (List.cons_prefix_cons.mp hwindow).1))
    rw [List.cons_append, splitWindow_cons_of_not hnot, ih hline, Option.map_map]
    rfl

/-- Where no line ends there is no window. -/
theorem splitWindow_of_not_mem {window input : List UInt8} (h : 10 ∉ input) : splitWindow (13 :: 10 :: window) input = none := by
  induction input with
  | nil => rfl
  | cons byte rest ih =>
    rw [List.mem_cons, not_or] at h
    obtain ⟨-, hrest⟩ := h
    have hnot : ¬ (13 :: 10 :: window) <+: byte :: rest := by
      intro hwindow
      obtain ⟨-, tail, htail⟩ := List.cons_prefix_cons.mp hwindow
      exact hrest (htail ▸ List.mem_cons_self)
    rw [splitWindow_cons_of_not hnot, ih hrest, Option.map_none]

/-! ### The head -/

/-- The lines of a head as they stand before the empty line. -/
def joined : List (List Char) → List Char
  | [] => []
  | [last] => last
  | line :: next :: rest => line ++ '\r' :: '\n' :: joined (next :: rest)

theorem newline_not_mem_line {line : List Char} (h : '\n' ∉ line) : '\n' ∉ line ++ ['\r'] := by simp [h]

theorem withoutReturn_line (line : List Char) : Text.withoutReturn (line ++ ['\r']) = line := by
  rw [Text.withoutReturn, List.getLast?_concat, if_pos rfl, List.dropLast_concat]

theorem joined_concat (init : List (List Char)) (last : List Char) :
    joined (init ++ [last]) = Text.terminated (init.map (· ++ ['\r'])) ++ last := by
  induction init with
  | nil => rfl
  | cons line init ih =>
    obtain ⟨next, rest, hrest⟩ := List.exists_cons_of_ne_nil (List.append_ne_nil_of_right_ne_nil init (List.cons_ne_nil last []))
    rw [hrest] at ih
    rw [List.cons_append, hrest, joined, ih, List.map_cons, Text.terminated_cons]
    simp

theorem newline_not_mem_lines {head : List (List Char)} (h : ∀ line ∈ head, '\n' ∉ line) :
    ∀ line ∈ head.map (· ++ ['\r']), '\n' ∉ line := by
  intro line hline
  obtain ⟨content, hcontent, rfl⟩ := List.mem_map.mp hline
  exact newline_not_mem_line (h content hcontent)

theorem map_withoutReturn (head : List (List Char)) : (head.map (· ++ ['\r'])).map Text.withoutReturn = head := by
  rw [List.map_map]
  exact (List.map_congr_left fun line _ => withoutReturn_line line).trans (List.map_id head)

/-- The lines of a head are read back, before the empty line … -/
theorem lines_joined {head : List (List Char)} (h : IsHead head) (hne : head ≠ []) : Text.lines (joined head) = head := by
  obtain ⟨init, last, rfl⟩ := (List.eq_nil_or_concat' head).resolve_left hne
  have hinit : ∀ line ∈ init, '\n' ∉ line := fun line hline => (h line (List.mem_append_left _ hline)).2
  obtain ⟨hlast, hnewline⟩ := h last (List.mem_append_right _ (List.mem_singleton_self last))
  rw [joined_concat, Text.lines_terminated (newline_not_mem_lines hinit) hnewline, map_withoutReturn, if_neg hlast]

/-- … and with the end of the last one. -/
theorem lines_headText {head : List (List Char)} (h : IsHead head) : Text.lines (headText head) = head := by
  have htext : headText head = Text.terminated (head.map (· ++ ['\r'])) ++ [] := by
    rw [headText, Text.terminated, List.flatMap_map, List.append_nil]
    exact List.flatMap_congr fun line _ => by simp
  rw [htext, Text.lines_terminated (newline_not_mem_lines fun line hline => (h line hline).2) List.not_mem_nil, if_pos rfl,
    List.append_nil, map_withoutReturn]

/-- A line that is not empty does not begin with the end of one. -/
theorem not_prefix_line {line more : List UInt8} (hne : line ≠ []) (hline : 10 ∉ line) : ¬ [13, 10] <+: line ++ 13 :: more := by
  intro hwindow
  obtain ⟨byte, rest, rfl⟩ := List.exists_cons_of_ne_nil hne
  obtain ⟨-, hwindow⟩ := List.cons_prefix_cons.mp hwindow
  cases rest with
  | nil => exact absurd (List.cons_prefix_cons.mp hwindow).1 (by decide)
  | cons next rest =>
    exact hline (List.mem_cons_of_mem _ (List.mem_cons.mpr (.inl (List.cons_prefix_cons.mp hwindow).1)))

theorem response_cons (line : List Char) (head : List (List Char)) (body : List UInt8) :
    response (line :: head) body = Utf8.encode line ++ 13 :: 10 :: response head body := by
  have hend : Utf8.encode ['\r', '\n'] = [13, 10] := by decide
  simp only [response, List.flatMap_cons, Utf8.encode_append, List.append_assoc, hend]
  rfl

/-- The head ends at the first empty line. -/
theorem splitWindow_response {head : List (List Char)} (h : IsHead head) (hne : head ≠ []) (body : List UInt8) :
    splitWindow [13, 10, 13, 10] (response head body) = some (Utf8.encode (joined head), body) := by
  induction head with
  | nil => exact absurd rfl hne
  | cons line head ih =>
    obtain ⟨⟨-, hnewline⟩, hrest⟩ := List.forall_mem_cons.mp h
    rw [response_cons, splitWindow_line (newline_not_mem_encode hnewline)]
    cases head with
    | nil =>
      have hbody : (13 : UInt8) :: 10 :: response [] body = [13, 10, 13, 10] ++ body := rfl
      rw [hbody, splitWindow_of_prefix (List.cons_ne_nil _ _), Option.map_some, List.append_nil]
      rfl
    | cons next head =>
      obtain ⟨⟨hnext, hnextline⟩, -⟩ := List.forall_mem_cons.mp hrest
      have hne : Utf8.encode next ≠ [] := by
        intro hnil
        have hlength := Utf8.length_le_length_encode next
        rw [hnil, List.length_nil, Nat.le_zero, List.length_eq_zero_iff] at hlength
        exact hnext hlength
      have hnot : ¬ [13, 10] <+: response (next :: head) body := by
        rw [response_cons]
        exact not_prefix_line hne (newline_not_mem_encode hnextline)
      have hfirst : ¬ [13, 10, 13, 10] <+: (13 : UInt8) :: 10 :: response (next :: head) body := fun hwindow =>
        hnot (List.cons_prefix_cons.mp (List.cons_prefix_cons.mp hwindow).2).2
      have hsecond : ¬ [13, 10, 13, 10] <+: (10 : UInt8) :: response (next :: head) body := fun hwindow =>
        absurd (List.cons_prefix_cons.mp hwindow).1 (by decide)
      rw [splitWindow_cons_of_not hfirst, splitWindow_cons_of_not hsecond, ih hrest (List.cons_ne_nil _ _), joined,
        Utf8.encode_append]
      rfl

/-! ### Chunks -/

/-- A chunk of a body: the line that says its size, and its bytes, which memory has room for. -/
structure DataChunk where
  head : List Char
  data : List UInt8
  oneLine : '\n' ∉ head
  size : headSize (Utf8.encode head) = .ok data.length
  nonempty : data ≠ []
  fits : data.length + 2 < 2 ^ 64

/-- The bytes of a chunk. -/
def DataChunk.bytes (chunk : DataChunk) : List UInt8 := Utf8.encode chunk.head ++ 13 :: 10 :: (chunk.data ++ [13, 10])

/-- The chunk after which there are no more. -/
structure LastChunk where
  head : List Char
  oneLine : '\n' ∉ head
  size : headSize (Utf8.encode head) = .ok 0

def LastChunk.bytes (last : LastChunk) : List UInt8 := Utf8.encode last.head ++ [13, 10]

theorem decodeChunked_line {input head rest : List UInt8} (h : splitWindow [13, 10] input = some (head, rest)) :
    decodeChunked input =
      match headSize head with
      | .error message => some (.error (.invalidResponse message))
      | .ok 0 => some (.ok [])
      | .ok size =>
        if 2 ^ 64 ≤ size + 2 then none
        else if rest.length < size + 2 then some (.error (.invalidResponse "truncated chunk"))
        else (decodeChunked (rest.drop (size + 2))).map fun decoded => decoded.map (rest.take size ++ ·) := by
  rw [decodeChunked]
  split
  · rename_i hnone
    rw [h] at hnone
    cases hnone
  · rename_i head' rest' hsome
    obtain ⟨rfl, rfl⟩ := Prod.mk.inj (Option.some.inj (h.symm.trans hsome))
    rfl

theorem splitWindow_head {head : List Char} (h : '\n' ∉ head) (rest : List UInt8) :
    splitWindow [13, 10] (Utf8.encode head ++ 13 :: 10 :: rest) = some (Utf8.encode head, rest) := by
  have hrest : (13 : UInt8) :: 10 :: rest = [13, 10] ++ rest := rfl
  rw [splitWindow_line (newline_not_mem_encode h), hrest, splitWindow_of_prefix (List.cons_ne_nil _ _), Option.map_some,
    List.append_nil]

/-- What comes of a chunk and of the bytes after its line. -/
theorem decodeChunked_chunk (chunk : DataChunk) (rest : List UInt8) :
    decodeChunked (Utf8.encode chunk.head ++ 13 :: 10 :: rest) =
      if rest.length < chunk.data.length + 2 then some (.error (.invalidResponse "truncated chunk"))
      else (decodeChunked (rest.drop (chunk.data.length + 2))).map fun decoded =>
        decoded.map (rest.take chunk.data.length ++ ·) := by
  obtain ⟨n, hn⟩ : ∃ n, chunk.data.length = n + 1 :=
    Nat.exists_eq_succ_of_ne_zero fun hzero => chunk.nonempty (List.length_eq_zero_iff.mp hzero)
  have hsize := chunk.size
  have hfits := chunk.fits
  rw [decodeChunked_line (splitWindow_head chunk.oneLine rest), hsize, hn]
  rw [hn] at hfits
  exact if_neg (not_le_of_gt hfits)

theorem decodeChunked_last (last : LastChunk) (rest : List UInt8) : decodeChunked (last.bytes ++ rest) = some (.ok []) := by
  have hbytes : last.bytes ++ rest = Utf8.encode last.head ++ 13 :: 10 :: rest := by simp [LastChunk.bytes]
  rw [hbytes, decodeChunked_line (splitWindow_head last.oneLine rest), last.size]
  rfl

theorem bytes_append (chunk : DataChunk) (rest : List UInt8) :
    chunk.bytes ++ rest = Utf8.encode chunk.head ++ 13 :: 10 :: (chunk.data ++ 13 :: 10 :: rest) := by
  simp [DataChunk.bytes]

theorem drop_data (chunk : DataChunk) (rest : List UInt8) :
    (chunk.data ++ 13 :: 10 :: rest).drop (chunk.data.length + 2) = rest := by
  rw [← List.drop_drop, List.drop_left]
  rfl

/-- **A body in chunks** is put together. -/
theorem decodeChunked_chunks (chunks : List DataChunk) (last : LastChunk) (rest : List UInt8) :
    decodeChunked (chunks.flatMap DataChunk.bytes ++ (last.bytes ++ rest)) = some (.ok (chunks.flatMap DataChunk.data)) := by
  induction chunks with
  | nil => exact decodeChunked_last last rest
  | cons chunk chunks ih =>
    rw [List.flatMap_cons, List.append_assoc, bytes_append, decodeChunked_chunk, if_neg, drop_data, ih, List.take_left,
      List.flatMap_cons]
    · rfl
    · simp only [List.length_append, List.length_cons]
      omega

/-- A line that is cut off before its end is no head of a chunk. -/
theorem decodeChunked_cut_line {head : List Char} (hhead : '\n' ∉ head) (rest : List UInt8) {n : ℕ}
    (h : n < (Utf8.encode head).length + 2) :
    decodeChunked ((Utf8.encode head ++ 13 :: 10 :: rest).take n) = some (.error (.invalidResponse "invalid chunk header")) := by
  have hcut : (Utf8.encode head ++ 13 :: 10 :: rest).take n = (Utf8.encode head ++ [13]).take n := by
    have hbytes : Utf8.encode head ++ 13 :: 10 :: rest = (Utf8.encode head ++ [13]) ++ 10 :: rest := by simp
    rw [hbytes, List.take_append_of_le_length]
    rw [List.length_append, List.length_singleton]
    omega
  have hline : (10 : UInt8) ∉ (Utf8.encode head ++ [13]).take n := by
    intro hmem
    rcases List.mem_append.mp (List.mem_of_mem_take hmem) with hmem | hmem
    · exact newline_not_mem_encode hhead hmem
    · exact absurd (List.mem_singleton.mp hmem) (by decide)
  rw [hcut, decodeChunked]
  split
  · rfl
  · rename_i found rest' hsome
    rw [splitWindow_of_not_mem hline] at hsome
    cases hsome

/-- **A body that is cut off** before the line of its last chunk has ended gives an error. -/
theorem decodeChunked_cut (chunks : List DataChunk) (last : LastChunk) {n : ℕ}
    (h : n < (chunks.flatMap DataChunk.bytes ++ last.bytes).length) :
    ∃ e, decodeChunked ((chunks.flatMap DataChunk.bytes ++ last.bytes).take n) = some (.error e) := by
  induction chunks generalizing n with
  | nil =>
    rw [List.flatMap_nil, List.nil_append] at h ⊢
    rw [LastChunk.bytes, List.length_append] at h
    exact ⟨_, decodeChunked_cut_line last.oneLine [] h⟩
  | cons chunk chunks ih =>
    rw [List.flatMap_cons, List.append_assoc] at h ⊢
    rw [bytes_append] at h ⊢
    by_cases hline : n < (Utf8.encode chunk.head).length + 2
    · exact ⟨_, decodeChunked_cut_line chunk.oneLine _ hline⟩
    · -- the line is there; what is left of the bytes after it
      obtain ⟨m, rfl⟩ := Nat.exists_eq_add_of_le (not_lt.mp hline)
      have hcut (bytes : List UInt8) : (Utf8.encode chunk.head ++ 13 :: 10 :: bytes).take ((Utf8.encode chunk.head).length + 2 + m) =
          Utf8.encode chunk.head ++ 13 :: 10 :: bytes.take m := by
        rw [List.take_append, List.take_of_length_le (by omega),
          show (Utf8.encode chunk.head).length + 2 + m - (Utf8.encode chunk.head).length = m + 1 + 1 by omega,
          List.take_succ_cons, List.take_succ_cons]
      rw [hcut, decodeChunked_chunk]
      split_ifs with hshort
      · exact ⟨_, rfl⟩
      · simp only [List.length_take, List.length_append, List.length_cons] at hshort h
        obtain ⟨e, he⟩ := @ih (m - (chunk.data.length + 2)) (by rw [List.length_append]; omega)
        rw [List.drop_take, drop_data, he]
        exact ⟨e, rfl⟩

/-! ### Answers -/

section Answers

variable {T : Type} (decodeError : List UInt8 → Option ApiErrorV1) (decode : List UInt8 → Except String T)

/-- What is read of a response once its head is known. -/
theorem readResponse_response {head : List (List Char)} (hhead : IsHead head) {code : Fin 65536}
    (hstatus : status (headText head) = some code) (body : List UInt8) :
    readResponse decodeError decode (response head body) =
      if chunked (headText head) then
        match decodeChunked body with
        | none => none
        | some (.error e) => some (.error (.client e))
        | some (.ok body) => some (answer decodeError decode code body)
      else some (answer decodeError decode code body) := by
  have hne : head ≠ [] := by
    rintro rfl
    cases hstatus
  have hlines : Text.lines (joined head) = Text.lines (headText head) := by
    rw [lines_joined hhead hne, lines_headText hhead]
  have hsame : status (joined head) = some code ∧ chunked (joined head) = chunked (headText head) := by
    rw [← hstatus, status, status, chunked, chunked, hlines]
    exact ⟨rfl, rfl⟩
  rw [readResponse, splitWindow_response hhead hne]
  dsimp only
  rw [Utf8.lossy_encode, hsame.1, hsame.2]

/-- **The answer to a request** is that of the whole body, sent as it is or in chunks; and where the
chunks were cut off, an error of the client's and no answer. -/
theorem readResponse_transfer {head : List (List Char)} (hhead : IsHead head) {code : Fin 65536}
    (hstatus : status (headText head) = some code) :
    (chunked (headText head) = false → ∀ body,
      readResponse decodeError decode (response head body) = some (answer decodeError decode code body)) ∧
    (chunked (headText head) = true → ∀ (chunks : List DataChunk) (last : LastChunk),
      (∀ rest, readResponse decodeError decode
        (response head (chunks.flatMap DataChunk.bytes ++ (last.bytes ++ rest))) =
          some (answer decodeError decode code (chunks.flatMap DataChunk.data))) ∧
      ∀ n < (chunks.flatMap DataChunk.bytes ++ last.bytes).length, ∃ e,
        readResponse decodeError decode (response head ((chunks.flatMap DataChunk.bytes ++ last.bytes).take n)) =
          some (.error (.client e))) := by
  refine ⟨fun hplain body => ?_, fun hchunked chunks last => ⟨fun rest => ?_, fun n hn => ?_⟩⟩
  · rw [readResponse_response decodeError decode hhead hstatus, hplain, if_neg Bool.false_ne_true]
  · rw [readResponse_response decodeError decode hhead hstatus, hchunked, if_pos rfl, decodeChunked_chunks]
  · obtain ⟨e, he⟩ := decodeChunked_cut chunks last hn
    refine ⟨e, ?_⟩
    rw [readResponse_response decodeError decode hhead hstatus, hchunked, if_pos rfl, he]

end Answers

/-- A body of two bytes in one chunk. -/
def emptyObject : DataChunk where
  head := ['2']
  data := Utf8.encode "\x7b\x7d".toList
  oneLine := by decide
  size := by decide +kernel
  nonempty := by decide
  fits := by decide +kernel

def lastChunk : LastChunk := ⟨['0'], by decide, by decide +kernel⟩

/-- The chunk is put together, and nothing less is an answer. -/
theorem readResponse_transfer_chunk :
    (∀ rest, readResponse (fun _ => none) (fun bytes => .ok bytes.length)
      (response ["HTTP/1.1 200 OK".toList, "Transfer-Encoding: chunked".toList]
        ([emptyObject].flatMap DataChunk.bytes ++ (lastChunk.bytes ++ rest))) = some (.ok 2)) ∧
    ∀ n < ([emptyObject].flatMap DataChunk.bytes ++ lastChunk.bytes).length, ∃ e,
      readResponse (fun _ => none) (fun bytes => Except.ok bytes.length)
        (response ["HTTP/1.1 200 OK".toList, "Transfer-Encoding: chunked".toList]
          (([emptyObject].flatMap DataChunk.bytes ++ lastChunk.bytes).take n)) = some (.error (.client e)) := by
  have htransfer := @readResponse_transfer ℕ (fun _ => none) (fun bytes => .ok bytes.length)
    ["HTTP/1.1 200 OK".toList, "Transfer-Encoding: chunked".toList] (by unfold IsHead; decide) 200 (by decide +kernel)
  obtain ⟨hwhole, hcut⟩ := htransfer.2 (by decide +kernel) [emptyObject] lastChunk
  exact ⟨fun rest => (hwhole rest).trans (by rfl), hcut⟩

end Apmpr.Daemon.Requests
