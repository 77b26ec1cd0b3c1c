import Apmpr.Lib.Codec
import Apmpr.Lib.JsonText
import Apmpr.Lib.Lines
import Apmpr.Lib.MachineInt
import Apmpr.Lib.Records
import Apmpr.Lib.Registry
import Apmpr.Lib.Utf8

/-!
# Waiting for the end of an operation

The client's side of `GET /api/v1/operations/{id}/events`, `wait_for_terminal_event` of
`apmpr-daemon/src/client.rs`, and the records that `event_stream` of `server.rs` gives the
server to send. A response is read to its end: what the client does is a function of the bytes
that come until the connection is closed.

The server may send the body in chunks or as it is. The client reads it chunk by chunk, or line
by line, puts carriage returns aside and looks at the records it has so far. What it answers is
the same however the body was sent (`wait_transfer`), and it is right about the operation
(`waitForTerminalEvent_eq`). A size that no memory has room for is not in the model.
-/

namespace Apmpr.Daemon.EventClient

open Records
open Utf8 (takeLine length_takeLine takeLine_newline takeLine_last newline_not_mem_encode)

/-- `ClientError`, of the kinds that reading a response has. -/
inductive ClientError where
  | io (message : String)
  | invalidResponse (message : String)
  deriving DecidableEq

/-! ### Reading -/

/-- `BufRead::read_line`. -/
def readLine (input : List UInt8) : Except ClientError (List Char × List UInt8) :=
  match Utf8.decode (takeLine input).1 with
  | none => .error (.io "stream did not contain valid UTF-8")
  | some line => .ok (line, (takeLine input).2)

/-- `Read::read_exact`. -/
def readExact (n : ℕ) (input : List UInt8) : Except ClientError (List UInt8 × List UInt8) :=
  if input.length < n then .error (.io "failed to fill whole buffer") else .ok (input.take n, input.drop n)

/-- One digit of a number. -/
def pushDigit (value : ℕ) (c : Char) : Except String ℕ :=
  match IpAddr.digitValue 16 c with
  | none => .error "invalid digit found in string"
  | some digit =>
    if value * 16 + digit < 2 ^ 64 then .ok (value * 16 + digit) else .error "number too large to fit in target type"

/-- `usize::from_str_radix`, in base sixteen. -/
def fromStrRadix : List Char → Except String ℕ
  | [] => .error "cannot parse integer from empty string"
  | ['+'] => .error "invalid digit found in string"
  | '+' :: digits => digits.foldlM pushDigit 0
  | digits => digits.foldlM pushDigit 0

/-- The size that a line says, without what follows a semicolon. -/
def chunkSize (line : List Char) : Except String ℕ :=
  fromStrRadix (((Text.splitChars ';' (line.rdropWhile Text.isWhitespace)).head?).getD [])

/-- The next chunk of a body, or `none` at its end. -/
def nextChunk (input : List UInt8) : Except ClientError (Option (List UInt8 × List UInt8)) := do
  let (sizeLine, rest) ← readLine input
  match chunkSize sizeLine with
  | .error message => .error (.invalidResponse message)
  | .ok 0 => .ok none
  | .ok size =>
    let (chunk, rest) ← readExact size rest
    let (terminator, rest) ← readExact 2 rest
    if terminator ≠ [13, 10] then .error (.invalidResponse "invalid chunk terminator") else .ok (some (chunk, rest))

/-! ### Records -/

/-- What is known of a record: its event, and its data. -/
abbrev Fields := Option String × Option String

/-- A line of a record. -/
def readField (fields : Fields) (line : List Char) : Fields :=
  match Text.afterStart "event:" (String.ofList line) with
  | some value => (some (Text.trim value), fields.2)
  | none =>
    match Text.afterStart "data:" (String.ofList line) with
    | some value => (fields.1, some (Text.trim value))
    | none => fields

/-- `Value::pointer` for `/data/status`, as a text. -/
def dataStatus (value : Json) : Option String :=
  ((value.asObject.bind fun fields => fields.lookup "data").bind fun data =>
    data.asObject.bind fun fields => fields.lookup "status").bind Json.asStr

/-- Whether an event says that its operation has ended. -/
def terminalStatus (value : Json) : Bool :=
  match dataStatus value with
  | some status => status = "succeeded" || status = "failed" || status = "cancelled"
  | none => false

section Client

-- `serde_json::from_str`
variable (parse : String → Except String Json)

/-- A record of `consume_sse_records`. -/
def handleRecord (record : List Char) : Except ClientError Bool :=
  let fields := (Text.lines record).foldl readField (none, none)
  if fields.1 = some "operation" then
    match parse (fields.2.getD "") with
    | .error message => .error (.invalidResponse message)
    | .ok value => .ok (terminalStatus value)
  else .ok false

/-- `consume_sse_records`. -/
def consumeSseRecords (pending : List Char) : Except ClientError (Bool × List Char) :=
  consume '\n' (handleRecord parse) pending

/-- The end of the stream, where no event has ended the operation. -/
def streamEnded : ClientError := .invalidResponse "SSE stream ended before a terminal operation event"

/-- A text without carriage returns. -/
def withoutReturns (text : List Char) : List Char := text.filter (· ≠ '\r')

theorem readLine_ok {input rest : List UInt8} {line : List Char} (h : readLine input = .ok (line, rest)) :
    Utf8.decode (takeLine input).1 = some line ∧ rest = (takeLine input).2 := by
  unfold readLine at h
  split at h
  · cases h
  · rename_i found hfound
    obtain ⟨rfl, rfl⟩ := Prod.mk.inj (Except.ok.inj h)
    exact ⟨hfound, rfl⟩

theorem length_of_readLine {input rest : List UInt8} {line : List Char} (h : readLine input = .ok (line, rest))
    (hne : line ≠ []) : rest.length < input.length := by
  obtain ⟨hdecode, rfl⟩ := readLine_ok h
  have hlength := length_takeLine input
  have hpos : (takeLine input).1 ≠ [] := by
    intro hnil
    rw [hnil] at hdecode
    exact hne (Option.some.inj hdecode).symm
  have := List.length_pos_of_ne_nil hpos
  omega

theorem length_of_nextChunk {input chunk rest : List UInt8} (h : nextChunk input = .ok (some (chunk, rest))) :
    rest.length < input.length := by
  unfold nextChunk at h
  obtain ⟨⟨line, more⟩, hline, h⟩ := bind_eq_ok_iff.mp h
  have hne : line ≠ [] := by
    rintro rfl
    cases h
  have hlength := length_of_readLine hline hne
  dsimp only at h
  split at h
  · cases h
  · cases h
  · obtain ⟨⟨first, afterChunk⟩, hchunk, h⟩ := bind_eq_ok_iff.mp h
    obtain ⟨⟨terminator, afterTerminator⟩, hterminator, h⟩ := bind_eq_ok_iff.mp h
    unfold readExact at hchunk hterminator
    dsimp only at h
    split_ifs at hchunk hterminator h
    obtain ⟨-, rfl⟩ := Prod.mk.inj (Except.ok.inj hchunk)
    obtain ⟨-, rfl⟩ := Prod.mk.inj (Except.ok.inj hterminator)
    obtain ⟨-, rfl⟩ := Prod.mk.inj (Option.some.inj (Except.ok.inj h))
    simp only [List.length_drop]
    omega

/-- `read_chunked_sse`. -/
def readChunkedSse (pending : List Char) (input : List UInt8) : Except ClientError Unit :=
  match _hchunk : nextChunk input with
  | .error e => .error e
  | .ok none => .error streamEnded
  | .ok (some (chunk, rest)) =>
    match consumeSseRecords parse (pending ++ withoutReturns (Utf8.lossy chunk)) with
    | .error e => .error e
    | .ok (true, _) => .ok ()
    | .ok (false, pending) => readChunkedSse pending rest
termination_by input.length
decreasing_by exact length_of_nextChunk ‹_›

/-- `read_sse_lines`. -/
def readSseLines (pending : List Char) (input : List UInt8) : Except ClientError Unit :=
  match _hline : readLine input with
  | .error e => .error e
  | .ok (line, rest) =>
    if _hempty : line = [] then .error streamEnded
    else
      match consumeSseRecords parse (pending ++ withoutReturns line) with
      | .error e => .error e
      | .ok (true, _) => .ok ()
      | .ok (false, pending) => readSseLines pending rest
termination_by input.length
decreasing_by exact length_of_readLine ‹_› ‹_›

/-- The head of a response, up to the empty line. -/
def readHead (headers : List Char) (input : List UInt8) : Except ClientError (List Char × List UInt8) :=
  match _hline : readLine input with
  | .error e => .error e
  | .ok (line, rest) =>
    if _hempty : line = [] then .error (.invalidResponse "truncated SSE response headers")
    else if line = ['\r', '\n'] then .ok (headers, rest)
    else readHead (headers ++ line) rest
termination_by input.length
decreasing_by exact length_of_readLine ‹_› ‹_›

/-- The status of a head: the second word of its first line. -/
def status (headers : List Char) : Option (Fin 65536) :=
  (Text.lines headers).head?.bind fun line =>
    (((line.splitOnP Text.isWhitespace).filter (· ≠ []))[1]?).bind fun word => Codec.readUnsigned 65536 (String.ofList word)

/-- Whether the body comes in chunks. -/
def chunked (headers : List Char) : Bool :=
  (Text.lines headers).any fun line =>
    Text.toAsciiLowercase (String.ofList line) = Text.toAsciiLowercase "transfer-encoding: chunked"

/-- `wait_for_terminal_event`, with the bytes of the response. -/
def waitForTerminalEvent (response : List UInt8) : Except ClientError Unit := do
  let (headers, body) ← readHead [] response
  match status headers with
  | none => .error (.invalidResponse "missing HTTP status")
  | some status =>
    if status.val < 200 || 300 ≤ status.val then .error (.invalidResponse s!"SSE request returned HTTP {status.val}")
    else if chunked headers then readChunkedSse parse [] body
    else readSseLines parse [] body

/-! ### What is read of a text -/

/-- What the client makes of the records it has seen. -/
def conclude : Except ClientError Bool → Except ClientError Unit
  | .error e => .error e
  | .ok true => .ok ()
  | .ok false => .error streamEnded

theorem readLine_newline {line : List Char} (h : '\n' ∉ line) (more : List UInt8) :
    readLine (Utf8.encode (line ++ ['\n']) ++ more) = .ok (line ++ ['\n'], more) := by
  have hbytes : Utf8.encode (line ++ ['\n']) = Utf8.encode line ++ [10] := by
    rw [Utf8.encode_append]
    rfl
  have htake : takeLine (Utf8.encode (line ++ ['\n']) ++ more) = (Utf8.encode (line ++ ['\n']), more) := by
    rw [hbytes, List.append_assoc]
    exact takeLine_newline (newline_not_mem_encode h) more
  rw [readLine, htake]
  dsimp only
  rw [Utf8.decode_encode]

theorem readLine_last {line : List Char} (h : '\n' ∉ line) : readLine (Utf8.encode line) = .ok (line, []) := by
  rw [readLine, takeLine_last (newline_not_mem_encode h)]
  dsimp only
  rw [Utf8.decode_encode]

theorem withoutReturns_flatMap {β : Type} (l : List β) (f : β → List Char) :
    withoutReturns (l.flatMap f) = (l.map fun b => withoutReturns (f b)).flatten := by
  rw [withoutReturns, List.filter_flatMap, List.flatMap_def]
  rfl

theorem withoutReturns_append (text more : List Char) :
    withoutReturns (text ++ more) = withoutReturns text ++ withoutReturns more := List.filter_append ..

/-- One piece that is read: the loops go on with what is left. -/
theorem conclude_feed_cons (pending piece : List Char) (pieces : List (List Char)) :
    conclude ((feed '\n' (handleRecord parse) pending (piece :: pieces)).map Prod.fst) =
      match consumeSseRecords parse (pending ++ piece) with
      | .error e => .error e
      | .ok (true, _) => .ok ()
      | .ok (false, rest) => conclude ((feed '\n' (handleRecord parse) rest pieces).map Prod.fst) := by
  rw [feed, consumeSseRecords]
  cases consume '\n' (handleRecord parse) (pending ++ piece) with
  | error e => rfl
  | ok result =>
    obtain ⟨found, rest⟩ := result
    cases found <;> rfl

theorem readSseLines_line {pending line : List Char} {input rest : List UInt8} (hline : readLine input = .ok (line, rest))
    (hne : line ≠ []) : readSseLines parse pending input =
      match consumeSseRecords parse (pending ++ withoutReturns line) with
      | .error e => .error e
      | .ok (true, _) => .ok ()
      | .ok (false, pending) => readSseLines parse pending rest := by
  rw [readSseLines]
  split
  · rename_i e herror
    rw [hline] at herror
    cases herror
  · rename_i line' rest' hline'
    obtain ⟨rfl, rfl⟩ := Prod.mk.inj (Except.ok.inj (hline.symm.trans hline'))
    rw [dif_neg hne]

theorem readSseLines_nil (pending : List Char) : readSseLines parse pending [] = .error streamEnded := by
  have hline : readLine [] = .ok ([], []) := rfl
  rw [readSseLines]
  split
  · rename_i e herror
    rw [hline] at herror
    cases herror
  · rename_i line' rest' hline'
    obtain ⟨rfl, rfl⟩ := Prod.mk.inj (Except.ok.inj (hline.symm.trans hline'))
    rw [dif_pos rfl]

/-- Line by line, the last one without a newline. -/
theorem readSseLines_lines {ls : List (List Char)} (hlines : ∀ line ∈ ls, '\n' ∉ line) {last : List Char}
    (hlast : '\n' ∉ last) {pending : List Char} (hpending : splitRecord '\n' pending = none) :
    readSseLines parse pending (Utf8.encode (Text.terminated ls ++ last)) =
      conclude ((feed '\n' (handleRecord parse) pending
        ((ls.map fun line => withoutReturns (line ++ ['\n'])) ++ [withoutReturns last])).map Prod.fst) := by
  induction ls generalizing pending with
  | nil =>
    rw [List.map_nil, List.nil_append, conclude_feed_cons]
    show readSseLines parse pending (Utf8.encode last) = _
    by_cases hempty : last = []
    · subst hempty
      have hnone : consumeSseRecords parse (pending ++ withoutReturns []) = .ok (false, pending) := by
        rw [withoutReturns, List.filter_nil, List.append_nil]
        exact consume_of_none hpending
      rw [hnone]
      exact readSseLines_nil parse pending
    · rw [readSseLines_line parse (readLine_last hlast) hempty]
      split
      · rfl
      · rfl
      · exact readSseLines_nil parse _
  | cons line ls ih =>
    obtain ⟨hline, hrest⟩ := List.forall_mem_cons.mp hlines
    have htext : Utf8.encode (Text.terminated (line :: ls) ++ last) =
        Utf8.encode (line ++ ['\n']) ++ Utf8.encode (Text.terminated ls ++ last) := by
      rw [Text.terminated_cons, ← Utf8.encode_append]
      simp
    rw [htext, readSseLines_line parse (readLine_newline hline _) (by simp), List.map_cons, List.cons_append,
      conclude_feed_cons]
    cases hconsume : consumeSseRecords parse (pending ++ withoutReturns (line ++ ['\n'])) with
    | error e => rfl
    | ok result =>
      obtain ⟨found, left⟩ := result
      cases found with
      | true => rfl
      | false => exact ih hrest (splitRecord_of_consume hconsume)

/-- The records of a whole text. -/
def searchText (text : List Char) : Except ClientError Unit :=
  conclude ((consumeSseRecords parse (withoutReturns text)).map Prod.fst)

theorem exists_lines (text : List Char) : ∃ ls last, (∀ line ∈ ls, '\n' ∉ line) ∧ '\n' ∉ last ∧
    text = Text.terminated ls ++ last := by
  induction text with
  | nil => exact ⟨[], [], by simp, by simp, rfl⟩
  | cons c text ih =>
    obtain ⟨ls, last, hlines, hlast, rfl⟩ := ih
    by_cases hc : c = '\n'
    · exact ⟨[] :: ls, last, List.forall_mem_cons.mpr ⟨by simp, hlines⟩, hlast, by rw [hc, Text.terminated_cons]; rfl⟩
    · cases ls with
      | nil => exact ⟨[], c :: last, by simp, by simp [hlast, Ne.symm hc], rfl⟩
      | cons line ls =>
        obtain ⟨hline, hrest⟩ := List.forall_mem_cons.mp hlines
        refine ⟨(c :: line) :: ls, last, List.forall_mem_cons.mpr ⟨by simp [hline, Ne.symm hc], hrest⟩, hlast, ?_⟩
        rw [Text.terminated_cons, Text.terminated_cons]
        rfl

/-- **Read line by line**, a text is read as a whole. -/
theorem readSseLines_text (text : List Char) : readSseLines parse [] (Utf8.encode text) = searchText parse text := by
  obtain ⟨ls, last, hlines, hlast, rfl⟩ := exists_lines text
  rw [readSseLines_lines parse hlines hlast rfl, feed_eq rfl, searchText, consumeSseRecords, List.nil_append,
    List.flatten_append, List.flatten_singleton, ← withoutReturns_flatMap, ← withoutReturns_append]
  rfl

/-! ### Chunks -/

/-- A chunk of a body: the line that says its size, and what it brings, which need be no text. -/
structure Chunk where
  head : List Char
  content : List UInt8
  oneLine : '\n' ∉ head
  nonempty : content ≠ []
  size : chunkSize (head ++ ['\r', '\n']) = .ok content.length

/-- The bytes of a chunk. -/
def Chunk.bytes (chunk : Chunk) : List UInt8 :=
  Utf8.encode (chunk.head ++ ['\r', '\n']) ++ (chunk.content ++ [13, 10])

theorem readExact_append (bytes more : List UInt8) : readExact bytes.length (bytes ++ more) = .ok (bytes, more) := by
  rw [readExact, if_neg (by simp), List.take_left, List.drop_left]

theorem readLine_size {head : List Char} (h : '\n' ∉ head) (more : List UInt8) :
    readLine (Utf8.encode (head ++ ['\r', '\n']) ++ more) = .ok (head ++ ['\r', '\n'], more) := by
  have hline : '\n' ∉ head ++ ['\r'] := by simp [h]
  have hread := readLine_newline hline more
  rwa [List.append_assoc] at hread

theorem nextChunk_bytes (chunk : Chunk) (more : List UInt8) :
    nextChunk (chunk.bytes ++ more) = .ok (some (chunk.content, more)) := by
  obtain ⟨n, hn⟩ : ∃ n, chunk.content.length = n + 1 := by
    have hpos := List.length_pos_of_ne_nil chunk.nonempty
    exact ⟨chunk.content.length - 1, by omega⟩
  have hsize := chunk.size
  have hchunk := readExact_append chunk.content ([13, 10] ++ more)
  have hterminator := readExact_append [13, 10] more
  rw [hn] at hsize hchunk
  rw [nextChunk, Chunk.bytes, List.append_assoc, readLine_size chunk.oneLine]
  simp only [List.append_assoc, bind, Except.bind, hsize, hchunk]
  simp only [List.length_cons, List.length_nil] at hterminator
  rw [hterminator]
  rfl

theorem readChunkedSse_chunk {pending : List Char} {input chunk rest : List UInt8}
    (hchunk : nextChunk input = .ok (some (chunk, rest))) : readChunkedSse parse pending input =
      match consumeSseRecords parse (pending ++ withoutReturns (Utf8.lossy chunk)) with
      | .error e => .error e
      | .ok (true, _) => .ok ()
      | .ok (false, pending) => readChunkedSse parse pending rest := by
  rw [readChunkedSse]
  split
  · rename_i e herror
    rw [hchunk] at herror
    cases herror
  · rename_i hend
    rw [hchunk] at hend
    cases hend
  · rename_i chunk' rest' hchunk'
    obtain ⟨rfl, rfl⟩ := Prod.mk.inj (Option.some.inj (Except.ok.inj (hchunk.symm.trans hchunk')))
    rfl

theorem readChunkedSse_end {pending : List Char} {input : List UInt8} (hend : nextChunk input = .ok none) :
    readChunkedSse parse pending input = .error streamEnded := by
  rw [readChunkedSse]
  split
  · rename_i e herror
    rw [hend] at herror
    cases herror
  · rfl
  · rename_i chunk rest hchunk
    rw [hend] at hchunk
    cases hchunk

/-- **Read chunk by chunk**, the texts of the chunks are read as a whole. -/
theorem readChunkedSse_chunks (chunks : List Chunk) {trailer : List UInt8} (htrailer : nextChunk trailer = .ok none) :
    readChunkedSse parse [] (chunks.flatMap Chunk.bytes ++ trailer) =
      searchText parse ((chunks.map Chunk.content).flatMap Utf8.lossy) := by
  have hloop (pending : List Char) (hpending : splitRecord '\n' pending = none) :
      readChunkedSse parse pending (chunks.flatMap Chunk.bytes ++ trailer) =
        conclude ((feed '\n' (handleRecord parse) pending
          ((chunks.map Chunk.content).map fun content => withoutReturns (Utf8.lossy content))).map Prod.fst) := by
    induction chunks generalizing pending with
    | nil => exact readChunkedSse_end parse htrailer
    | cons chunk chunks ih =>
      rw [List.flatMap_cons, List.append_assoc, readChunkedSse_chunk parse (nextChunk_bytes chunk _), List.map_cons,
        List.map_cons, conclude_feed_cons]
      cases hconsume : consumeSseRecords parse (pending ++ withoutReturns (Utf8.lossy chunk.content)) with
      | error e => rfl
      | ok result =>
        obtain ⟨found, left⟩ := result
        cases found with
        | true => rfl
        | false => exact ih left (splitRecord_of_consume hconsume)
  rw [hloop [] rfl, feed_eq rfl, searchText, consumeSseRecords, List.nil_append, ← withoutReturns_flatMap]

/-! ### Responses -/

/-- The head of a response and its body. -/
def response (head : List (List Char)) (body : List UInt8) : List UInt8 :=
  Utf8.encode (head.flatMap (· ++ ['\r', '\n']) ++ ['\r', '\n']) ++ body

/-- The lines of a head. -/
def IsHead (head : List (List Char)) : Prop := ∀ line ∈ head, line ≠ [] ∧ '\n' ∉ line

theorem readHead_line {headers line : List Char} {input rest : List UInt8} (hline : readLine input = .ok (line, rest))
    (hne : line ≠ []) : readHead headers input =
      if line = ['\r', '\n'] then .ok (headers, rest) else readHead (headers ++ line) rest := by
  rw [readHead]
  split
  · rename_i e herror
    rw [hline] at herror
    cases herror
  · rename_i line' rest' hline'
    obtain ⟨rfl, rfl⟩ := Prod.mk.inj (Except.ok.inj (hline.symm.trans hline'))
    rw [dif_neg hne]

theorem readHead_response {head : List (List Char)} (hhead : IsHead head) (headers : List Char) (body : List UInt8) :
    readHead headers (response head body) = .ok (headers ++ head.flatMap (· ++ ['\r', '\n']), body) := by
  induction head generalizing headers with
  | nil =>
    rw [response, List.flatMap_nil, List.nil_append]
    have hline := @readLine_size [] List.not_mem_nil body
    rw [List.nil_append] at hline
    rw [readHead_line hline (by simp), if_pos rfl, List.append_nil]
  | cons line head ih =>
    obtain ⟨⟨hne, hline⟩, hrest⟩ := List.forall_mem_cons.mp hhead
    have hbytes : response (line :: head) body = Utf8.encode (line ++ ['\r', '\n']) ++ response head body := by
      simp only [response, List.flatMap_cons, Utf8.encode_append, List.append_assoc]
    have hother : line ++ ['\r', '\n'] ≠ ['\r', '\n'] := by
      intro heq
      have hlength := congrArg List.length heq
      rw [List.length_append] at hlength
      have := List.length_pos_of_ne_nil hne
      simp only [List.length_cons, List.length_nil] at hlength
      omega
    rw [hbytes, readHead_line (readLine_size hline _) (by simp), if_neg hother, ih hrest, List.flatMap_cons, List.append_assoc]

/-- The head of a response, as the client keeps it. -/
def headText (head : List (List Char)) : List Char := head.flatMap (· ++ ['\r', '\n'])

/-- The ways to send a text: as it is, or in chunks that its bytes are cut into anywhere. -/
inductive Sent (head : List (List Char)) (text : List Char) : List UInt8 → Prop where
  | plain : chunked (headText head) = false → Sent head text (response head (Utf8.encode text))
  | inChunks {chunks : List Chunk} {trailer : List UInt8} : chunked (headText head) = true →
      (chunks.map Chunk.content).flatten = Utf8.encode text → nextChunk trailer = .ok none →
      Sent head text (response head (chunks.flatMap Chunk.bytes ++ trailer))

/-- **However a text is sent**, the client searches the records of one of its shape: where a character
is cut, it reads others in its place. -/
theorem wait_transfer {head : List (List Char)} (hhead : IsHead head) {code : Fin 65536}
    (hstatus : status (headText head) = some code) (hsuccess : 200 ≤ code.val ∧ code.val < 300) {text : List Char}
    {bytes : List UInt8} (hsent : Sent head text bytes) :
    ∃ seen, Utf8.shape seen = Utf8.shape text ∧ waitForTerminalEvent parse bytes = searchText parse seen := by
  have hcode : ¬(decide (code.val < 200) || decide (300 ≤ code.val)) = true := by
    simp only [Bool.or_eq_true, decide_eq_true_eq]
    omega
  have hopen (body : List UInt8) : waitForTerminalEvent parse (response head body) =
      if chunked (headText head) = true then readChunkedSse parse [] body else readSseLines parse [] body := by
    simp only [waitForTerminalEvent, readHead_response hhead, List.nil_append, bind, Except.bind]
    rw [← headText, hstatus]
    dsimp only
    rw [if_neg hcode]
  cases hsent with
  | plain hplain =>
    rw [hopen, hplain, if_neg Bool.false_ne_true]
    exact ⟨text, rfl, readSseLines_text parse text⟩
  | inChunks hchunked htext htrailer =>
    rw [hopen, hchunked, if_pos rfl]
    exact ⟨_, Utf8.shape_lossy htext, readChunkedSse_chunks parse _ htrailer⟩

end Client

/-! ### What the server sends -/

/-- `EventKindV1`. -/
inductive EventKind where
  | operation
  | build
  | health
  | route
  | log
  deriving DecidableEq

/-- `EventKindV1::as_str`. -/
def EventKind.asStr : EventKind → String
  | operation => "operation"
  | build => "build"
  | health => "health"
  | route => "route"
  | log => "log"

/-- `EventV1`. -/
structure Event where
  id : U64
  operationId : String
  kind : EventKind
  timestamp : ℤ
  data : Json

namespace Event

/-- The JSON of an event. -/
def json (event : Event) : Json :=
  .object [("id", .nat event.id.val), ("operationId", .string event.operationId), ("kind", .string event.kind.asStr),
    ("timestamp", .number (toString event.timestamp)), ("data", event.data)]

/-- The lines of the record that `event_stream` gives for an event. -/
def idLine (event : Event) : List Char := "id: ".toList ++ (toString event.id.val).toList

def eventLine (event : Event) : List Char := "event: ".toList ++ event.kind.asStr.toList

def dataLine (json : List Char) : List Char := "data: ".toList ++ json

/-- The record with a text for its JSON, without the empty line after it. -/
def recordOf (event : Event) (json : List Char) : List Char :=
  Text.terminated [event.idLine, event.eventLine] ++ dataLine json

/-- The record. -/
def record (event : Event) : List Char := event.recordOf event.json.render.toList

/-- What is sent for an event. -/
def sent (event : Event) : List Char := event.record ++ ['\n', '\n']

/-- A text that the JSON of an event may be read as, where characters of it have been cut. -/
def SeenAs (event : Event) (json : List Char) : Prop := Utf8.shape json = Utf8.shape event.json.render.toList

/-- The parser reads the JSON of an event, and its status as it stands there, also where characters that
are not ASCII have been replaced. -/
def ReadBy (parse : String → Except String Json) (event : Event) : Prop :=
  ∀ json, event.SeenAs json → ∃ value, parse (String.ofList json) = .ok value ∧
    (dataStatus value).map (Utf8.shape ·.toList) = (dataStatus event.json).map (Utf8.shape ·.toList)

/-- An event after which its operation does not go on. -/
def ends (event : Event) : Bool := event.kind = .operation && terminalStatus event.json

end Event

section Server

variable {event : Event}

theorem oneLine_toString (n : ℕ) : Json.OneLine (toString n).toList := by
  rw [Nat.toString_eq_repr, Nat.toList_repr]
  exact Json.oneLine_toDigits (by decide) (by decide) n

theorem printable_json (h : Json.Printable event.data) : Json.Printable event.json := by
  refine .object (List.forall_mem_cons.mpr ⟨.number (oneLine_toString _), List.forall_mem_cons.mpr ⟨.string _,
    List.forall_mem_cons.mpr ⟨.string _, List.forall_mem_cons.mpr ⟨.number ?_, List.forall_mem_singleton.mpr h⟩⟩⟩⟩)
  cases htime : event.timestamp with
  | ofNat n => exact oneLine_toString n
  | negSucc n =>
    rw [show toString (Int.negSucc n) = "-" ++ toString (n + 1) from rfl, String.toList_append]
    exact (Json.oneLine_of_all (by decide)).append (oneLine_toString (n + 1))

theorem oneLine_asStr (kind : EventKind) : Json.OneLine kind.asStr.toList := by
  cases kind <;> exact Json.oneLine_of_all (by decide)

theorem oneLine_idLine (event : Event) : Json.OneLine event.idLine :=
  (Json.oneLine_of_all (by decide)).append (oneLine_toString _)

theorem oneLine_eventLine (event : Event) : Json.OneLine event.eventLine :=
  (Json.oneLine_of_all (by decide)).append (oneLine_asStr _)

theorem oneLine_dataLine {json : List Char} (h : Json.OneLine json) : Json.OneLine (Event.dataLine json) :=
  (Json.oneLine_of_all (by decide)).append h

theorem newline_not_mem {text : List Char} (h : Json.OneLine text) : '\n' ∉ text := fun hmem => (h _ hmem).1 rfl

theorem withoutReturn_oneLine {text : List Char} (h : Json.OneLine text) : Text.withoutReturn text = text :=
  if_neg fun hlast => (h _ (List.mem_of_getLast? hlast)).2 rfl

theorem idLine_ne_nil (event : Event) : event.idLine ≠ [] := List.append_ne_nil_of_left_ne_nil (by decide) _

theorem eventLine_ne_nil (event : Event) : event.eventLine ≠ [] := List.append_ne_nil_of_left_ne_nil (by decide) _

theorem dataLine_ne_nil (json : List Char) : Event.dataLine json ≠ [] := List.append_ne_nil_of_left_ne_nil (by decide) _

theorem ascii_idLine (event : Event) : ∀ c ∈ event.idLine, c.toNat < 128 := by
  intro c hc
  rcases List.mem_append.mp hc with hc | hc
  · have hname : ∀ c ∈ "id: ".toList, c.toNat < 128 := Utf8.ascii_of_all (by decide)
    exact hname c hc
  · rw [Nat.toString_eq_repr, Nat.toList_repr] at hc
    have hdigit := Nat.isDigit_of_mem_toDigits (by decide) (by decide) hc
    rw [Char.isDigit, Bool.and_eq_true, decide_eq_true_eq, decide_eq_true_eq] at hdigit
    have hnine : c.toNat ≤ '9'.toNat := hdigit.2
    exact lt_of_le_of_lt hnine (by decide)

theorem ascii_eventLine (event : Event) : ∀ c ∈ event.eventLine, c.toNat < 128 := by
  intro c hc
  rcases List.mem_append.mp hc with hc | hc
  · have hname : ∀ c ∈ "event: ".toList, c.toNat < 128 := Utf8.ascii_of_all (by decide)
    exact hname c hc
  · have hkind : ∀ c ∈ event.kind.asStr.toList, c.toNat < 128 := by
      cases event.kind <;> exact Utf8.ascii_of_all (by decide)
    exact hkind c hc

/-- What comes before the JSON of an event. -/
def front (event : Event) : List Char := Text.terminated [event.idLine, event.eventLine] ++ "data: ".toList

theorem ascii_front (event : Event) : ∀ c ∈ front event, c.toNat < 128 := by
  intro c hc
  have hname : ∀ c ∈ "data: ".toList, c.toNat < 128 := Utf8.ascii_of_all (by decide)
  simp only [front, Text.terminated, List.flatMap_cons, List.flatMap_nil, List.append_nil, List.mem_append,
    List.mem_singleton] at hc
  rcases hc with ((hc | rfl) | hc | rfl) | hc
  · exact ascii_idLine event c hc
  · decide
  · exact ascii_eventLine event c hc
  · decide
  · exact hname c hc

theorem oneLine_front (event : Event) : '\r' ∉ front event := by
  intro hc
  simp only [front, Text.terminated, List.flatMap_cons, List.flatMap_nil, List.append_nil, List.mem_append,
    List.mem_singleton] at hc
  rcases hc with ((hc | hc) | hc | hc) | hc
  · exact (oneLine_idLine event _ hc).2 rfl
  · cases hc
  · exact (oneLine_eventLine event _ hc).2 rfl
  · cases hc
  · exact absurd hc (by decide)

theorem recordOf_eq (event : Event) (json : List Char) : event.recordOf json = front event ++ json :=
  (List.append_assoc (Text.terminated [event.idLine, event.eventLine]) "data: ".toList json).symm

theorem sent_eq (event : Event) : event.sent = front event ++ (event.json.render.toList ++ '\n' :: ['\n']) := by
  rw [Event.sent, Event.record, recordOf_eq, List.append_assoc]

/-- There is no carriage return in what is sent. -/
theorem return_not_mem_sent (h : Json.Printable event.data) : '\r' ∉ event.sent := by
  rw [sent_eq]
  intro hc
  rcases List.mem_append.mp hc with hc | hc
  · exact oneLine_front event hc
  · rcases List.mem_append.mp hc with hc | hc
    · exact (Json.oneLine_render (printable_json h) _ hc).2 rfl
    · exact absurd hc (by decide)

/-- What an event is seen as has no line breaks either. -/
theorem oneLine_of_seenAs (h : Json.Printable event.data) {json : List Char} (hseen : event.SeenAs json) :
    Json.OneLine json := by
  have hrender := Json.oneLine_render (printable_json h)
  intro c hc
  constructor
  · rintro rfl
    exact (hrender _ (Utf8.mem_of_shape (by decide) hseen hc)).1 rfl
  · rintro rfl
    exact (hrender _ (Utf8.mem_of_shape (by decide) hseen hc)).2 rfl

/-- The record of an event ends where its empty line is. -/
theorem whole_recordOf {json : List Char} (h : Json.OneLine json) : Whole '\n' (event.recordOf json) := by
  have htext : event.recordOf json ++ ['\n'] =
      [event.idLine, event.eventLine, Event.dataLine json].flatMap (· ++ ['\n']) := by
    simp only [Event.recordOf, Text.terminated, List.flatMap_cons, List.flatMap_nil, List.append_assoc, List.append_nil]
  rw [Whole, htext]
  exact splitRecord_lines (List.forall_mem_cons.mpr ⟨⟨newline_not_mem (oneLine_idLine event), idLine_ne_nil event⟩,
    List.forall_mem_cons.mpr ⟨⟨newline_not_mem (oneLine_eventLine event), eventLine_ne_nil event⟩,
      List.forall_mem_singleton.mpr ⟨newline_not_mem (oneLine_dataLine h), dataLine_ne_nil json⟩⟩⟩)

theorem lines_recordOf {json : List Char} (h : Json.OneLine json) :
    Text.lines (event.recordOf json) = [event.idLine, event.eventLine, Event.dataLine json] := by
  rw [Event.recordOf, Text.lines_terminated (List.forall_mem_cons.mpr ⟨newline_not_mem (oneLine_idLine event),
    List.forall_mem_singleton.mpr (newline_not_mem (oneLine_eventLine event))⟩) (newline_not_mem (oneLine_dataLine h)),
    if_neg (dataLine_ne_nil json), List.map_cons, List.map_cons, withoutReturn_oneLine (oneLine_idLine event),
    withoutReturn_oneLine (oneLine_eventLine event)]
  rfl

/-- A blank before a text that neither begins nor ends with white space is taken away. -/
theorem trim_blank {text : List Char} (hfirst : text.head?.any Text.isWhitespace = false)
    (hlast : text.getLast?.any Text.isWhitespace = false) :
    Text.trim (String.ofList (' ' :: text)) = String.ofList text := by
  have hleft : text.dropWhile Text.isWhitespace = text := by
    refine List.dropWhile_eq_self_iff.mpr fun hlength => ?_
    rw [List.head?_eq_getElem?, List.getElem?_eq_getElem hlength, Option.any_some] at hfirst
    rw [hfirst]
    exact Bool.false_ne_true
  have hright : text.rdropWhile Text.isWhitespace = text := by
    refine List.rdropWhile_eq_self_iff.mpr fun hne => ?_
    rw [List.getLast?_eq_some_getLast hne, Option.any_some] at hlast
    rw [hlast]
    exact Bool.false_ne_true
  rw [Text.trim, String.toList_ofList, List.dropWhile_cons_of_pos (by decide), hleft, hright]

/-- A name with a blank after it. -/
theorem ofList_blank {full name : String} (h : full.toList = name.toList ++ [' ']) (text : List Char) :
    String.ofList (full.toList ++ text) = name ++ String.ofList (' ' :: text) := by
  rw [h, List.append_assoc, String.ofList_append, String.ofList_toList]
  rfl

/-- A line that begins with another character has not this name. -/
theorem afterStart_eq_none {name : String} {first : Char} {rest : List Char} (hname : name.toList ≠ [])
    (h : name.toList.head? ≠ some first) : Text.afterStart name (String.ofList (first :: rest)) = none := by
  refine if_neg fun hstart => ?_
  rw [Text.startsWith, String.toList_ofList] at hstart
  obtain ⟨c, more, hcons⟩ := List.exists_cons_of_ne_nil hname
  rw [hcons] at hstart h
  exact h (congrArg some (List.cons_prefix_cons.mp (List.isPrefixOf_iff_prefix.mp hstart)).1)

theorem readField_idLine (fields : Fields) : readField fields event.idLine = fields := by
  have hname : "id: ".toList = 'i' :: "d: ".toList := by decide
  have hline : event.idLine = 'i' :: ("d: ".toList ++ (toString event.id.val).toList) :=
    (congrArg (· ++ (toString event.id.val).toList) hname).trans List.cons_append
  rw [readField, hline, afterStart_eq_none (by decide) (by decide)]
  dsimp only
  rw [afterStart_eq_none (by decide) (by decide)]

theorem readField_eventLine (fields : Fields) : readField fields event.eventLine = (some event.kind.asStr, fields.2) := by
  have hline : String.ofList event.eventLine = "event:" ++ String.ofList (' ' :: event.kind.asStr.toList) :=
    ofList_blank (by decide) _
  have htrim : Text.trim (String.ofList (' ' :: event.kind.asStr.toList)) = event.kind.asStr := by
    rw [trim_blank, String.ofList_toList] <;> cases event.kind <;> decide
  rw [readField, hline, Text.afterStart_append]
  dsimp only
  rw [htrim]

/-- The text of an object begins and ends with a brace. -/
theorem exists_render (event : Event) : ∃ middle, event.json.render.toList = '\x7b' :: middle ++ ['\x7d'] := by
  obtain ⟨text, htext⟩ : ∃ text : String, event.json.render = "\x7b" ++ text ++ "\x7d" := ⟨_, by rw [Event.json, Json.render]⟩
  have hopen : "\x7b".toList = ['\x7b'] := by decide
  have hclose : "\x7d".toList = ['\x7d'] := by decide
  refine ⟨text.toList, ?_⟩
  rw [htext, String.toList_append, String.toList_append]
  exact congrArg₂ (fun first last => first ++ text.toList ++ last) hopen hclose

/-- What it is seen as does so too. -/
theorem exists_of_seenAs {json : List Char} (hseen : event.SeenAs json) : ∃ middle, json = '\x7b' :: middle ++ ['\x7d'] := by
  obtain ⟨middle, hrender⟩ := exists_render event
  rw [Event.SeenAs, hrender] at hseen
  obtain ⟨before, after, rfl, hbefore, hafter⟩ := Utf8.exists_of_shape_append (by decide) hseen
  obtain rfl := Utf8.eq_nil_of_shape hafter
  obtain ⟨middle', rfl, -⟩ := @Utf8.exists_of_shape_ascii ['\x7b'] (Utf8.ascii_of_all (by decide)) before middle hbefore
  exact ⟨middle', rfl⟩

theorem readField_dataLine (fields : Fields) {json : List Char} (hseen : event.SeenAs json) :
    readField fields (Event.dataLine json) = (fields.1, some (String.ofList json)) := by
  have hline : String.ofList (Event.dataLine json) = "data:" ++ String.ofList (' ' :: json) := ofList_blank (by decide) _
  have hother : Text.afterStart "event:" (String.ofList (Event.dataLine json)) = none := by
    have hname : "data: ".toList = 'd' :: "ata: ".toList := by decide
    have hdata : Event.dataLine json = 'd' :: ("ata: ".toList ++ json) :=
      (congrArg (· ++ json) hname).trans List.cons_append
    rw [hdata]
    exact afterStart_eq_none (by decide) (by decide)
  have htrim : Text.trim (String.ofList (' ' :: json)) = String.ofList json := by
    obtain ⟨middle, rfl⟩ := exists_of_seenAs hseen
    rw [trim_blank]
    · rfl
    · rw [List.getLast?_concat]
      rfl
  rw [readField, hother]
  dsimp only
  rw [hline, Text.afterStart_append]
  dsimp only
  rw [htrim]

/-- A status of the same shape ends its operation too. -/
theorem terminalStatus_of_shape {value value' : Json}
    (h : (dataStatus value).map (Utf8.shape ·.toList) = (dataStatus value').map (Utf8.shape ·.toList)) :
    terminalStatus value = terminalStatus value' := by
  have hword (word : String) (hword : ∀ c ∈ word.toList, c.toNat < 128) {status status' : String}
      (hshape : Utf8.shape status.toList = Utf8.shape status'.toList) : status = word ↔ status' = word := by
    constructor
    · rintro rfl
      exact String.toList_inj.mp (Utf8.eq_of_shape_ascii hword hshape.symm)
    · rintro rfl
      exact String.toList_inj.mp (Utf8.eq_of_shape_ascii hword hshape)
  rw [terminalStatus, terminalStatus]
  cases hstatus : dataStatus value with
  | none =>
    rw [hstatus, Option.map_none, eq_comm, Option.map_eq_none_iff] at h
    rw [h]
  | some status =>
    rw [hstatus, Option.map_some, eq_comm, Option.map_eq_some_iff] at h
    obtain ⟨status', hstatus', hshape⟩ := h
    rw [hstatus']
    dsimp only
    rw [decide_eq_decide.mpr (hword "succeeded" (Utf8.ascii_of_all (by decide)) hshape),
      decide_eq_decide.mpr (hword "failed" (Utf8.ascii_of_all (by decide)) hshape),
      decide_eq_decide.mpr (hword "cancelled" (Utf8.ascii_of_all (by decide)) hshape)]

/-- What the client reads of a record. -/
theorem handleRecord_recordOf {parse : String → Except String Json} (h : Json.Printable event.data)
    (hread : event.ReadBy parse) {json : List Char} (hseen : event.SeenAs json) :
    handleRecord parse (event.recordOf json) = .ok event.ends := by
  obtain ⟨value, hparse, hstatus⟩ := hread json hseen
  have hfields : (Text.lines (event.recordOf json)).foldl readField (none, none) =
      (some event.kind.asStr, some (String.ofList json)) := by
    rw [lines_recordOf (oneLine_of_seenAs h hseen), List.foldl_cons, List.foldl_cons, List.foldl_cons, List.foldl_nil,
      readField_idLine, readField_eventLine, readField_dataLine _ hseen]
  rw [handleRecord, hfields]
  dsimp only [Option.getD_some]
  rw [hparse, Event.ends, ← terminalStatus_of_shape hstatus]
  cases event.kind <;> rfl

/-- **A text of the shape of what is sent** is the records of the events, each with a text its JSON is seen
as. -/
theorem exists_of_shape_sent {events : List Event} {seen : List Char}
    (h : Utf8.shape seen = Utf8.shape (events.flatMap Event.sent)) :
    ∃ jsons, List.Forall₂ Event.SeenAs events jsons ∧
      seen = (List.zipWith Event.recordOf events jsons).flatMap (· ++ ['\n', '\n']) := by
  induction events generalizing seen with
  | nil => exact ⟨[], .nil, Utf8.eq_nil_of_shape h⟩
  | cons event events ih =>
    rw [List.flatMap_cons, sent_eq, List.append_assoc] at h
    obtain ⟨text, rfl, htext⟩ := Utf8.exists_of_shape_ascii (ascii_front event) h
    rw [List.append_assoc, List.cons_append, List.cons_append, List.nil_append] at htext
    obtain ⟨json, rest, rfl, hjson, hrest⟩ := Utf8.exists_of_shape_append (by decide) htext
    obtain ⟨later, rfl, hlater⟩ := @Utf8.exists_of_shape_ascii ['\n'] (Utf8.ascii_of_all (by decide)) _ _ hrest
    obtain ⟨jsons, hjsons, rfl⟩ := ih hlater
    refine ⟨json :: jsons, .cons hjson hjsons, ?_⟩
    rw [List.zipWith_cons_cons, List.flatMap_cons, recordOf_eq]
    simp only [List.append_assoc, List.cons_append, List.nil_append]

/-- The records of events, whatever their JSON is seen as. -/
theorem search_records {parse : String → Except String Json} {events : List Event}
    (hdata : ∀ event ∈ events, Json.Printable event.data) (hread : ∀ event ∈ events, event.ReadBy parse)
    {jsons : List (List Char)} (hseen : List.Forall₂ Event.SeenAs events jsons) :
    (∀ record ∈ List.zipWith Event.recordOf events jsons, Whole '\n' record) ∧
      search (handleRecord parse) (List.zipWith Event.recordOf events jsons) = .ok (events.any Event.ends) := by
  induction hseen with
  | nil => exact ⟨List.forall_mem_nil _, rfl⟩
  | @cons event json events jsons hjson _ ih =>
    obtain ⟨hevent, hrest⟩ := List.forall_mem_cons.mp hdata
    obtain ⟨hreads, hmore⟩ := List.forall_mem_cons.mp hread
    obtain ⟨hwhole, hsearch⟩ := ih hrest hmore
    refine ⟨List.forall_mem_cons.mpr ⟨whole_recordOf (oneLine_of_seenAs hevent hjson), hwhole⟩, ?_⟩
    rw [List.zipWith_cons_cons, search, handleRecord_recordOf hevent hreads hjson, List.any_cons]
    cases event.ends with
    | true => rfl
    | false => exact hsearch

end Server

/-- **What the client says of an operation.** However its events are sent, in chunks that are cut
anywhere or as they are, the client finds the end of the operation if and only if there is an
event that says so; otherwise it reports that the stream has ended. -/
theorem waitForTerminalEvent_eq (parse : String → Except String Json) {head : List (List Char)} (hhead : IsHead head)
    {code : Fin 65536} (hstatus : status (headText head) = some code) (hsuccess : 200 ≤ code.val ∧ code.val < 300)
    {events : List Event} (hdata : ∀ event ∈ events, Json.Printable event.data)
    (hread : ∀ event ∈ events, event.ReadBy parse) {bytes : List UInt8}
    (hsent : Sent head (events.flatMap Event.sent) bytes) :
    waitForTerminalEvent parse bytes = if events.any Event.ends then .ok () else .error streamEnded := by
  obtain ⟨seen, hshape, hwait⟩ := wait_transfer parse hhead hstatus hsuccess hsent
  have hreturns : withoutReturns seen = seen := by
    refine List.filter_eq_self.mpr fun c hc => ?_
    have hne : c ≠ '\r' := by
      rintro rfl
      obtain ⟨event, hevent, hmem⟩ := List.mem_flatMap.mp (Utf8.mem_of_shape (by decide) hshape hc)
      exact return_not_mem_sent (hdata event hevent) hmem
    simpa using hne
  obtain ⟨jsons, hjsons, rfl⟩ := exists_of_shape_sent hshape
  obtain ⟨hwhole, hsearch⟩ := search_records hdata hread hjsons
  rw [hwait, searchText, hreturns, consumeSseRecords, ← List.append_nil (List.flatMap _ _), consume_records hwhole rfl,
    hsearch]
  cases events.any Event.ends <;> rfl

/-- An event of an operation. -/
def operationEvent (id : U64) (data : List (String × Json)) : Event := ⟨id, "op-1", .operation, 1700000000, .object data⟩

/-- An operation that is at work says so. -/
def running : Event := operationEvent 1 [("message", .string "caché"), ("status", .string "running")]

/-- The same where the last character of the message has been cut. -/
def runningCut : Event := operationEvent 1 [("message", .string "cach\uFFFD\uFFFD"), ("status", .string "running")]

/-- The last event of an operation that has succeeded. -/
def succeeded : Event := operationEvent 2 [("status", .string "succeeded")]

/-- What is sent of the two. -/
def operationBytes : List UInt8 := Utf8.encode ([running, succeeded].flatMap Event.sent)

theorem length_operationBytes : operationBytes.length = 281 := by decide +kernel

/-- The first chunk ends within the last character of the message. -/
def messageChunk : Chunk where
  head := "7c".toList
  content := operationBytes.take 124
  oneLine := by decide
  nonempty := List.ne_nil_of_length_pos (by rw [List.length_take, length_operationBytes]; decide)
  size := by
    rw [List.length_take, length_operationBytes]
    decide

/-- The second one ends within the second record. -/
def middleChunk : Chunk where
  head := "3c".toList
  content := (operationBytes.drop 124).take 60
  oneLine := by decide
  nonempty := List.ne_nil_of_length_pos (by rw [List.length_take, List.length_drop, length_operationBytes]; decide)
  size := by
    rw [List.length_take, List.length_drop, length_operationBytes]
    decide

/-- The rest. -/
def lastChunk : Chunk where
  head := "61".toList
  content := (operationBytes.drop 124).drop 60
  oneLine := by decide
  nonempty := List.ne_nil_of_length_pos (by rw [List.length_drop, List.length_drop, length_operationBytes]; decide)
  size := by
    rw [List.length_drop, List.length_drop, length_operationBytes]
    decide

/-- A parser of the JSON of these events. -/
def readOperation (text : String) : Except String Json :=
  if text = runningCut.json.render then .ok runningCut.json
  else if Utf8.shape text.toList = Utf8.shape running.json.render.toList then .ok running.json
  else if Utf8.shape text.toList = Utf8.shape succeeded.json.render.toList then .ok succeeded.json
  else .error "expected value at line 1 column 1"

/-- Two records in three chunks, one cut within a character and one within a record, say that the operation
has ended. -/
theorem waitForTerminalEvent_succeeded :
    waitForTerminalEvent readOperation (response ["HTTP/1.1 200 OK".toList, "transfer-encoding: chunked".toList]
      ([messageChunk, middleChunk, lastChunk].flatMap Chunk.bytes ++ Utf8.encode "0\r\n\r\n".toList)) = .ok () := by
  have hends : [running, succeeded].any Event.ends = true := by decide +kernel
  have hend : nextChunk (Utf8.encode "0\r\n\r\n".toList) = .ok none := by decide +kernel
  have hbytes : ([messageChunk, middleChunk, lastChunk].map Chunk.content).flatten =
      Utf8.encode ([running, succeeded].flatMap Event.sent) := by
    have hmessage : messageChunk.content = operationBytes.take 124 := by rw [messageChunk]
    have hmiddle : middleChunk.content = (operationBytes.drop 124).take 60 := by rw [middleChunk]
    have hlast : lastChunk.content = (operationBytes.drop 124).drop 60 := by rw [lastChunk]
    rw [List.map_cons, List.map_cons, List.map_singleton, List.flatten_cons, List.flatten_cons, List.flatten_singleton,
      hmessage, hmiddle, hlast, List.take_append_drop, List.take_append_drop, operationBytes]
  have hcut : (dataStatus runningCut.json).map (Utf8.shape ·.toList) =
      (dataStatus running.json).map (Utf8.shape ·.toList) := by decide +kernel
  have hother : Utf8.shape succeeded.json.render.toList ≠ Utf8.shape running.json.render.toList := by decide +kernel
  have hread : ∀ event ∈ [running, succeeded], event.ReadBy readOperation := by
    refine List.forall_mem_cons.mpr ⟨fun json hseen => ?_, List.forall_mem_singleton.mpr fun json hseen => ?_⟩
    · rw [Event.SeenAs] at hseen
      rw [readOperation, String.toList_ofList]
      split_ifs
      · exact ⟨_, rfl, hcut⟩
      · exact ⟨_, rfl, rfl⟩
    · rw [Event.SeenAs] at hseen
      have hne : String.ofList json ≠ runningCut.json.render := by
        intro hsame
        have hjson : json = runningCut.json.render.toList := by rw [← hsame, String.toList_ofList]
        rw [hjson] at hseen
        exact absurd hseen (by decide +kernel)
      rw [readOperation, if_neg hne, String.toList_ofList, hseen, if_neg hother, if_pos rfl]
      exact ⟨_, rfl, rfl⟩
  have hdata : ∀ event ∈ [running, succeeded], Json.Printable event.data :=
    List.forall_mem_cons.mpr ⟨.object (List.forall_mem_cons.mpr ⟨.string _, List.forall_mem_singleton.mpr (.string _)⟩),
      List.forall_mem_singleton.mpr (.object (List.forall_mem_singleton.mpr (.string _)))⟩
  have hwait := @waitForTerminalEvent_eq readOperation
    ["HTTP/1.1 200 OK".toList, "transfer-encoding: chunked".toList] (by unfold IsHead; decide) 200 (by decide +kernel)
    (by decide) [running, succeeded] hdata hread _ (.inChunks (by decide +kernel) hbytes hend)
  rw [hends, if_pos rfl] at hwait
  exact hwait

end Apmpr.Daemon.EventClient
