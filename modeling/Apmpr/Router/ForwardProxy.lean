import Apmpr.Lib.Codec
import Apmpr.Lib.HttpHead
import Apmpr.Router.Compile
import Mathlib.Data.Nat.Bitwise

/-!
# The forward proxy of managed profiles

The crate `apmpr-router`'s `forward_proxy.rs`. A managed browser profile sends its requests
to a proxy listener. `parse_request` reads the head of a request, however it is cut into
reads, checks the credential and where the request wants to go, and makes the head that is
sent on; `serve` looks the route up, connects to its provider and sends the head with the
body after it.

URIs are parsed by the crate `http`, which is a parameter here (`UriParser`). Time is left out: a client
that is too slow to send its body in time is one whose stream ends there. What is answered
when the upstream cannot be written to is left out as well.

## What is proved

* `collectHead_spec`: how a request is cut into reads does not change what its head is.
* `foldlM_headerLine`: what the headers of a head say, and which of them are sent on.
* `parse_request_forwards`: what is true of every request that is accepted, and of the bytes
  that are sent on for it.
-/

namespace Apmpr.Router.ForwardProxy

open HttpHead (blankEnd headLines fieldLine)

/-! ### Limits and failures -/

/-- `MAX_HEADER_BYTES`. -/
def MAX_HEADER_BYTES : ℕ := 32 * 1024

/-- `MAX_REQUEST_BODY_BYTES`. -/
def MAX_REQUEST_BODY_BYTES : ℕ := 64 * 1024 * 1024

/-- `ProxyFailure`. -/
structure ProxyFailure where
  status : ℕ
  reason : String
  message : String
  challenge : Bool
  deriving DecidableEq

/-- `ProxyFailure::bad_request`. -/
def badRequest (message : String) : ProxyFailure := ⟨400, "Bad Request", message, false⟩

/-- A head that is too long. -/
def headersTooLarge : ProxyFailure :=
  ⟨431, "Request Header Fields Too Large", "request headers exceed the managed proxy limit", false⟩

/-- A credential that is missing or wrong. -/
def credentialsRequired : ProxyFailure :=
  ⟨407, "Proxy Authentication Required", "valid managed proxy credentials are required", true⟩

/-! ### URIs -/

/-- What `http::uri::Authority` shows of an authority: `as_str`, `host` and `port_u16`. -/
structure Authority where
  text : String
  host : String
  port : Option U16
  deriving DecidableEq

/-- What `http::Uri` shows of a URI. -/
structure Uri where
  scheme : Option String
  authority : Option Authority
  pathAndQuery : Option String
  deriving DecidableEq

/-- The parser of `http::Uri`. An authority it accepts is made of visible ASCII characters,
and a path of characters that are neither blank nor control characters. -/
structure UriParser where
  parse : String → Option Uri
  authority_visible : ∀ {s uri authority}, parse s = some uri → uri.authority = some authority →
    ∀ c ∈ authority.text.toList, 0x20 < c.toNat ∧ c.toNat < 0x7f
  path_visible : ∀ {s uri path}, parse s = some uri → uri.pathAndQuery = some path → ∀ c ∈ path.toList, 0x20 < c.toNat

/-- The port an authority says, if it says one; no result where what is after the brackets is
no port. -/
def explicitPort (text : String) : Option (Option String) :=
  if Text.startsWith text "[" then
    match Text.splitOnce ']' text with
    | none => none
    | some (_, suffix) => if suffix = "" then some none else (Text.afterStart ":" suffix).map some
  else some ((Text.rsplitOnce ':' text).map Prod.snd)

/-- A host without the brackets around it. -/
def withoutBrackets (host : String) : String :=
  match Text.afterStart "[" host with
  | some inner => if Text.endsWith inner "]" then String.ofList inner.toList.dropLast else host
  | none => host

/-- The port of an authority. -/
def authorityPort (text : String) : Option U16 :=
  match explicitPort text with
  | none => none
  | some none => some 80
  | some (some port) => Codec.readUnsigned 65536 port

/-- `authority_target`: the host and port of a local authority. -/
def authorityTarget (authority : Authority) : Option (String × U16) :=
  match authorityPort authority.text with
  | none => none
  | some port =>
    if port = 0 then none
    else
      let host := Text.toAsciiLowercase (Text.trimEndMatches '.' (withoutBrackets authority.host))
      let isLocal := host = "localhost" || Text.endsWith host ".localhost" ||
        (IpAddr.parse host).any IpAddr.isLoopback
      if isLocal then some (host, port) else none

/-! ### The request line -/

/-- The characters of a method and of a header's name. -/
def isToken (c : Char) : Bool := Text.isAsciiAlphanumeric c || "!#$%&'*+-.^_`|~".toList.contains c

/-- The words of a request line. -/
structure RequestLine where
  method : String
  target : String
  version : String
  deriving DecidableEq

/-- The words of a request line, in the order they are checked. -/
def requestLine (line : List Char) : Except ProxyFailure RequestLine :=
  match Text.split ' ' (String.ofList line) with
  | [] => .error (badRequest "invalid request line")
  | method :: parts =>
    if method = "" then .error (badRequest "invalid request line")
    else if !method.toList.all isToken then .error (badRequest "invalid request method")
    else match parts with
      | [] => .error (badRequest "invalid request line")
      | [_] => .error (badRequest "only HTTP/1.x is supported")
      | target :: version :: more =>
        if version ≠ "HTTP/1.0" && version ≠ "HTTP/1.1" then .error (badRequest "only HTTP/1.x is supported")
        else if !more.isEmpty || Text.toAsciiLowercase method = "connect" then
          .error (badRequest "CONNECT and malformed request targets are not supported")
        else .ok ⟨method, target, version⟩

/-- Where a request wants to go. -/
structure RequestTarget where
  uri : Uri
  authority : Authority
  host : String
  port : U16
  deriving DecidableEq

/-- The target of a request: an absolute URI of a local host. -/
def requestTarget (uris : UriParser) (target : String) : Except ProxyFailure RequestTarget :=
  match uris.parse target with
  | none => .error (badRequest "proxy requests require an absolute HTTP URI")
  | some uri =>
    if uri.scheme ≠ some "http" then .error (badRequest "managed proxy requests require an absolute http:// URI")
    else match uri.authority with
      | none => .error (badRequest "absolute URI has no authority")
      | some authority =>
        if Text.contains authority.text "@" then .error (badRequest "URI credentials are not allowed")
        else match authorityTarget authority with
          | none => .error (badRequest "absolute URI authority is invalid")
          | some (host, port) => .ok ⟨uri, authority, host, port⟩

/-! ### Headers -/

/-- What was read of the headers: the headers that are looked at, and those that are sent on. -/
structure Headers where
  authorization : Option String
  host : Option String
  contentLength : Option U64
  forwarded : List (String × String)
  deriving DecidableEq

/-- No headers. -/
def Headers.empty : Headers := ⟨none, none, none, []⟩

/-- The headers of one connection, which are not sent on. -/
def DROPPED : List String := ["connection", "proxy-connection", "keep-alive", "te", "trailer", "upgrade"]

/-- The length a `Content-Length` header says. -/
def readLength (value : String) : Option U64 := Codec.readUnsigned (2 ^ 64) value

/-- The headers with one more. -/
def Headers.add (headers : Headers) (name value : String) : Except ProxyFailure Headers :=
  let lower := Text.toAsciiLowercase name
  if lower = "proxy-authorization" then
    if headers.authorization.isSome then .error (badRequest "proxy authorization must occur exactly once")
    else .ok { headers with authorization := some value }
  else if lower = "host" then
    if headers.host.isSome then .error (badRequest "Host must occur exactly once")
    else .ok { headers with host := some value }
  else if lower = "content-length" then
    if headers.contentLength.isSome then .error (badRequest "Content-Length must occur at most once")
    else match readLength value with
      | none => .error (badRequest "invalid Content-Length")
      | some length => .ok { headers with contentLength := some length }
  else if lower = "transfer-encoding" then .error (badRequest "chunked proxy requests are not supported")
  else if DROPPED.contains lower then .ok headers
  else .ok { headers with forwarded := headers.forwarded ++ [(name, value)] }

/-- A control character a header's value may not have. -/
def isControl (c : Char) : Bool := c.toNat = 0x7f || (decide (c.toNat < 0x20) && c ≠ '\t')

/-- One turn of the loop over the header lines. -/
def headerLine (headers : Headers) (line : List Char) : Except ProxyFailure Headers :=
  if line.head?.any fun c => c = ' ' || c = '\t' then .error (badRequest "folded headers are not allowed")
  else match HttpHead.field line with
    | none => .error (badRequest "malformed request header")
    | some (name, value) =>
      if name = "" || !name.toList.all isToken then .error (badRequest "invalid request header name")
      else if value.toList.any isControl then .error (badRequest "invalid request header value")
      else headers.add name value

/-! ### The checks of a head -/

/-- `constant_time_eq`. -/
def constantTimeEq (left right : List UInt8) : Bool :=
  (List.range (max left.length right.length)).foldl
    (fun difference index => difference ||| (left.getD index 0 ^^^ right.getD index 0).toNat)
    (left.length ^^^ right.length) = 0

/-- The credential must be the expected one. -/
def checkAuthorization (headers : Headers) (expected : List UInt8) : Except ProxyFailure Unit :=
  match headers.authorization with
  | none => .error credentialsRequired
  | some supplied =>
    if constantTimeEq (Utf8.encode supplied.toList) expected then .ok () else .error credentialsRequired

/-- The host and port a `Host` header stands for. -/
def hostTarget (uris : UriParser) (host : String) : Except ProxyFailure (String × U16) :=
  match uris.parse ("http://" ++ host ++ "/") with
  | none => .error (badRequest "Host is invalid")
  | some uri =>
    match uri.authority with
    | none => .error (badRequest "Host is invalid")
    | some authority =>
      if Text.contains authority.text "@" then .error (badRequest "Host credentials are not allowed")
      else match authorityTarget authority with
        | none => .error (badRequest "Host is invalid")
        | some target => .ok target

/-- The `Host` header must stand for where the request wants to go. -/
def checkHost (uris : UriParser) (headers : Headers) (target : RequestTarget) : Except ProxyFailure Unit :=
  match headers.host with
  | none => .error (badRequest "Host is required")
  | some host => do
    let found ← hostTarget uris host
    if found ≠ (target.host, target.port) then .error (badRequest "Host must match the absolute URI authority")
    else .ok ()

/-- Whether a destination of a listener is this host and port. -/
def matchesTarget (host : String) (port : U16) : ListenerDestination → Bool
  | .proxyTarget _ h p => Text.toAsciiLowercase (Text.trimEndMatches '.' h) = Text.toAsciiLowercase host && p = port
  | .customDomain _ _ | .legacyLocalhost _ _ | .loopback _ => false

/-- The one destination of a listener that a request is for. -/
def listenerDestination (listener : Listener) (target : RequestTarget) : Except ProxyFailure RouteSlotId :=
  match listener.destinations.filter (matchesTarget target.host target.port) with
  | [destination] => .ok destination.slot
  | _ => .error ⟨403, "Forbidden", "absolute URI does not match exactly one managed destination", false⟩

/-- The length of the body a head declares. -/
def Headers.bodyLength (headers : Headers) : ℕ := (headers.contentLength.map Fin.val).getD 0

/-- A head that passed every check. -/
structure RequestHead where
  line : RequestLine
  target : RequestTarget
  headers : Headers
  destination : RouteSlotId

/-- The checks of a head, in their order. -/
def checkHead (uris : UriParser) (listener : Listener) (expected : List UInt8) :
    List (List Char) → Except ProxyFailure RequestHead
  | [] => .error (badRequest "missing request line")
  | first :: lines => do
    let line ← requestLine first
    let target ← requestTarget uris line.target
    let headers ← lines.foldlM headerLine Headers.empty
    checkAuthorization headers expected
    checkHost uris headers target
    let destination ← listenerDestination listener target
    if MAX_REQUEST_BODY_BYTES < headers.bodyLength then
      .error ⟨413, "Content Too Large", "request body exceeds the managed proxy limit", false⟩
    else .ok ⟨line, target, headers, destination⟩

/-! ### The head that is sent on -/

/-- The lines of the head that is sent on. -/
def RequestHead.upstreamLines (head : RequestHead) : List (List Char) :=
  let path := head.target.uri.pathAndQuery.getD "/"
  (head.line.method ++ " " ++ path ++ " " ++ head.line.version).toList ::
    ((head.headers.forwarded.filter fun (name, _) =>
        Text.toAsciiLowercase name ≠ "host" && Text.toAsciiLowercase name ≠ "content-length").map
      (fun (name, value) => fieldLine name value) ++
    fieldLine "Host" head.target.authority.text ::
    ((head.headers.contentLength.map fun length => fieldLine "Content-Length" (toString length.val)).toList ++
    [fieldLine "Connection" "close"]))

/-- The head that is sent on. -/
def RequestHead.upstreamHead (head : RequestHead) : List UInt8 := Utf8.encode (HttpHead.render head.upstreamLines)

/-! ### Reading a request -/

/-- A client's byte stream, as it comes in reads of at most 4096 bytes each; after the last
one it ends, or reading fails. -/
structure Client where
  reads : List (List UInt8)
  failed : Bool
  nonempty : ∀ r ∈ reads, r ≠ []
  short : ∀ r ∈ reads, r.length ≤ 4096

/-- All that a client sends. -/
def Client.bytes (client : Client) : List UInt8 := client.reads.flatten

/-- `ParsedRequest`, with the reads that are left of the client's. -/
structure ParsedRequest where
  upstreamHead : List UInt8
  bufferedBody : List UInt8
  remainingBody : ℕ
  destination : RouteSlotId
  rest : List (List UInt8)

/-- What was read when a blank line came: the bytes, where the head ends in them, and the
reads that are left. -/
structure Collected where
  bytes : List UInt8
  headerEnd : ℕ
  rest : List (List UInt8)

/-- The end of the stream before the end of a head. -/
def endOfStream (failed : Bool) : ProxyFailure :=
  badRequest (if failed then "could not read request" else "incomplete request headers")

/-- The loop of `parse_request` that reads until a blank line came. -/
def collectHead (failed : Bool) (bytes : List UInt8) (reads : List (List UInt8)) : Except ProxyFailure Collected :=
  match blankEnd bytes with
  | some stop => .ok ⟨bytes, stop, reads⟩
  | none =>
    if MAX_HEADER_BYTES ≤ bytes.length then .error headersTooLarge
    else match reads with
      | [] => .error (endOfStream failed)
      | chunk :: reads => collectHead failed (bytes ++ chunk) reads

/-- The head of a request, within the limit. -/
def readRequestHead (client : Client) : Except ProxyFailure Collected := do
  let collected ← collectHead client.failed [] client.reads
  if MAX_HEADER_BYTES < collected.headerEnd then .error headersTooLarge else .ok collected

/-- The text of a head. -/
def headText (collected : Collected) : Except ProxyFailure (List Char) :=
  match Utf8.decode (collected.bytes.take collected.headerEnd) with
  | none => .error (badRequest "request headers must be valid ASCII")
  | some text => .ok text

/-- The request of a head and of what was read after it. -/
def buffered (head : RequestHead) (collected : Collected) : Except ProxyFailure ParsedRequest :=
  let body := collected.bytes.drop collected.headerEnd
  if head.headers.bodyLength < body.length then .error (badRequest "pipelined proxy requests are not supported")
  else .ok ⟨head.upstreamHead, body, head.headers.bodyLength - body.length, head.destination, collected.rest⟩

/-- `parse_request`. -/
def parseRequest (uris : UriParser) (listener : Listener) (expected : List UInt8) (client : Client) :
    Except ProxyFailure ParsedRequest := do
  let collected ← readRequestHead client
  let text ← headText collected
  let head ← checkHead uris listener expected (headLines text)
  buffered head collected

/-! ### Serving a request -/

/-- Why nothing is sent upstream: the client is answered, or the task panics. -/
inductive ServeStop where
  | answered (failure : ProxyFailure)
  | panicked (message : String)
  deriving DecidableEq

/-- The provider a request of a listener goes to. -/
def upstreamTarget (snapshot : CompiledSnapshot) (identity : RouteSlotId) (destination : RouteSlotId) :
    Except ProxyFailure RouteTarget :=
  match snapshot.lookupBrowser ⟨destination, none, none, some identity⟩ with
  | .error _ => .error ⟨403, "Forbidden", "managed proxy route is not configured", false⟩
  | .ok target =>
    if target.endpoint.protocol ≠ .http || target.endpoint.port = 0 || !isLoopbackHost target.endpoint.host then
      .error ⟨502, "Bad Gateway", "managed proxy upstream is not local HTTP", false⟩
    else .ok target

/-- What `serve` writes to the upstream it connects to: the head, what was read of the body,
and of the rest of the stream as much as is left of the body. -/
def ParsedRequest.written (request : ParsedRequest) : List UInt8 :=
  request.upstreamHead ++ request.bufferedBody ++ request.rest.flatten.take request.remainingBody

/-- `serve`: the target that is connected to, and the bytes that are written to it. -/
def serve (uris : UriParser) (connect : String → Bool) (listener : Listener) (snapshot : CompiledSnapshot)
    (expected : List UInt8) (client : Client) : Except ServeStop (RouteTarget × List UInt8) :=
  match parseRequest uris listener expected client with
  | .error failure => .error (.answered failure)
  | .ok request =>
    match listener.proxyIdentity with
    | none => .error (.panicked "validated managed proxy identity")
    | some identity =>
      match upstreamTarget snapshot identity request.destination with
      | .error failure => .error (.answered failure)
      | .ok target =>
        if connect s!"{target.endpoint.host}:{target.endpoint.port}" then .ok (target, request.written)
        else .error (.answered ⟨502, "Bad Gateway", "managed proxy upstream is unavailable", false⟩)

/-! ### How a request is cut into reads -/

/-- Where the head of a stream ends, and how reading it fails. -/
def headEnd (failed : Bool) (bytes : List UInt8) : Except ProxyFailure ℕ :=
  match (blankEnd bytes).filter (· ≤ MAX_HEADER_BYTES) with
  | some stop => .ok stop
  | none => if MAX_HEADER_BYTES ≤ bytes.length then .error headersTooLarge else .error (endOfStream failed)

/-- A head that was found in a part of a stream is the stream's. -/
theorem headEnd_of_found (failed : Bool) {bytes : List UInt8} {stop : ℕ} (h : blankEnd bytes = some stop)
    (more : List UInt8) :
    headEnd failed (bytes ++ more) =
      if MAX_HEADER_BYTES < stop then .error headersTooLarge else .ok stop := by
  rw [headEnd, HttpHead.blankEnd_append h more]
  by_cases hlong : MAX_HEADER_BYTES < stop
  · have hlength := (HttpHead.blankEnd_bounds h).2
    rw [if_pos hlong, Option.filter_some_neg (by simpa using hlong)]
    dsimp only
    rw [if_pos (by rw [List.length_append]; omega)]
  · rw [if_neg hlong, Option.filter_some_pos (by simpa using hlong)]

/-- A stream with no head within the limit has a head that is too long. -/
theorem headEnd_of_long (failed : Bool) {bytes : List UInt8} (h : blankEnd bytes = none)
    (hlong : MAX_HEADER_BYTES ≤ bytes.length) (more : List UInt8) :
    headEnd failed (bytes ++ more) = .error headersTooLarge := by
  have hnone : (blankEnd (bytes ++ more)).filter (· ≤ MAX_HEADER_BYTES) = none := by
    rw [Option.filter_eq_none_iff]
    intro stop hstop hle
    rw [HttpHead.blankEnd_of_append hstop ((of_decide_eq_true hle).trans hlong)] at h
    cases h
  rw [headEnd, hnone]
  dsimp only
  rw [if_pos (by rw [List.length_append]; omega)]

/-- What the loop reads, it reads from the stream, and it stops where the stream's head ends. -/
theorem collectHead_spec (failed : Bool) (bytes : List UInt8) (reads : List (List UInt8)) :
    (∀ collected, collectHead failed bytes reads = .ok collected →
      collected.bytes ++ collected.rest.flatten = bytes ++ reads.flatten ∧
        blankEnd collected.bytes = some collected.headerEnd) ∧
    headEnd failed (bytes ++ reads.flatten) =
      match collectHead failed bytes reads with
      | .ok collected =>
        if MAX_HEADER_BYTES < collected.headerEnd then .error headersTooLarge else .ok collected.headerEnd
      | .error failure => .error failure := by
  induction reads generalizing bytes with
  | nil =>
    rw [collectHead]
    cases hblank : blankEnd bytes with
    | some stop => exact ⟨by rintro _ ⟨⟩; exact ⟨rfl, hblank⟩, headEnd_of_found failed hblank _⟩
    | none =>
      dsimp only
      split_ifs with hlong
      · exact ⟨by rintro _ ⟨⟩, headEnd_of_long failed hblank hlong _⟩
      · refine ⟨by rintro _ ⟨⟩, ?_⟩
        rw [List.flatten_nil, List.append_nil, headEnd, hblank, Option.filter_none]
        exact if_neg hlong
  | cons chunk reads ih =>
    rw [collectHead]
    cases hblank : blankEnd bytes with
    | some stop => exact ⟨by rintro _ ⟨⟩; exact ⟨rfl, hblank⟩, headEnd_of_found failed hblank _⟩
    | none =>
      dsimp only
      split_ifs with hlong
      · exact ⟨by rintro _ ⟨⟩, headEnd_of_long failed hblank hlong _⟩
      · rw [List.flatten_cons, ← List.append_assoc]
        exact ih (bytes ++ chunk)

/-- The head that is read of a stream, and what follows it, whatever the reads are. -/
theorem readRequestHead_spec (client : Client) :
    (readRequestHead client).map Collected.headerEnd = headEnd client.failed client.bytes ∧
    ∀ collected, readRequestHead client = .ok collected →
      collected.bytes ++ collected.rest.flatten = client.bytes ∧
        blankEnd collected.bytes = some collected.headerEnd ∧ collected.headerEnd ≤ MAX_HEADER_BYTES := by
  obtain ⟨hread, hend⟩ := collectHead_spec client.failed [] client.reads
  rw [List.nil_append] at hend
  rw [Client.bytes, hend, readRequestHead]
  cases hcollect : collectHead client.failed [] client.reads with
  | error failure => exact ⟨rfl, by rintro _ ⟨⟩⟩
  | ok collected =>
    obtain ⟨hbytes, hblank⟩ := hread collected hcollect
    simp only [Except.bind, bind]
    split_ifs with hlong
    · exact ⟨rfl, by rintro _ ⟨⟩⟩
    · refine ⟨rfl, ?_⟩
      rintro _ ⟨⟩
      exact ⟨hbytes, hblank, not_lt.mp hlong⟩

/-! ### What the headers say -/

/-- The values of the headers with a name, in whatever case the name is written. -/
def valuesOf (name : String) (fields : List (String × String)) : List String :=
  (fields.filter fun field => Text.toAsciiLowercase field.1 = name).map Prod.snd

theorem valuesOf_append (name : String) (fields more : List (String × String)) :
    valuesOf name (fields ++ more) = valuesOf name fields ++ valuesOf name more := by
  simp [valuesOf]

theorem valuesOf_cons (name : String) (field : String × String) (fields : List (String × String)) :
    valuesOf name (field :: fields) =
      (if Text.toAsciiLowercase field.1 = name then [field.2] else []) ++ valuesOf name fields := by
  rw [valuesOf, List.filter_cons]
  split_ifs <;> simp_all [valuesOf]

theorem valuesOf_nil (name : String) : valuesOf name [] = [] := rfl

theorem valuesOf_eq_nil {name : String} {fields : List (String × String)}
    (h : ∀ field ∈ fields, Text.toAsciiLowercase field.1 ≠ name) : valuesOf name fields = [] := by
  rw [valuesOf, List.map_eq_nil_iff, List.filter_eq_nil_iff]
  exact fun field hfield => by simpa using h field hfield

/-- The headers that are looked at. -/
def READ : List String := ["proxy-authorization", "host", "content-length", "transfer-encoding"]

/-- Whether a header is sent on. -/
def isForwarded (field : String × String) : Bool :=
  !READ.contains (Text.toAsciiLowercase field.1) && !DROPPED.contains (Text.toAsciiLowercase field.1)

/-- A header that can be written on a line of its own. -/
structure CleanField (field : String × String) : Prop where
  name_ne : field.1 ≠ ""
  name_token : ∀ c ∈ field.1.toList, isToken c = true
  value_control : ∀ c ∈ field.2.toList, isControl c = false
  value_trim : Text.trim field.2 = field.2

/-- What was read of some headers. -/
structure Headers.Say (headers : Headers) (fields : List (String × String)) : Prop where
  authorization : valuesOf "proxy-authorization" fields = headers.authorization.toList
  host : valuesOf "host" fields = headers.host.toList
  contentLength : (valuesOf "content-length" fields).map readLength =
    headers.contentLength.toList.map some
  transferEncoding : valuesOf "transfer-encoding" fields = []
  forwarded : headers.forwarded = fields.filter isForwarded
  clean : ∀ field ∈ fields, CleanField field

theorem Headers.say_empty : Headers.empty.Say [] := ⟨rfl, rfl, rfl, rfl, rfl, by simp⟩

/-- One more header. -/
theorem Headers.Say.add {headers added : Headers} {fields : List (String × String)} {name value : String}
    (h : headers.Say fields) (hclean : CleanField (name, value)) (hadd : headers.add name value = .ok added) :
    added.Say (fields ++ [(name, value)]) := by
  have hall : ∀ field ∈ fields ++ [(name, value)], CleanField field := by
    intro field hfield
    rcases List.mem_append.mp hfield with hold | hnew
    · exact h.clean field hold
    · exact List.mem_singleton.mp hnew ▸ hclean
  rw [Headers.add] at hadd
  generalize hlower : Text.toAsciiLowercase name = lower at hadd
  have hsnoc : ∀ n, valuesOf n (fields ++ [(name, value)]) = valuesOf n fields ++ if lower = n then [value] else [] := by
    intro n
    rw [valuesOf_append, valuesOf_cons, valuesOf_nil, List.append_nil, hlower]
  have hforward : (fields ++ [(name, value)]).filter isForwarded =
      headers.forwarded ++ if READ.contains lower || DROPPED.contains lower then [] else [(name, value)] := by
    rw [List.filter_append, h.forwarded, List.filter_singleton, isForwarded, hlower]
    cases READ.contains lower <;> cases DROPPED.contains lower <;> rfl
  split_ifs at hadd with hauth hsome hhost hsome hlength hsome htransfer hdropped
  · cases hadd
    have hnone : headers.authorization = none := by simpa using hsome
    refine ⟨?_, ?_, ?_, ?_, ?_, hall⟩ <;> simp [hsnoc, hforward, h.authorization, h.host, h.contentLength,
      h.transferEncoding, hauth, hnone, READ]
  · cases hadd
    have hnone : headers.host = none := by simpa using hsome
    refine ⟨?_, ?_, ?_, ?_, ?_, hall⟩ <;> simp [hsnoc, hforward, h.authorization, h.host, h.contentLength,
      h.transferEncoding, hhost, hnone, READ]
  · have hnone : headers.contentLength = none := by simpa using hsome
    cases hread : readLength value with
    | none =>
      rw [hread] at hadd
      cases hadd
    | some length =>
      rw [hread] at hadd
      cases hadd
      refine ⟨?_, ?_, ?_, ?_, ?_, hall⟩ <;> simp [hsnoc, hforward, h.authorization, h.host, h.contentLength,
        h.transferEncoding, hlength, hnone, hread, READ]
  · cases hadd
    refine ⟨?_, ?_, ?_, ?_, ?_, hall⟩ <;> simp [hsnoc, hforward, h.authorization, h.host, h.contentLength,
      h.transferEncoding, hauth, hhost, hlength, htransfer, List.contains_iff_mem.mp hdropped]
  · cases hadd
    have hread : READ.contains lower = false := by simp [READ, hauth, hhost, hlength, htransfer]
    have hnot : DROPPED.contains lower = false := by simpa using hdropped
    refine ⟨?_, ?_, ?_, ?_, ?_, hall⟩
    · simp [hsnoc, h.authorization, hauth]
    · simp [hsnoc, h.host, hhost]
    · simp [hsnoc, h.contentLength, hlength]
    · simp [hsnoc, h.transferEncoding, htransfer]
    · rw [hforward, hread, hnot]
      rfl

/-- One turn of the loop reads one field. -/
theorem headerLine_field {headers added : Headers} {line : List Char} (h : headerLine headers line = .ok added) :
    ∃ field, HttpHead.field line = some field ∧ CleanField field ∧ headers.add field.1 field.2 = .ok added := by
  rw [headerLine] at h
  split_ifs at h with hfold
  cases hfield : HttpHead.field line with
  | none =>
    rw [hfield] at h
    cases h
  | some field =>
    obtain ⟨name, value⟩ := field
    rw [hfield] at h
    dsimp only at h
    split_ifs at h with hname hvalue
    refine ⟨(name, value), rfl, ?_, h⟩
    rw [Bool.or_eq_true, not_or, Bool.not_eq_true', Bool.not_eq_false, List.all_eq_true] at hname
    obtain ⟨pair, -, hpair⟩ := Option.map_eq_some_iff.mp hfield
    have htrim : value = Text.trim pair.2 := (congrArg Prod.snd hpair).symm
    exact ⟨by simpa using hname.1, hname.2, by simpa using hvalue, by rw [htrim, Text.trim_trim]⟩

/-- What is read of all header lines. -/
theorem foldlM_headerLine {headers read : Headers} {fields : List (String × String)} {lines : List (List Char)}
    (h : headers.Say fields) (hread : lines.foldlM headerLine headers = .ok read) :
    ∃ more, lines.mapM HttpHead.field = some more ∧ read.Say (fields ++ more) := by
  induction lines generalizing headers fields with
  | nil =>
    cases hread
    exact ⟨[], rfl, by rwa [List.append_nil]⟩
  | cons line lines ih =>
    rw [List.foldlM_cons] at hread
    cases hline : headerLine headers line with
    | error failure =>
      rw [hline] at hread
      cases hread
    | ok added =>
      rw [hline] at hread
      obtain ⟨field, hfield, hclean, hadd⟩ := headerLine_field hline
      obtain ⟨more, hmore, hsay⟩ := ih (h.add hclean hadd) hread
      refine ⟨field :: more, ?_, by rwa [List.append_cons]⟩
      rw [List.mapM_cons, hfield, hmore]
      rfl

/-! ### What a head that passed says -/

theorem foldl_or_eq_zero {α : Type} (f : α → ℕ) (l : List α) (n : ℕ) :
    l.foldl (fun d a => d ||| f a) n = 0 ↔ n = 0 ∧ ∀ a ∈ l, f a = 0 := by
  induction l generalizing n with
  | nil => simp
  | cons a l ih => rw [List.foldl_cons, ih, Nat.or_eq_zero_iff, List.forall_mem_cons, and_assoc]

/-- The comparison that takes the same time for all credentials of a length is equality. -/
theorem constantTimeEq_iff (left right : List UInt8) : constantTimeEq left right = true ↔ left = right := by
  rw [constantTimeEq, decide_eq_true_eq, foldl_or_eq_zero, Nat.xor_eq_zero_iff]
  constructor
  · rintro ⟨hlength, hbytes⟩
    refine List.ext_getElem hlength fun index hl hr => ?_
    have hbyte := hbytes index (List.mem_range.mpr (lt_max_of_lt_left hl))
    rw [← UInt8.toNat_zero, UInt8.toNat_inj, UInt8.xor_eq_zero_iff] at hbyte
    rwa [List.getD_eq_getElem _ _ hl, List.getD_eq_getElem _ _ hr] at hbyte
  · rintro rfl
    refine ⟨rfl, fun index _ => ?_⟩
    rw [← UInt8.toNat_zero, UInt8.toNat_inj, UInt8.xor_eq_zero_iff]

/-- A request line has three words, the method a token. -/
theorem requestLine_split {line : List Char} {words : RequestLine} (h : requestLine line = .ok words) :
    Text.split ' ' (String.ofList line) = [words.method, words.target, words.version] ∧
      words.method ≠ "" ∧ (∀ c ∈ words.method.toList, isToken c = true) ∧
      (words.version = "HTTP/1.0" ∨ words.version = "HTTP/1.1") := by
  rw [requestLine] at h
  cases hsplit : Text.split ' ' (String.ofList line) with
  | nil =>
    rw [hsplit] at h
    cases h
  | cons method parts =>
    rw [hsplit] at h
    dsimp only at h
    split_ifs at h with hempty htoken
    match parts, h with
    | target :: version :: more, h =>
      dsimp only at h
      split_ifs at h with hversion hmore
      cases h
      simp only [Bool.or_eq_true, Bool.not_eq_true', decide_eq_true_eq, not_or, Bool.not_eq_false,
        List.isEmpty_iff] at hmore
      obtain rfl := hmore.1
      refine ⟨rfl, hempty, by simpa using htoken, ?_⟩
      by_contra hneither
      rw [not_or] at hneither
      exact hversion (by simp [hneither.1, hneither.2])

/-- The target of a request is an absolute URI whose authority is local. -/
theorem requestTarget_spec {uris : UriParser} {text : String} {target : RequestTarget}
    (h : requestTarget uris text = .ok target) :
    uris.parse text = some target.uri ∧ target.uri.scheme = some "http" ∧
      target.uri.authority = some target.authority ∧
      authorityTarget target.authority = some (target.host, target.port) := by
  rw [requestTarget] at h
  cases hparse : uris.parse text with
  | none =>
    rw [hparse] at h
    cases h
  | some uri =>
    rw [hparse] at h
    dsimp only at h
    split_ifs at h with hscheme
    cases hauthority : uri.authority with
    | none =>
      rw [hauthority] at h
      cases h
    | some authority =>
      rw [hauthority] at h
      dsimp only at h
      split_ifs at h with hcredentials
      cases htarget : authorityTarget authority with
      | none =>
        rw [htarget] at h
        cases h
      | some found =>
        rw [htarget] at h
        cases h
        exact ⟨rfl, not_not.mp hscheme, hauthority, htarget⟩

/-- A `Host` header stands for the host and port of its authority. -/
theorem hostTarget_spec {uris : UriParser} {value : String} {found : String × U16}
    (h : hostTarget uris value = .ok found) :
    ∃ uri authority, uris.parse ("http://" ++ value ++ "/") = some uri ∧ uri.authority = some authority ∧
      authorityTarget authority = some found := by
  rw [hostTarget] at h
  cases hparse : uris.parse ("http://" ++ value ++ "/") with
  | none =>
    rw [hparse] at h
    cases h
  | some uri =>
    rw [hparse] at h
    dsimp only at h
    cases hauthority : uri.authority with
    | none =>
      rw [hauthority] at h
      cases h
    | some authority =>
      rw [hauthority] at h
      dsimp only at h
      split_ifs at h with hcredentials
      cases htarget : authorityTarget authority with
      | none =>
        rw [htarget] at h
        cases h
      | some target =>
        rw [htarget] at h
        cases h
        exact ⟨uri, authority, rfl, hauthority, htarget⟩

theorem listenerDestination_spec {listener : Listener} {target : RequestTarget} {slot : RouteSlotId}
    (h : listenerDestination listener target = .ok slot) :
    ∃ destination, listener.destinations.filter (matchesTarget target.host target.port) = [destination] ∧
      destination.slot = slot := by
  rw [listenerDestination] at h
  split at h
  · next destination hfilter =>
    cases h
    exact ⟨destination, hfilter, rfl⟩
  · cases h

/-- What is true of a head that passed every check, of its first line and its fields. -/
structure Checked (uris : UriParser) (listener : Listener) (expected : List UInt8) (first : List Char)
    (fields : List (String × String)) (head : RequestHead) : Prop where
  line : requestLine first = .ok head.line
  target : requestTarget uris head.line.target = .ok head.target
  headers : head.headers.Say fields
  authorization : ∃ value, head.headers.authorization = some value ∧ Utf8.encode value.toList = expected
  host : ∃ value, head.headers.host = some value ∧ hostTarget uris value = .ok (head.target.host, head.target.port)
  destination : listenerDestination listener head.target = .ok head.destination

theorem checkHead_spec {uris : UriParser} {listener : Listener} {expected : List UInt8} {lines : List (List Char)}
    {head : RequestHead} (h : checkHead uris listener expected lines = .ok head) :
    ∃ first rest fields, lines = first :: rest ∧ rest.mapM HttpHead.field = some fields ∧
      Checked uris listener expected first fields head := by
  cases lines with
  | nil => cases h
  | cons first rest =>
    rw [checkHead] at h
    obtain ⟨line, hline, h⟩ := bind_eq_ok_iff.mp h
    obtain ⟨target, htarget, h⟩ := bind_eq_ok_iff.mp h
    obtain ⟨headers, hheaders, h⟩ := bind_eq_ok_iff.mp h
    obtain ⟨_, hauthorization, h⟩ := bind_eq_ok_iff.mp h
    obtain ⟨_, hhost, h⟩ := bind_eq_ok_iff.mp h
    obtain ⟨destination, hdestination, h⟩ := bind_eq_ok_iff.mp h
    split_ifs at h with hlong
    cases h
    obtain ⟨fields, hfields, hsay⟩ := foldlM_headerLine Headers.say_empty hheaders
    refine ⟨first, rest, fields, rfl, hfields, hline, htarget, hsay, ?_, ?_, hdestination⟩
    · rw [checkAuthorization] at hauthorization
      cases hsupplied : headers.authorization with
      | none =>
        rw [hsupplied] at hauthorization
        cases hauthorization
      | some value =>
        rw [hsupplied] at hauthorization
        dsimp only at hauthorization
        split_ifs at hauthorization with hequal
        exact ⟨value, rfl, (constantTimeEq_iff _ _).mp hequal⟩
    · rw [checkHost] at hhost
      cases hvalue : headers.host with
      | none =>
        rw [hvalue] at hhost
        cases hhost
      | some value =>
        rw [hvalue] at hhost
        obtain ⟨found, hfound, hsame⟩ := bind_eq_ok_iff.mp hhost
        split_ifs at hsame with hdiffers
        exact ⟨value, rfl, not_not.mp hdiffers ▸ hfound⟩

/-! ### Messages -/

/-- A message: its first line, its header fields, and what follows its head. -/
structure Message where
  first : List Char
  fields : List (String × String)
  body : List UInt8
  deriving DecidableEq

/-- The message with some lines in its head. -/
def messageOf (body : List UInt8) : List (List Char) → Option Message
  | [] => none
  | first :: rest => (rest.mapM HttpHead.field).map fun fields => ⟨first, fields, body⟩

/-- The message some bytes are. -/
def readMessage (bytes : List UInt8) : Option Message :=
  (HttpHead.readHead bytes).bind fun (lines, body) => messageOf body lines

/-- The length of the body a message declares, unless what it declares is no length. -/
def Message.bodyLength (message : Message) : Option ℕ :=
  match valuesOf "content-length" message.fields with
  | [] => some 0
  | [value] => (readLength value).map Fin.val
  | _ => none

/-- The fields of the head that is sent on. -/
def RequestHead.upstreamFields (head : RequestHead) : List (String × String) :=
  head.headers.forwarded ++ ("Host", head.target.authority.text) ::
    ((head.headers.contentLength.map fun length => ("Content-Length", toString length.val)).toList ++
      [("Connection", "close")])

/-- The path of the head that is sent on. -/
def RequestHead.path (head : RequestHead) : String := head.target.uri.pathAndQuery.getD "/"

section

variable {uris : UriParser} {listener : Listener} {expected : List UInt8} {first : List Char}
  {fields : List (String × String)} {head : RequestHead}

theorem upstreamLines_eq (h : head.headers.Say fields) :
    head.upstreamLines = (head.line.method ++ " " ++ head.path ++ " " ++ head.line.version).toList ::
      head.upstreamFields.map fun field => fieldLine field.1 field.2 := by
  have hfilter : (head.headers.forwarded.filter fun (name, _) => Text.toAsciiLowercase name ≠ "host" &&
      Text.toAsciiLowercase name ≠ "content-length") = head.headers.forwarded := by
    rw [h.forwarded, List.filter_eq_self]
    intro field hfield
    have hforward := (List.mem_filter.mp hfield).2
    rw [isForwarded, Bool.and_eq_true, Bool.not_eq_true'] at hforward
    have hread := hforward.1
    simp only [READ, List.contains_eq_mem, decide_eq_false_iff_not, List.mem_cons, List.not_mem_nil, or_false,
      not_or] at hread
    simp [hread.2.1, hread.2.2.1]
  rw [RequestHead.upstreamLines, RequestHead.upstreamFields, hfilter]
  cases head.headers.contentLength <;> simp [RequestHead.path]

theorem isControl_of_visible {c : Char} (h : 0x20 < c.toNat) (h' : c.toNat ≠ 0x7f) : isControl c = false := by
  simp only [isControl, h', decide_false, Bool.false_or, Bool.and_eq_false_iff, decide_eq_false_iff_not]
  omega

theorem isWhitespace_of_visible {c : Char} (h : 0x20 < c.toNat) (h' : c.toNat < 0x7f) :
    Text.isWhitespace c = false := by
  have hne : ∀ d : Char, d.toNat ≤ 0x20 ∨ 0x7f ≤ d.toNat → c ≠ d := by
    rintro d hd rfl
    omega
  have hle : ∀ d e : Char, e.toNat ≤ 0x20 ∨ 0x7f ≤ d.toNat → ¬ (d ≤ c ∧ c ≤ e) := by
    rintro d e hd ⟨hdc, hce⟩
    have := UInt32.le_iff_toNat_le.mp (Char.le_def.mp hdc)
    have := UInt32.le_iff_toNat_le.mp (Char.le_def.mp hce)
    simp only [Char.toNat] at *
    omega
  simp only [Text.isWhitespace, Bool.or_eq_false_iff, decide_eq_false_iff_not, ← Bool.decide_and, decide_eq_false_iff_not]
  refine ⟨⟨⟨⟨⟨⟨⟨⟨⟨⟨?_, ?_⟩, ?_⟩, ?_⟩, ?_⟩, ?_⟩, ?_⟩, ?_⟩, ?_⟩, ?_⟩, ?_⟩
  all_goals first
    | exact hne _ (by decide)
    | exact hle _ _ (by decide)

/-- A header whose value is visible ASCII can be written. -/
theorem cleanField_of_visible {name value : String} (hne : name ≠ "") (hname : ∀ c ∈ name.toList, isToken c = true)
    (hvalue : ∀ c ∈ value.toList, 0x20 < c.toNat ∧ c.toNat < 0x7f) : CleanField (name, value) := by
  refine ⟨hne, hname, fun c hc => ?_, Text.trim_of_not_whitespace fun c hc => ?_⟩
  · exact isControl_of_visible (hvalue c hc).1 (hvalue c hc).2.ne
  · exact isWhitespace_of_visible (hvalue c hc).1 (hvalue c hc).2

theorem visible_of_isDigit {c : Char} (h : c.isDigit = true) : 0x20 < c.toNat ∧ c.toNat < 0x7f := by
  rw [Char.isDigit, Bool.and_eq_true, decide_eq_true_eq, decide_eq_true_eq] at h
  have := UInt32.le_iff_toNat_le.mp h.1
  have := UInt32.le_iff_toNat_le.mp h.2
  simp only [Char.toNat] at *
  simp at *
  omega

/-- Every field that is sent on can be written on a line of its own. -/
theorem cleanField_upstream (hsay : head.headers.Say fields)
    (htarget : requestTarget uris head.line.target = .ok head.target) :
    ∀ field ∈ head.upstreamFields, CleanField field := by
  obtain ⟨hparse, -, hauthority, -⟩ := requestTarget_spec htarget
  have hvisible := uris.authority_visible hparse hauthority
  intro field hfield
  rw [RequestHead.upstreamFields, List.mem_append, List.mem_cons, List.mem_append] at hfield
  rcases hfield with hforward | rfl | hlength | hconnection
  · rw [hsay.forwarded] at hforward
    exact hsay.clean field (List.mem_of_mem_filter hforward)
  · exact cleanField_of_visible (by decide) (List.all_eq_true.mp (by decide)) hvisible
  · obtain ⟨length, -, rfl⟩ := Option.map_eq_some_iff.mp (Option.mem_toList.mp hlength)
    refine cleanField_of_visible (by decide) (List.all_eq_true.mp (by decide)) fun c hc => visible_of_isDigit ?_
    rw [show (toString length.val).toList = Nat.toDigits 10 length.val from Nat.toList_repr] at hc
    exact Nat.isDigit_of_mem_toDigits (by decide) (by decide) hc
  · obtain rfl := List.mem_singleton.mp hconnection
    refine cleanField_of_visible (by decide) (List.all_eq_true.mp (by decide)) fun c hc => ?_
    have hvisible : "close".toList.all (fun c => 0x20 < c.toNat && c.toNat < 0x7f) = true := by decide
    simpa using List.all_eq_true.mp hvisible c hc

theorem isLine_fieldLine {field : String × String} (h : CleanField field) :
    HttpHead.IsLine (fieldLine field.1 field.2) := by
  have hlist : fieldLine field.1 field.2 = field.1.toList ++ ':' :: ' ' :: field.2.toList := by simp [fieldLine]
  rw [hlist]
  refine ⟨by simp, fun hmem => ?_⟩
  rcases List.mem_append.mp hmem with hname | hrest
  · exact absurd (h.name_token _ hname) (by decide)
  · rcases List.mem_cons.mp hrest with heq | hrest
    · cases heq
    · rcases List.mem_cons.mp hrest with heq | hvalue
      · cases heq
      · exact absurd (h.value_control _ hvalue) (by decide)

theorem mapM_field_fieldLine {fields : List (String × String)} (h : ∀ field ∈ fields, CleanField field) :
    (fields.map fun field => fieldLine field.1 field.2).mapM HttpHead.field = some fields := by
  induction fields with
  | nil => rfl
  | cons field fields ih =>
    have hclean := h field (List.mem_cons_self ..)
    have hcolon : ':' ∉ field.1.toList := fun hmem => absurd (hclean.name_token _ hmem) (by decide)
    rw [List.map_cons, List.mapM_cons, HttpHead.field_line hcolon hclean.value_trim,
      ih fun f hf => h f (List.mem_cons_of_mem _ hf)]
    rfl

/-- The first line of the head that is sent on has three words. -/
theorem split_upstream_first (h : Checked uris listener expected first fields head) :
    Text.split ' ' (head.line.method ++ " " ++ head.path ++ " " ++ head.line.version) =
      [head.line.method, head.path, head.line.version] := by
  obtain ⟨-, -, hmethod, hversion⟩ := requestLine_split h.line
  obtain ⟨hparse, -, -, -⟩ := requestTarget_spec h.target
  have hm : ' ' ∉ head.line.method.toList := fun hmem => absurd (hmethod _ hmem) (by decide)
  have hp : ' ' ∉ head.path.toList := by
    rw [RequestHead.path]
    cases hpath : head.target.uri.pathAndQuery with
    | none => decide
    | some path => exact fun hmem => absurd (uris.path_visible hparse hpath _ hmem) (by decide)
  have hv : ' ' ∉ head.line.version.toList := by
    rcases hversion with hversion | hversion <;> rw [hversion] <;> decide
  have hlist : (head.line.method ++ " " ++ head.path ++ " " ++ head.line.version).toList =
      head.line.method.toList ++ ' ' :: (head.path.toList ++ ' ' :: head.line.version.toList) := by simp
  rw [Text.split, hlist, Text.splitChars_append_cons, Text.splitChars_append_cons, Text.splitChars_of_not_mem hm,
    Text.splitChars_of_not_mem hp, Text.splitChars_of_not_mem hv]
  simp

theorem isLine_upstream_first (h : Checked uris listener expected first fields head) :
    HttpHead.IsLine (head.line.method ++ " " ++ head.path ++ " " ++ head.line.version).toList := by
  obtain ⟨-, -, hmethod, hversion⟩ := requestLine_split h.line
  obtain ⟨hparse, -, -, -⟩ := requestTarget_spec h.target
  refine ⟨by simp, fun hmem => ?_⟩
  simp only [String.toList_append, List.mem_append] at hmem
  rcases hmem with (((hmem | hmem) | hmem) | hmem) | hmem
  · exact absurd (hmethod _ hmem) (by decide)
  · exact absurd hmem (by decide)
  · rw [RequestHead.path] at hmem
    cases hpath : head.target.uri.pathAndQuery with
    | none =>
      rw [hpath] at hmem
      exact absurd hmem (by decide)
    | some path =>
      rw [hpath] at hmem
      exact absurd (uris.path_visible hparse hpath _ hmem) (by decide)
  · exact absurd hmem (by decide)
  · rcases hversion with hversion | hversion <;> rw [hversion] at hmem <;> exact absurd hmem (by decide)

/-- What is sent on is read as one message. -/
theorem readMessage_upstream (h : Checked uris listener expected first fields head) (body : List UInt8) :
    readMessage (head.upstreamHead ++ body) =
      some ⟨(head.line.method ++ " " ++ head.path ++ " " ++ head.line.version).toList, head.upstreamFields, body⟩ := by
  have hclean := cleanField_upstream h.headers h.target
  have hlines : ∀ line ∈ head.upstreamLines, HttpHead.IsLine line := by
    intro line hline
    rw [upstreamLines_eq h.headers] at hline
    rcases List.mem_cons.mp hline with rfl | hline
    · exact isLine_upstream_first h
    · obtain ⟨field, hfield, rfl⟩ := List.mem_map.mp hline
      exact isLine_fieldLine (hclean field hfield)
  have hne : head.upstreamLines ≠ [] := by
    rw [upstreamLines_eq h.headers]
    exact List.cons_ne_nil _ _
  rw [readMessage, RequestHead.upstreamHead, HttpHead.readHead_render hne hlines, Option.bind_some,
    upstreamLines_eq h.headers]
  dsimp only [messageOf]
  rw [mapM_field_fieldLine hclean, Option.map_some]

/-- The values of a name in the head that is sent on. -/
theorem valuesOf_upstream (h : head.headers.Say fields) (name : String)
    (hname : READ.contains name = true ∨ DROPPED.contains name = true) :
    valuesOf name head.upstreamFields =
      (if "host" = name then [head.target.authority.text] else []) ++
      ((if "content-length" = name then (head.headers.contentLength.map fun length => toString length.val).toList
        else []) ++ if "connection" = name then ["close"] else []) := by
  have hforward : valuesOf name head.headers.forwarded = [] := by
    refine valuesOf_eq_nil fun field hfield hlower => ?_
    rw [h.forwarded] at hfield
    have hkept := (List.mem_filter.mp hfield).2
    rw [isForwarded, hlower, Bool.and_eq_true, Bool.not_eq_true', Bool.not_eq_true'] at hkept
    rcases hname with hname | hname
    · rw [hname] at hkept
      exact absurd hkept.1 (by decide)
    · rw [hname] at hkept
      exact absurd hkept.2 (by decide)
  have hhost : Text.toAsciiLowercase "Host" = "host" := by decide
  have hlength : Text.toAsciiLowercase "Content-Length" = "content-length" := by decide
  have hconnection : Text.toAsciiLowercase "Connection" = "connection" := by decide
  rw [RequestHead.upstreamFields, valuesOf_append, hforward, List.nil_append, valuesOf_cons, hhost, valuesOf_append,
    valuesOf_cons, hconnection, valuesOf_nil, List.append_nil]
  cases head.headers.contentLength with
  | none => simp [valuesOf_nil]
  | some length => simp [valuesOf_cons, valuesOf_nil, hlength]

end

/-! ### Accepted requests -/

/-- The absolute URI of a request is for a host and port. -/
def Message.Wants (uris : UriParser) (message : Message) (host : String) (port : U16) : Prop :=
  ∃ method target version uri authority,
    Text.split ' ' (String.ofList message.first) = [method, target, version] ∧ uris.parse target = some uri ∧
      uri.scheme = some "http" ∧ uri.authority = some authority ∧ authorityTarget authority = some (host, port)

/-- A request has one `Host` header, which stands for a host and port. -/
def Message.Names (uris : UriParser) (message : Message) (host : String) (port : U16) : Prop :=
  ∃ value uri authority, valuesOf "host" message.fields = [value] ∧
    uris.parse ("http://" ++ value ++ "/") = some uri ∧ uri.authority = some authority ∧
      authorityTarget authority = some (host, port)

/-- A request that may be sent on, to a slot of a listener. -/
structure Accepted (uris : UriParser) (listener : Listener) (expected : List UInt8) (message : Message)
    (slot : RouteSlotId) : Prop where
  authorization : ∃ value, valuesOf "proxy-authorization" message.fields = [value] ∧ Utf8.encode value.toList = expected
  destination : ∃ host port destination, message.Wants uris host port ∧ message.Names uris host port ∧
    listener.destinations.filter (matchesTarget host port) = [destination] ∧ destination.slot = slot
  transferEncoding : valuesOf "transfer-encoding" message.fields = []
  contentLength : (valuesOf "content-length" message.fields).length ≤ 1

/-- A message that is sent on for a request whose body has a length. -/
structure Forwards (message : Message) (length : ℕ) (upstream : Message) : Prop where
  requestLine : ∃ method target version path,
    Text.split ' ' (String.ofList message.first) = [method, target, version] ∧
      Text.split ' ' (String.ofList upstream.first) = [method, path, version]
  authorization : valuesOf "proxy-authorization" upstream.fields = []
  transferEncoding : valuesOf "transfer-encoding" upstream.fields = []
  dropped : ∀ name ∈ DROPPED, name ≠ "connection" → valuesOf name upstream.fields = []
  connection : valuesOf "connection" upstream.fields = ["close"]
  host : ∃ value, valuesOf "host" upstream.fields = [value]
  contentLength : (valuesOf "content-length" upstream.fields).length ≤ 1
  bodyLength : upstream.bodyLength = some length
  body : upstream.body = message.body.take length

section

variable {uris : UriParser} {listener : Listener} {expected : List UInt8} {first : List Char}
  {fields : List (String × String)} {head : RequestHead}

/-- The body a head that passed declares is the one that is read of it. -/
theorem bodyLength_checked (h : head.headers.Say fields) (body : List UInt8) :
    (Message.mk first fields body).bodyLength = some head.headers.bodyLength := by
  have hlength := h.contentLength
  rw [Message.bodyLength, Headers.bodyLength]
  cases hvalue : head.headers.contentLength with
  | none =>
    rw [hvalue, Option.toList_none, List.map_nil, List.map_eq_nil_iff] at hlength
    dsimp only
    rw [hlength]
    rfl
  | some length =>
    rw [hvalue, Option.toList_some, List.map_singleton, List.map_eq_singleton_iff] at hlength
    obtain ⟨value, hvalues, hread⟩ := hlength
    dsimp only
    rw [hvalues]
    dsimp only
    rw [hread]
    rfl

theorem accepted_checked (h : Checked uris listener expected first fields head) (body : List UInt8) :
    Accepted uris listener expected ⟨first, fields, body⟩ head.destination := by
  obtain ⟨hsplit, -⟩ := requestLine_split h.line
  obtain ⟨hparse, hscheme, hauthority, htarget⟩ := requestTarget_spec h.target
  obtain ⟨credential, hcredential, hexpected⟩ := h.authorization
  obtain ⟨value, hvalue, hhost⟩ := h.host
  obtain ⟨uri, authority, hhostParse, hhostAuthority, hhostTarget⟩ := hostTarget_spec hhost
  obtain ⟨destination, hfilter, hslot⟩ := listenerDestination_spec h.destination
  refine ⟨⟨credential, ?_, hexpected⟩, ⟨head.target.host, head.target.port, destination, ?_, ?_, hfilter, hslot⟩,
    h.headers.transferEncoding, ?_⟩
  · rw [h.headers.authorization, hcredential, Option.toList_some]
  · exact ⟨_, _, _, head.target.uri, head.target.authority, hsplit, hparse, hscheme, hauthority, htarget⟩
  · exact ⟨value, uri, authority, by rw [h.headers.host, hvalue, Option.toList_some], hhostParse, hhostAuthority,
      hhostTarget⟩
  · have hcount := congrArg List.length h.headers.contentLength
    rw [List.length_map, List.length_map] at hcount
    rw [hcount]
    exact Option.length_toList_le

theorem forwards_checked (h : Checked uris listener expected first fields head) (body : List UInt8) :
    Forwards ⟨first, fields, body⟩ head.headers.bodyLength
      ⟨(head.line.method ++ " " ++ head.path ++ " " ++ head.line.version).toList, head.upstreamFields,
        body.take head.headers.bodyLength⟩ := by
  obtain ⟨hsplit, -⟩ := requestLine_split h.line
  have hvalues := valuesOf_upstream h.headers
  refine ⟨⟨_, _, _, head.path, hsplit, ?_⟩, ?_, ?_, ?_, ?_, ?_, ?_, ?_, rfl⟩
  · rw [String.ofList_toList, split_upstream_first h]
  · rw [hvalues _ (by decide)]
    rfl
  · rw [hvalues _ (by decide)]
    rfl
  · intro name hname hne
    rw [hvalues _ (Or.inr (List.contains_iff_mem.mpr hname))]
    simp only [DROPPED, List.mem_cons, List.not_mem_nil, or_false] at hname
    rcases hname with rfl | rfl | rfl | rfl | rfl | rfl
    · exact absurd rfl hne
    all_goals rfl
  · rw [hvalues _ (by decide)]
    rfl
  · exact ⟨head.target.authority.text, hvalues "host" (by decide)⟩
  · rw [hvalues _ (by decide)]
    cases head.headers.contentLength <;> simp
  · have hlength : valuesOf "content-length" head.upstreamFields =
        (head.headers.contentLength.map fun length => toString length.val).toList := by
      rw [hvalues _ (by decide)]
      simp
    rw [Message.bodyLength, hlength, Headers.bodyLength]
    cases head.headers.contentLength with
    | none => rfl
    | some length =>
      simp only [Option.map_some, Option.toList_some, readLength]
      rw [Codec.readUnsigned_toString]
      rfl

end

/-! ### Requests -/

/-- What a client's stream comes to, whatever its reads are: the destination and the bytes
that are sent on. -/
def outcome (uris : UriParser) (listener : Listener) (expected : List UInt8) (failed : Bool) (bytes : List UInt8) :
    Except ProxyFailure (RouteSlotId × List UInt8) := do
  let stop ← headEnd failed bytes
  let text ← headText ⟨bytes, stop, []⟩
  let head ← checkHead uris listener expected (headLines text)
  return (head.destination, head.upstreamHead ++ (bytes.drop stop).take head.headers.bodyLength)

/-- What is left of a stream after its head, of which a part was read with the head. -/
theorem drop_headerEnd {client : Client} {collected : Collected} (h : readRequestHead client = .ok collected) :
    client.bytes.take collected.headerEnd = collected.bytes.take collected.headerEnd ∧
      client.bytes.drop collected.headerEnd =
        collected.bytes.drop collected.headerEnd ++ collected.rest.flatten := by
  obtain ⟨hbytes, hblank, -⟩ := (readRequestHead_spec client).2 collected h
  have hle := (HttpHead.blankEnd_bounds hblank).2
  rw [← hbytes]
  exact ⟨List.take_append_of_le_length hle, List.drop_append_of_le_length hle⟩

/-- What is written for a request is the head that is sent on, and of all that comes after the
head as much as the body is long. -/
theorem written_buffered {head : RequestHead} {collected : Collected} {request : ParsedRequest}
    (h : buffered head collected = .ok request) :
    request.destination = head.destination ∧
      request.written = head.upstreamHead ++
        (collected.bytes.drop collected.headerEnd ++ collected.rest.flatten).take head.headers.bodyLength := by
  rw [buffered] at h
  split_ifs at h with hlong
  cases h
  refine ⟨rfl, ?_⟩
  rw [ParsedRequest.written, List.take_append, List.take_of_length_le (not_lt.mp hlong), List.append_assoc]

/-- The text of a head is the same in the part that was read with it and in the stream. -/
theorem headText_stream {client : Client} {collected : Collected} (h : readRequestHead client = .ok collected) :
    headText ⟨client.bytes, collected.headerEnd, []⟩ = headText collected := by
  rw [headText, headText, (drop_headerEnd h).1]

/-- A stream whose head passes is a message with this head. -/
theorem readMessage_checked {uris : UriParser} {listener : Listener} {expected : List UInt8} {client : Client}
    {collected : Collected} {text : List Char} {head : RequestHead} (hcollected : readRequestHead client = .ok collected)
    (htext : headText collected = .ok text) (hhead : checkHead uris listener expected (headLines text) = .ok head) :
    ∃ first fields, blankEnd client.bytes = some collected.headerEnd ∧ collected.headerEnd ≤ MAX_HEADER_BYTES ∧
      readMessage client.bytes =
        some ⟨first, fields, collected.bytes.drop collected.headerEnd ++ collected.rest.flatten⟩ ∧
      Checked uris listener expected first fields head := by
  obtain ⟨hbytes, hblank, hlimit⟩ := (readRequestHead_spec client).2 collected hcollected
  obtain ⟨htake, hdrop⟩ := drop_headerEnd hcollected
  obtain ⟨first, rest, fields, hlines, hfields, hchecked⟩ := checkHead_spec hhead
  have hstop : blankEnd client.bytes = some collected.headerEnd := by
    rw [← hbytes]
    exact HttpHead.blankEnd_append hblank _
  have hdecode : Utf8.decode (client.bytes.take collected.headerEnd) = some text := by
    rw [htake]
    rw [headText] at htext
    split at htext
    · cases htext
    · next decoded hdecoded =>
      cases htext
      exact hdecoded
  refine ⟨first, fields, hstop, hlimit, ?_, hchecked⟩
  rw [readMessage, HttpHead.readHead, hstop]
  dsimp only
  rw [hdecode, Option.map_some, Option.bind_some, hlines, hdrop]
  dsimp only [messageOf]
  rw [hfields, Option.map_some]

/-- A request that is accepted has a head that passed, and what is written for it is the head
that is sent on with the body. -/
theorem parseRequest_steps {uris : UriParser} {listener : Listener} {expected : List UInt8} {client : Client}
    {request : ParsedRequest} (h : parseRequest uris listener expected client = .ok request) :
    ∃ stop first fields body head, blankEnd client.bytes = some stop ∧ stop ≤ MAX_HEADER_BYTES ∧
      readMessage client.bytes = some ⟨first, fields, body⟩ ∧ Checked uris listener expected first fields head ∧
        request.destination = head.destination ∧
          request.written = head.upstreamHead ++ body.take head.headers.bodyLength := by
  obtain ⟨collected, hcollected, h⟩ := bind_eq_ok_iff.mp h
  obtain ⟨text, htext, h⟩ := bind_eq_ok_iff.mp h
  obtain ⟨head, hhead, h⟩ := bind_eq_ok_iff.mp h
  obtain ⟨first, fields, hstop, hlimit, hread, hchecked⟩ := readMessage_checked hcollected htext hhead
  obtain ⟨hdestination, hwritten⟩ := written_buffered h
  exact ⟨_, first, fields, _, head, hstop, hlimit, hread, hchecked, hdestination, hwritten⟩

/-- A stream that has nothing after the body it declares. -/
def EndsWithBody (bytes : List UInt8) : Prop :=
  ∀ message length, readMessage bytes = some message → message.bodyLength = some length →
    message.body.length ≤ length

/-- What a stream with nothing after its body comes to does not depend on its reads. -/
theorem parseRequest_outcome (uris : UriParser) (listener : Listener) (expected : List UInt8) {client : Client}
    (hend : EndsWithBody client.bytes) :
    (parseRequest uris listener expected client).map (fun request => (request.destination, request.written)) =
      outcome uris listener expected client.failed client.bytes := by
  rw [outcome, ← (readRequestHead_spec client).1, parseRequest]
  cases hcollected : readRequestHead client with
  | error failure => rfl
  | ok collected =>
    simp only [Except.map, bind, Except.bind]
    rw [headText_stream hcollected, (drop_headerEnd hcollected).2]
    cases htext : headText collected with
    | error failure => rfl
    | ok text =>
      dsimp only
      cases hhead : checkHead uris listener expected (headLines text) with
      | error failure => rfl
      | ok head =>
        obtain ⟨first, fields, -, -, hread, hchecked⟩ := readMessage_checked hcollected htext hhead
        have hlength := hend _ _ hread (bodyLength_checked hchecked.headers _)
        dsimp only
        cases hbuffered : buffered head collected with
        | error failure =>
          -- what was read with the head is no longer than the body
          rw [buffered, if_neg] at hbuffered
          · cases hbuffered
          · rw [List.length_append] at hlength
            omega
        | ok request =>
          obtain ⟨hdestination, hwritten⟩ := written_buffered hbuffered
          dsimp only
          rw [hdestination, hwritten]
          rfl

/-- Two clients that send the same bytes are served the same. -/
theorem serve_congr (uris : UriParser) (connect : String → Bool) (listener : Listener) (snapshot : CompiledSnapshot)
    (expected : List UInt8) {client other : Client}
    (h : (parseRequest uris listener expected client).map (fun request => (request.destination, request.written)) =
      (parseRequest uris listener expected other).map fun request => (request.destination, request.written)) :
    serve uris connect listener snapshot expected client = serve uris connect listener snapshot expected other := by
  rw [serve, serve]
  cases hclient : parseRequest uris listener expected client with
  | error failure =>
    cases hother : parseRequest uris listener expected other with
    | error failure' =>
      rw [hclient, hother] at h
      cases h
      rfl
    | ok request =>
      rw [hclient, hother] at h
      cases h
  | ok request =>
    cases hother : parseRequest uris listener expected other with
    | error failure =>
      rw [hclient, hother] at h
      cases h
    | ok request' =>
      rw [hclient, hother] at h
      simp only [Except.map, Except.ok.injEq, Prod.mk.injEq] at h
      dsimp only
      rw [h.1, h.2]

/-- What is written upstream is what is written for the request that was accepted. -/
theorem written_serve {uris : UriParser} {connect : String → Bool} {listener : Listener} {snapshot : CompiledSnapshot}
    {expected : List UInt8} {client : Client} {request : ParsedRequest} {target : RouteTarget} {written : List UInt8}
    (h : parseRequest uris listener expected client = .ok request)
    (hserve : serve uris connect listener snapshot expected client = .ok (target, written)) :
    written = request.written := by
  rw [serve, h] at hserve
  dsimp only at hserve
  cases hidentity : listener.proxyIdentity with
  | none =>
    rw [hidentity] at hserve
    cases hserve
  | some identity =>
    rw [hidentity] at hserve
    dsimp only at hserve
    cases htarget : upstreamTarget snapshot identity request.destination with
    | error failure =>
      rw [htarget] at hserve
      cases hserve
    | ok found =>
      rw [htarget] at hserve
      dsimp only at hserve
      split_ifs at hserve with hconnect
      cases hserve
      rfl

/-- A request that is accepted has one credential, which is the expected one, names the host it
is for, and is for one destination of the listener; what is written upstream is one message
with no credential and none of the headers of one connection but the proxy's own, and with as
much of the body as was declared and came. How a request is cut into reads makes no
difference when nothing comes after its body. -/
theorem parse_request_forwards (uris : UriParser) (listener : Listener) (expected : List UInt8) (client : Client) :
    (∀ request, parseRequest uris listener expected client = .ok request →
      ∃ message length, (∃ stop, blankEnd client.bytes = some stop ∧ stop ≤ MAX_HEADER_BYTES) ∧
        readMessage client.bytes = some message ∧ message.bodyLength = some length ∧
        Accepted uris listener expected message request.destination ∧
        ∀ connect snapshot target written,
          serve uris connect listener snapshot expected client = .ok (target, written) →
            ∃ upstream, readMessage written = some upstream ∧ Forwards message length upstream) ∧
    (EndsWithBody client.bytes → ∀ other : Client, other.bytes = client.bytes → other.failed = client.failed →
      (parseRequest uris listener expected other).map (fun request => (request.destination, request.written)) =
        (parseRequest uris listener expected client).map (fun request => (request.destination, request.written)) ∧
      ∀ connect snapshot, serve uris connect listener snapshot expected other =
        serve uris connect listener snapshot expected client) := by
  refine ⟨fun request hrequest => ?_, fun hend other hbytes hfailed => ?_⟩
  · obtain ⟨stop, first, fields, body, head, hstop, hlimit, hread, hchecked, hdestination, hwritten⟩ :=
      parseRequest_steps hrequest
    refine ⟨⟨first, fields, body⟩, head.headers.bodyLength, ⟨stop, hstop, hlimit⟩, hread,
      bodyLength_checked hchecked.headers body, hdestination ▸ accepted_checked hchecked body, ?_⟩
    intro connect snapshot target written hserve
    rw [written_serve hrequest hserve, hwritten]
    exact ⟨_, readMessage_upstream hchecked _, forwards_checked hchecked body⟩
  · have hsame : (parseRequest uris listener expected other).map (fun request => (request.destination, request.written)) =
        (parseRequest uris listener expected client).map fun request => (request.destination, request.written) := by
      rw [parseRequest_outcome uris listener expected hend,
        parseRequest_outcome uris listener expected (hbytes ▸ hend), hbytes, hfailed]
    exact ⟨hsame, fun connect snapshot => serve_congr uris connect listener snapshot expected hsame⟩

/-! ### A request for a shop -/

/-- A parser of one URI. -/
def shopUris : UriParser where
  parse s :=
    if s = "http://localhost/" then some ⟨some "http", some ⟨"localhost", "localhost", none⟩, some "/"⟩ else none
  authority_visible := by
    rintro s uri authority hparse hauthority
    split_ifs at hparse
    cases hparse
    cases hauthority
    intro c hc
    have hvisible : "localhost".toList.all (fun c => 0x20 < c.toNat && c.toNat < 0x7f) = true := by decide
    simpa using List.all_eq_true.mp hvisible c hc
  path_visible := by
    rintro s uri path hparse hpath
    split_ifs at hparse
    cases hparse
    cases hpath
    intro c hc
    have hvisible : "/".toList.all (fun c => 0x20 < c.toNat) = true := by decide
    simpa using List.all_eq_true.mp hvisible c hc

/-- The proxy listener of the shop's profile. -/
def shopListener : Listener :=
  ⟨none, ⟨.localhost, 24000⟩, .http, none, [.proxyTarget "shop" "localhost" 80], some "customer",
    some ⟨.basic, ⟨"/srv/customer.credential"⟩⟩⟩

/-- The credential of the shop's profile. -/
def shopCredential : List UInt8 := Utf8.encode "Basic eDp5".toList

/-- The head of a request to the shop, with a body of five bytes. -/
def shopHead : List UInt8 :=
  Utf8.encode ("PUT http://localhost/ HTTP/1.1\r\nHost:localhost\r\nTE:\r\nProxy-Authorization:Basic eDp5\r\n" ++
    "Content-Length:5\r\n\r\n").toList

/-- A client of the shop, whose stream ends before the end of the body. -/
def shopClient : Client where
  reads := [shopHead, [104, 101]]
  failed := false
  nonempty := by decide +kernel
  short := by decide +kernel

/-- The snapshot of the shop's router. -/
def shopSnapshot : CompiledSnapshot :=
  ⟨comparisonConfig 1, "", [], [(("shop", .proxy "customer"), ⟨"shop", ⟨.http, "127.0.0.1", 7001⟩, none, false⟩)]⟩

/-- The message that is written for the client of the shop. -/
def shopWritten : Option Message :=
  (serve shopUris (fun _ => true) shopListener shopSnapshot shopCredential shopClient).toOption.bind fun served =>
    readMessage served.2

/-- The proxy sends a `Connection` header of its own, and only as much of a body as came. -/
theorem sends_connection :
    "connection" ∈ DROPPED ∧
      shopWritten.map (fun upstream =>
        (valuesOf "connection" upstream.fields, valuesOf "content-length" upstream.fields, upstream.body)) =
        some (["close"], ["5"], [104, 101]) := by
  decide +kernel

theorem parse_request_forwards_shop :
    ∃ request, parseRequest shopUris shopListener shopCredential shopClient = .ok request ∧
      ∃ message length, readMessage shopClient.bytes = some message ∧ message.bodyLength = some length ∧
        Accepted shopUris shopListener shopCredential message request.destination ∧
          ∃ target written upstream,
            serve shopUris (fun _ => true) shopListener shopSnapshot shopCredential shopClient = .ok (target, written) ∧
              readMessage written = some upstream ∧ Forwards message length upstream := by
  have hserved : (serve shopUris (fun _ => true) shopListener shopSnapshot shopCredential shopClient).toOption.isSome =
      true := by decide +kernel
  cases hserve : serve shopUris (fun _ => true) shopListener shopSnapshot shopCredential shopClient with
  | error stop =>
    rw [hserve] at hserved
    cases hserved
  | ok served =>
    cases hparse : parseRequest shopUris shopListener shopCredential shopClient with
    | error failure =>
      rw [serve, hparse] at hserve
      cases hserve
    | ok request =>
      obtain ⟨message, length, -, hread, hlength, haccepted, hforwards⟩ :=
        (parse_request_forwards shopUris shopListener shopCredential shopClient).1 request hparse
      obtain ⟨upstream, hupstream, hforward⟩ := hforwards _ _ _ _ hserve
      exact ⟨request, rfl, message, length, hread, hlength, haccepted, served.1, served.2, upstream, rfl, hupstream,
        hforward⟩

end Apmpr.Router.ForwardProxy
