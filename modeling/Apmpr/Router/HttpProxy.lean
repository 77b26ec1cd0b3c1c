import Apmpr.Lib.Json
import Apmpr.Lib.Lines
import Apmpr.Lib.Utf8
import Apmpr.Router.Compile

/-!
# The HTTP proxy of a listener

The crate `router-pingora`: what an HTTP listener does with a request (`request_filter`), and
with what comes back from the provider it is sent to (`response_filter`, `fail_to_proxy`). The
router decides by the destination and by the identity of the browser: the explicit route
header, then the Origin, then the proxy listener. A browser is told by CORS headers whether a
page of another origin may see the answer.

Probing and resolving a provider are parameters (`Network`), and so is what the provider
answers (`Upstream`). Telemetry is left out, and so is what is changed in the request that is
sent on.

## What is proved

* `lookup_precedence`: which identity decides a lookup, and when a lower one matters.
* `target?_requestFilter`: what a request goes through that leaves with a target.
* `explicit_obeyed_iff`: when a request with the explicit route header is routed by it or not
  at all.
* `requestFilter_cases`: how a request leaves, and what its answer allows.
* `cors_confined_iff`: when the CORS headers of all answers keep to the configured origins, and
  a preflight is answered only as it should be.
-/

namespace Apmpr.Router.HttpProxy

/-! ### Headers -/

/-- Header fields, each with its name in lower case and the bytes of its value. -/
abbrev HeaderMap := List (String × List UInt8)

/-- `get_all`: the values of a header. -/
def getAll (headers : HeaderMap) (name : String) : List (List UInt8) :=
  (headers.filter fun field => field.1 = Text.toAsciiLowercase name).map Prod.snd

/-- `remove_header`. -/
def removeHeader (name : String) (headers : HeaderMap) : HeaderMap :=
  headers.filter fun field => field.1 ≠ Text.toAsciiLowercase name

/-- `append_header`. -/
def appendHeader (name value : String) (headers : HeaderMap) : HeaderMap :=
  headers ++ [(Text.toAsciiLowercase name, Utf8.encode value.toList)]

/-- `insert_header`: the value takes the place of all values of the header. -/
def insertHeader (name value : String) (headers : HeaderMap) : HeaderMap :=
  appendHeader name value (removeHeader name headers)

/-- Whether a byte is one of visible text. -/
def isVisible (byte : UInt8) : Bool := (32 ≤ byte.toNat && byte.toNat < 127) || byte.toNat = 9

/-- `HeaderValue::to_str`: the text of a value, if all of it is visible. -/
def toStr (value : List UInt8) : Option String :=
  if value.all isVisible then some (String.ofList (value.map fun byte => Char.ofNat byte.toNat)) else none

/-- The head of a request. -/
structure RequestHeader where
  method : String
  uri : String
  headers : HeaderMap
  deriving DecidableEq

/-- The head of a response, and its body. -/
structure Response where
  status : ℕ
  headers : HeaderMap
  body : String
  deriving DecidableEq

/-- `header_text`: the text of the first value of a header. -/
def headerText (request : RequestHeader) (name : String) : Option String :=
  (getAll request.headers name).head?.bind toStr

/-- `header_count`. -/
def headerCount (request : RequestHeader) (name : String) : ℕ := (getAll request.headers name).length

/-- `request_header_bytes`. -/
def requestHeaderBytes (request : RequestHeader) : ℕ :=
  request.method.utf8ByteSize + request.uri.utf8ByteSize +
    (request.headers.map fun field => field.1.utf8ByteSize + field.2.length + 4).sum

/-! ### Error responses -/

/-- `BrowserRouteCandidate`. -/
structure BrowserRouteCandidate where
  identity : String
  provider : ComponentId
  deriving DecidableEq

/-- The identity of a route as it is shown. -/
def shownIdentity : BrowserIdentity → String
  | .explicitHeader value => s!"header:{value}"
  | .origin origin => s!"origin:{origin}"
  | .proxyListener listener => s!"proxy:{listener}"

/-- `browser_candidates`. -/
def browserCandidates (snapshot : CompiledSnapshot) (destination : RouteSlotId) : List BrowserRouteCandidate :=
  (snapshot.config.spec.browserRoutes.filter fun route => route.destination = destination).map fun route =>
    ⟨shownIdentity route.identity, route.provider⟩

/-- `respond_error_json`. -/
def errorResponse (status : ℕ) (code message : String) (candidates : Option (List BrowserRouteCandidate))
    (allowedOrigin : Option String) : Response :=
  let shown := candidates.map fun candidates => Json.array (candidates.map fun candidate =>
    Json.object [("identity", .string candidate.identity), ("provider", .string candidate.provider)])
  let body := (Json.object ([("code", Json.string code), ("message", Json.string message)] ++
    (shown.map fun shown => ("candidates", shown)).toList)).render
  let headers := insertHeader "content-length" (toString body.utf8ByteSize)
    (insertHeader "content-type" "application/json" [])
  match allowedOrigin with
  | some origin =>
    ⟨status, insertHeader "vary" "Origin" (insertHeader "access-control-allow-origin" origin headers), body⟩
  | none => ⟨status, headers, body⟩

/-- `respond_proxy_authentication_required`. -/
def proxyAuthenticationRequired : Response :=
  let body := (Json.object [("code", .string "proxy_authentication_required"),
    ("message", .string "valid managed-profile proxy credentials are required")]).render
  ⟨407, insertHeader "proxy-authenticate" "Basic realm=\"apmpr\"" (insertHeader "content-length"
    (toString body.utf8ByteSize) (insertHeader "content-type" "application/json" [])), body⟩

/-! ### CORS -/

/-- `is_http_token`. -/
def isHttpToken (value : String) : Bool :=
  value ≠ "" && value.toList.all fun c =>
    Text.isAsciiAlphanumeric c || "!#$%&'*+-.^_`|~".toList.contains c

/-- `is_cors_preflight`. -/
def isCorsPreflight (request : RequestHeader) : Bool :=
  request.method = "OPTIONS" && (headerText request "origin").isSome &&
    (headerText request "access-control-request-method").isSome

/-- `CorsPreflight`. -/
structure CorsPreflight where
  requestedMethod : String
  requestedHeaders : Option String
  privateNetwork : Bool

/-- A method a preflight may ask for. -/
def boundedMethod (value : String) : Bool := value.utf8ByteSize ≤ 32 && isHttpToken value

/-- Names of headers a preflight may ask for. -/
def boundedNames (value : String) : Bool :=
  value.utf8ByteSize ≤ 1024 && (Text.split ',' value).length ≤ 32 &&
    (Text.split ',' value).all fun name => isHttpToken (Text.trim name)

/-- Whether a preflight asks for a private network. -/
def privateNetwork (request : RequestHeader) : Except String Bool :=
  match headerText request "access-control-request-private-network" with
  | none => .ok false
  | some value =>
    if Text.toAsciiLowercase value = "true" then .ok true
    else .error "private-network preflight must request the value `true`"

/-- `parse_cors_preflight`. -/
def parseCorsPreflight (request : RequestHeader) : Except String CorsPreflight :=
  if headerCount request "access-control-request-method" ≠ 1 ||
      1 < headerCount request "access-control-request-headers" ||
      1 < headerCount request "access-control-request-private-network" then
    .error "CORS preflight headers must occur at most once"
  else match (headerText request "access-control-request-method").filter boundedMethod with
    | none => .error "CORS preflight method must be a valid HTTP token of at most 32 bytes"
    | some method =>
      let requested := headerText request "access-control-request-headers"
      if requested.any fun value => !boundedNames value then
        .error "CORS preflight may request at most 32 valid header names in 1024 bytes"
      else (privateNetwork request).map fun network => ⟨method, requested, network⟩

/-- `respond_preflight`. -/
def preflightResponse (origin : String) (preflight : CorsPreflight) : Response :=
  let headers := insertHeader "access-control-allow-methods" preflight.requestedMethod
    (insertHeader "access-control-allow-origin" origin (insertHeader "content-length" "0" []))
  let headers := match preflight.requestedHeaders with
    | some requested => insertHeader "access-control-allow-headers" requested headers
    | none => headers
  let headers := if preflight.privateNetwork then
      insertHeader "access-control-allow-private-network" "true" headers
    else headers
  ⟨204, insertHeader "vary"
    "Origin, Access-Control-Request-Method, Access-Control-Request-Headers, Access-Control-Request-Private-Network"
    headers, ""⟩

/-- The CORS headers that are taken out of a provider's response. -/
def CORS_HEADERS : List String :=
  ["access-control-allow-origin", "access-control-allow-methods", "access-control-allow-headers",
    "access-control-allow-private-network", "access-control-allow-credentials", "access-control-expose-headers",
    "access-control-max-age"]

/-- Whether a response varies by Origin. -/
def variesByOrigin (headers : HeaderMap) : Bool :=
  ((getAll headers "vary").filterMap toStr).any fun value =>
    (Text.split ',' value).any fun name => Text.toAsciiLowercase (Text.trim name) = "origin"

/-- `apply_cors_response_headers`. -/
def applyCorsResponseHeaders (response : Response) (allowedOrigin : Option String) : Response :=
  let headers := CORS_HEADERS.foldl (fun headers name => removeHeader name headers) response.headers
  let headers := match allowedOrigin with
    | some origin => insertHeader "access-control-allow-origin" origin headers
    | none => headers
  { response with headers := if variesByOrigin headers then headers else appendHeader "vary" "Origin" headers }

/-! ### Routing -/

/-- `ApmprProxy`: the proxy of a listener, with the authorization that is expected. -/
structure ApmprProxy where
  listener : Listener
  proxyCredential : Option (List UInt8)
  identity : IdentityPolicy
  maxRequestHeaderBytes : ℕ

/-- What is done over the network for a request: a probe says what is wrong, and resolving
gives an address. -/
structure Network where
  probe : UpstreamEndpoint → HealthCheck → Option String
  resolve : UpstreamEndpoint → Except String SocketAddress

/-- Whether a destination of a listener is the one of a host. -/
def matchesHost (listener : Listener) (host : String) : ListenerDestination → Bool
  | .customDomain _ domain => Text.toAsciiLowercase domain = Text.toAsciiLowercase host
  | .legacyLocalhost _ expected => Text.toAsciiLowercase expected = Text.toAsciiLowercase host
  | .loopback _ => listener.destinations.length = 1
  | .proxyTarget _ expected _ => Text.toAsciiLowercase expected = Text.toAsciiLowercase host

/-- `destination_slot`. -/
def destinationSlot (listener : Listener) (request : RequestHeader) : Option RouteSlotId :=
  let host := ((headerText request "host").bind fun value => (Text.split ':' value).head?).getD ""
  (listener.destinations.find? (matchesHost listener host)).map ListenerDestination.slot

/-- The checks before the identity of a request is looked at. -/
def admission (proxy : ApmprProxy) (request : RequestHeader) : Except Response RouteSlotId :=
  if proxy.maxRequestHeaderBytes < requestHeaderBytes request then
    .error (errorResponse 431 "request_headers_too_large" "request headers exceed the configured limit" none none)
  else if proxy.proxyCredential.any fun credential =>
      !(getAll request.headers "proxy-authorization" = [credential]) then
    .error proxyAuthenticationRequired
  else match destinationSlot proxy.listener request with
    | none =>
      .error (errorResponse 404 "route_not_found" "the request does not match a listener destination" none none)
    | some slot => .ok slot

/-- What is known of a request when its target is: whether it is a browser's, and the Origin
it may be answered with. -/
structure Routed where
  browserRouted : Bool
  corsOrigin : Option String
  target : Except Response (Option RouteTarget)

/-- The Origin of a request, if it is one of its destination. -/
def corsOrigin (snapshot : CompiledSnapshot) (slot : RouteSlotId) (request : RequestHeader) : Option String :=
  (headerText request "origin").filter fun origin =>
    match snapshot.lookupBrowser ⟨slot, none, some origin, none⟩ with
    | .ok _ => true
    | .error _ => false

/-- `LookupError` as it is shown. -/
def shownError : LookupError → String
  | .missingIdentity => "request has no usable routing identity"
  | .unknownIdentity => "request routing identity is unknown"
  | .conflictingIdentity => "request header and Origin select different routes"

/-- The status and code of a lookup that failed. -/
def lookupStatus (explicit origin : Option String) : LookupError → ℕ × String
  | .missingIdentity => (400, "missing_route_identity")
  | .unknownIdentity =>
    if explicit.isSome then (403, "unknown_route_identity")
    else if origin.isSome then (403, "disallowed_origin")
    else (403, "unknown_route_identity")
  | .conflictingIdentity => (400, "conflicting_route_identity")

/-- The target of a request on a listener without a consumer. -/
def browserTarget (proxy : ApmprProxy) (snapshot : CompiledSnapshot) (slot : RouteSlotId) (request : RequestHeader) :
    Routed :=
  let candidates := some (browserCandidates snapshot slot)
  if 1 < headerCount request proxy.identity.explicitHeader || 1 < headerCount request "origin" then
    ⟨true, none, .error (errorResponse 400 "conflicting_route_identity"
      "routing identity headers must occur at most once" candidates none)⟩
  else
    let explicit := headerText request proxy.identity.explicitHeader
    let origin := headerText request "origin"
    let cors := corsOrigin snapshot slot request
    if explicit.isSome && !proxy.listener.bind.host.isLoopback then
      ⟨true, cors, .error (errorResponse 403 "untrusted_identity_header"
        "the explicit route header is accepted only on loopback listeners" candidates cors)⟩
    else match snapshot.lookupBrowser ⟨slot, explicit, origin, proxy.listener.proxyIdentity⟩ with
      | .ok target => ⟨true, cors, .ok (some target)⟩
      | .error error =>
        let (status, code) := lookupStatus explicit origin error
        ⟨true, cors, .error (errorResponse status code (shownError error) candidates cors)⟩

/-- The target of a request on a consumer's listener. -/
def consumerTarget (proxy : ApmprProxy) (snapshot : CompiledSnapshot) (consumer : InstanceId) (slot : RouteSlotId)
    (request : RequestHeader) : Routed :=
  let candidates := browserCandidates snapshot slot
  let count := headerCount request proxy.identity.explicitHeader
  if 0 < count && !candidates.isEmpty then
    if 1 < count then
      ⟨false, none, .error (errorResponse 400 "conflicting_route_identity"
        "routing identity headers must occur at most once" (some candidates) none)⟩
    else match headerText request proxy.identity.explicitHeader with
      | none =>
        ⟨false, none, .error (errorResponse 400 "invalid_route_identity"
          "the routing identity header must contain valid visible text" (some candidates) none)⟩
      | some explicit =>
        if !proxy.listener.bind.host.isLoopback then
          ⟨false, none, .error (errorResponse 403 "untrusted_identity_header"
            "the explicit route header is accepted only on loopback listeners" (some candidates) none)⟩
        else match snapshot.lookupBrowser ⟨slot, some explicit, none, none⟩ with
          | .ok target => ⟨true, none, .ok (some target)⟩
          | .error error =>
            ⟨false, none, .error (errorResponse 403 "unknown_route_identity" (shownError error) (some candidates) none)⟩
  else ⟨false, none, .ok (snapshot.lookupConsumer consumer slot)⟩

/-- How a request leaves `request_filter`: it is answered, a preflight is answered, or it is
sent on to the address of its target. -/
inductive Exit where
  | rejected (response : Response)
  | preflight (target : RouteTarget) (response : Response)
  | forward (target : RouteTarget) (address : SocketAddress)
  deriving DecidableEq

/-- The target of a request, whatever its listener is. -/
def route (proxy : ApmprProxy) (snapshot : CompiledSnapshot) (slot : RouteSlotId) (request : RequestHeader) : Routed :=
  match proxy.listener.consumer with
  | some consumer => consumerTarget proxy snapshot consumer slot request
  | none => browserTarget proxy snapshot slot request

/-- The answer to a preflight. -/
def answerPreflight (target : RouteTarget) (cors : Option String) (request : RequestHeader) : Exit :=
  match cors with
  | none => .rejected (errorResponse 403 "disallowed_origin"
      "CORS preflight Origin is not configured for this destination" none none)
  | some origin =>
    match parseCorsPreflight request with
    | .error message => .rejected (errorResponse 400 "invalid_cors_preflight" message none (some origin))
    | .ok preflight => .preflight target (preflightResponse origin preflight)

/-- A request is sent on to a provider that is well and has an address. -/
def sendOn (network : Network) (target : RouteTarget) (cors : Option String) : Exit :=
  match target.healthCheck.bind (network.probe target.endpoint) with
  | some message => .rejected (errorResponse 503 "provider_unhealthy" message none cors)
  | none =>
    match network.resolve target.endpoint with
    | .error message => .rejected (errorResponse 503 "provider_unavailable" message none cors)
    | .ok address => .forward target address

/-- What is done with a request that has a target. -/
def finish (network : Network) (routed : Routed) (request : RequestHeader) : Exit :=
  match routed.target with
  | .error response => .rejected response
  | .ok none =>
    .rejected (errorResponse 404 "route_not_found" "no route is configured for this request" none routed.corsOrigin)
  | .ok (some target) =>
    if routed.browserRouted && isCorsPreflight request then answerPreflight target routed.corsOrigin request
    else sendOn network target routed.corsOrigin

/-- `request_filter`: how a request leaves it, and what the context says of its answers. -/
def requestFilter (proxy : ApmprProxy) (network : Network) (snapshot : CompiledSnapshot) (request : RequestHeader) :
    Exit × Bool × Option String :=
  match admission proxy request with
  | .error response => (.rejected response, false, none)
  | .ok slot =>
    let routed := route proxy snapshot slot request
    (finish network routed request, routed.browserRouted, routed.corsOrigin)

/-! ### Answers -/

/-- How proxying fails. -/
inductive ProxyError where
  | bodyTooLarge
  | upstream
  | other
  deriving DecidableEq

/-- What comes of a request that is sent on: the heads of the provider's responses, of which
all but the last are interim ones, and how it fails, if it does. -/
structure Upstream where
  responses : List Response
  failure : Option ProxyError

/-- `response_filter`. -/
def responseFilter (browserRouted : Bool) (cors : Option String) (response : Response) : Response :=
  if browserRouted then applyCorsResponseHeaders response cors else response

/-- `fail_to_proxy`. -/
def failToProxy (cors : Option String) : ProxyError → Response
  | .bodyTooLarge => errorResponse 413 "request_body_too_large" "request body exceeds the configured limit" none cors
  | .upstream => errorResponse 502 "upstream_unavailable" "the selected provider could not be reached" none cors
  | .other => errorResponse 500 "proxy_error" "the request could not be proxied" none cors

/-- All that is answered to a request. -/
def answers (proxy : ApmprProxy) (network : Network) (snapshot : CompiledSnapshot) (request : RequestHeader)
    (upstream : Upstream) : List Response :=
  match requestFilter proxy network snapshot request with
  | (.rejected response, _, _) => [response]
  | (.preflight _ response, _, _) => [response]
  | (.forward _ _, browserRouted, cors) =>
    upstream.responses.map (responseFilter browserRouted cors) ++ (upstream.failure.map (failToProxy cors)).toList

/-! ### Which identity decides -/

section Precedence

variable {checksum : RouterConfig → String} {config : RouterConfig} {s : CompiledSnapshot}

/-- The identity of a lookup that takes precedence. -/
def highestIdentity (lookup : BrowserLookup) : Option BrowserKey :=
  match lookup.explicitHeader, lookup.origin, lookup.proxyListener with
  | some header, _, _ => some (.header header)
  | none, some origin, _ => some (.origin origin)
  | none, none, some listener => some (.proxy listener)
  | none, none, none => none

/-- The header and the Origin of a lookup are known, with different providers. -/
def Conflicting (spec : RouterSpec) (lookup : BrowserLookup) : Prop :=
  ∃ header origin t t', lookup.explicitHeader = some header ∧ lookup.origin = some origin ∧
    spec.SelectsBrowser lookup.destination (.header header) t ∧
    spec.SelectsBrowser lookup.destination (.origin origin) t' ∧ t.provider ≠ t'.provider

/-- A lookup by a header. -/
theorem lookupBrowser_header (destination : RouteSlotId) (header : String) (origin : Option String)
    (listener : Option RouteSlotId) :
    s.lookupBrowser ⟨destination, some header, origin, listener⟩ =
      match s.browserTarget destination (.header header) with
      | none => .error .unknownIdentity
      | some t =>
        match origin.bind fun origin => s.browserTarget destination (.origin origin) with
        | some t' => if t.provider ≠ t'.provider then .error .conflictingIdentity else .ok t
        | none => .ok t := by
  rfl

/-- A lookup without a header. -/
theorem lookupBrowser_no_header (destination : RouteSlotId) (origin : Option String) (listener : Option RouteSlotId) :
    s.lookupBrowser ⟨destination, none, origin, listener⟩ =
      match highestIdentity ⟨destination, none, origin, listener⟩ with
      | some key => knownTarget (s.browserTarget destination key)
      | none => .error .missingIdentity := by
  cases origin with
  | some origin => rfl
  | none => cases listener <;> rfl

/-- Two known identities with different providers conflict. -/
theorem lookupBrowser_of_conflicting (h : compile checksum config = .ok s) {lookup : BrowserLookup}
    (hconflict : Conflicting config.spec lookup) : s.lookupBrowser lookup = .error .conflictingIdentity := by
  obtain ⟨destination, explicit, origin, listener⟩ := lookup
  obtain ⟨header, value, t, t', rfl, rfl, ht, ht', hne⟩ := hconflict
  rw [lookupBrowser_header, (browserTarget_iff h).mpr ht]
  dsimp only
  rw [Option.bind_some, (browserTarget_iff h).mpr ht']
  exact if_pos hne

/-- Without a conflict the highest identity decides. -/
theorem lookupBrowser_of_not_conflicting (h : compile checksum config = .ok s) {lookup : BrowserLookup}
    (hconflict : ¬ Conflicting config.spec lookup) :
    s.lookupBrowser lookup =
      match highestIdentity lookup with
      | some key => knownTarget (s.browserTarget lookup.destination key)
      | none => .error .missingIdentity := by
  obtain ⟨destination, explicit, origin, listener⟩ := lookup
  cases explicit with
  | none => exact lookupBrowser_no_header destination origin listener
  | some header =>
    rw [lookupBrowser_header]
    simp only [highestIdentity]
    cases htarget : s.browserTarget destination (.header header) with
    | none => rfl
    | some t =>
      dsimp only
      cases horigin : origin.bind fun origin => s.browserTarget destination (.origin origin) with
      | none => rfl
      | some t' =>
        dsimp only
        obtain ⟨value, rfl, ht'⟩ := Option.bind_eq_some_iff.mp horigin
        have hsame : ¬ t.provider ≠ t'.provider := fun hne => hconflict
          ⟨header, value, t, t', rfl, rfl, (browserTarget_iff h).mp htarget, (browserTarget_iff h).mp ht', hne⟩
        exact if_neg hsame

/-- The target of a lookup that succeeds is the one of its highest identity. -/
theorem lookupBrowser_ok_iff (h : compile checksum config = .ok s) {lookup : BrowserLookup} {t : RouteTarget} :
    s.lookupBrowser lookup = .ok t ↔ ¬ Conflicting config.spec lookup ∧
      ∃ key, highestIdentity lookup = some key ∧ config.spec.SelectsBrowser lookup.destination key t := by
  by_cases hconflict : Conflicting config.spec lookup
  · rw [lookupBrowser_of_conflicting h hconflict]
    simp [hconflict]
  · rw [lookupBrowser_of_not_conflicting h hconflict]
    cases hhighest : highestIdentity lookup with
    | none => simp
    | some key =>
      dsimp only
      simp only [← browserTarget_iff h]
      cases htarget : s.browserTarget lookup.destination key with
      | none => simp [knownTarget, htarget]
      | some found => simp [knownTarget, htarget, hconflict]

/-- The result of a lookup depends on its destination and its highest identity only, but that a
header conflicts with an Origin that is known for another provider: then the lookup fails. A
lower identity never changes the target that is found, and an identity that is not known fails
whatever the lower ones are. -/
theorem lookup_precedence (h : compile checksum config = .ok s) :
    (∀ lookup, s.lookupBrowser lookup = .error .conflictingIdentity ↔ Conflicting config.spec lookup) ∧
    (∀ lookup lookup' : BrowserLookup, lookup.destination = lookup'.destination →
      highestIdentity lookup = highestIdentity lookup' →
      (¬ Conflicting config.spec lookup → ¬ Conflicting config.spec lookup' →
        s.lookupBrowser lookup = s.lookupBrowser lookup') ∧
      ∀ t t', s.lookupBrowser lookup = .ok t → s.lookupBrowser lookup' = .ok t' → t = t') ∧
    ∀ (lookup : BrowserLookup) key, highestIdentity lookup = some key →
      (∀ t, ¬ config.spec.SelectsBrowser lookup.destination key t) → s.lookupBrowser lookup = .error .unknownIdentity := by
  refine ⟨fun lookup => ?_, fun lookup lookup' hdestination hhighest => ⟨fun hconflict hconflict' => ?_, ?_⟩, ?_⟩
  · constructor
    · intro herror
      by_contra hconflict
      rw [lookupBrowser_of_not_conflicting h hconflict] at herror
      cases hhighest : highestIdentity lookup with
      | none => simp [hhighest] at herror
      | some key =>
        rw [hhighest] at herror
        cases htarget : s.browserTarget lookup.destination key <;> simp [htarget, knownTarget] at herror
    · exact lookupBrowser_of_conflicting h
  · rw [lookupBrowser_of_not_conflicting h hconflict, lookupBrowser_of_not_conflicting h hconflict', hhighest,
      hdestination]
  · intro t t' ht ht'
    obtain ⟨-, key, hkey, hselects⟩ := (lookupBrowser_ok_iff h).mp ht
    obtain ⟨-, key', hkey', hselects'⟩ := (lookupBrowser_ok_iff h).mp ht'
    rw [hhighest, hkey'] at hkey
    obtain rfl := Option.some.inj hkey
    rw [← browserTarget_iff h, hdestination] at hselects
    rw [← browserTarget_iff h, hselects] at hselects'
    exact Option.some.inj hselects'
  · intro lookup key hkey hunknown
    have hconflict : ¬ Conflicting config.spec lookup := by
      rintro ⟨header, origin, t, t', hheader, -, ht, -, -⟩
      have hfirst : highestIdentity lookup = some (.header header) := by simp [highestIdentity, hheader]
      rw [hfirst] at hkey
      obtain rfl := Option.some.inj hkey
      exact hunknown t ht
    have htarget : s.browserTarget lookup.destination key = none := by
      apply Option.eq_none_iff_forall_not_mem.mpr
      intro t ht
      exact hunknown t ((browserTarget_iff h).mp ht)
    rw [lookupBrowser_of_not_conflicting h hconflict, hkey]
    dsimp only
    rw [htarget]
    rfl

/-- The comparison deployment with a browser that is known by its header and by its Origin, and a
second one that is known by its Origin only. -/
def twoBrowsersConfig : RouterConfig :=
  { comparisonConfig 1 with spec := { (comparisonConfig 1).spec with
      browserRoutes := [⟨.explicitHeader "ui-1", "browser-backend", "backend-1"⟩,
        ⟨.origin "http://ui-1.localhost:3000", "browser-backend", "backend-1"⟩,
        ⟨.origin "http://ui-2.localhost:3000", "browser-backend", "services-main/search"⟩] } }

/-- A header conflicts with the Origin of the other browser; with any other Origin it decides; and
one that is not known fails beside an Origin that is. -/
theorem lookup_precedence_comparison :
    ∃ s, compile (fun _ => "") twoBrowsersConfig = .ok s ∧
      s.lookupBrowser ⟨"browser-backend", some "ui-1", some "http://ui-2.localhost:3000", none⟩ = .error .conflictingIdentity ∧
      s.lookupBrowser ⟨"browser-backend", some "ui-1", some "http://ui-1.localhost:3000", some "ui-2"⟩ =
        s.lookupBrowser ⟨"browser-backend", some "ui-1", some "http://other.localhost", none⟩ ∧
      s.lookupBrowser ⟨"browser-backend", some "ui-9", some "http://ui-1.localhost:3000", none⟩ = .error .unknownIdentity := by
  obtain ⟨s, hs⟩ := compile_ok (fun _ => "") ((validate_ok_iff twoBrowsersConfig).mp (by decide))
  obtain ⟨hconflict, hsame, hunknown⟩ := lookup_precedence hs
  have hvalid : twoBrowsersConfig.Valid := (validate_ok_iff twoBrowsersConfig).mp (by decide)
  refine ⟨s, hs, (hconflict _).mpr ?_, (hsame ⟨"browser-backend", some "ui-1", some "http://ui-1.localhost:3000", some "ui-2"⟩
    ⟨"browser-backend", some "ui-1", some "http://other.localhost", none⟩ rfl rfl).1 ?_ ?_, hunknown _ _ rfl ?_⟩
  · exact ⟨_, _, _, _, rfl, rfl, ⟨⟨.explicitHeader "ui-1", "browser-backend", "backend-1"⟩, by decide, rfl, rfl,
      ⟨"backend-1", ⟨.http, "127.0.0.1", 7003⟩, none, true⟩, by decide, rfl, rfl⟩,
      ⟨⟨.origin "http://ui-2.localhost:3000", "browser-backend", "services-main/search"⟩, by decide, rfl, rfl,
      ⟨"services-main/search", ⟨.http, "127.0.0.1", 7002⟩, none, false⟩, by decide, rfl, rfl⟩, by decide⟩
  · -- both identities select the same provider
    have hbackend : ∀ r ∈ twoBrowsersConfig.spec.browserRoutes, r.identity.toKey = .header "ui-1" ∨
        r.identity.toKey = .origin "http://ui-1.localhost:3000" → r.provider = "backend-1" := by decide
    rintro ⟨header, origin, t, t', hheader, horigin, ⟨r, hr, -, hkey, hprovides⟩, ⟨r', hr', -, hkey', hprovides'⟩, hne⟩
    obtain rfl := Option.some.inj hheader
    obtain rfl := Option.some.inj horigin
    rw [hbackend r hr (.inl hkey)] at hprovides
    rw [hbackend r' hr' (.inr hkey')] at hprovides'
    exact hne (congrArg _ (hvalid.provides_unique hprovides hprovides'))
  · -- the Origin is not known
    have hother : ∀ r ∈ twoBrowsersConfig.spec.browserRoutes, r.identity.toKey ≠ .origin "http://other.localhost" := by decide
    rintro ⟨header, origin, -, -, -, horigin, -, ⟨r, hr, -, hkey, -⟩, -⟩
    obtain rfl := Option.some.inj horigin
    exact hother r hr hkey
  · have hnine : ∀ r ∈ twoBrowsersConfig.spec.browserRoutes, r.identity.toKey ≠ .header "ui-9" := by decide
    rintro t ⟨r, hr, -, hkey, -⟩
    exact hnine r hr hkey

end Precedence

/-! ### Requests that are routed -/

section Routing

variable {proxy : ApmprProxy} {network : Network} {snapshot : CompiledSnapshot} {request : RequestHeader}

/-- The target a request leaves `request_filter` with. -/
def Exit.target? : Exit → Option RouteTarget
  | .rejected _ => none
  | .preflight target _ => some target
  | .forward target _ => some target

/-- A request is seen through to its target: a preflight is well formed and of a known Origin,
and any other goes to a provider that is well and has an address. -/
def SeenThrough (network : Network) (snapshot : CompiledSnapshot) (slot : RouteSlotId) (request : RequestHeader)
    (target : RouteTarget) : Prop :=
  if isCorsPreflight request then
    (corsOrigin snapshot slot request).isSome ∧ (parseCorsPreflight request).isOk
  else target.healthCheck.bind (network.probe target.endpoint) = none ∧ (network.resolve target.endpoint).isOk

/-- The target of a destination's browser request. -/
def Selected (proxy : ApmprProxy) (snapshot : CompiledSnapshot) (slot : RouteSlotId) (request : RequestHeader)
    (target : RouteTarget) : Prop :=
  headerCount request proxy.identity.explicitHeader ≤ 1 ∧ headerCount request "origin" ≤ 1 ∧
    ((headerText request proxy.identity.explicitHeader).isSome → proxy.listener.bind.host.isLoopback = true) ∧
    snapshot.lookupBrowser ⟨slot, headerText request proxy.identity.explicitHeader, headerText request "origin",
      proxy.listener.proxyIdentity⟩ = .ok target

theorem admission_ok {slot : RouteSlotId} (h : admission proxy request = .ok slot) :
    destinationSlot proxy.listener request = some slot := by
  unfold admission at h
  split_ifs at h
  cases hslot : destinationSlot proxy.listener request with
  | none => simp [hslot] at h
  | some found =>
    rw [hslot] at h
    rw [Except.ok.inj h]

/-- A request on a listener without a consumer either has a target, or is rejected. -/
theorem browserTarget_cases (proxy : ApmprProxy) (snapshot : CompiledSnapshot) (slot : RouteSlotId)
    (request : RequestHeader) :
    (∃ target, Selected proxy snapshot slot request target ∧
      browserTarget proxy snapshot slot request = ⟨true, corsOrigin snapshot slot request, .ok (some target)⟩) ∨
    ∃ status code message cors, (∀ target, ¬ Selected proxy snapshot slot request target) ∧
      (cors = none ∨ headerCount request "origin" ≤ 1 ∧ cors = corsOrigin snapshot slot request) ∧
      browserTarget proxy snapshot slot request =
        ⟨true, cors, .error (errorResponse status code message (some (browserCandidates snapshot slot)) cors)⟩ := by
  unfold browserTarget Selected
  by_cases hcount : headerCount request proxy.identity.explicitHeader ≤ 1 ∧ headerCount request "origin" ≤ 1
  · rw [if_neg (by simp; omega)]
    by_cases htrusted : (headerText request proxy.identity.explicitHeader).isSome →
        proxy.listener.bind.host.isLoopback = true
    · dsimp only
      rw [if_neg (by simpa using htrusted)]
      cases hlookup : snapshot.lookupBrowser ⟨slot, headerText request proxy.identity.explicitHeader,
          headerText request "origin", proxy.listener.proxyIdentity⟩ with
      | ok target => exact .inl ⟨target, ⟨hcount.1, hcount.2, htrusted, rfl⟩, rfl⟩
      | error error => exact .inr ⟨_, _, _, _, by simp, .inr ⟨hcount.2, rfl⟩, rfl⟩
    · dsimp only
      rw [if_pos (by simpa using htrusted)]
      exact .inr ⟨_, _, _, _, fun _ h => htrusted h.2.2.1, .inr ⟨hcount.2, rfl⟩, rfl⟩
  · rw [if_pos (by simp; omega)]
    exact .inr ⟨_, _, _, _, fun _ h => hcount ⟨h.1, h.2.1⟩, .inl rfl, rfl⟩

/-- A browser request with a target leaves with it exactly if it is seen through. -/
theorem target?_finish {slot : RouteSlotId} {target t : RouteTarget} :
    (finish network ⟨true, corsOrigin snapshot slot request, .ok (some target)⟩ request).target? = some t ↔
      t = target ∧ SeenThrough network snapshot slot request target := by
  unfold finish SeenThrough
  by_cases hpreflight : isCorsPreflight request = true
  · simp only [hpreflight, Bool.and_self, if_true, answerPreflight]
    cases corsOrigin snapshot slot request with
    | none => simp [Exit.target?]
    | some origin =>
      cases parseCorsPreflight request with
      | error message => simp [Exit.target?, Except.isOk, Except.toBool]
      | ok preflight => simp [Exit.target?, Except.isOk, Except.toBool, eq_comm]
  · simp only [hpreflight, Bool.and_false, Bool.false_eq_true, if_false, sendOn]
    cases target.healthCheck.bind (network.probe target.endpoint) with
    | some message => simp [Exit.target?]
    | none =>
      cases network.resolve target.endpoint with
      | error message => simp [Exit.target?, Except.isOk, Except.toBool]
      | ok address => simp [Exit.target?, Except.isOk, Except.toBool, eq_comm]

/-- What a request goes through that leaves with a target, on a listener without a consumer. -/
theorem target?_requestFilter (hconsumer : proxy.listener.consumer = none) {t : RouteTarget} :
    (requestFilter proxy network snapshot request).1.target? = some t ↔
      ∃ slot, admission proxy request = .ok slot ∧ Selected proxy snapshot slot request t ∧
        SeenThrough network snapshot slot request t := by
  unfold requestFilter
  cases hadmission : admission proxy request with
  | error response => simp [Exit.target?]
  | ok slot =>
    simp only [route, hconsumer, Except.ok.injEq, exists_eq_left']
    rcases browserTarget_cases proxy snapshot slot request with ⟨target, hselected, heq⟩ | ⟨_, _, _, _, hnone, -, heq⟩
    · rw [heq, target?_finish]
      constructor
      · rintro ⟨rfl, hseen⟩
        exact ⟨hselected, hseen⟩
      · rintro ⟨ht, hseen⟩
        obtain rfl : t = target := Except.ok.inj (ht.2.2.2.symm.trans hselected.2.2.2)
        exact ⟨rfl, hseen⟩
    · rw [heq]
      constructor
      · intro h
        cases h
      · rintro ⟨ht, -⟩
        exact absurd ht (hnone t)

end Routing

/-! ### The explicit route header -/

section Explicit

variable {proxy : ApmprProxy} {network : Network} {snapshot : CompiledSnapshot} {request : RequestHeader}

/-- A request is rejected, or it comes to a loopback listener and its target is the one of its
explicit route header. -/
def ExplicitObeyed (proxy : ApmprProxy) (network : Network) (snapshot : CompiledSnapshot) (request : RequestHeader) :
    Prop :=
  ∀ t, (requestFilter proxy network snapshot request).1.target? = some t →
    proxy.listener.bind.host.isLoopback = true ∧
    ∃ slot value text, destinationSlot proxy.listener request = some slot ∧
      getAll request.headers proxy.identity.explicitHeader = [value] ∧ toStr value = some text ∧
      snapshot.lookupBrowser ⟨slot, some text, none, none⟩ = .ok t

/-- Without its explicit route header a request has a target, and is seen through to it. -/
def RoutedWithout (proxy : ApmprProxy) (network : Network) (snapshot : CompiledSnapshot) (request : RequestHeader) :
    Prop :=
  ∃ slot t, admission proxy request = .ok slot ∧ headerCount request "origin" ≤ 1 ∧
    snapshot.lookupBrowser ⟨slot, none, headerText request "origin", proxy.listener.proxyIdentity⟩ = .ok t ∧
    SeenThrough network snapshot slot request t

/-- A header that is found is found alone too. -/
theorem lookupBrowser_alone {slot : RouteSlotId} {header : String} {origin : Option String}
    {listener : Option RouteSlotId} {t : RouteTarget}
    (h : snapshot.lookupBrowser ⟨slot, some header, origin, listener⟩ = .ok t) :
    snapshot.lookupBrowser ⟨slot, some header, none, none⟩ = .ok t := by
  rw [lookupBrowser_header] at h ⊢
  cases htarget : snapshot.browserTarget slot (.header header) with
  | none => simp [htarget] at h
  | some found =>
    rw [htarget] at h
    dsimp only at h ⊢
    cases horigin : origin.bind fun origin => snapshot.browserTarget slot (.origin origin) with
    | none =>
      rw [horigin] at h
      exact h
    | some other =>
      rw [horigin] at h
      dsimp only at h
      split_ifs at h
      exact h

/-- A request with the explicit route header is rejected or routed by that header, unless the
one value of the header is no text: then it is routed as if it did not have it. -/
theorem explicit_obeyed_iff (hconsumer : proxy.listener.consumer = none)
    (hcarries : 0 < headerCount request proxy.identity.explicitHeader) :
    ExplicitObeyed proxy network snapshot request ↔
      1 < headerCount request proxy.identity.explicitHeader ∨
      (∃ text, headerText request proxy.identity.explicitHeader = some text) ∨
      ¬ RoutedWithout proxy network snapshot request := by
  constructor
  · intro hobeyed
    by_contra hnot
    push Not at hnot
    obtain ⟨hcount, hunread, slot, t, hadmission, horigin, hlookup, hseen⟩ := hnot
    have hnone : headerText request proxy.identity.explicitHeader = none :=
      Option.eq_none_iff_forall_ne_some.mpr hunread
    have hselected : Selected proxy snapshot slot request t := by
      refine ⟨hcount, horigin, by simp [hnone], ?_⟩
      rw [hnone]
      exact hlookup
    obtain ⟨-, -, value, text, -, hvalue, htext, -⟩ :=
      hobeyed t ((target?_requestFilter hconsumer).mpr ⟨slot, hadmission, hselected, hseen⟩)
    apply hunread text
    simp [headerText, hvalue, htext]
  · intro hcond t ht
    obtain ⟨slot, hadmission, ⟨hcount, horigin, htrusted, hlookup⟩, hseen⟩ := (target?_requestFilter hconsumer).mp ht
    obtain ⟨value, hvalue⟩ : ∃ value, getAll request.headers proxy.identity.explicitHeader = [value] :=
      List.length_eq_one_iff.mp (by unfold headerCount at hcount hcarries; omega)
    rcases hcond with hmany | ⟨text, htext⟩ | hnot
    · omega
    · rw [htext] at htrusted hlookup
      refine ⟨htrusted rfl, slot, value, text, admission_ok hadmission, hvalue, ?_, lookupBrowser_alone hlookup⟩
      simpa [headerText, hvalue] using htext
    · cases htext : headerText request proxy.identity.explicitHeader with
      | none =>
        rw [htext] at hlookup
        exact absurd ⟨slot, t, hadmission, horigin, hlookup, hseen⟩ hnot
      | some text =>
        rw [htext] at htrusted hlookup
        refine ⟨htrusted rfl, slot, value, text, admission_ok hadmission, hvalue, ?_, lookupBrowser_alone hlookup⟩
        simpa [headerText, hvalue] using htext

end Explicit

/-- The comparison deployment with a second browser, that is known by its Origin. -/
def originConfig : RouterConfig :=
  { comparisonConfig 1 with spec := { (comparisonConfig 1).spec with
      browserRoutes := [⟨.explicitHeader "ui-1", "browser-backend", "backend-1"⟩,
        ⟨.origin "http://ui-2.localhost:3000", "browser-backend", "backend-1"⟩] } }

/-- What it is compiled to. -/
def originSnapshot : CompiledSnapshot where
  config := originConfig
  checksum := ""
  consumerRoutes := [
    (("backend-1", "catalog"), ⟨"services-main/catalog", ⟨.http, "127.0.0.1", 7001⟩, none, false⟩),
    (("backend-1", "search"), ⟨"services-main/search", ⟨.http, "127.0.0.1", 7002⟩, none, false⟩),
    (("backend-1", "catalog"), ⟨"services-main/search", ⟨.http, "127.0.0.1", 7002⟩, none, false⟩)]
  browserRoutes := [
    (("browser-backend", .origin "http://ui-2.localhost:3000"), ⟨"backend-1", ⟨.http, "127.0.0.1", 7003⟩, none, true⟩),
    (("browser-backend", .header "ui-1"), ⟨"backend-1", ⟨.http, "127.0.0.1", 7003⟩, none, true⟩)]

theorem compile_originConfig : compile (fun _ => "") originConfig = .ok originSnapshot := by decide +kernel

/-- Its browser listener. -/
def browserProxy : ApmprProxy :=
  ⟨⟨none, ⟨.localhost, 8080⟩, .http, none, [.legacyLocalhost "browser-backend" "localhost"], none, none⟩, none, .default,
    16384⟩

/-- All providers are well and on one address. -/
def wellNetwork : Network := ⟨fun _ _ => none, fun endpoint => .ok ⟨.localhost, endpoint.port⟩⟩

/-- A request of the second browser, with a value of the explicit route header. -/
def browserRequest (route : List UInt8) : RequestHeader :=
  ⟨"GET", "/", [("host", Utf8.encode "localhost:8080".toList),
    ("origin", Utf8.encode "http://ui-2.localhost:3000".toList), ("x-apmpr-route", route)]⟩

theorem explicit_obeyed_iff_ui :
    browserProxy.listener.consumer = none ∧
      0 < headerCount (browserRequest (Utf8.encode "ui-1".toList)) browserProxy.identity.explicitHeader ∧
      ExplicitObeyed browserProxy wellNetwork originSnapshot (browserRequest (Utf8.encode "ui-1".toList)) :=
  ⟨rfl, by decide, (explicit_obeyed_iff (by rfl) (by decide)).mpr (.inr (.inl ⟨"ui-1", by decide +kernel⟩))⟩

/-- A header whose value is no text is ignored, and the request goes where its Origin says. -/
theorem explicit_ignored :
    compile (fun _ => "") originConfig = .ok originSnapshot ∧ browserProxy.listener ∈ originConfig.spec.listeners ∧
      browserProxy.listener.consumer = none ∧
      0 < headerCount (browserRequest [0xE4]) browserProxy.identity.explicitHeader ∧
      ¬ ExplicitObeyed browserProxy wellNetwork originSnapshot (browserRequest [0xE4]) := by
  refine ⟨compile_originConfig, .tail _ (.head _), rfl, by decide, fun hobeyed => ?_⟩
  obtain ⟨-, slot, value, text, -, hvalue, htext, -⟩ :=
    hobeyed ⟨"backend-1", ⟨.http, "127.0.0.1", 7003⟩, none, true⟩ (by decide +kernel)
  have hget : getAll (browserRequest [0xE4]).headers browserProxy.identity.explicitHeader = [[0xE4]] := by decide
  rw [hget] at hvalue
  obtain rfl := List.singleton_injective hvalue
  have hunread : toStr [0xE4] = none := by decide
  rw [hunread] at htext
  cases htext

/-! ### CORS -/

section Cors

variable {checksum : RouterConfig → String} {config : RouterConfig} {snapshot : CompiledSnapshot} {proxy : ApmprProxy}
  {network : Network} {request : RequestHeader} {upstream : Upstream}

/-- The text of a visible value has its bytes. -/
theorem encode_of_toStr {value : List UInt8} {text : String} (h : toStr value = some text) :
    Utf8.encode text.toList = value := by
  unfold toStr at h
  split_ifs at h with hvisible
  obtain rfl := Option.some.inj h
  rw [String.toList_ofList]
  clear h
  induction value with
  | nil => rfl
  | cons byte rest ih =>
    rw [List.all_cons, Bool.and_eq_true] at hvisible
    have hascii : byte.toNat < 128 := by
      have := hvisible.1
      simp only [isVisible, Bool.or_eq_true, Bool.and_eq_true, decide_eq_true_eq] at this
      omega
    have hone := Utf8.encodeChar_of_ascii hascii
    rw [List.map_cons, Utf8.encode_cons, hone, ih hvisible.2, List.singleton_append]

/-- The Origin a request may be answered with is its own, and one of a route of its destination. -/
theorem corsOrigin_spec (h : compile checksum config = .ok snapshot) {slot : RouteSlotId} {origin : String}
    (hcount : headerCount request "origin" ≤ 1) (horigin : corsOrigin snapshot slot request = some origin) :
    (∃ value, getAll request.headers "origin" = [value] ∧ toStr value = some origin) ∧
      ∃ route ∈ config.spec.browserRoutes, route.destination = slot ∧ route.identity = .origin origin := by
  rw [corsOrigin, Option.filter_eq_some_iff] at horigin
  obtain ⟨htext, hknown⟩ := horigin
  constructor
  · rw [headerText, Option.bind_eq_some_iff] at htext
    obtain ⟨value, hhead, htext⟩ := htext
    unfold headerCount at hcount
    cases hvalues : getAll request.headers "origin" with
    | nil => simp [hvalues] at hhead
    | cons first rest =>
      rw [hvalues] at hhead hcount
      obtain rfl := Option.some.inj hhead
      rw [List.length_cons] at hcount
      obtain rfl := List.eq_nil_of_length_eq_zero (by omega : rest.length = 0)
      exact ⟨first, rfl, htext⟩
  · cases hlookup : snapshot.lookupBrowser ⟨slot, none, some origin, none⟩ with
    | error error => simp [hlookup] at hknown
    | ok t =>
      obtain ⟨-, key, hkey, route, hmem, hdestination, hidentity, -⟩ := (lookupBrowser_ok_iff h).mp hlookup
      obtain rfl := Option.some.inj hkey
      refine ⟨route, hmem, hdestination, ?_⟩
      cases hroute : route.identity <;> simp_all [BrowserIdentity.toKey]

theorem getAll_removeHeader (headers : HeaderMap) (name name' : String) :
    getAll (removeHeader name headers) name' =
      if Text.toAsciiLowercase name = Text.toAsciiLowercase name' then [] else getAll headers name' := by
  unfold getAll removeHeader
  rw [List.filter_filter]
  split_ifs with hname
  · rw [List.filter_eq_nil_iff.mpr, List.map_nil]
    intro field _
    simp [hname]
  · congr 1
    apply List.filter_congr
    intro field _
    by_cases hfield : field.1 = Text.toAsciiLowercase name' <;> simp [hfield, Ne.symm hname]

theorem getAll_appendHeader (headers : HeaderMap) (name value name' : String) :
    getAll (appendHeader name value headers) name' =
      getAll headers name' ++
        if Text.toAsciiLowercase name = Text.toAsciiLowercase name' then [Utf8.encode value.toList] else [] := by
  unfold getAll appendHeader
  rw [List.filter_append, List.map_append]
  split_ifs with hname <;> simp [hname]

theorem getAll_insertHeader (headers : HeaderMap) (name value name' : String) :
    getAll (insertHeader name value headers) name' =
      if Text.toAsciiLowercase name = Text.toAsciiLowercase name' then [Utf8.encode value.toList]
      else getAll headers name' := by
  unfold insertHeader
  rw [getAll_appendHeader, getAll_removeHeader]
  split_ifs <;> simp

/-- The headers without the CORS headers. -/
theorem foldl_removeHeader (names : List String) (headers : HeaderMap) :
    names.foldl (fun headers name => removeHeader name headers) headers =
      headers.filter fun field => field.1 ∉ names.map Text.toAsciiLowercase := by
  induction names generalizing headers with
  | nil => simp
  | cons name names ih =>
    rw [List.foldl_cons, ih, removeHeader, List.filter_filter]
    apply List.filter_congr
    intro field _
    by_cases hname : field.1 = Text.toAsciiLowercase name <;> simp [hname]

/-- A response without the CORS headers. -/
def Response.withoutCors (response : Response) : Response :=
  { response with headers := CORS_HEADERS.foldl (fun headers name => removeHeader name headers) response.headers }

/-- What a provider answers without the CORS headers. -/
def Upstream.withoutCors (upstream : Upstream) : Upstream :=
  { upstream with responses := upstream.responses.map Response.withoutCors }

/-- The CORS headers of a provider's response are not seen. -/
theorem applyCorsResponseHeaders_withoutCors (response : Response) (cors : Option String) :
    applyCorsResponseHeaders response.withoutCors cors = applyCorsResponseHeaders response cors := by
  have hidem : CORS_HEADERS.foldl (fun headers name => removeHeader name headers) response.withoutCors.headers =
      CORS_HEADERS.foldl (fun headers name => removeHeader name headers) response.headers := by
    simp only [Response.withoutCors, foldl_removeHeader, List.filter_filter, Bool.and_self]
  unfold applyCorsResponseHeaders
  rw [hidem]
  rfl

/-- Of the CORS headers a response has that of an Origin, at most. -/
def AllowsOnly (cors : Option String) (response : Response) : Prop :=
  ∀ name ∈ CORS_HEADERS, getAll response.headers name =
    if name = "access-control-allow-origin" then (cors.map fun origin => Utf8.encode origin.toList).toList else []

theorem lower_ne {name : String} (hname : name ∈ CORS_HEADERS) (other : String)
    (hother : other ∈ ["content-length", "content-type", "vary", "proxy-authenticate"]) :
    Text.toAsciiLowercase other ≠ Text.toAsciiLowercase name := by
  have hall : ∀ name ∈ CORS_HEADERS, ∀ other ∈ ["content-length", "content-type", "vary", "proxy-authenticate"],
      Text.toAsciiLowercase other ≠ Text.toAsciiLowercase name := by decide +kernel
  exact hall name hname other hother

theorem lower_allowOrigin_iff {name : String} (hname : name ∈ CORS_HEADERS) :
    Text.toAsciiLowercase "access-control-allow-origin" = Text.toAsciiLowercase name ↔
      name = "access-control-allow-origin" := by
  have hall : ∀ name ∈ CORS_HEADERS,
      Text.toAsciiLowercase "access-control-allow-origin" = Text.toAsciiLowercase name ↔
        name = "access-control-allow-origin" := by decide +kernel
  exact hall name hname

theorem allowsOnly_errorResponse (status : ℕ) (code message : String) (candidates : Option (List BrowserRouteCandidate))
    (cors : Option String) : AllowsOnly cors (errorResponse status code message candidates cors) := by
  intro name hname
  have hlength := lower_ne hname "content-length" (by simp)
  have htype := lower_ne hname "content-type" (by simp)
  have hvary := lower_ne hname "vary" (by simp)
  have hnil : getAll [] name = [] := rfl
  unfold errorResponse
  cases cors with
  | none => simp [getAll_insertHeader, hlength, htype, hnil]
  | some origin => simp [getAll_insertHeader, hlength, htype, hvary, lower_allowOrigin_iff hname, hnil]

theorem allowsOnly_proxyAuthenticationRequired : AllowsOnly none proxyAuthenticationRequired := by
  intro name hname
  have hlength := lower_ne hname "content-length" (by simp)
  have htype := lower_ne hname "content-type" (by simp)
  have hask := lower_ne hname "proxy-authenticate" (by simp)
  have hnil : getAll [] name = [] := rfl
  simp [proxyAuthenticationRequired, getAll_insertHeader, hlength, htype, hask, hnil]

theorem allowsOnly_applyCorsResponseHeaders (response : Response) (cors : Option String) :
    AllowsOnly cors (applyCorsResponseHeaders response cors) := by
  intro name hname
  have hvary := lower_ne hname "vary" (by simp)
  have hremoved : getAll (CORS_HEADERS.foldl (fun headers name => removeHeader name headers) response.headers) name = [] := by
    unfold getAll
    rw [foldl_removeHeader, List.filter_filter, List.map_eq_nil_iff, List.filter_eq_nil_iff]
    intro field _
    have hmem := List.mem_map_of_mem (f := Text.toAsciiLowercase) hname
    by_cases hfield : field.1 = Text.toAsciiLowercase name
    · simpa [hfield] using ⟨name, hname, rfl⟩
    · simp [hfield]
  unfold applyCorsResponseHeaders
  dsimp only
  rw [apply_ite (getAll · name), getAll_appendHeader, if_neg hvary, List.append_nil, ite_self]
  cases cors with
  | none => simpa using hremoved
  | some origin =>
    dsimp only
    rw [getAll_insertHeader, hremoved]
    simp [lower_allowOrigin_iff hname]

/-- The Origins an answer may allow: that of the request, where its destination is known. -/
def Permitted (proxy : ApmprProxy) (snapshot : CompiledSnapshot) (request : RequestHeader) (cors : Option String) :
    Prop :=
  cors = none ∨ ∃ slot, admission proxy request = .ok slot ∧ headerCount request "origin" ≤ 1 ∧
    cors = corsOrigin snapshot slot request

theorem answerPreflight_cases (target : RouteTarget) (cors : Option String) (request : RequestHeader) :
    (∃ response, answerPreflight target cors request = .rejected response ∧ (AllowsOnly none response ∨ AllowsOnly cors response)) ∨
    ∃ origin preflight, cors = some origin ∧ parseCorsPreflight request = .ok preflight ∧
      answerPreflight target cors request = .preflight target (preflightResponse origin preflight) := by
  unfold answerPreflight
  cases cors with
  | none => exact .inl ⟨_, rfl, .inl (allowsOnly_errorResponse _ _ _ _ _)⟩
  | some origin =>
    cases hparse : parseCorsPreflight request with
    | error message => exact .inl ⟨_, rfl, .inr (allowsOnly_errorResponse _ _ _ _ _)⟩
    | ok preflight => exact .inr ⟨origin, preflight, rfl, rfl, rfl⟩

theorem sendOn_cases (network : Network) (target : RouteTarget) (cors : Option String) :
    (∃ response, sendOn network target cors = .rejected response ∧ AllowsOnly cors response) ∨
    ∃ address, sendOn network target cors = .forward target address := by
  unfold sendOn
  cases target.healthCheck.bind (network.probe target.endpoint) with
  | some message => exact .inl ⟨_, rfl, allowsOnly_errorResponse _ _ _ _ _⟩
  | none =>
    cases network.resolve target.endpoint with
    | error message => exact .inl ⟨_, rfl, allowsOnly_errorResponse _ _ _ _ _⟩
    | ok address => exact .inr ⟨address, rfl⟩

variable (snapshot network request) in
/-- How a request on a listener without a consumer leaves `request_filter`. -/
theorem requestFilter_cases (hconsumer : proxy.listener.consumer = none) :
    (∃ response cors, (requestFilter proxy network snapshot request).1 = .rejected response ∧
      Permitted proxy snapshot request cors ∧ AllowsOnly cors response) ∨
    (∃ slot t origin preflight, admission proxy request = .ok slot ∧ Selected proxy snapshot slot request t ∧
      isCorsPreflight request = true ∧ corsOrigin snapshot slot request = some origin ∧
      parseCorsPreflight request = .ok preflight ∧
      (requestFilter proxy network snapshot request).1 = .preflight t (preflightResponse origin preflight)) ∨
    ∃ slot t address, admission proxy request = .ok slot ∧ Selected proxy snapshot slot request t ∧
      ¬ isCorsPreflight request = true ∧
      requestFilter proxy network snapshot request = (.forward t address, true, corsOrigin snapshot slot request) := by
  unfold requestFilter
  cases hadmission : admission proxy request with
  | error response =>
    refine .inl ⟨response, none, rfl, .inl rfl, ?_⟩
    unfold admission at hadmission
    split_ifs at hadmission
    · obtain rfl := Except.error.inj hadmission
      exact allowsOnly_errorResponse _ _ _ _ _
    · obtain rfl := Except.error.inj hadmission
      exact allowsOnly_proxyAuthenticationRequired
    · cases hslot : destinationSlot proxy.listener request with
      | none =>
        rw [hslot] at hadmission
        obtain rfl := Except.error.inj hadmission
        exact allowsOnly_errorResponse _ _ _ _ _
      | some slot => simp [hslot] at hadmission
  | ok slot =>
    have hroute : route proxy snapshot slot request = browserTarget proxy snapshot slot request := by
      unfold route
      rw [hconsumer]
    dsimp only
    rw [hroute]
    rcases browserTarget_cases proxy snapshot slot request with
      ⟨t, hselected, heq⟩ | ⟨status, code, message, cors, -, hcors, heq⟩
    · have hpermitted : Permitted proxy snapshot request (corsOrigin snapshot slot request) :=
        .inr ⟨slot, hadmission, hselected.2.1, rfl⟩
      rw [heq]
      by_cases hpreflight : isCorsPreflight request = true
      · have hfinish : finish network ⟨true, corsOrigin snapshot slot request, .ok (some t)⟩ request =
            answerPreflight t (corsOrigin snapshot slot request) request := by simp [finish, hpreflight]
        rcases answerPreflight_cases t (corsOrigin snapshot slot request) request with
          ⟨response, hanswer, hallows | hallows⟩ | ⟨origin, preflight, horigin, hparse, hanswer⟩
        · exact .inl ⟨response, none, hfinish.trans hanswer, .inl rfl, hallows⟩
        · exact .inl ⟨response, _, hfinish.trans hanswer, hpermitted, hallows⟩
        · exact .inr (.inl ⟨slot, t, origin, preflight, rfl, hselected, hpreflight, horigin, hparse,
            hfinish.trans hanswer⟩)
      · have hfinish : finish network ⟨true, corsOrigin snapshot slot request, .ok (some t)⟩ request =
            sendOn network t (corsOrigin snapshot slot request) := by simp [finish, hpreflight]
        rcases sendOn_cases network t (corsOrigin snapshot slot request) with
          ⟨response, hsend, hallows⟩ | ⟨address, hsend⟩
        · exact .inl ⟨response, _, hfinish.trans hsend, hpermitted, hallows⟩
        · exact .inr (.inr ⟨slot, t, address, rfl, hselected, hpreflight, by rw [hfinish, hsend]⟩)
    · rw [heq]
      refine .inl ⟨_, cors, rfl, ?_, allowsOnly_errorResponse _ _ _ _ _⟩
      rcases hcors with rfl | ⟨hcount, rfl⟩
      · exact .inl rfl
      · exact .inr ⟨slot, hadmission, hcount, rfl⟩

/-- What a preflight is checked for, besides the names of the headers it asks for. -/
def PreflightChecked (request : RequestHeader) : Prop :=
  headerCount request "access-control-request-method" = 1 ∧
    headerCount request "access-control-request-headers" ≤ 1 ∧
    headerCount request "access-control-request-private-network" ≤ 1 ∧
    (headerText request "access-control-request-method").any boundedMethod = true ∧
    (headerText request "access-control-request-private-network").all
      (fun value => Text.toAsciiLowercase value = "true") = true

/-- A preflight is parsed if it is checked, and what is read of the headers it asks for is bounded. -/
theorem parseCorsPreflight_ok_iff :
    (∃ preflight, parseCorsPreflight request = .ok preflight) ↔
      PreflightChecked request ∧ (headerText request "access-control-request-headers").all boundedNames = true := by
  unfold parseCorsPreflight PreflightChecked
  by_cases hcount : headerCount request "access-control-request-method" = 1 ∧
      headerCount request "access-control-request-headers" ≤ 1 ∧
      headerCount request "access-control-request-private-network" ≤ 1
  · obtain ⟨hmethods, hheaders, hnetworks⟩ := hcount
    rw [if_neg (by simp; omega)]
    cases hmethod : (headerText request "access-control-request-method").filter boundedMethod with
    | none =>
      have hany : ¬ (headerText request "access-control-request-method").any boundedMethod = true := by
        cases htext : headerText request "access-control-request-method" <;> simp_all
      simp [hany]
    | some method =>
      obtain ⟨htext, hbounded⟩ := Option.filter_eq_some_iff.mp hmethod
      have hnetwork : (∃ network, privateNetwork request = .ok network) ↔
          (headerText request "access-control-request-private-network").all
            (fun value => Text.toAsciiLowercase value = "true") = true := by
        unfold privateNetwork
        cases headerText request "access-control-request-private-network" with
        | none => simp
        | some value => by_cases htrue : Text.toAsciiLowercase value = "true" <;> simp [htrue]
      dsimp only
      by_cases hnames : (headerText request "access-control-request-headers").all boundedNames = true
      · have hany : ¬ (headerText request "access-control-request-headers").any (fun value => !boundedNames value) = true := by
          cases hread : headerText request "access-control-request-headers" <;> simp_all
        rw [if_neg hany, ← hnetwork]
        cases privateNetwork request <;> simp [hmethods, hheaders, hnetworks, htext, hbounded, hnames, Except.map]
      · have hany : (headerText request "access-control-request-headers").any (fun value => !boundedNames value) = true := by
          cases hread : headerText request "access-control-request-headers" <;> simp_all
        rw [if_pos hany]
        simp [hnames]
  · rw [if_pos (by simp; omega)]
    constructor
    · rintro ⟨preflight, hpreflight⟩
      cases hpreflight
    · rintro ⟨⟨hmethods, hheaders, hnetworks, -⟩, -⟩
      exact absurd ⟨hmethods, hheaders, hnetworks⟩ hcount

/-- The CORS headers of all answers to a request keep to the configured origins, whatever the
provider says, and a preflight is answered only if it can be routed, and asks for a bounded
method and bounded headers. -/
structure CorsConfined (config : RouterConfig) (snapshot : CompiledSnapshot) (proxy : ApmprProxy) (network : Network)
    (request : RequestHeader) : Prop where
  allowed : ∀ upstream, ∀ response ∈ answers proxy network snapshot request upstream,
    ∀ value ∈ getAll response.headers "access-control-allow-origin",
      getAll request.headers "origin" = [value] ∧
      ∃ slot origin, destinationSlot proxy.listener request = some slot ∧ toStr value = some origin ∧
        ∃ route ∈ config.spec.browserRoutes, route.destination = slot ∧ route.identity = .origin origin
  own : ∀ upstream, answers proxy network snapshot request upstream.withoutCors =
    answers proxy network snapshot request upstream
  stripped : (∀ t response, (requestFilter proxy network snapshot request).1 ≠ .preflight t response) →
    ∀ upstream, ∀ response ∈ answers proxy network snapshot request upstream,
      ∀ name ∈ CORS_HEADERS, name ≠ "access-control-allow-origin" → getAll response.headers name = []
  preflight : ∀ t response, (requestFilter proxy network snapshot request).1 = .preflight t response →
    (∃ slot, destinationSlot proxy.listener request = some slot ∧
      snapshot.lookupBrowser ⟨slot, headerText request proxy.identity.explicitHeader, headerText request "origin",
        proxy.listener.proxyIdentity⟩ = .ok t) ∧
    (∃ value method, getAll request.headers "access-control-request-method" = [value] ∧ toStr value = some method ∧
      boundedMethod method = true) ∧
    ∀ value ∈ getAll request.headers "access-control-request-headers",
      ∃ names, toStr value = some names ∧ boundedNames names = true

/-- A preflight that can be routed, of a known Origin, that is checked. -/
def PreflightTaken (proxy : ApmprProxy) (snapshot : CompiledSnapshot) (request : RequestHeader) : Prop :=
  ∃ slot t, admission proxy request = .ok slot ∧ Selected proxy snapshot slot request t ∧
    isCorsPreflight request = true ∧ (corsOrigin snapshot slot request).isSome = true ∧ PreflightChecked request

theorem exists_of_headerCount {name : String} (h : headerCount request name ≤ 1) :
    getAll request.headers name = [] ∨ ∃ value, getAll request.headers name = [value] := by
  unfold headerCount at h
  cases hvalues : getAll request.headers name with
  | nil => exact .inl rfl
  | cons value rest =>
    rw [hvalues, List.length_cons] at h
    obtain rfl := List.eq_nil_of_length_eq_zero (by omega : rest.length = 0)
    exact .inr ⟨value, rfl⟩

/-- An Origin a request may be answered with is its own, and a configured one. -/
theorem origin_of_permitted (h : compile checksum config = .ok snapshot) {origin : String}
    (hpermitted : Permitted proxy snapshot request (some origin)) :
    getAll request.headers "origin" = [Utf8.encode origin.toList] ∧
      ∃ slot, destinationSlot proxy.listener request = some slot ∧ toStr (Utf8.encode origin.toList) = some origin ∧
        ∃ route ∈ config.spec.browserRoutes, route.destination = slot ∧ route.identity = .origin origin := by
  rcases hpermitted with hnone | ⟨slot, hadmission, hcount, hcors⟩
  · cases hnone
  · obtain ⟨⟨value, hvalue, htext⟩, hroute⟩ := corsOrigin_spec h hcount hcors.symm
    rw [encode_of_toStr htext]
    exact ⟨hvalue, slot, admission_ok hadmission, htext, hroute⟩

/-- When a preflight is answered, and with what. -/
theorem requestFilter_preflight_iff (hconsumer : proxy.listener.consumer = none) {t : RouteTarget} {response : Response} :
    (requestFilter proxy network snapshot request).1 = .preflight t response ↔
      ∃ slot origin preflight, admission proxy request = .ok slot ∧ Selected proxy snapshot slot request t ∧
        isCorsPreflight request = true ∧ corsOrigin snapshot slot request = some origin ∧
        parseCorsPreflight request = .ok preflight ∧ response = preflightResponse origin preflight := by
  have hcases := requestFilter_cases snapshot network request hconsumer
  constructor
  · intro hexit
    rcases hcases with ⟨rejection, cors, hreject, -⟩ |
      ⟨slot, t', origin, preflight, hadmission, hselected, hpreflight, horigin, hparse, hanswer⟩ | ⟨slot, t', address, -, -, -, hforward⟩
    · rw [hreject] at hexit
      cases hexit
    · rw [hanswer] at hexit
      cases hexit
      exact ⟨slot, origin, preflight, hadmission, hselected, hpreflight, horigin, hparse, rfl⟩
    · rw [hforward] at hexit
      cases hexit
  · rintro ⟨slot, origin, preflight, hadmission, hselected, hpreflight, horigin, hparse, rfl⟩
    have hseen : SeenThrough network snapshot slot request t := by
      unfold SeenThrough
      rw [if_pos hpreflight, horigin, hparse]
      exact ⟨rfl, rfl⟩
    have htarget := (target?_requestFilter hconsumer).mpr ⟨slot, hadmission, hselected, hseen⟩
    rcases hcases with ⟨rejection, cors, hreject, -⟩ |
      ⟨slot', t', origin', preflight', hadmission', -, -, horigin', hparse', hanswer⟩ | ⟨-, -, -, -, -, hnot, -⟩
    · rw [hreject] at htarget
      cases htarget
    · rw [hadmission] at hadmission'
      obtain rfl := Except.ok.inj hadmission'
      rw [horigin] at horigin'
      obtain rfl := Option.some.inj horigin'
      rw [hparse] at hparse'
      obtain rfl := Except.ok.inj hparse'
      rw [hanswer] at htarget ⊢
      obtain rfl := Option.some.inj htarget
      rfl
    · exact absurd hpreflight hnot

/-- The Origin the answer to a preflight allows. -/
theorem getAll_preflightResponse (origin : String) (preflight : CorsPreflight) :
    getAll (preflightResponse origin preflight).headers "access-control-allow-origin" = [Utf8.encode origin.toList] := by
  have hvary := lower_ne (by decide : "access-control-allow-origin" ∈ CORS_HEADERS) "vary" (by simp)
  have hmethods : Text.toAsciiLowercase "access-control-allow-methods" ≠ Text.toAsciiLowercase "access-control-allow-origin" := by
    decide
  have hheaders : Text.toAsciiLowercase "access-control-allow-headers" ≠ Text.toAsciiLowercase "access-control-allow-origin" := by
    decide
  have hnetwork : Text.toAsciiLowercase "access-control-allow-private-network" ≠
      Text.toAsciiLowercase "access-control-allow-origin" := by decide
  unfold preflightResponse
  cases preflight.requestedHeaders <;> cases preflight.privateNetwork <;>
    simp [getAll_insertHeader, hvary, hmethods, hheaders, hnetwork]

theorem answers_of_rejected {response : Response}
    (h : (requestFilter proxy network snapshot request).1 = .rejected response) (upstream : Upstream) :
    answers proxy network snapshot request upstream = [response] := by
  unfold answers
  rcases hexit : requestFilter proxy network snapshot request with ⟨exit, browserRouted, cors⟩
  rw [hexit] at h
  obtain rfl : exit = _ := h
  rfl

theorem answers_of_preflight {t : RouteTarget} {response : Response}
    (h : (requestFilter proxy network snapshot request).1 = .preflight t response) (upstream : Upstream) :
    answers proxy network snapshot request upstream = [response] := by
  unfold answers
  rcases hexit : requestFilter proxy network snapshot request with ⟨exit, browserRouted, cors⟩
  rw [hexit] at h
  obtain rfl : exit = _ := h
  rfl

theorem answers_of_forward {t : RouteTarget} {address : SocketAddress} {cors : Option String}
    (h : requestFilter proxy network snapshot request = (.forward t address, true, cors)) (upstream : Upstream) :
    answers proxy network snapshot request upstream =
      upstream.responses.map (fun response => applyCorsResponseHeaders response cors) ++
        (upstream.failure.map (failToProxy cors)).toList := by
  unfold answers
  rw [h]
  rfl

theorem allowsOnly_failToProxy (cors : Option String) (error : ProxyError) : AllowsOnly cors (failToProxy cors error) := by
  cases error
  · exact allowsOnly_errorResponse _ _ _ _ _
  · exact allowsOnly_errorResponse _ _ _ _ _
  · exact allowsOnly_errorResponse _ _ _ _ _

/-- Every answer but that to a preflight has no CORS header but that of an Origin that is permitted. -/
theorem answers_allow (hconsumer : proxy.listener.consumer = none)
    (hexit : ∀ t response, (requestFilter proxy network snapshot request).1 ≠ .preflight t response)
    (upstream : Upstream) :
    ∃ cors, Permitted proxy snapshot request cors ∧
      ∀ response ∈ answers proxy network snapshot request upstream, AllowsOnly cors response := by
  rcases requestFilter_cases snapshot network request hconsumer with
    ⟨rejection, cors, hreject, hpermitted, hallows⟩ | ⟨_, t, _, _, -, -, -, -, -, hpreflight⟩ |
    ⟨slot, t, address, hadmission, hselected, -, hforward⟩
  · refine ⟨cors, hpermitted, fun response hmem => ?_⟩
    rw [answers_of_rejected hreject] at hmem
    obtain rfl := List.mem_singleton.mp hmem
    exact hallows
  · exact absurd hpreflight (hexit t _)
  · refine ⟨_, .inr ⟨slot, hadmission, hselected.2.1, rfl⟩, fun response hmem => ?_⟩
    rw [answers_of_forward hforward, List.mem_append] at hmem
    rcases hmem with hmem | hmem
    · obtain ⟨original, -, rfl⟩ := List.mem_map.mp hmem
      exact allowsOnly_applyCorsResponseHeaders original _
    · rw [Option.mem_toList, Option.map_eq_some_iff] at hmem
      obtain ⟨error, -, rfl⟩ := hmem
      exact allowsOnly_failToProxy _ error

/-- The CORS headers of the answers keep to the configured origins, and a preflight is answered
only as it should be, unless what a preflight that is taken asks for is no text: then it is
answered as if it had not asked. -/
theorem cors_confined_iff (h : compile checksum config = .ok snapshot) (hconsumer : proxy.listener.consumer = none) :
    CorsConfined config snapshot proxy network request ↔
      (∀ value ∈ getAll request.headers "access-control-request-headers", ∃ names, toStr value = some names) ∨
      ¬ PreflightTaken proxy snapshot request := by
  constructor
  · intro hconfined
    by_contra hnot
    push Not at hnot
    obtain ⟨⟨value, hvalue, hunread⟩, slot, t, hadmission, hselected, hpreflight, horigin, hchecked⟩ := hnot
    have hnone : headerText request "access-control-request-headers" = none := by
      rcases exists_of_headerCount hchecked.2.1 with hnil | ⟨only, honly⟩
      · simp [hnil] at hvalue
      · rw [honly, List.mem_singleton] at hvalue
        subst hvalue
        simpa [headerText, honly] using Option.eq_none_iff_forall_ne_some.mpr hunread
    obtain ⟨preflight, hparse⟩ := parseCorsPreflight_ok_iff.mpr ⟨hchecked, by simp [hnone]⟩
    obtain ⟨origin, horigin⟩ := Option.isSome_iff_exists.mp horigin
    have hexit : (requestFilter proxy network snapshot request).1 = .preflight t (preflightResponse origin preflight) :=
      (requestFilter_preflight_iff hconsumer).mpr
        ⟨slot, origin, preflight, hadmission, hselected, hpreflight, horigin, hparse, rfl⟩
    obtain ⟨names, hnames, -⟩ := (hconfined.preflight t _ hexit).2.2 value hvalue
    exact hunread names hnames
  · intro hcond
    constructor
    case allowed =>
      intro upstream response hmem value hvalue
      have hpermitted : ∃ origin, Permitted proxy snapshot request (some origin) ∧ value = Utf8.encode origin.toList := by
        by_cases hexit : ∃ t response, (requestFilter proxy network snapshot request).1 = .preflight t response
        · obtain ⟨t, answer, hexit⟩ := hexit
          rw [answers_of_preflight hexit] at hmem
          obtain rfl := List.mem_singleton.mp hmem
          obtain ⟨slot, origin, preflight, hadmission, hselected, -, horigin, -, rfl⟩ :=
            (requestFilter_preflight_iff hconsumer).mp hexit
          refine ⟨origin, .inr ⟨slot, hadmission, hselected.2.1, horigin.symm⟩, ?_⟩
          rw [getAll_preflightResponse] at hvalue
          exact List.mem_singleton.mp hvalue
        · push Not at hexit
          obtain ⟨cors, hpermitted, hallows⟩ := answers_allow hconsumer hexit upstream
          rw [hallows response hmem _ (by decide), if_pos rfl] at hvalue
          cases cors with
          | none => cases hvalue
          | some origin => exact ⟨origin, hpermitted, List.mem_singleton.mp hvalue⟩
      obtain ⟨origin, hpermitted, rfl⟩ := hpermitted
      obtain ⟨hvalues, slot, hslot, htext, hroute⟩ := origin_of_permitted h hpermitted
      exact ⟨hvalues, slot, origin, hslot, htext, hroute⟩
    case own =>
      intro upstream
      rcases requestFilter_cases snapshot network request hconsumer with
        ⟨rejection, cors, hreject, -⟩ | ⟨slot, t, origin, preflight, -, -, -, -, -, hanswer⟩ |
        ⟨slot, t, address, -, -, -, hforward⟩
      · rw [answers_of_rejected hreject, answers_of_rejected hreject]
      · rw [answers_of_preflight hanswer, answers_of_preflight hanswer]
      · rw [answers_of_forward hforward, answers_of_forward hforward]
        simp only [Upstream.withoutCors, List.map_map, Function.comp_def, applyCorsResponseHeaders_withoutCors]
    case stripped =>
      intro hexit upstream response hmem name hname hne
      obtain ⟨cors, -, hallows⟩ := answers_allow hconsumer hexit upstream
      rw [hallows response hmem name hname, if_neg hne]
    case preflight =>
      intro t response hexit
      obtain ⟨slot, origin, preflight, hadmission, hselected, hpreflight, horigin, hparse, rfl⟩ :=
        (requestFilter_preflight_iff hconsumer).mp hexit
      obtain ⟨hchecked, hnames⟩ := parseCorsPreflight_ok_iff.mp ⟨preflight, hparse⟩
      refine ⟨⟨slot, admission_ok hadmission, hselected.2.2.2⟩, ?_, fun value hvalue => ?_⟩
      · obtain ⟨value, hvalue⟩ := List.length_eq_one_iff.mp hchecked.1
        obtain ⟨method, htext, hbounded⟩ := (Option.any_eq_true _ _).mp hchecked.2.2.2.1
        refine ⟨value, method, hvalue, ?_, hbounded⟩
        simpa [headerText, hvalue] using htext
      · rcases hcond with hread | hnot
        · obtain ⟨names, hread⟩ := hread value hvalue
          refine ⟨names, hread, ?_⟩
          rcases exists_of_headerCount hchecked.2.1 with hnil | ⟨only, honly⟩
          · simp [hnil] at hvalue
          · rw [honly, List.mem_singleton] at hvalue
            subst hvalue
            simpa [headerText, honly, hread] using hnames
        · exact absurd ⟨slot, t, hadmission, hselected, hpreflight, by simp [horigin], hchecked⟩ hnot

/-- A preflight of the second browser, with the names of the headers it asks for. -/
def preflightRequest (names : List UInt8) : RequestHeader :=
  ⟨"OPTIONS", "/", [("host", Utf8.encode "localhost:8080".toList),
    ("origin", Utf8.encode "http://ui-2.localhost:3000".toList),
    ("access-control-request-method", Utf8.encode "POST".toList), ("access-control-request-headers", names)]⟩

theorem cors_confined_iff_ui :
    compile (fun _ => "") originConfig = .ok originSnapshot ∧ browserProxy.listener.consumer = none ∧
      CorsConfined originConfig originSnapshot browserProxy wellNetwork
        (preflightRequest (Utf8.encode "content-type".toList)) := by
  refine ⟨compile_originConfig, rfl, (cors_confined_iff compile_originConfig (by rfl)).mpr (.inl fun value hvalue => ?_)⟩
  have hget : getAll (preflightRequest (Utf8.encode "content-type".toList)).headers "access-control-request-headers" =
      [Utf8.encode "content-type".toList] := by decide +kernel
  rw [hget, List.mem_singleton] at hvalue
  subst hvalue
  exact ⟨"content-type", by decide +kernel⟩

/-- A preflight that asks for headers that are no text is answered. -/
theorem preflight_unread :
    compile (fun _ => "") originConfig = .ok originSnapshot ∧ browserProxy.listener ∈ originConfig.spec.listeners ∧
      browserProxy.listener.consumer = none ∧
      ¬ CorsConfined originConfig originSnapshot browserProxy wellNetwork (preflightRequest [0xE4]) := by
  refine ⟨compile_originConfig, .tail _ (.head _), rfl, fun hconfined => ?_⟩
  have hexit : (requestFilter browserProxy wellNetwork originSnapshot (preflightRequest [0xE4])).1 =
      .preflight ⟨"backend-1", ⟨.http, "127.0.0.1", 7003⟩, none, true⟩
        (preflightResponse "http://ui-2.localhost:3000" ⟨"POST", none, false⟩) := by decide +kernel
  obtain ⟨names, hnames, -⟩ := (hconfined.preflight _ _ hexit).2.2 [0xE4] (by decide)
  have hunread : toStr [0xE4] = none := by decide
  rw [hunread] at hnames
  cases hnames

end Cors

end Apmpr.Router.HttpProxy
