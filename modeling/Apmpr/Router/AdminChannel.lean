import Apmpr.Lib.CodecText
import Apmpr.Lib.Run
import Apmpr.Lib.Utf8
import Apmpr.Router.Encoding
import Apmpr.Router.Process
import Mathlib.Data.List.GetD
import Mathlib.Data.Nat.Bitwise

/-!
# The administration channel

Both ends of the channel a router is administered over. The router (`serve_connection` of the crate
`apmpr-router`) reads one line of at most a mebibyte, decodes it, compares its token and executes
its command; the client (the crate `apmpr-router-admin`) writes a request, over the socket or
through `admin-client` in the router's container, and reads one line. The commands are those of
the process; what the counters and the events say is given with a connection.

## What is proved

`serve_refines` — over any sequence of connections with any bytes the router does what the commands
of the authorized lines do, and nothing else; and which lines these are.
`applySnapshot_told` — a client with the token is told exactly how its snapshot was taken, one without
it changes nothing, and one that loses the response does not know; a request that does not come through
changes nothing.
-/

namespace Apmpr.Router

/-! ### The text of a configuration -/

namespace Encoding

instance : ipAddr.Printable := ⟨fun address => .string address.display⟩

instance : protocol.Printable := Codec.Printable.enum _ _ _

instance : transitionPolicy.Printable := by
  unfold transitionPolicy
  infer_instance

instance : transitionPolicies.Printable := by
  unfold transitionPolicies
  infer_instance

instance : routeSnapshot.Printable := by
  unfold routeSnapshot
  infer_instance

instance : socketAddress.Printable := by
  unfold socketAddress
  infer_instance

instance : tlsIdentity.Printable := by
  unfold tlsIdentity
  infer_instance

instance : proxyAuthentication.Printable := by
  unfold proxyAuthentication
  infer_instance

instance : listenerDestination.Printable := by
  unfold listenerDestination
  infer_instance

instance : listener.Printable := by
  unfold listener
  infer_instance

instance : upstreamEndpoint.Printable := by
  unfold upstreamEndpoint
  infer_instance

instance : healthCheck.Printable := by
  unfold healthCheck
  infer_instance

instance (name : String) : (flag name).Printable := Fields.Printable.defaulted ..

instance {α : Type} (name : String) (codec : Codec α) [codec.Printable] : (items name codec).Printable :=
  Fields.Printable.withDefault ..

instance : provider.Printable := by
  unfold provider
  infer_instance

instance : serviceGroup.Printable := by
  unfold serviceGroup
  infer_instance

instance : binding.Printable := by
  unfold binding
  infer_instance

instance : route.Printable := by
  unfold route
  infer_instance

instance : browserIdentity.Printable := by
  unfold browserIdentity
  infer_instance

instance : browserRoute.Printable := by
  unfold browserRoute
  infer_instance

instance : transparentMember.Printable := by
  unfold transparentMember
  infer_instance

instance : transparentProxy.Printable := by
  unfold transparentProxy
  infer_instance

instance : gatewayExposure.Printable := by
  unfold gatewayExposure
  infer_instance

instance : identityPolicy.Printable := by
  unfold identityPolicy
  infer_instance

instance : routerSpec.Printable := by
  unfold routerSpec
  infer_instance

instance : routerConfig.Printable := by
  unfold routerConfig
  infer_instance

end Encoding

namespace AdminChannel

/-! ### The router -/

/-- `MAX_FRAME_BYTES`. -/
def MAX_FRAME_BYTES : ℕ := 1024 * 1024

/-- `constant_time_eq`. -/
def constantTimeEq (left right : List UInt8) : Bool :=
  (List.range (max left.length right.length)).foldl
    (fun difference index => difference ||| (left.getD index 0 ^^^ right.getD index 0).toNat)
    (left.length ^^^ right.length) = 0

/-- `read_frame`, after the first bytes of a frame. -/
def readFrameFrom (frame : List UInt8) : List UInt8 → Except String (List UInt8)
  | [] => .error "request must end with a newline"
  | byte :: rest =>
    if byte = 10 then .ok frame
    else if frame.length = MAX_FRAME_BYTES then .error "administration frame is too large"
    else readFrameFrom (frame ++ [byte]) rest

/-- `read_frame`. -/
def readFrame (input : List UInt8) : Except String (List UInt8) := readFrameFrom [] input

/-- A field that is there once. -/
def field (fields : List (String × Json)) (name : String) : Option Json :=
  match fields.filter fun field => field.1 = name with
  | [found] => some found.2
  | _ => none

/-- `AdminCommand`, by its `operation`; fields it does not know are passed over. -/
def decodeCommand (fields : List (String × Json)) (operation : String) : Option AdminCommand :=
  if operation = "validate" then ((field fields "config").bind Encoding.routerConfig.decode).map .validate
  else if operation = "apply" then ((field fields "config").bind Encoding.routerConfig.decode).map .apply
  else if operation = "current-version" then some .currentVersion
  else if operation = "routes" then some .routes
  else if operation = "health" then some .health
  else if operation = "drain" then some .drain
  else if operation = "counters" then some .counters
  else if operation = "events" then some .events
  else none

/-- `AdminRequest`: the token and the command. -/
def decodeRequest (value : Json) : Option (String × AdminCommand) :=
  value.asObject.bind fun fields =>
    ((field fields "token").bind Json.asStr).bind fun token =>
      (((field fields "operation").bind Json.asStr).bind (decodeCommand fields)).map fun command => (token, command)

/-- What the counters and the events of a router are. -/
structure Telemetry where
  dataPlane : Json
  adminRequests : ℕ
  adminConnections : ℕ
  adminErrors : ℕ
  controlEvents : Json
  httpEvents : Json
  printable : dataPlane.Printable ∧ controlEvents.Printable ∧ httpEvents.Printable

/-- A connection: what its command will ask of the surroundings, the bytes up to its end, and whether
its response can be written. -/
structure Connection where
  env : Environment
  telemetry : Telemetry
  input : List UInt8
  written : Bool

/-- A failure with its code. -/
def failure (code message : String) : Json := .object [("code", .string code), ("message", .string message)]

/-- One route of `inspect_routes`. -/
def inspectedRoute (route : InspectedRoute) : Json :=
  .object [("consumer", .string route.consumer), ("endpoint", Encoding.upstreamEndpoint.encode route.target.endpoint),
    ("provider", .string route.target.provider), ("slot", .string route.slot)]

/-- The outcome of a provider's probe. -/
def probed : Option String → Json
  | none => .object [("healthy", .bool true)]
  | some message => .object [("healthy", .bool false), ("message", .string message)]

/-- `ActivationStatus`, as it is answered. -/
def activationStatus : Codec ActivationStatus :=
  Codec.enum [.activated, .rejectedStale]
    (fun
      | .activated => "activated"
      | .rejectedStale => "rejected_stale")
    fun status => by cases status <;> decide

theorem transparentProxy_ne_null (proxy : TransparentProxy) : Encoding.transparentProxy.encode proxy ≠ .null := by
  rintro ⟨⟩

/-- Whether a command has succeeded, and what is answered. -/
def answerBody (telemetry : Telemetry) : Answer → Bool × Json
  | .identity id version checksum =>
    (true, .object [("checksum", .string checksum), ("id", .string id), ("version", .nat version.val)])
  | .invalidConfiguration message => (false, failure "invalid_configuration" message)
  | .providerUnhealthy active candidate providers =>
    (false, .object [("activeVersion", .nat active.val), ("candidateVersion", .nat candidate.val),
      ("code", .string "provider_unhealthy"),
      ("message", .string "candidate snapshot failed provider readiness; the previous snapshot remains active"),
      ("providers", Codec.string.map.encode providers), ("status", .string "rolled_back")])
  | .tcpReloadFailed message => (false, failure "tcp_reload_failed" message)
  | .applyFailed message => (false, failure "apply_failed" message)
  | .applied ack =>
    (true, .object [("checksum", .string ack.checksum), ("status", activationStatus.encode ack.status),
      ("version", .nat ack.version.val)])
  | .routes version checksum consumerRoutes transparentProxy browserRoutes =>
    (true, .object [("browserRoutes", Encoding.browserRoute.list.encode browserRoutes), ("checksum", .string checksum),
      ("consumerRoutes", .array (consumerRoutes.map inspectedRoute)),
      ("transparentProxy", (Encoding.transparentProxy.option transparentProxy_ne_null).encode transparentProxy),
      ("version", .nat version.val)])
  | .health healthy providers =>
    (true, .object [("healthy", .bool healthy),
      ("providers", .object (providers.entries.map fun e => (e.1, probed e.2)))])
  | .draining => (true, .object [("status", .string "draining")])
  | .counters version =>
    (true, .object [("activeSnapshotVersion", .nat version.val), ("adminConnections", .nat telemetry.adminConnections),
      ("adminErrors", .nat telemetry.adminErrors), ("adminRequests", .nat telemetry.adminRequests),
      ("dataPlane", telemetry.dataPlane)])
  | .events => (true, .object [("controlEvents", telemetry.controlEvents), ("httpEvents", telemetry.httpEvents)])

/-- The response of `write_response`. -/
def response (body : Bool × Json) : Json :=
  .object (if body.1 then [("ok", .bool true), ("result", body.2)] else [("error", body.2), ("ok", .bool false)])

/-- A value as a line. -/
def line (value : Json) : List UInt8 := Utf8.encode (value.render.toList ++ ['\n'])

section Channel

-- the checksum of a configuration; `serde_json` on bytes, and its message for a value of another form
variable (checksum : RouterConfig → String) (parse : List UInt8 → Except String Json) (mismatch : Json → String)

/-- `serde_json::from_slice` for a request. -/
def readRequest (frame : List UInt8) : Except String (String × AdminCommand) :=
  match parse frame with
  | .error message => .error message
  | .ok value =>
    match decodeRequest value with
    | none => .error (mismatch value)
    | some request => .ok request

/-- `state_shutdown` comes after the response has been written; what a command has done before stays. -/
def afterResponse (written : Bool) (s executed : ControlState) : ControlState :=
  if written then executed else { executed with shutdown := s.shutdown }

/-- `serve_connection`: the state after it, and the response. -/
def serveConnection (expected : String) (s : ControlState) (connection : Connection) : ControlState × List UInt8 :=
  match readFrame connection.input with
  | .error message => (s, line (response (false, failure "invalid_frame" message)))
  | .ok frame =>
    match readRequest parse mismatch frame with
    | .error message => (s, line (response (false, failure "invalid_request" message)))
    | .ok (token, command) =>
      if constantTimeEq (Utf8.encode token.toList) (Utf8.encode expected.toList) then
        let executed := execute checksum s (connection.env, command)
        (afterResponse connection.written s executed.1, line (response (answerBody connection.telemetry executed.2)))
      else (s, line (response (false, failure "unauthorized" "invalid administration token")))

/-! ### What the router accepts -/

theorem foldl_or_eq_zero {difference : ℕ → ℕ} (l : List ℕ) (start : ℕ) :
    l.foldl (fun acc index => acc ||| difference index) start = 0 ↔
      start = 0 ∧ ∀ index ∈ l, difference index = 0 := by
  induction l generalizing start with
  | nil => simp
  | cons index l ih => rw [List.foldl_cons, ih, Nat.or_eq_zero_iff, List.forall_mem_cons, and_assoc]

/-- The comparison of bytes is equality. -/
theorem constantTimeEq_iff {left right : List UInt8} : constantTimeEq left right = true ↔ left = right := by
  rw [constantTimeEq, decide_eq_true_eq, foldl_or_eq_zero]
  constructor
  · rintro ⟨hlength, hbytes⟩
    have hlength : left.length = right.length := Nat.eq_of_xor_eq_zero hlength
    refine List.ext_getElem hlength fun index hleft hright => ?_
    have hbyte := hbytes index (List.mem_range.mpr (lt_max_of_lt_left hleft))
    have hxor : left.getD index 0 ^^^ right.getD index 0 = 0 := UInt8.toNat_inj.mp hbyte
    rw [UInt8.xor_eq_zero_iff, List.getD_eq_getElem _ _ hleft, List.getD_eq_getElem _ _ hright] at hxor
    exact hxor
  · rintro rfl
    exact ⟨Nat.xor_self _, fun index _ => by rw [UInt8.xor_self]; rfl⟩

theorem readFrameFrom_line (frame : List UInt8) {line : List UInt8} (hline : 10 ∉ line) (rest : List UInt8)
    (hframe : frame.length ≤ MAX_FRAME_BYTES) :
    readFrameFrom frame (line ++ 10 :: rest) =
      if (frame ++ line).length ≤ MAX_FRAME_BYTES then .ok (frame ++ line)
      else .error "administration frame is too large" := by
  induction line generalizing frame with
  | nil =>
    rw [List.nil_append, readFrameFrom, if_pos rfl, List.append_nil, if_pos hframe]
  | cons byte line ih =>
    rw [List.mem_cons, not_or] at hline
    obtain ⟨hbyte, hline⟩ := hline
    rw [List.cons_append, readFrameFrom, if_neg (Ne.symm hbyte)]
    split_ifs with hfull hfits hfits
    · simp only [List.length_append, List.length_cons] at hfits
      omega
    · rfl
    · rw [ih (frame ++ [byte]) hline (by rw [List.length_append, List.length_singleton]; omega), List.append_assoc,
        List.singleton_append, if_pos hfits]
    · rw [ih (frame ++ [byte]) hline (by rw [List.length_append, List.length_singleton]; omega), List.append_assoc,
        List.singleton_append, if_neg hfits]

theorem readFrameFrom_end (frame : List UInt8) {input : List UInt8} (hinput : 10 ∉ input) :
    ∃ message, readFrameFrom frame input = .error message := by
  induction input generalizing frame with
  | nil => exact ⟨_, rfl⟩
  | cons byte rest ih =>
    rw [List.mem_cons, not_or] at hinput
    obtain ⟨hbyte, hrest⟩ := hinput
    rw [readFrameFrom, if_neg (Ne.symm hbyte)]
    split_ifs
    · exact ⟨_, rfl⟩
    · exact ih _ hrest

/-- **A frame** is a line that is not too long. -/
theorem readFrame_ok_iff {input frame : List UInt8} :
    readFrame input = .ok frame ↔
      (∃ rest, input = frame ++ 10 :: rest) ∧ 10 ∉ frame ∧ frame.length ≤ MAX_FRAME_BYTES := by
  constructor
  · intro h
    by_cases hline : 10 ∈ input
    · obtain ⟨line, rest, rfl, hnot⟩ := List.eq_append_cons_of_mem hline
      rw [readFrame, readFrameFrom_line [] hnot rest (Nat.zero_le _)] at h
      split_ifs at h with hfits
      obtain rfl := Except.ok.inj h
      exact ⟨⟨rest, rfl⟩, hnot, hfits⟩
    · obtain ⟨message, hmessage⟩ := readFrameFrom_end [] hline
      rw [readFrame, hmessage] at h
      cases h
  · rintro ⟨⟨rest, rfl⟩, hline, hfits⟩
    rw [readFrame, readFrameFrom_line [] hline rest (Nat.zero_le _), List.nil_append, if_pos hfits]

/-- Whether a command waits for its response to be written. -/
def AwaitsResponse : AdminCommand → Prop
  | .drain => True
  | _ => False

instance (command : AdminCommand) : Decidable (AwaitsResponse command) := by
  unfold AwaitsResponse
  split <;> infer_instance

/-- The command of a connection whose line has the token; that of a drain only if its response is
written. -/
def authorized (expected : String) (connection : Connection) : Option (Environment × AdminCommand) :=
  match readFrame connection.input with
  | .error _ => none
  | .ok frame =>
    match readRequest parse mismatch frame with
    | .error _ => none
    | .ok (token, command) =>
      if token = expected ∧ (AwaitsResponse command → connection.written) then some (connection.env, command) else none

/-- An authorized command is one whose request is a line that is not too long and has the token. -/
theorem authorized_eq_some_iff {expected : String} {connection : Connection} {input : Environment × AdminCommand} :
    authorized parse mismatch expected connection = some input ↔
      input.1 = connection.env ∧ (AwaitsResponse input.2 → connection.written) ∧
        ∃ frame, ((∃ rest, connection.input = frame ++ 10 :: rest) ∧ 10 ∉ frame ∧
          frame.length ≤ MAX_FRAME_BYTES) ∧ readRequest parse mismatch frame = .ok (expected, input.2) := by
  simp only [← readFrame_ok_iff]
  unfold authorized
  constructor
  · intro h
    split at h
    · cases h
    · rename_i frame hframe
      split at h
      · cases h
      · rename_i token command hrequest
        split_ifs at h with htoken
        obtain ⟨rfl, hwritten⟩ := htoken
        obtain rfl := Option.some.inj h
        exact ⟨rfl, hwritten, frame, hframe, hrequest⟩
  · rintro ⟨henv, hwritten, frame, hframe, hrequest⟩
    rw [hframe]
    dsimp only
    rw [hrequest]
    dsimp only
    rw [if_pos ⟨rfl, hwritten⟩, ← henv]

/-- **The comparison of tokens** is equality of their texts. -/
theorem constantTimeEq_encode_iff {token expected : String} :
    constantTimeEq (Utf8.encode token.toList) (Utf8.encode expected.toList) = true ↔ token = expected := by
  rw [constantTimeEq_iff]
  refine ⟨fun h => String.toList_inj.mp ?_, fun h => h ▸ rfl⟩
  have hdecode := congrArg Utf8.decode h
  rwa [Utf8.decode_encode, Utf8.decode_encode, Option.some.injEq] at hdecode

/-- Only a drain shuts the router down. -/
theorem execute_shutdown (s : ControlState) (env : Environment) {command : AdminCommand} (h : ¬AwaitsResponse command) :
    (execute checksum s (env, command)).1.shutdown = s.shutdown := by
  cases command with
  | drain => exact absurd trivial h
  | validate config =>
    rw [execute]
    split <;> rfl
  | currentVersion | routes | health | counters | events => rfl
  | apply config =>
    rw [execute, executeApply]
    split
    · rfl
    · dsimp only
      split_ifs
      · rfl
      · split
        · rfl
        · unfold follow
          split
          · rfl
          · split <;> rfl

/-- An unwritten response only keeps a drain from taking place. -/
theorem afterResponse_execute (s : ControlState) (env : Environment) (command : AdminCommand) (written : Bool) :
    afterResponse written s (execute checksum s (env, command)).1 =
      if AwaitsResponse command → written then (execute checksum s (env, command)).1 else s := by
  rw [afterResponse]
  cases written with
  | true => simp
  | false =>
    by_cases hdrain : AwaitsResponse command
    · cases command with
      | drain => simp [AwaitsResponse, execute]
      | validate _ | apply _ | currentVersion | routes | health | counters | events => exact absurd hdrain id
    · have hsame := execute_shutdown checksum s env hdrain
      simp [hdrain, ← hsame]

/-- What one connection does to the router. -/
theorem serveConnection_state (expected : String) (s : ControlState) (connection : Connection) :
    (serveConnection checksum parse mismatch expected s connection).1 =
      match authorized parse mismatch expected connection with
      | none => s
      | some input => (execute checksum s input).1 := by
  unfold serveConnection authorized
  cases readFrame connection.input with
  | error message => rfl
  | ok frame =>
    dsimp only
    cases readRequest parse mismatch frame with
    | error message => rfl
    | ok request =>
      obtain ⟨token, command⟩ := request
      dsimp only
      by_cases hequal : token = expected
      · rw [if_pos (constantTimeEq_encode_iff.mpr hequal)]
        dsimp only
        rw [afterResponse_execute]
        by_cases hwritten : AwaitsResponse command → connection.written
        · rw [if_pos hwritten, if_pos ⟨hequal, hwritten⟩]
        · rw [if_neg hwritten, if_neg fun h => hwritten h.2]
      · rw [if_neg fun h => hequal (constantTimeEq_encode_iff.mp h), if_neg fun h => hequal h.1]

/-- Over any connections the router does what their authorized commands do. -/
theorem after_serveConnection (expected : String) (s : ControlState) (connections : List Connection) :
    after (serveConnection checksum parse mismatch expected) s connections =
      after (execute checksum) s (connections.filterMap (authorized parse mismatch expected)) := by
  induction connections generalizing s with
  | nil => rfl
  | cons connection connections ih =>
    rw [after_cons, serveConnection_state, List.filterMap_cons, ih]
    cases authorized parse mismatch expected connection <;> rfl

/-- **The router refines its process**: whatever bytes its connections bring, its state is the one the
authorized commands lead to, in their order; and an authorized command is one whose request is
a line that is not too long and has the token, of a drain one whose response is written too. -/
theorem serve_refines (expected : String) (s : ControlState) (connections : List Connection) :
    after (serveConnection checksum parse mismatch expected) s connections =
      after (execute checksum) s (connections.filterMap (authorized parse mismatch expected)) ∧
    ∀ connection input, authorized parse mismatch expected connection = some input ↔
      input.1 = connection.env ∧ (AwaitsResponse input.2 → connection.written) ∧
        ∃ frame, ((∃ rest, connection.input = frame ++ 10 :: rest) ∧ 10 ∉ frame ∧
          frame.length ≤ MAX_FRAME_BYTES) ∧ readRequest parse mismatch frame = .ok (expected, input.2) :=
  ⟨after_serveConnection checksum parse mismatch expected s connections,
    fun _ _ => authorized_eq_some_iff parse mismatch⟩

/-- A router that was started follows its configuration, whatever its connections bring. -/
theorem serve_follows {senv : StartEnvironment} {started : RouterConfig} {expected : String} {s : ControlState}
    (hstart : start checksum senv started expected = .ok s) (connections : List Connection) :
    Follows checksum started (after (serveConnection checksum parse mismatch expected) s connections) := by
  rw [after_serveConnection]
  exact after_invariant (P := Follows checksum started) (fun _ input hs => execute_follows hs input)
    (start_follows hstart) _

/-! ### The client -/

/-- `AdminError`. -/
inductive AdminError where
  | io (message : String)
  | endpoint (code message : String)
  | invalidResponse (message : String)
  | rejected (code message : String) (details : Json)

/-- `AdminEndpoint`; the labels of a container have been verified. -/
inductive AdminEndpoint where
  | unix
  | dockerExec

/-- `command_name`. -/
def commandName : AdminCommand → String
  | .validate _ => "validate"
  | .apply _ => "apply"
  | .currentVersion => "current-version"
  | .routes => "routes"
  | .health => "health"
  | .drain => "drain"
  | .counters => "counters"
  | .events => "events"

/-- The configuration of a command. -/
def commandConfig : AdminCommand → Option RouterConfig
  | .validate config | .apply config => some config
  | _ => none

/-- The request for a command. -/
def requestJson (token : String) (command : AdminCommand) : Json :=
  .object (((commandConfig command).map fun config => ("config", Encoding.routerConfig.encode config)).toList ++
    [("operation", .string (commandName command)), ("token", .string token)])

/-- `Value::get` and a text. -/
def getStr (value : Json) (name : String) : Option String :=
  (value.asObject.bind fun fields => fields.lookup name).bind Json.asStr

/-- `decode_response`. -/
def decodeResponse (text : List UInt8) : Except AdminError Json :=
  match parse text with
  | .error message => .error (.invalidResponse message)
  | .ok value =>
    match value.asObject.bind fun fields => fields.lookup "ok" with
    | some (.bool false) =>
      let error := ((value.asObject.bind fun fields => fields.lookup "error")).getD .null
      .error (.rejected ((getStr error "code").getD "unknown")
        ((getStr error "message").getD "router rejected the request") error)
    | _ =>
      match value.asObject.bind fun fields => fields.lookup "result" with
      | some result => .ok result
      | none => .error (.invalidResponse "missing result")

/-- A text that was read. -/
def decodeText (bytes : List UInt8) (otherwise : AdminError) : Except AdminError Json :=
  match Utf8.decode bytes with
  | none => .error otherwise
  | some _ => decodeResponse parse bytes

/-- A frame that `run_admin_client` passes on. -/
def relayed (bytes : List UInt8) : Bool := bytes.length ≤ MAX_FRAME_BYTES + 1 && bytes.getLast? = some 10

/-- What becomes of an exchange. The request may not come through, since the router cannot be reached or
the client cannot write any further; then the router has so many bytes of it at most, without the line
break. Or the client does not read the response in time, or not to its end, whether the router could
write it or not. -/
inductive Delivery where
  | requestLost (arrived : ℕ) (error : AdminError)
  | responseLost (written : Bool) (error : AdminError)
  | delivered

namespace Delivery

/-- What has arrived of a request. -/
def arrived (request : List UInt8) : Delivery → List UInt8
  | .requestLost arrived _ => request.dropLast.take arrived
  | .responseLost .. | .delivered => request

theorem arrived_responseLost (request : List UInt8) (written : Bool) (error : AdminError) :
    (responseLost written error).arrived request = request := rfl

theorem arrived_delivered (request : List UInt8) : delivered.arrived request = request := rfl

/-- Whether the router can write its response. -/
def written : Delivery → Bool
  | .requestLost .. => false
  | .responseLost written _ => written
  | .delivered => true

/-- What the client is left with, where `read` is what it makes of the response. -/
def told {α : Type} (read : Except AdminError α) : Delivery → Except AdminError α
  | .requestLost _ error | .responseLost _ error => .error error
  | .delivered => read

end Delivery

/-- `request`: the router after it, and the result. What `admin-client` fails with is told as the
container's shell reports it. -/
def exchange (report : String → String) (expected : String) (s : ControlState) (env : Environment)
    (telemetry : Telemetry) (endpoint : AdminEndpoint) (delivery : Delivery) (request : Json) :
    ControlState × Except AdminError Json :=
  let connection : Connection := ⟨env, telemetry, delivery.arrived (line request), delivery.written⟩
  match endpoint with
  | .unix =>
    let served := serveConnection checksum parse mismatch expected s connection
    (served.1, delivery.told (decodeText parse (Utf8.takeLine served.2).1 (.io "stream did not contain valid UTF-8")))
  | .dockerExec =>
    if relayed connection.input then
      let served := serveConnection checksum parse mismatch expected s connection
      if relayed served.2 then
        (served.1, delivery.told (decodeText parse served.2 (.invalidResponse "invalid utf-8 sequence")))
      else (served.1, delivery.told (.error (.endpoint "docker_command_failed"
        (report "administration response must be one newline-terminated frame of at most 1 MiB"))))
    else (s, delivery.told (.error (.endpoint "docker_command_failed"
      (report "administration request must be one newline-terminated frame of at most 1 MiB"))))

/-- The fields of `ApplyAcknowledgement`. -/
def acknowledgement : Fields ApplyAck :=
  ((Fields.required "version" (Codec.bounded (2 ^ 64))).and ((Fields.required "checksum" Codec.string).and
    (Fields.required "status" activationStatus))).imap
    (fun (version, checksum, status) => ApplyAck.mk version checksum status)
    (fun ack => (ack.version, ack.checksum, ack.status)) fun _ => rfl

/-- A result as an acknowledgement. -/
def asAcknowledgement (value : Json) : Except AdminError ApplyAck :=
  match value.asObject.bind fun fields => acknowledgement.decode fun name => fields.lookup name with
  | some ack => .ok ack
  | none => .error (.invalidResponse (mismatch value))

/-- `apply_snapshot`. -/
def applySnapshot (report : String → String) (expected : String) (s : ControlState) (env : Environment)
    (telemetry : Telemetry) (endpoint : AdminEndpoint) (delivery : Delivery) (token : String) (config : RouterConfig) :
    ControlState × Except AdminError ApplyAck :=
  let exchanged :=
    exchange checksum parse mismatch report expected s env telemetry endpoint delivery (requestJson token (.apply config))
  (exchanged.1, exchanged.2.bind (asAcknowledgement mismatch))

/-! ### What the client is told -/

/-- The request for a command is read back. -/
theorem decodeRequest_requestJson (token : String) (command : AdminCommand) :
    decodeRequest (requestJson token command) = some (token, command) := by
  cases command with
  | validate config | apply config =>
    simp [decodeRequest, requestJson, commandName, commandConfig, field, decodeCommand, Json.asObject, Json.asStr,
      Encoding.routerConfig.decode_encode]
  | currentVersion | routes | health | drain | counters | events =>
    simp [decodeRequest, requestJson, commandName, commandConfig, field, decodeCommand, Json.asObject, Json.asStr]

theorem printable_requestJson (token : String) (command : AdminCommand) : Json.Printable (requestJson token command) := by
  refine .object fun field hfield => ?_
  rcases List.mem_append.mp hfield with hfield | hfield
  · obtain ⟨config, -, rfl⟩ := Option.map_eq_some_iff.mp (Option.mem_toList.mp hfield)
    exact (inferInstance : Encoding.routerConfig.Printable).printable config
  · rcases List.mem_cons.mp hfield with rfl | hfield
    · exact .string _
    · obtain rfl := List.mem_singleton.mp hfield
      exact .string token

theorem printable_failure (code message : String) : Json.Printable (failure code message) := by
  refine .object ?_
  simp only [List.forall_mem_cons]
  exact ⟨.string code, .string message, List.forall_mem_nil _⟩

theorem printable_inspectedRoute (route : InspectedRoute) : Json.Printable (inspectedRoute route) := by
  refine .object ?_
  simp only [List.forall_mem_cons]
  exact ⟨.string _, (inferInstance : Encoding.upstreamEndpoint.Printable).printable _, .string _, .string _,
    List.forall_mem_nil _⟩

theorem printable_probed (outcome : Option String) : Json.Printable (probed outcome) := by
  cases outcome with
  | none =>
    refine .object ?_
    simp only [List.forall_mem_cons]
    exact ⟨.bool true, List.forall_mem_nil _⟩
  | some message =>
    refine .object ?_
    simp only [List.forall_mem_cons]
    exact ⟨.bool false, .string message, List.forall_mem_nil _⟩

/-- Every answer is printable. -/
theorem printable_answerBody (telemetry : Telemetry) (answer : Answer) :
    Json.Printable (answerBody telemetry answer).2 := by
  obtain ⟨hplane, hcontrol, hhttp⟩ := telemetry.printable
  cases answer with
  | invalidConfiguration message | tcpReloadFailed message | applyFailed message => exact printable_failure _ message
  | identity id version checksum =>
    refine .object ?_
    simp only [List.forall_mem_cons]
    exact ⟨.string _, .string _, .nat _, List.forall_mem_nil _⟩
  | providerUnhealthy active candidate failed =>
    refine .object ?_
    simp only [List.forall_mem_cons]
    exact ⟨.nat _, .nat _, .string _, .string _, (inferInstance : Codec.string.map.Printable).printable failed,
      .string _, List.forall_mem_nil _⟩
  | applied ack =>
    refine .object ?_
    simp only [List.forall_mem_cons]
    exact ⟨.string _, .string _, .nat _, List.forall_mem_nil _⟩
  | routes version checksum consumerRoutes transparentProxy browserRoutes =>
    refine .object ?_
    simp only [List.forall_mem_cons]
    refine ⟨(inferInstance : Encoding.browserRoute.list.Printable).printable browserRoutes, .string _, .array ?_, ?_,
      .nat _, List.forall_mem_nil _⟩
    · intro item hitem
      obtain ⟨route, -, rfl⟩ := List.mem_map.mp hitem
      exact printable_inspectedRoute route
    · exact Codec.Printable.printable transparentProxy
  | health healthy providers =>
    refine .object ?_
    simp only [List.forall_mem_cons]
    refine ⟨.bool _, .object ?_, List.forall_mem_nil _⟩
    intro field hfield
    obtain ⟨e, -, rfl⟩ := List.mem_map.mp hfield
    exact printable_probed e.2
  | draining =>
    refine .object ?_
    simp only [List.forall_mem_cons]
    exact ⟨.string _, List.forall_mem_nil _⟩
  | counters version =>
    refine .object ?_
    simp only [List.forall_mem_cons]
    exact ⟨.nat _, .nat _, .nat _, .nat _, hplane, List.forall_mem_nil _⟩
  | events =>
    refine .object ?_
    simp only [List.forall_mem_cons]
    exact ⟨hcontrol, hhttp, List.forall_mem_nil _⟩

theorem printable_response {body : Bool × Json} (h : Json.Printable body.2) : Json.Printable (response body) := by
  refine .object ?_
  split_ifs
  · simp only [List.forall_mem_cons]
    exact ⟨.bool true, h, List.forall_mem_nil _⟩
  · simp only [List.forall_mem_cons]
    exact ⟨h, .bool false, List.forall_mem_nil _⟩

/-- A line is the text of its value and a line break. -/
theorem line_eq (value : Json) : line value = Utf8.encode value.render.toList ++ [10] := Utf8.encode_append ..

/-- The text of a printable value has no line break. -/
theorem newline_not_mem_render {value : Json} (h : Json.Printable value) :
    (10 : UInt8) ∉ Utf8.encode value.render.toList :=
  Utf8.newline_not_mem_encode fun hc => (Json.oneLine_render h _ hc).1 rfl

/-- What a client is told of the answer to its snapshot. -/
def outcome (telemetry : Telemetry) (answer : Answer) : Except AdminError ApplyAck :=
  match answer with
  | .applied ack => .ok ack
  | .invalidConfiguration message =>
    .error (.rejected "invalid_configuration" message (answerBody telemetry answer).2)
  | .providerUnhealthy .. =>
    .error (.rejected "provider_unhealthy"
      "candidate snapshot failed provider readiness; the previous snapshot remains active" (answerBody telemetry answer).2)
  | .tcpReloadFailed message => .error (.rejected "tcp_reload_failed" message (answerBody telemetry answer).2)
  | .applyFailed message => .error (.rejected "apply_failed" message (answerBody telemetry answer).2)
  | answer => .error (.invalidResponse (mismatch (answerBody telemetry answer).2))

/-- The body a connection is answered with. -/
def answered (expected : String) (s : ControlState) (connection : Connection) (token : String) (command : AdminCommand) :
    Bool × Json :=
  if token = expected then answerBody connection.telemetry (execute checksum s (connection.env, command)).2
  else (false, failure "unauthorized" "invalid administration token")

/-- What has no line break changes nothing. -/
theorem serveConnection_unended (expected : String) (s : ControlState) {connection : Connection}
    (h : 10 ∉ connection.input) : (serveConnection checksum parse mismatch expected s connection).1 = s := by
  obtain ⟨message, hframe⟩ := readFrameFrom_end [] h
  rw [serveConnection, readFrame, hframe]

/-- A request that fits is served. -/
theorem serveConnection_requestJson (expected : String) (s : ControlState) (env : Environment) (telemetry : Telemetry)
    {token : String} {command : AdminCommand} {written : Bool} (hwritten : AwaitsResponse command → written)
    (hfits : (Utf8.encode (requestJson token command).render.toList).length ≤ MAX_FRAME_BYTES)
    (hparse : parse (Utf8.encode (requestJson token command).render.toList) = .ok (requestJson token command)) :
    serveConnection checksum parse mismatch expected s ⟨env, telemetry, line (requestJson token command), written⟩ =
      (if token = expected then (execute checksum s (env, command)).1 else s,
        line (response
          (answered checksum expected s ⟨env, telemetry, line (requestJson token command), written⟩ token command))) := by
  have hframe : readFrame (line (requestJson token command)) =
      .ok (Utf8.encode (requestJson token command).render.toList) := by
    exact readFrame_ok_iff.mpr
      ⟨⟨[], line_eq _⟩, newline_not_mem_render (printable_requestJson token command), hfits⟩
  have hrequest : readRequest parse mismatch (Utf8.encode (requestJson token command).render.toList) =
      .ok (token, command) := by
    rw [readRequest, hparse]
    dsimp only
    rw [decodeRequest_requestJson]
  rw [serveConnection]
  dsimp only
  rw [hframe]
  dsimp only
  rw [hrequest]
  dsimp only
  rw [answered]
  by_cases htoken : token = expected
  · rw [if_pos (constantTimeEq_encode_iff.mpr htoken), if_pos htoken, if_pos htoken, afterResponse_execute, if_pos hwritten]
  · rw [if_neg fun h => htoken (constantTimeEq_encode_iff.mp h), if_neg htoken, if_neg htoken]

/-- What the client makes of the body of a response. -/
def received (body : Bool × Json) : Except AdminError Json :=
  if body.1 then .ok body.2
  else .error (.rejected ((getStr body.2 "code").getD "unknown")
    ((getStr body.2 "message").getD "router rejected the request") body.2)

/-- What the client reads of a response. -/
theorem decodeText_line (otherwise : AdminError) {body : Bool × Json}
    (hparse : parse (line (response body)) = .ok (response body)) :
    decodeText parse (line (response body)) otherwise = received body := by
  obtain ⟨ok, body⟩ := body
  have hdecode : Utf8.decode (line (response (ok, body))) = some ((response (ok, body)).render.toList ++ ['\n']) :=
    Utf8.decode_encode _
  rw [decodeText, hdecode]
  dsimp only
  rw [decodeResponse, hparse]
  cases ok <;> rfl

theorem takeLine_line {value : Json} (h : Json.Printable value) : Utf8.takeLine (line value) = (line value, []) := by
  rw [line_eq, Utf8.takeLine_newline (newline_not_mem_render h)]

theorem relayed_line {value : Json} : relayed (line value) = true ↔ (line value).length ≤ MAX_FRAME_BYTES + 1 := by
  have hlast : (line value).getLast? = some 10 := by
    rw [line_eq]
    exact List.getLast?_concat ..
  rw [relayed, hlast, decide_eq_true (rfl : some (10 : UInt8) = some 10), Bool.and_true, decide_eq_true_eq]

/-- A request whose line and response both fit. -/
structure Fits (expected : String) (s : ControlState) (connection : Connection) (endpoint : AdminEndpoint) (token : String)
    (command : AdminCommand) : Prop where
  request : (Utf8.encode (requestJson token command).render.toList).length ≤ MAX_FRAME_BYTES
  /-- The router reads what the client has written. -/
  parseRequest : parse (Utf8.encode (requestJson token command).render.toList) = .ok (requestJson token command)
  /-- The client reads what the router has written. -/
  parseResponse : parse (line (response (answered checksum expected s connection token command))) =
    .ok (response (answered checksum expected s connection token command))
  response : endpoint = .dockerExec →
    (line (response (answered checksum expected s connection token command))).length ≤ MAX_FRAME_BYTES + 1

/-- A request that does not come through changes nothing. -/
theorem exchange_requestLost (report : String → String) (expected : String) (s : ControlState) (env : Environment)
    (telemetry : Telemetry) (endpoint : AdminEndpoint) (arrived : ℕ) (error : AdminError) (token : String)
    (command : AdminCommand) :
    exchange checksum parse mismatch report expected s env telemetry endpoint (.requestLost arrived error)
      (requestJson token command) = (s, .error error) := by
  have hunended : (10 : UInt8) ∉ (Delivery.requestLost arrived error).arrived (line (requestJson token command)) := by
    rw [Delivery.arrived, line_eq, List.dropLast_concat]
    exact fun hmem => newline_not_mem_render (printable_requestJson token command) (List.mem_of_mem_take hmem)
  cases endpoint with
  | unix => exact Prod.ext (serveConnection_unended checksum parse mismatch expected s hunended) rfl
  | dockerExec =>
    have hrelayed : ¬relayed ((Delivery.requestLost arrived error).arrived (line (requestJson token command))) = true := by
      intro h
      rw [relayed, Bool.and_eq_true, decide_eq_true_eq, decide_eq_true_eq] at h
      exact hunended (List.mem_of_getLast? h.2)
    rw [exchange]
    exact if_neg hrelayed

/-- **An exchange** whose request comes through is served; the body it was answered with is what the client
makes of the response, over either endpoint. -/
theorem exchange_eq (report : String → String) {expected : String} {s : ControlState} {env : Environment}
    {telemetry : Telemetry} {endpoint : AdminEndpoint} {delivery : Delivery} {token : String} {command : AdminCommand}
    (hcome : delivery.arrived (line (requestJson token command)) = line (requestJson token command))
    (hwritten : AwaitsResponse command → delivery.written)
    (h : Fits checksum parse expected s ⟨env, telemetry, line (requestJson token command), delivery.written⟩ endpoint token
      command) :
    exchange checksum parse mismatch report expected s env telemetry endpoint delivery (requestJson token command) =
      (if token = expected then (execute checksum s (env, command)).1 else s,
        delivery.told (received (answered checksum expected s
          ⟨env, telemetry, line (requestJson token command), delivery.written⟩ token command))) := by
  have hserved :=
    serveConnection_requestJson checksum parse mismatch expected s env telemetry hwritten h.request h.parseRequest
  have hprintable : Json.Printable (response (answered checksum expected s
      ⟨env, telemetry, line (requestJson token command), delivery.written⟩ token command)) := by
    refine printable_response ?_
    rw [answered]
    split_ifs
    · exact printable_answerBody _ _
    · exact printable_failure _ _
  cases endpoint with
  | unix =>
    rw [exchange, hcome, hserved, takeLine_line hprintable, decodeText_line parse _ h.parseResponse]
  | dockerExec =>
    have hrequest : (line (requestJson token command)).length ≤ MAX_FRAME_BYTES + 1 := by
      rw [line_eq, List.length_append]
      exact Nat.add_le_add_right h.request 1
    rw [exchange]
    dsimp only
    rw [hcome, if_pos (relayed_line.mpr hrequest), hserved]
    dsimp only
    rw [if_pos (relayed_line.mpr (h.response rfl)), decodeText_line parse _ h.parseResponse]

/-- The acknowledgement is read back. -/
theorem decode_acknowledgement (ack : ApplyAck) :
    acknowledgement.decode (fun name => List.lookup name [("checksum", Json.string ack.checksum),
      ("status", activationStatus.encode ack.status), ("version", Json.nat ack.version.val)]) = some ack := by
  have hversion : (Codec.bounded (2 ^ 64)).decode (.nat ack.version.val) = some ack.version :=
    (Codec.bounded (2 ^ 64)).decode_encode ack.version
  have hchecksum : Codec.string.decode (.string ack.checksum) = some ack.checksum := Codec.string.decode_encode ack.checksum
  simp only [acknowledgement, Fields.imap, Fields.and, Fields.required, List.lookup_cons, beq_self_eq_true, Option.bind_some,
    hversion, hchecksum, activationStatus.decode_encode, String.reduceBEq]
  rfl

/-- What has no status is no acknowledgement. -/
theorem decode_acknowledgement_none {lookup : String → Option Json}
    (h : (lookup "status").bind activationStatus.decode = none) : acknowledgement.decode lookup = none := by
  have hstatus : (Fields.required "status" activationStatus).decode lookup = none := h
  simp only [acknowledgement, Fields.imap, Fields.and, hstatus]
  cases (Fields.required "version" (Codec.bounded (2 ^ 64))).decode lookup <;>
    cases (Fields.required "checksum" Codec.string).decode lookup <;> rfl

/-- What the client makes of the body of an answer. -/
theorem outcome_eq (telemetry : Telemetry) (answer : Answer) :
    (received (answerBody telemetry answer)).bind (asAcknowledgement mismatch) = outcome mismatch telemetry answer := by
  -- an answer of another command has no status that is one of an acknowledgement
  have hnone {other : Answer} {fields : List (String × Json)} (hbody : answerBody telemetry other = (true, .object fields))
      (h : (fields.lookup "status").bind activationStatus.decode = none) :
      (received (answerBody telemetry other)).bind (asAcknowledgement mismatch) =
        .error (.invalidResponse (mismatch (answerBody telemetry other).2)) := by
    rw [hbody, received, if_pos rfl, Except.bind, asAcknowledgement, Json.asObject, Option.bind_some,
      decode_acknowledgement_none h]
  cases answer with
  | applied ack =>
    have hread : asAcknowledgement mismatch (answerBody telemetry (.applied ack)).2 = .ok ack := by
      rw [asAcknowledgement, answerBody, Json.asObject, Option.bind_some, decode_acknowledgement]
    exact hread
  | invalidConfiguration message | tcpReloadFailed message | applyFailed message
  | providerUnhealthy active candidate failed => rfl
  | identity id version checksum | routes version checksum consumerRoutes transparentProxy browserRoutes
  | health healthy providers | draining | counters version | events =>
    exact hnone rfl rfl

/-- What an acknowledgement of the process says. -/
theorem executeApply_applied {env : Environment} {s s' : ControlState} {config : RouterConfig} {ack : ApplyAck}
    (h : executeApply checksum env s config = (s', .applied ack)) :
    ack.version = config.spec.snapshot.version ∧ ack.checksum = checksum config ∧
      ((ack.status = .activated ∧ s'.engine.current.config = config) ∨
        (ack.status = .rejectedStale ∧ config.spec.snapshot.version ≤ s.engine.current.version ∧ s' = s)) := by
  unfold executeApply at h
  split at h
  · cases h
  · dsimp only at h
    split_ifs at h with hfailed
    · cases h
    unfold RouteEngine.apply at h
    cases hcompile : compile checksum config with
    | error error =>
      rw [hcompile] at h
      cases h
    | ok snapshot =>
      obtain ⟨-, hconfig, hversion, hchecksum⟩ := compile_identity hcompile
      rw [hcompile] at h
      dsimp only [RouteEngine.publish] at h
      by_cases hstale : snapshot.version ≤ s.engine.current.version
      · rw [if_pos hstale] at h
        dsimp only [follow] at h
        obtain ⟨rfl, hack⟩ := Prod.mk.inj h
        obtain rfl := Answer.applied.inj hack
        exact ⟨hversion, hchecksum, Or.inr ⟨rfl, hversion ▸ hstale, rfl⟩⟩
      · rw [if_neg hstale] at h
        dsimp only [follow] at h
        split at h
        · cases h
        · obtain ⟨rfl, hack⟩ := Prod.mk.inj h
          obtain rfl := Answer.applied.inj hack
          exact ⟨hversion, hchecksum, Or.inl ⟨rfl, hconfig⟩⟩

/-- What a client is told of its snapshot: of a request that comes through. -/
theorem applySnapshot_eq {expected : String} {s : ControlState} (report : String → String) {env : Environment}
    {telemetry : Telemetry} {endpoint : AdminEndpoint} {delivery : Delivery} {token : String} {config : RouterConfig}
    (hcome : delivery.arrived (line (requestJson token (.apply config))) = line (requestJson token (.apply config)))
    (hfits : Fits checksum parse expected s
      ⟨env, telemetry, line (requestJson token (.apply config)), delivery.written⟩ endpoint token (.apply config)) :
    applySnapshot checksum parse mismatch report expected s env telemetry endpoint delivery token config =
      (if token = expected then (execute checksum s (env, .apply config)).1 else s,
        delivery.told (if token = expected then outcome mismatch telemetry (execute checksum s (env, .apply config)).2
          else .error (.rejected "unauthorized" "invalid administration token"
            (failure "unauthorized" "invalid administration token")))) := by
  rw [applySnapshot, exchange_eq checksum parse mismatch report hcome (absurd · id) hfits]
  refine Prod.ext rfl ?_
  cases delivery with
  | requestLost arrived error | responseLost written error => rfl
  | delivered =>
    dsimp only [Delivery.told]
    rw [answered]
    by_cases htoken : token = expected
    · rw [if_pos htoken, if_pos htoken, outcome_eq]
    · rw [if_neg htoken, if_neg htoken]
      rfl

/-- A snapshot that the process takes is active; of any other the router is left as it was. -/
theorem executeApply_told {started : RouterConfig} {s : ControlState} (hfollows : Follows checksum started s)
    (telemetry : Telemetry) (env : Environment) (config : RouterConfig) :
    (∃ ack, outcome mismatch telemetry (execute checksum s (env, .apply config)).2 = .ok ack ∧ ack.status = .activated ∧
        ack.version = config.spec.snapshot.version ∧ ack.checksum = checksum config ∧
        (execute checksum s (env, .apply config)).1.engine.current.config = config ∧
        Follows checksum started (execute checksum s (env, .apply config)).1) ∨
      ((execute checksum s (env, .apply config)).1 = s ∧
        ∀ ack, outcome mismatch telemetry (execute checksum s (env, .apply config)).2 = .ok ack →
          ack.status = .rejectedStale ∧ config.spec.snapshot.version ≤ s.engine.current.version) := by
  have hexecute : execute checksum s (env, .apply config) = executeApply checksum env s config := rfl
  rw [hexecute]
  rcases executeApply_cases env hfollows config with
    ⟨_, heq⟩ | ⟨_, _, _, heq⟩ | ⟨ack, hstale, heq⟩ | ⟨s', ack, hactivated, hs', heq⟩
  · rw [heq]
    exact Or.inr ⟨rfl, by intro ack hack; cases hack⟩
  · rw [heq]
    exact Or.inr ⟨rfl, by intro ack hack; cases hack⟩
  · obtain ⟨-, -, h⟩ := executeApply_applied checksum heq
    rw [heq]
    refine Or.inr ⟨rfl, fun other hother => ?_⟩
    obtain rfl := Except.ok.inj hother
    rcases h with ⟨hactivated, -⟩ | ⟨-, hversion, -⟩
    · rw [hstale] at hactivated
      cases hactivated
    · exact ⟨hstale, hversion⟩
  · obtain ⟨hversion, hchecksum, h⟩ := executeApply_applied checksum heq
    rw [heq]
    rcases h with ⟨-, hconfig⟩ | ⟨hstale, -⟩
    · exact Or.inl ⟨ack, rfl, hactivated, hversion, hchecksum, hconfig, hs'⟩
    · rw [hactivated] at hstale
      cases hstale

/-- **A snapshot is applied as its client is told.** Whatever the connections before it brought: if the
request does not come through, the client is told so and nothing changes; if only the response is
lost, the router has done what the process does. Otherwise the client without the token is rejected and
nothing changes, and one with it is told the answer of the process; its snapshot is active exactly where
the acknowledgement says so. -/
theorem applySnapshot_told {senv : StartEnvironment} {started : RouterConfig} {expected : String} {s₀ : ControlState}
    (hstart : start checksum senv started expected = .ok s₀) (connections : List Connection) (report : String → String)
    {env : Environment} {telemetry : Telemetry} {endpoint : AdminEndpoint} {delivery : Delivery} {token : String}
    {config : RouterConfig}
    (hfits : Fits checksum parse expected (after (serveConnection checksum parse mismatch expected) s₀ connections)
      ⟨env, telemetry, line (requestJson token (.apply config)), delivery.written⟩ endpoint token (.apply config)) :
    let s := after (serveConnection checksum parse mismatch expected) s₀ connections
    let told := applySnapshot checksum parse mismatch report expected s env telemetry endpoint delivery token config
    let applied := execute checksum s (env, .apply config)
    (∀ arrived error, delivery = .requestLost arrived error → told = (s, .error error)) ∧
    (∀ written error, delivery = .responseLost written error →
      told = (if token = expected then applied.1 else s, .error error)) ∧
    (delivery = .delivered → token ≠ expected → told = (s, .error (.rejected "unauthorized" "invalid administration token"
      (failure "unauthorized" "invalid administration token")))) ∧
    (delivery = .delivered → token = expected → told = (applied.1, outcome mismatch telemetry applied.2)) ∧
    ((∃ ack, outcome mismatch telemetry applied.2 = .ok ack ∧ ack.status = .activated ∧
        ack.version = config.spec.snapshot.version ∧ ack.checksum = checksum config ∧
        applied.1.engine.current.config = config ∧ Follows checksum started applied.1) ∨
      (applied.1 = s ∧ ∀ ack, outcome mismatch telemetry applied.2 = .ok ack →
        ack.status = .rejectedStale ∧ config.spec.snapshot.version ≤ s.engine.current.version)) := by
  have hfollows := serve_follows checksum parse mismatch hstart connections
  generalize after (serveConnection checksum parse mismatch expected) s₀ connections = s at hfits hfollows ⊢
  refine ⟨?_, ?_, ?_, ?_, executeApply_told checksum mismatch hfollows telemetry env config⟩
  · rintro arrived error rfl
    rw [applySnapshot, exchange_requestLost]
    rfl
  · rintro written error rfl
    rw [applySnapshot_eq checksum parse mismatch report (Delivery.arrived_responseLost ..) hfits]
    rfl
  · rintro rfl htoken
    rw [applySnapshot_eq checksum parse mismatch report (Delivery.arrived_delivered _) hfits, if_neg htoken, if_neg htoken]
    rfl
  · rintro rfl htoken
    rw [applySnapshot_eq checksum parse mismatch report (Delivery.arrived_delivered _) hfits, if_pos htoken, if_pos htoken]
    rfl

end Channel

/-- Nothing has been counted. -/
def quietTelemetry : Telemetry := ⟨.null, 0, 0, 0, .null, .null, ⟨.null, .null, .null⟩⟩

/-- A reader of one request and its response. -/
def readBack (request answer : Json) (bytes : List UInt8) : Except String Json :=
  if bytes = Utf8.encode request.render.toList then .ok request
  else if bytes = line answer then .ok answer
  else .error "expected value at line 1 column 1"

/-- The request that switches the sidecar. -/
def switchRequest : Json := requestJson "token" (.apply (sidecarConfig 2 "services-test/database"))

/-- The response to it. -/
def switchResponse : Json := response (answerBody quietTelemetry (.applied ⟨2, "", .activated⟩))

/-- The sidecar is switched through its container. -/
theorem applySnapshot_told_sidecar :
    start (fun _ => "") quietStart (sidecarConfig 1 "services-main/database") "token" = .ok sidecarState ∧
      (applySnapshot (fun _ => "") (readBack switchRequest switchResponse) (fun _ => "") id "token" sidecarState
        quietStart.validation quietTelemetry .dockerExec .delivered "token" (sidecarConfig 2 "services-test/database")).2 =
          .ok ⟨2, "", .activated⟩ := by
  have hstart : start (fun _ => "") quietStart (sidecarConfig 1 "services-main/database") "token" = .ok sidecarState := by
    decide
  have hexecute : (execute (fun _ => "") sidecarState
      (quietStart.validation, .apply (sidecarConfig 2 "services-test/database"))).2 = .applied ⟨2, "", .activated⟩ := by
    rfl
  have hanswered : response (answered (fun _ => "") "token" sidecarState
      ⟨quietStart.validation, quietTelemetry, line switchRequest, true⟩ "token"
      (.apply (sidecarConfig 2 "services-test/database"))) = switchResponse := by
    rw [answered, if_pos rfl, hexecute]
    rfl
  have hlength (value : Json) (n : ℕ) (hchars : value.chars.length ≤ n) :
      (Utf8.encode value.render.toList).length ≤ 4 * n := by
    rw [Json.toList_render]
    exact (Utf8.length_encode_le _).trans (Nat.mul_le_mul_left 4 hchars)
  have hfits : Fits (fun _ => "") (readBack switchRequest switchResponse) "token" sidecarState
      ⟨quietStart.validation, quietTelemetry, line switchRequest, true⟩ .dockerExec "token"
      (.apply (sidecarConfig 2 "services-test/database")) := {
    request := hlength switchRequest 262144 (by decide +kernel)
    parseRequest := if_pos rfl
    parseResponse := by
      have hline : line switchResponse ≠ Utf8.encode switchRequest.render.toList := by
        intro hsame
        have hbreak : (10 : UInt8) ∈ Utf8.encode switchRequest.render.toList := by
          rw [← hsame, line_eq]
          exact List.mem_append_right _ (List.mem_singleton.mpr rfl)
        exact newline_not_mem_render (printable_requestJson "token" _) hbreak
      rw [hanswered, readBack, if_neg hline, if_pos rfl]
    response := by
      rw [hanswered, line_eq, List.length_append]
      exact fun _ => Nat.add_le_add_right (hlength switchResponse 262144 (by decide +kernel)) 1 }
  obtain ⟨-, -, -, htold, -⟩ :=
    @applySnapshot_told (fun _ => "") (readBack switchRequest switchResponse) (fun _ => "") _ _ _ _ hstart [] id _ _ _
      .delivered _ _ hfits
  exact ⟨hstart, (congrArg Prod.snd (htold rfl rfl)).trans (congrArg (outcome (fun _ => "") quietTelemetry) hexecute)⟩

end AdminChannel

end Apmpr.Router
