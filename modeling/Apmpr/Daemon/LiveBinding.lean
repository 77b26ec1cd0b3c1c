import Apmpr.Router.Config
import Apmpr.State.Context
import Apmpr.Lib.Registry

/-!
# Live binding

`apply_live_binding_with_admin` of the crate `apmpr-daemon`: a membership move reaches
the running routers one after another. Each router target is observed, given the next
version of its candidate snapshot and acknowledged; a router that cannot be reached,
rejects the snapshot or answers something else stops the loop, and the targets that were
activated before it are given their old snapshot again, the last one first.

The routers, the clock, the cancellation flag and the local files are the surroundings of
a call (`Surroundings`). In one call a router target is observed and updated once, and
rolled back once at most, so the answers are given by phase and target: every sequence of
answers is one of these. `snapshot_checksum` and the JSON codec of a snapshot are
parameters. What the planner computes (the authored plan, and the plan after the move with
the same resource hash) is an input. The run keeps every call it makes to a router, with
its answer.

## What is proved

`activated_iff`, `stopped_iff` — what becomes of one target, in terms of the answers.
`updateTargets_activated`, `rollbackAppliedTargets_calls` — what the two loops call.
`compensation_exact` — a call that does not succeed has rolled back every activated
target, in reverse order, exactly where `Compensable` holds of its targets: an
activated snapshot must be recordable, the target that ends the loop must be recordable
too unless it is the first one, and after a complete loop the files must be written. The
early returns (`?`) of the other cases leave the activated targets as they are,
`activated_target_left_behind`.

## Honest scope

The route events of the run and the texts of file-system errors are left out.
-/

namespace Apmpr.Daemon.LiveBinding

open Router State

/-! ### Administration channel -/

/-- `ApiErrorV1`; no error here has a context. -/
structure ApiErrorV1 where
  code : String
  message : String
  deriving DecidableEq

/-- `AdminEndpoint`. -/
inductive AdminEndpoint where
  | unix (path : PathBuf)
  | dockerExec (container : String) (socketPath : PathBuf) (deployment inst resourceHash : String)
  deriving DecidableEq

/-- `SnapshotIdentity`. -/
structure SnapshotIdentity where
  id : String
  version : U64
  checksum : String
  deriving DecidableEq

/-- `ActivationStatus`. -/
inductive ActivationStatus where
  | activated
  | rejectedStale
  deriving DecidableEq

/-- `ApplyAcknowledgement`. -/
structure ApplyAcknowledgement where
  version : U64
  checksum : String
  status : ActivationStatus
  deriving DecidableEq

/-- `AdminError`. -/
inductive AdminError where
  | io (error : String)
  | endpoint (code message : String)
  | invalidResponse (message : String)
  | rejected (code message : String) (details : Json)

/-- `rejection_code`. -/
def AdminError.rejectionCode : AdminError → Option String
  | .rejected code _ _ => some code
  | _ => none

/-- `details`. -/
def AdminError.details : AdminError → Option Json
  | .rejected _ _ details => some details
  | _ => none

/-- The text of an error. -/
def AdminError.display : AdminError → String
  | .io error => s!"router administration failed: {error}"
  | .endpoint code message => s!"router administration failed ({code}): {message}"
  | .invalidResponse message => s!"router returned an invalid response: {message}"
  | .rejected code message _ => s!"router rejected {code}: {message}"

/-- The JSON of a status. -/
def ActivationStatus.toJson : ActivationStatus → Json
  | .activated => .string "activated"
  | .rejectedStale => .string "rejected_stale"

/-- The JSON of an acknowledgement. -/
def ApplyAcknowledgement.toJson (ack : ApplyAcknowledgement) : Json :=
  .object [("checksum", .string ack.checksum), ("status", ack.status.toJson), ("version", .nat ack.version)]

/-- `json!({"message": …})`. -/
def messageContext (message : String) : Json := .object [("message", .string message)]

/-- `json!({"acknowledgement": ack})`. -/
def acknowledgementContext (ack : ApplyAcknowledgement) : Json :=
  .object [("acknowledgement", ack.toJson)]

/-- The context an error of `apply_snapshot` is recorded with. -/
def AdminError.context (error : AdminError) : Json :=
  error.details.getD (messageContext error.display)

/-! ### Targets and their surroundings -/

/-- `RouterTarget`. -/
structure RouterTarget where
  id : String
  routeInstance : Option String
  endpoint : AdminEndpoint
  old : RouterConfig
  candidate : RouterConfig

/-- What a router is called for: the new snapshot, or the old one again. -/
inductive Phase where
  | update
  | rollback
  deriving DecidableEq

/-- `RouterAdmin`: the answers of the routers, by phase and target. -/
structure RouterAdmin where
  currentSnapshot : Phase → ℕ → AdminEndpoint → String → Except AdminError SnapshotIdentity
  applySnapshot : Phase → ℕ → AdminEndpoint → String → RouterConfig → Except AdminError ApplyAcknowledgement

/-- What a call meets: the routers, the cancellation flag when a target is reached, the
clock when an attempt is recorded, and the results of the two writes after the loop. -/
structure Surroundings where
  admin : RouterAdmin
  cancelled : ℕ → Bool
  now : Phase → ℕ → I64
  writeHostRouter : Except String Unit
  writePlan : Except String Unit

/-- What a router was asked, and its answer. -/
inductive AdminRequest where
  | currentSnapshot (answer : Except AdminError SnapshotIdentity)
  | applySnapshot (config : RouterConfig) (answer : Except AdminError ApplyAcknowledgement)

/-- A call to a router. -/
structure AdminCall where
  phase : Phase
  target : ℕ
  request : AdminRequest

/-- `TransitionPolicyV1`. -/
inductive TransitionPolicyV1 where
  | close
  | drain (timeoutMs : U64)
  | pin
  deriving DecidableEq

/-- The policy of a requested transition. -/
def TransitionPolicyV1.policy : TransitionPolicyV1 → ConnectionTransitionPolicy
  | .close => .close
  | .drain timeoutMs => .drain timeoutMs
  | .pin => .pin

/-- A configuration with its snapshot changed. -/
def withSnapshot (config : RouterConfig) (f : RouteSnapshot → RouteSnapshot) : RouterConfig :=
  { config with spec := { config.spec with snapshot := f config.spec.snapshot } }

/-- `set_transition`. -/
def setTransition (config : RouterConfig) (transition : Option TransitionPolicyV1) : RouterConfig :=
  match transition with
  | none => config
  | some transition =>
    let policy := transition.policy
    withSnapshot config fun snapshot => { snapshot with transitions := ⟨policy, policy, policy, policy, policy⟩ }

/-- A configuration under a new name and version. -/
def atVersion (config : RouterConfig) (id : RouteSnapshotId) (version : U64) : RouterConfig :=
  withSnapshot config fun snapshot => { snapshot with id := id, version := version }

/-- The name of a target's snapshot: `{id}-membership-{version}` or `{id}-rollback-{version}`. -/
def snapshotName (id kind : String) (version : U64) : RouteSnapshotId :=
  let base := Text.replaceChar ':' '-' id
  s!"{base}-{kind}-{version}"

/-- The target with the snapshot it is to be given. -/
def RouterTarget.desired (target : RouterTarget) (version : U64) : RouterTarget :=
  { target with candidate := atVersion target.candidate (snapshotName target.id "membership" version) version }

/-- The target's old snapshot under a version that follows the observed one. -/
def RouterTarget.previous (target : RouterTarget) (transition : Option TransitionPolicyV1) (version : U64) :
    RouterConfig :=
  setTransition (atVersion target.old (snapshotName target.id "rollback" version) version) transition

/-! ### Attempt records -/

/-- `RouterApplyStatus`. -/
inductive RouterApplyStatus where
  | pending
  | active
  | failed
  | rolledBack
  deriving DecidableEq

/-- `RouterApplyRecord`. -/
structure RouterApplyRecord where
  deployment : String
  router : String
  binding : String
  operationId : String
  desiredVersion : I64
  desiredChecksum : String
  version : I64
  checksum : String
  status : RouterApplyStatus
  observedVersion : Option I64
  observedChecksum : Option String
  transition : StructuredContext
  errorCode : Option String
  recordedAt : I64
  context : StructuredContext

/-- What every attempt of a call has in common. -/
structure CallContext where
  deployment : String
  consumer : String
  operationId : String
  token : String
  transition : Option TransitionPolicyV1
  transitionContext : StructuredContext

/-- `i64::MAX`. -/
def maxI64 : I64 := ⟨2 ^ 63 - 1, by decide, by decide⟩

/-- A version in the range of the store. -/
def orExhausted : Option I64 → Except ApiErrorV1 I64
  | some version => .ok version
  | none => .error ⟨"snapshot_version_exhausted", "version exceeds SQLite range"⟩

/-- `i64::try_from`, with the error of an attempt. -/
def recordVersion (version : U64) : Except ApiErrorV1 I64 := orExhausted version.toI64?

/-- The version of an observed pair, if there is one. -/
def recordObserved : Option (U64 × String) → Except ApiErrorV1 (Option I64)
  | none => .ok none
  | some (version, _) => (recordVersion version).map some

/-- `StructuredContext::new`, with the error of an attempt. -/
def recordContext (context : Json) : Except ApiErrorV1 StructuredContext :=
  (StructuredContext.new context).mapError fun error => ⟨error.code, error.display⟩

section Call

variable (checksum : RouterConfig → String)

/-- `router_attempt`. -/
def routerAttempt (call : CallContext) (target : RouterTarget) (version : U64) (sum : String)
    (status : RouterApplyStatus) (observed : Option (U64 × String)) (errorCode : Option String)
    (context : Json) (now : I64) : Except ApiErrorV1 RouterApplyRecord := do
  let desiredVersion ← recordVersion target.candidate.spec.snapshot.version
  let appliedVersion ← recordVersion version
  let observedVersion ← recordObserved observed
  let context ← recordContext context
  return {
    deployment := call.deployment
    router := target.id
    binding := call.consumer
    operationId := call.operationId
    desiredVersion := desiredVersion
    desiredChecksum := checksum target.candidate
    version := appliedVersion
    checksum := sum
    status := status
    observedVersion := observedVersion
    observedChecksum := observed.map Prod.snd
    transition := call.transitionContext
    errorCode := errorCode
    recordedAt := now
    context := context }

/-- A context that holds nothing. -/
def emptyContext : StructuredContext := ⟨.object [], .object (by simp) (by simp)⟩

/-- The context of a rollback that could not be recorded. -/
def recordingErrorContext (error : ApiErrorV1) : StructuredContext :=
  match StructuredContext.new
      (.object [("message", .string error.message), ("recordingErrorCode", .string error.code)]) with
  | .ok context => context
  | .error _ => emptyContext

/-- `rollback_attempt`: an attempt that is recorded in any case. -/
def rollbackAttempt (call : CallContext) (target : RouterTarget) (version : U64) (sum : String)
    (status : RouterApplyStatus) (observed : Option (U64 × String)) (errorCode : Option String)
    (context : Json) (now : I64) : RouterApplyRecord :=
  match routerAttempt checksum call target version sum status observed errorCode context now with
  | .ok record => record
  | .error error => {
      deployment := call.deployment
      router := target.id
      binding := call.consumer
      operationId := call.operationId
      desiredVersion := target.candidate.spec.snapshot.version.toI64?.getD maxI64
      desiredChecksum := checksum target.candidate
      version := version.toI64?.getD maxI64
      checksum := sum
      status := .failed
      observedVersion := observed.map fun o => o.1.toI64?.getD maxI64
      observedChecksum := observed.map Prod.snd
      transition := call.transitionContext
      errorCode := some (errorCode.getD "rollback_attempt_record_failed")
      recordedAt := now
      context := recordingErrorContext error }

/-! ### The loops -/

/-- What becomes of a target in the loop. -/
inductive Outcome where
  /-- Its new snapshot is active, and the attempt is recorded. -/
  | activated (record : RouterApplyRecord) (ack : ApplyAcknowledgement) (observed : SnapshotIdentity)
  /-- The loop stops here (`break`). -/
  | stopped (failure : String) (record : Option RouterApplyRecord)
  /-- The call returns from here (`?`). -/
  | returned (error : ApiErrorV1)

/-- One pass of the loop: the target as it is left, the calls, and the outcome. -/
structure Step where
  target : RouterTarget
  calls : List AdminCall
  outcome : Outcome

/-- Record the attempt, then stop. -/
def stopWith (failure : String) : Except ApiErrorV1 RouterApplyRecord → Outcome
  | .ok record => .stopped failure (some record)
  | .error error => .returned error

/-- Record the attempt, then go on. -/
def activateWith (ack : ApplyAcknowledgement) (observed : SnapshotIdentity) :
    Except ApiErrorV1 RouterApplyRecord → Outcome
  | .ok record => .activated record ack observed
  | .error error => .returned error

/-- An acknowledgement of exactly the snapshot that was sent. -/
def Acknowledges (config : RouterConfig) (ack : ApplyAcknowledgement) : Prop :=
  ack.version = config.spec.snapshot.version ∧ ack.checksum = checksum config ∧ ack.status = .activated

instance (config : RouterConfig) (ack : ApplyAcknowledgement) : Decidable (Acknowledges checksum config ack) :=
  inferInstanceAs (Decidable (_ ∧ _ ∧ _))

/-- The outcome of `apply_snapshot` for a target that was observed. -/
def afterApply (call : CallContext) (now : I64) (target : RouterTarget) (observed : SnapshotIdentity) :
    Except AdminError ApplyAcknowledgement → Outcome
  | .ok ack =>
    let version := target.candidate.spec.snapshot.version
    let sum := checksum target.candidate
    if Acknowledges checksum target.candidate ack then
      activateWith ack observed (routerAttempt checksum call target version sum .active
        (some (observed.version, observed.checksum)) none (acknowledgementContext ack) now)
    else
      stopWith s!"router {target.id} returned a non-activating acknowledgement"
        (routerAttempt checksum call target version sum .failed (some (observed.version, observed.checksum))
          (some "acknowledgement_mismatch") (acknowledgementContext ack) now)
  | .error error =>
    let version := target.candidate.spec.snapshot.version
    let sum := checksum target.candidate
    stopWith error.display
      (routerAttempt checksum call target version sum
        (if error.rejectionCode = some "provider_unhealthy" then .rolledBack else .failed)
        (some (observed.version, observed.checksum))
        (some (error.rejectionCode.getD "router_apply_failed")) error.context now)

/-- The body of the loop over the targets. -/
def updateTarget (env : Surroundings) (call : CallContext) (index : ℕ) (target : RouterTarget) : Step :=
  if env.cancelled index then ⟨target, [], .stopped "operation was cancelled" none⟩
  else
    match env.admin.currentSnapshot .update index target.endpoint call.token with
    | .error error =>
      ⟨target, [⟨.update, index, .currentSnapshot (.error error)⟩],
        stopWith error.display (routerAttempt checksum call target target.candidate.spec.snapshot.version
          (checksum target.candidate) .failed none (some "router_unreachable")
          (messageContext error.display) (env.now .update index))⟩
    | .ok observed =>
      match observed.version.checkedSucc with
      | none =>
        ⟨target, [⟨.update, index, .currentSnapshot (.ok observed)⟩],
          .returned ⟨"snapshot_version_exhausted", "router snapshot version is exhausted"⟩⟩
      | some version =>
        let target := target.desired version
        let answer := env.admin.applySnapshot .update index target.endpoint call.token target.candidate
        ⟨target, [⟨.update, index, .currentSnapshot (.ok observed)⟩,
            ⟨.update, index, .applySnapshot target.candidate answer⟩],
          afterApply checksum call (env.now .update index) target observed answer⟩

/-- How the loop ends. -/
inductive LoopEnd where
  | finished
  | stopped (failure : String)
  | returned (error : ApiErrorV1)

/-- What the loop leaves. -/
structure Progress where
  targets : List RouterTarget
  calls : List AdminCall
  attempts : List RouterApplyRecord
  applied : List (ℕ × SnapshotIdentity)
  acknowledgements : List (String × ApplyAcknowledgement)
  finish : LoopEnd

/-- The loop over the targets, from the one at `index` on. -/
def updateTargets (env : Surroundings) (call : CallContext) (index : ℕ) : List RouterTarget → Progress
  | [] => ⟨[], [], [], [], [], .finished⟩
  | target :: rest =>
    let step := updateTarget checksum env call index target
    match step.outcome with
    | .activated record ack observed =>
      let progress := updateTargets env call (index + 1) rest
      { targets := step.target :: progress.targets
        calls := step.calls ++ progress.calls
        attempts := record :: progress.attempts
        applied := (index, observed) :: progress.applied
        acknowledgements := (target.id, ack) :: progress.acknowledgements
        finish := progress.finish }
    | .stopped failure record => ⟨step.target :: rest, step.calls, record.toList, [], [], .stopped failure⟩
    | .returned error => ⟨step.target :: rest, step.calls, [], [], [], .returned error⟩

/-- The body of `rollback_applied_targets`: the calls, and the attempt. -/
def rollbackTarget (env : Surroundings) (call : CallContext) (index : ℕ) (target : RouterTarget)
    (previouslyObserved : SnapshotIdentity) : List AdminCall × RouterApplyRecord :=
  let now := env.now .rollback index
  match env.admin.currentSnapshot .rollback index target.endpoint call.token with
  | .error error =>
    ([⟨.rollback, index, .currentSnapshot (.error error)⟩],
      rollbackAttempt checksum call target target.candidate.spec.snapshot.version (checksum target.candidate)
        .failed (some (previouslyObserved.version, previouslyObserved.checksum))
        (some "rollback_observation_failed") (messageContext error.display) now)
  | .ok observed =>
    let pair := some (observed.version, observed.checksum)
    match observed.version.checkedSucc with
    | none =>
      ([⟨.rollback, index, .currentSnapshot (.ok observed)⟩],
        rollbackAttempt checksum call target observed.version observed.checksum .failed pair
          (some "rollback_version_exhausted") (messageContext "router snapshot version is exhausted") now)
    | some version =>
      let old := target.previous call.transition version
      let target := { target with old := old }
      let answer := env.admin.applySnapshot .rollback index target.endpoint call.token old
      ([⟨.rollback, index, .currentSnapshot (.ok observed)⟩, ⟨.rollback, index, .applySnapshot old answer⟩],
        match answer with
        | .ok ack =>
          if Acknowledges checksum old ack then
            rollbackAttempt checksum call target version (checksum old) .rolledBack pair none
              (.object [("reason", .string "peer_router_failed")]) now
          else
            rollbackAttempt checksum call target version (checksum old) .failed pair
              (some "rollback_acknowledgement_mismatch") (acknowledgementContext ack) now
        | .error error =>
          rollbackAttempt checksum call target version (checksum old) .failed pair
            (some "rollback_failed") (messageContext error.display) now)

/-- `rollback_applied_targets`, given the applied targets in the order they are rolled
back: the calls, and the attempts. -/
def rollbackAppliedTargets (env : Surroundings) (call : CallContext) (targets : List RouterTarget) :
    List (ℕ × SnapshotIdentity) → List AdminCall × List RouterApplyRecord
  | [] => ([], [])
  | (index, observed) :: rest =>
    let done := rollbackAppliedTargets env call targets rest
    match targets[index]? with
    -- `updateTargets_applied_lt`: the index is one of the loop's
    | none => done
    | some target =>
      let step := rollbackTarget checksum env call index target observed
      (step.1 ++ done.1, step.2 :: done.2)

/-! ### The targets of a move -/

/-- A generated sidecar router. -/
structure Sidecar where
  service : String
  adminSocket : PathBuf

/-- The plan after the move: the encoded snapshots, and where the sidecars are. -/
structure MembershipPlan where
  deployment : String
  resourceHash : String
  routeConfigs : SortedMap String String
  sidecars : SortedMap String Sidecar
  hostRouterConfig : Option String

/-- The JSON codec of a snapshot. -/
structure SnapshotCodec where
  decode : String → Except String RouterConfig
  encode : RouterConfig → String

/-- What reading `host-router.json` gives. -/
inductive HostFile where
  | notFound
  | unreadable (error : String)
  | text (content : String)

/-- The snapshots that are active: `routes/{instance}.json` and `host-router.json`. -/
structure ActiveSnapshots where
  route : String → Except String String
  host : HostFile

/-- A result with its error as an answer under a code. -/
def orFail {α : Type} (code : String) (x : Except String α) : Except ApiErrorV1 α :=
  x.mapError fun error => ⟨code, error⟩

/-- Whether a candidate differs from an old snapshot in nothing but the snapshot's identity. -/
def sameRoutes (candidate old : RouterConfig) : Bool :=
  withSnapshot candidate (fun _ => old.spec.snapshot) == old

variable (codec : SnapshotCodec) (active : ActiveSnapshots) (transition : Option TransitionPolicyV1)

/-- The loop over the candidates of the sidecars: unchanged ones keep their old snapshot. -/
def routeTargets : List (String × String) → MembershipPlan → Except ApiErrorV1 (MembershipPlan × List RouterTarget)
  | [], plan => .ok (plan, [])
  | (inst, encoded) :: rest, plan => do
    let text ← orFail "active_snapshot_missing" (active.route inst)
    let old ← orFail "active_snapshot_invalid" (codec.decode text)
    let candidate ← orFail "candidate_snapshot_invalid" (codec.decode encoded)
    if sameRoutes candidate old then
      routeTargets rest { plan with routeConfigs := plan.routeConfigs.insert inst (codec.encode old) }
    else
      match plan.sidecars.get? inst with
      | none => .error ⟨"router_missing", "group member has no sidecar router"⟩
      | some sidecar =>
        let (updated, targets) ← routeTargets rest plan
        return (updated, {
          id := s!"sidecar:{inst}"
          routeInstance := some inst
          endpoint := .dockerExec sidecar.service sidecar.adminSocket plan.deployment inst plan.resourceHash
          old := old
          candidate := setTransition candidate transition } :: targets)

/-- The active snapshot of the host gateway; without one the candidate stands for it. -/
def activeHost (candidate : RouterConfig) : Except ApiErrorV1 RouterConfig :=
  match active.host with
  | .text content => orFail "active_snapshot_invalid" (codec.decode content)
  | .notFound => .ok candidate
  | .unreadable error => .error ⟨"active_snapshot_missing", error⟩

/-- The candidate with the endpoints its active providers have. -/
def keepEndpoints (candidate old : RouterConfig) : RouterConfig :=
  { candidate with spec := { candidate.spec with
      providers := candidate.spec.providers.map fun provider =>
        match old.spec.providers.find? (fun active => active.id = provider.id) with
        | some active => { provider with endpoint := active.endpoint }
        | none => provider } }

/-- Whether `host-router.json` is there. -/
def HostFile.isFile : HostFile → Bool
  | .text _ => true
  | _ => false

/-- The target of the host gateway, if its routes change. -/
def hostTarget (projectRoot : PathBuf) (plan : MembershipPlan) :
    Except ApiErrorV1 (MembershipPlan × List RouterTarget) :=
  match plan.hostRouterConfig with
  | none => .ok (plan, [])
  | some encoded => do
    let candidate ← orFail "candidate_snapshot_invalid" (codec.decode encoded)
    let old ← activeHost codec active candidate
    let candidate := if active.host.isFile then keepEndpoints candidate old else candidate
    if sameRoutes candidate old then
      return ({ plan with hostRouterConfig := some (codec.encode old) }, [])
    else
      let socket := ((projectRoot.join ⟨".apmpr/run"⟩).join ⟨plan.deployment⟩).join ⟨"host.socket"⟩
      return (plan, [{
        id := "host-gateway"
        routeInstance := none
        endpoint := .unix socket
        old := old
        candidate := setTransition candidate transition }])

/-- The targets of the move, the host gateway last. -/
def moveTargets (projectRoot : PathBuf) (plan : MembershipPlan) :
    Except ApiErrorV1 (MembershipPlan × List RouterTarget) := do
  let (plan, sidecars) ← routeTargets codec active transition plan.routeConfigs.entries plan
  let (plan, host) ← hostTarget codec active transition projectRoot plan
  return (plan, sidecars ++ host)

end Call

/-- The JSON of a transition policy. -/
def policyJson : ConnectionTransitionPolicy → Json
  | .close => .object [("strategy", .string "close")]
  | .drain timeoutMs => .object [("strategy", .string "drain"), ("timeoutMs", .nat timeoutMs)]
  | .pin => .object [("strategy", .string "pin")]

/-- The JSON of a snapshot's transitions. -/
def transitionsJson (transitions : ConnectionTransitionPolicies) : Json :=
  .object [("grpc", policyJson transitions.grpc), ("http", policyJson transitions.http),
    ("https", policyJson transitions.https), ("tcp", policyJson transitions.tcp),
    ("websocket", policyJson transitions.websocket)]

/-! ### The call -/

/-- A request to move an instance into a group. -/
structure CommandRequestV1 where
  inst : Option String
  group : Option String
  transition : Option TransitionPolicyV1

/-- `CommandResultV1`. -/
structure CommandResultV1 where
  exitCode : ℤ
  stdout : String
  stderr : String

/-- `BackendOutcome::LiveBinding`. -/
structure BackendOutcome where
  result : CommandResultV1
  attempts : List RouterApplyRecord

/-- A file that is written after the loop. -/
inductive LocalWrite where
  | hostRouter (text : String)
  | plan (plan : MembershipPlan)

/-- A run: what it asked the routers, what it wrote, and its result. -/
structure Run where
  calls : List AdminCall
  writes : List LocalWrite
  outcome : Except ApiErrorV1 BackendOutcome

/-- What is ready before the first router is called. -/
structure Prepared where
  plan : MembershipPlan
  targets : List RouterTarget
  call : CallContext
  group : String

section Call

variable (checksum : RouterConfig → String) (codec : SnapshotCodec) (active : ActiveSnapshots)

/-- A field a request must have. -/
def required (name : String) : Option String → Except ApiErrorV1 String
  | some value => .ok value
  | none => .error ⟨"invalid_request", s!"`{name}` is required"⟩

/-- The context of the transition, from the first target. -/
def transitionContext : List RouterTarget → Except ApiErrorV1 StructuredContext
  | [] => .error ⟨"router_missing", "membership move does not have a live router to update"⟩
  | target :: _ => recordContext (transitionsJson target.candidate.spec.snapshot.transitions)

/-- The call up to its loop. `planned` is what the planner gave, or the error it ended with. -/
def prepare (projectRoot : PathBuf) (token operationId : String) (planned : Except ApiErrorV1 MembershipPlan)
    (request : CommandRequestV1) : Except ApiErrorV1 Prepared := do
  let consumer ← required "instance" request.inst
  let group ← required "group" request.group
  let plan ← planned
  let (plan, targets) ← moveTargets codec active request.transition projectRoot plan
  let context ← transitionContext targets
  return ⟨plan, targets, ⟨plan.deployment, consumer, operationId, token, request.transition, context⟩, group⟩

/-- The plan with the snapshots that are active now. -/
def activatedPlan (plan : MembershipPlan) (targets : List RouterTarget) : MembershipPlan :=
  { plan with routeConfigs := plan.routeConfigs.insertAll (targets.filterMap fun target =>
      target.routeInstance.map fun inst => (inst, codec.encode target.candidate)) }

/-- What the call prints for the acknowledgements. -/
def acknowledgementLines : List (String × ApplyAcknowledgement) → String
  | [] => "router acknowledgement: null\n"
  | (_, first) :: rest =>
    s!"router acknowledgement: {first.toJson.render}\n" ++ String.join
      (rest.map fun (router, ack) => s!"router acknowledgement ({router}): {ack.toJson.render}\n")

/-- The call after a loop that activated every target. -/
def finishBinding (env : Surroundings) (prepared : Prepared) (progress : Progress) : Run :=
  let plan := activatedPlan codec prepared.plan progress.targets
  let host := (progress.targets.find? fun target => target.id = "host-gateway").map fun target =>
    codec.encode target.candidate
  let plan := match host with
    | none => plan
    | some text => { plan with hostRouterConfig := some text }
  let hostWrites := host.toList.map LocalWrite.hostRouter
  match (if host.isSome then env.writeHostRouter else .ok ()) with
  | .error error => ⟨progress.calls, hostWrites, .error ⟨"host_snapshot_write_failed", error⟩⟩
  | .ok () =>
    match env.writePlan with
    | .error error => ⟨progress.calls, hostWrites ++ [.plan plan], .error ⟨"artifact_write_failed", error⟩⟩
    | .ok () =>
      ⟨progress.calls, hostWrites ++ [.plan plan],
        .ok ⟨⟨0, acknowledgementLines progress.acknowledgements ++
          s!"moved `{prepared.call.consumer}` into group `{prepared.group}`\n", ""⟩, progress.attempts⟩⟩

/-- The call from its loop on. -/
def bindTargets (env : Surroundings) (prepared : Prepared) : Run :=
  let progress := updateTargets checksum env prepared.call 0 prepared.targets
  match progress.finish with
  | .returned error => ⟨progress.calls, [], .error error⟩
  | .stopped failure =>
    let done := rollbackAppliedTargets checksum env prepared.call progress.targets progress.applied.reverse
    ⟨progress.calls ++ done.1, [],
      .ok ⟨⟨1, "", s!"apmpr: {failure}\n"⟩, progress.attempts ++ done.2⟩⟩
  | .finished => finishBinding codec env prepared progress

/-- `apply_live_binding_with_admin`. -/
def applyLiveBindingWithAdmin (env : Surroundings) (projectRoot : PathBuf) (token operationId : String)
    (planned : Except ApiErrorV1 MembershipPlan) (request : CommandRequestV1) : Run :=
  match prepare codec active projectRoot token operationId planned request with
  | .error error => ⟨[], [], .error error⟩
  | .ok prepared => bindTargets checksum codec env prepared

end Call

/-! ### What is to be compensated, and when it is -/

section Compensation

variable (checksum : RouterConfig → String) (env : Surroundings) (token : String)

/-- The target of a call that was answered `Activated` at the desired version and checksum. -/
def AdminCall.activation? : AdminCall → Option ℕ
  | ⟨.update, index, .applySnapshot config (.ok ack)⟩ =>
    if Acknowledges checksum config ack then some index else none
  | _ => none

/-- The target of a rollback attempt, at the call the attempt ends with: the observation,
if it fails or shows the last version, else the old snapshot. -/
def AdminCall.rollback? : AdminCall → Option ℕ
  | ⟨.rollback, index, .currentSnapshot (.error _)⟩ => some index
  | ⟨.rollback, index, .currentSnapshot (.ok observed)⟩ =>
    if observed.version.checkedSucc = none then some index else none
  | ⟨.rollback, index, .applySnapshot _ _⟩ => some index
  | _ => none

/-- The call ends in success. -/
def Run.Succeeded (run : Run) : Prop := ∃ done, run.outcome = .ok done ∧ done.result.exitCode = 0

/-- The targets that were activated, in the order they were. -/
def Run.activations (run : Run) : List ℕ := run.calls.filterMap (AdminCall.activation? checksum)

/-- The targets that were rolled back, in the order they were. -/
def Run.rollbacks (run : Run) : List ℕ := run.calls.filterMap AdminCall.rollback?

/-- A call that does not succeed rolls back what it activated, the last one first. -/
def AllOrNothing (run : Run) : Prop :=
  ¬ run.Succeeded → run.rollbacks = (run.activations checksum).reverse

/-- The target is reached, and its next version is this one. -/
def Reached (index : ℕ) (target : RouterTarget) (version : U64) : Prop :=
  env.cancelled index = false ∧
    ∃ observed, env.admin.currentSnapshot .update index target.endpoint token = .ok observed ∧
      observed.version.checkedSucc = some version

/-- The answer to the target's snapshot under a version. -/
def answerAt (index : ℕ) (target : RouterTarget) (version : U64) : Except AdminError ApplyAcknowledgement :=
  env.admin.applySnapshot .update index target.endpoint token (target.desired version).candidate

/-- The target is answered `Activated` under a version. -/
def ActivatesAt (index : ℕ) (target : RouterTarget) (version : U64) : Prop :=
  ∃ ack, answerAt env token index target version = .ok ack ∧
    Acknowledges checksum (target.desired version).candidate ack

/-- A version the store can record. -/
def Recordable (version : U64) : Prop := version.FitsI64

/-- The target is answered `Activated` at its desired version and checksum. -/
def Activates (index : ℕ) (target : RouterTarget) : Prop :=
  ∃ version, Reached env token index target version ∧ ActivatesAt checksum env token index target version

/-- The target is activated at a version that can be recorded. -/
def Proceeds (index : ℕ) (target : RouterTarget) : Prop :=
  ∃ version, Reached env token index target version ∧ Recordable version ∧
    ActivatesAt checksum env token index target version

/-- The target ends the loop in a way that can be recorded: the call is cancelled, the
router is not reached, or it answers with something else than the activation, and neither
the version nor the details of the answer keep the attempt from being recorded. -/
def Stops (index : ℕ) (target : RouterTarget) : Prop :=
  env.cancelled index = true ∨
  (env.cancelled index = false ∧ Recordable target.candidate.spec.snapshot.version ∧
    ∃ error, env.admin.currentSnapshot .update index target.endpoint token = .error error) ∨
  ∃ version, Reached env token index target version ∧ Recordable version ∧
    ((∃ ack, answerAt env token index target version = .ok ack ∧
        ¬ Acknowledges checksum (target.desired version).candidate ack) ∨
      ∃ error, answerAt env token index target version = .error error ∧
        ∀ details, error.details = some details → SecretFree details)

/-- **When a call compensates.** The first target that does not proceed stops the loop, or
is the first of all and not activated; and where every target proceeds, the files are
written. -/
structure Compensable (targets : List RouterTarget) : Prop where
  stops : ∀ (done : List RouterTarget) (target : RouterTarget) (rest : List RouterTarget),
    targets = done ++ target :: rest →
    (∀ t ∈ done.zipIdx, Proceeds checksum env token t.2 t.1) →
    ¬ Proceeds checksum env token done.length target →
    Stops checksum env token done.length target ∨
      (done = [] ∧ ¬ Activates checksum env token 0 target)
  writes : targets ≠ [] → (∀ t ∈ targets.zipIdx, Proceeds checksum env token t.2 t.1) →
    ((∃ target ∈ targets, target.id = "host-gateway") → env.writeHostRouter = .ok ()) ∧
      env.writePlan = .ok ()

end Compensation

/-! ### What can be recorded -/

theorem recordVersion_isOk_iff {version : U64} : (∃ v, recordVersion version = .ok v) ↔ Recordable version := by
  rw [Recordable, ← U64.toI64?_isSome_iff, recordVersion]
  generalize version.toI64? = v
  cases v <;> simp [orExhausted]

theorem recordObserved_isOk_iff {observed : Option (U64 × String)} :
    (∃ v, recordObserved observed = .ok v) ↔ ∀ o, observed = some o → Recordable o.1 := by
  cases observed with
  | none => simp [recordObserved]
  | some o =>
    have h := @recordVersion_isOk_iff o.1
    simp only [recordObserved, Option.some.injEq, forall_eq', ← h]
    cases recordVersion o.1 <;> simp [Except.map]

theorem recordContext_isOk_iff {context : Json} :
    (∃ c, recordContext context = .ok c) ↔ SecretFree context := by
  rw [← StructuredContext.new_isOk_iff, recordContext]
  cases StructuredContext.new context <;> simp [Except.mapError]

theorem secretFree_messageContext (message : String) : SecretFree (messageContext message) :=
  .of_plain_names (by simp only [List.forall_mem_singleton]; decide)
    (by simp only [List.forall_mem_singleton]; exact .string _)

theorem secretFree_acknowledgementContext (ack : ApplyAcknowledgement) :
    SecretFree (acknowledgementContext ack) := by
  refine .of_plain_names (by simp only [List.forall_mem_singleton]; decide) ?_
  simp only [List.forall_mem_singleton]
  refine .of_plain_names ?_ ?_
  · simp only [List.forall_mem_cons]
    exact ⟨by decide, by decide, by decide, List.forall_mem_nil _⟩
  · simp only [List.forall_mem_cons]
    refine ⟨.string _, ?_, .number _, List.forall_mem_nil _⟩
    cases ack.status <;> exact .string _

/-- Only the details of a rejection can keep the context of an error from being recorded. -/
theorem secretFree_errorContext_iff (error : AdminError) :
    SecretFree error.context ↔ ∀ details, error.details = some details → SecretFree details := by
  unfold AdminError.context
  cases error.details with
  | none => simp [secretFree_messageContext]
  | some details => simp

section Records

variable {checksum : RouterConfig → String} {call : CallContext} {target : RouterTarget} {version : U64}
  {sum : String} {status : RouterApplyStatus} {observed : Option (U64 × String)} {errorCode : Option String}
  {context : Json} {now : I64}

/-- **When an attempt can be recorded**: its versions are in the store's range, and its
context holds no secret. -/
theorem routerAttempt_isOk_iff :
    (∃ record, routerAttempt checksum call target version sum status observed errorCode context now
        = .ok record) ↔
      Recordable target.candidate.spec.snapshot.version ∧ Recordable version ∧
        (∀ o, observed = some o → Recordable o.1) ∧ SecretFree context := by
  rw [← recordVersion_isOk_iff, ← recordVersion_isOk_iff, ← recordObserved_isOk_iff, ← recordContext_isOk_iff]
  unfold routerAttempt
  constructor
  · rintro ⟨record, h⟩
    obtain ⟨v₁, h₁, h⟩ := bind_eq_ok_iff.mp h
    obtain ⟨v₂, h₂, h⟩ := bind_eq_ok_iff.mp h
    obtain ⟨v₃, h₃, h⟩ := bind_eq_ok_iff.mp h
    obtain ⟨v₄, h₄, h⟩ := bind_eq_ok_iff.mp h
    exact ⟨⟨v₁, h₁⟩, ⟨v₂, h₂⟩, ⟨v₃, h₃⟩, ⟨v₄, h₄⟩⟩
  · rintro ⟨⟨v₁, h₁⟩, ⟨v₂, h₂⟩, ⟨v₃, h₃⟩, ⟨v₄, h₄⟩⟩
    simp only [h₁, h₂, h₃, h₄]
    exact ⟨_, rfl⟩

end Records

/-! ### One target -/

/-- The outcome lets the loop go on. -/
def Outcome.GoesOn (outcome : Outcome) : Prop := ∃ record ack observed, outcome = .activated record ack observed

/-- The outcome ends the loop, and the call goes on after it. -/
def Outcome.Breaks (outcome : Outcome) : Prop := ∃ failure record, outcome = .stopped failure record

section Outcomes

variable {failure : String} {ack : ApplyAcknowledgement} {observed : SnapshotIdentity}
  {attempt : Except ApiErrorV1 RouterApplyRecord}

theorem not_goesOn_stopWith : ¬ (stopWith failure attempt).GoesOn := by
  rintro ⟨_, _, _, h⟩
  cases attempt <;> cases h

theorem breaks_stopWith_iff : (stopWith failure attempt).Breaks ↔ ∃ record, attempt = .ok record := by
  cases attempt <;> simp [stopWith, Outcome.Breaks]

theorem goesOn_activateWith_iff : (activateWith ack observed attempt).GoesOn ↔ ∃ record, attempt = .ok record := by
  cases attempt <;> simp [activateWith, Outcome.GoesOn]

theorem not_breaks_activateWith : ¬ (activateWith ack observed attempt).Breaks := by
  rintro ⟨_, _, h⟩
  cases attempt <;> cases h

end Outcomes

section Step

variable {checksum : RouterConfig → String} {env : Surroundings} {call : CallContext} {index : ℕ}
  {target : RouterTarget} {observed : SnapshotIdentity} {version : U64} {now : I64}
  {answer : Except AdminError ApplyAcknowledgement}

/-- After an observation only the desired version and the context decide what can be recorded. -/
theorem attempt_isOk_iff (hversion : observed.version.checkedSucc = some version) {status : RouterApplyStatus}
    {errorCode : Option String} {context : Json} :
    (∃ record, routerAttempt checksum call (target.desired version)
        (target.desired version).candidate.spec.snapshot.version (checksum (target.desired version).candidate)
        status (some (observed.version, observed.checksum)) errorCode context now = .ok record) ↔
      Recordable version ∧ SecretFree context := by
  rw [routerAttempt_isOk_iff]
  constructor
  · rintro ⟨hv, -, -, hcontext⟩
    exact ⟨hv, hcontext⟩
  · rintro ⟨hv, hcontext⟩
    refine ⟨hv, hv, ?_, hcontext⟩
    rintro o ho
    rw [← Option.some.inj ho]
    exact U64.FitsI64.of_checkedSucc hv hversion

theorem goesOn_afterApply_iff (hversion : observed.version.checkedSucc = some version) :
    (afterApply checksum call now (target.desired version) observed answer).GoesOn ↔
      Recordable version ∧ ∃ ack, answer = .ok ack ∧ Acknowledges checksum (target.desired version).candidate ack := by
  cases answer with
  | error error =>
    simp only [afterApply, reduceCtorEq, false_and, exists_false, and_false, iff_false]
    exact not_goesOn_stopWith
  | ok ack =>
    simp only [afterApply, Except.ok.injEq, exists_eq_left']
    split
    · rename_i hack
      rw [goesOn_activateWith_iff, attempt_isOk_iff hversion]
      simp [hack, secretFree_acknowledgementContext]
    · rename_i hack
      simp only [hack, and_false, iff_false]
      exact not_goesOn_stopWith

theorem breaks_afterApply_iff (hversion : observed.version.checkedSucc = some version) :
    (afterApply checksum call now (target.desired version) observed answer).Breaks ↔
      Recordable version ∧
        ((∃ ack, answer = .ok ack ∧ ¬ Acknowledges checksum (target.desired version).candidate ack) ∨
          ∃ error, answer = .error error ∧ ∀ details, error.details = some details → SecretFree details) := by
  cases answer with
  | error error =>
    simp only [afterApply, reduceCtorEq, false_and, exists_false, false_or, Except.error.injEq, exists_eq_left']
    rw [breaks_stopWith_iff, attempt_isOk_iff hversion, secretFree_errorContext_iff]
  | ok ack =>
    simp only [afterApply, Except.ok.injEq, exists_eq_left', reduceCtorEq, false_and, exists_false, or_false]
    split
    · rename_i hack
      simp only [hack, not_true_eq_false, and_false, iff_false]
      exact not_breaks_activateWith
    · rename_i hack
      rw [breaks_stopWith_iff, attempt_isOk_iff hversion]
      simp [hack, secretFree_acknowledgementContext]

/-- **What a pass of the loop does**, by what the target's surroundings answer. -/
theorem updateTarget_cases (checksum : RouterConfig → String) (env : Surroundings) (call : CallContext)
    (index : ℕ) (target : RouterTarget) :
    (env.cancelled index = true ∧
      updateTarget checksum env call index target = ⟨target, [], .stopped "operation was cancelled" none⟩) ∨
    (∃ error, env.cancelled index = false ∧
      env.admin.currentSnapshot .update index target.endpoint call.token = .error error ∧
      updateTarget checksum env call index target =
        ⟨target, [⟨.update, index, .currentSnapshot (.error error)⟩],
          stopWith error.display (routerAttempt checksum call target target.candidate.spec.snapshot.version
            (checksum target.candidate) .failed none (some "router_unreachable")
            (messageContext error.display) (env.now .update index))⟩) ∨
    (∃ observed error, env.cancelled index = false ∧
      env.admin.currentSnapshot .update index target.endpoint call.token = .ok observed ∧
      observed.version.checkedSucc = none ∧
      updateTarget checksum env call index target =
        ⟨target, [⟨.update, index, .currentSnapshot (.ok observed)⟩], .returned error⟩) ∨
    ∃ observed version, env.cancelled index = false ∧
      env.admin.currentSnapshot .update index target.endpoint call.token = .ok observed ∧
      observed.version.checkedSucc = some version ∧
      updateTarget checksum env call index target =
        ⟨target.desired version, [⟨.update, index, .currentSnapshot (.ok observed)⟩,
            ⟨.update, index, .applySnapshot (target.desired version).candidate
              (answerAt env call.token index target version)⟩],
          afterApply checksum call (env.now .update index) (target.desired version) observed
            (answerAt env call.token index target version)⟩ := by
  unfold updateTarget
  cases hc : env.cancelled index with
  | true => exact .inl ⟨rfl, rfl⟩
  | false =>
    cases hs : env.admin.currentSnapshot .update index target.endpoint call.token with
    | error error => exact .inr (.inl ⟨error, rfl, rfl, rfl⟩)
    | ok observed =>
      cases hv : observed.version.checkedSucc with
      | none => exact .inr (.inr (.inl ⟨observed, _, rfl, rfl, hv, by simp only [hv]; rfl⟩))
      | some version => exact .inr (.inr (.inr ⟨observed, version, rfl, rfl, hv, by simp only [hv]; rfl⟩))

theorem not_reached_of_cancelled (hc : env.cancelled index = true) {token : String} :
    ¬ Reached env token index target version := by
  rintro ⟨h, -⟩
  rw [hc] at h
  cases h

theorem not_reached_of_error {token : String} {error : AdminError}
    (hs : env.admin.currentSnapshot .update index target.endpoint token = .error error) :
    ¬ Reached env token index target version := by
  rintro ⟨-, observed, h, -⟩
  rw [hs] at h
  cases h

theorem reached_iff {token : String} (hc : env.cancelled index = false)
    (hs : env.admin.currentSnapshot .update index target.endpoint token = .ok observed) :
    Reached env token index target version ↔ observed.version.checkedSucc = some version := by
  constructor
  · rintro ⟨-, o, ho, hv⟩
    rw [hs] at ho
    rwa [Except.ok.inj ho]
  · intro hv
    exact ⟨hc, observed, hs, hv⟩

/-- **The targets the loop goes on after.** -/
theorem activated_iff :
    (updateTarget checksum env call index target).outcome.GoesOn ↔ Proceeds checksum env call.token index target := by
  unfold Proceeds
  rcases updateTarget_cases checksum env call index target with
    ⟨hc, h⟩ | ⟨error, hc, hs, h⟩ | ⟨observed, error, hc, hs, hv, h⟩ | ⟨observed, version, hc, hs, hv, h⟩
  · simp only [h, not_reached_of_cancelled hc, false_and, exists_false, iff_false]
    rintro ⟨_, _, _, h⟩
    cases h
  · simp only [h, not_reached_of_error hs, false_and, exists_false, iff_false]
    exact not_goesOn_stopWith
  · simp only [h, reached_iff hc hs, hv, reduceCtorEq, false_and, exists_false, iff_false]
    rintro ⟨_, _, _, h⟩
    cases h
  · simp only [h, reached_iff hc hs, hv, Option.some.injEq, exists_eq_left']
    exact goesOn_afterApply_iff hv

/-- **The targets the loop stops at.** -/
theorem stopped_iff :
    (updateTarget checksum env call index target).outcome.Breaks ↔ Stops checksum env call.token index target := by
  unfold Stops
  rcases updateTarget_cases checksum env call index target with
    ⟨hc, h⟩ | ⟨error, hc, hs, h⟩ | ⟨observed, error, hc, hs, hv, h⟩ | ⟨observed, version, hc, hs, hv, h⟩
  · simp only [h, hc, true_or, iff_true]
    exact ⟨_, _, rfl⟩
  · simp only [h, hc, hs, not_reached_of_error hs, Bool.false_eq_true, false_or, true_and, false_and,
      exists_false, or_false, Except.error.injEq, exists_eq', and_true]
    rw [breaks_stopWith_iff, routerAttempt_isOk_iff]
    simp [secretFree_messageContext]
  · simp only [h, hc, hs, reached_iff hc hs, hv, reduceCtorEq, Bool.false_eq_true, false_and, exists_false,
      and_false, or_false, iff_false]
    rintro ⟨_, _, h⟩
    cases h
  · simp only [h, hc, hs, reached_iff hc hs, hv, reduceCtorEq, Bool.false_eq_true, exists_false, and_false,
      false_or, Option.some.injEq, exists_eq_left']
    exact breaks_afterApply_iff hv

/-- A target is activated when it is answered so, whatever can be recorded. -/
theorem updateTarget_activations :
    (Activates checksum env call.token index target →
      (updateTarget checksum env call index target).calls.filterMap (AdminCall.activation? checksum) = [index]) ∧
    (¬ Activates checksum env call.token index target →
      (updateTarget checksum env call index target).calls.filterMap (AdminCall.activation? checksum) = []) := by
  unfold Activates
  rcases updateTarget_cases checksum env call index target with
    ⟨hc, h⟩ | ⟨error, hc, hs, h⟩ | ⟨observed, error, hc, hs, hv, h⟩ | ⟨observed, version, hc, hs, hv, h⟩
  · simp [h, not_reached_of_cancelled hc]
  · simp [h, not_reached_of_error hs, AdminCall.activation?]
  · simp [h, reached_iff hc hs, hv, AdminCall.activation?]
  · simp only [h, reached_iff hc hs, hv, Option.some.injEq, exists_eq_left', ActivatesAt]
    cases answerAt env call.token index target version with
    | error error => simp [AdminCall.activation?]
    | ok ack =>
      by_cases hack : Acknowledges checksum (target.desired version).candidate ack <;>
        simp [List.filterMap_cons, AdminCall.activation?, hack]

theorem updateTarget_rollbacks :
    (updateTarget checksum env call index target).calls.filterMap AdminCall.rollback? = [] := by
  rcases updateTarget_cases checksum env call index target with
    ⟨hc, h⟩ | ⟨error, hc, hs, h⟩ | ⟨observed, error, hc, hs, hv, h⟩ | ⟨observed, version, hc, hs, hv, h⟩ <;>
    simp [h, AdminCall.rollback?]

theorem updateTarget_id : (updateTarget checksum env call index target).target.id = target.id := by
  rcases updateTarget_cases checksum env call index target with
    ⟨hc, h⟩ | ⟨error, hc, hs, h⟩ | ⟨observed, error, hc, hs, hv, h⟩ | ⟨observed, version, hc, hs, hv, h⟩
  all_goals
    simp only [h, RouterTarget.desired]

/-- A target the loop stops at was not answered `Activated`. -/
theorem not_activates_of_stops {token : String} (h : Stops checksum env token index target) :
    ¬ Activates checksum env token index target := by
  rintro ⟨version, hreached, ack, hack, hacks⟩
  rcases h with hc | ⟨-, -, error, hs⟩ | ⟨version', hreached', -, h⟩
  · exact not_reached_of_cancelled hc hreached
  · exact not_reached_of_error hs hreached
  · obtain ⟨hc, observed, hs, hv⟩ := hreached
    obtain rfl := Option.some.inj (((reached_iff hc hs).mp hreached').symm.trans hv)
    rcases h with ⟨ack', hack', hn⟩ | ⟨error, herror, -⟩
    · rw [hack] at hack'
      exact hn (Except.ok.inj hack' ▸ hacks)
    · rw [hack] at herror
      cases herror

theorem activates_of_proceeds {token : String} (h : Proceeds checksum env token index target) :
    Activates checksum env token index target := by
  obtain ⟨version, hreached, -, hack⟩ := h
  exact ⟨version, hreached, hack⟩

end Step

/-! ### The loops -/

section Loops

variable {checksum : RouterConfig → String} {env : Surroundings} {call : CallContext} {token : String}

/-- The targets from `index` on proceed. -/
def AllProceed (checksum : RouterConfig → String) (env : Surroundings) (token : String) (index : ℕ)
    (targets : List RouterTarget) : Prop :=
  ∀ t ∈ targets.zipIdx index, Proceeds checksum env token t.2 t.1

@[simp] theorem allProceed_nil (index : ℕ) : AllProceed checksum env token index [] := by
  simp [AllProceed]

@[simp] theorem allProceed_cons {index : ℕ} {target : RouterTarget} {rest : List RouterTarget} :
    AllProceed checksum env token index (target :: rest) ↔
      Proceeds checksum env token index target ∧ AllProceed checksum env token (index + 1) rest := by
  simp [AllProceed, List.zipIdx_cons]

/-- The indices of what the loop applied are those of its targets. -/
theorem updateTargets_applied_lt (index : ℕ) (targets : List RouterTarget) :
    ∀ a ∈ (updateTargets checksum env call index targets).applied,
      index ≤ a.1 ∧ a.1 < index + (updateTargets checksum env call index targets).targets.length := by
  induction targets generalizing index with
  | nil => simp [updateTargets]
  | cons target rest ih =>
    unfold updateTargets
    simp only
    split
    · rename_i record ack observed h
      simp only [List.forall_mem_cons, List.length_cons]
      refine ⟨⟨le_rfl, by omega⟩, fun a ha => ?_⟩
      have := ih (index + 1) a ha
      omega
    · simp
    · simp

/-- A target that does not proceed is the last one the loop looks at. -/
theorem updateTargets_cons_of_not_proceeds {index : ℕ} {target : RouterTarget} {rest : List RouterTarget}
    (h : ¬ Proceeds checksum env call.token index target) :
    (updateTargets checksum env call index (target :: rest)).calls
        = (updateTarget checksum env call index target).calls ∧
      (updateTargets checksum env call index (target :: rest)).applied = [] ∧
      (Stops checksum env call.token index target →
        ∃ failure, (updateTargets checksum env call index (target :: rest)).finish = .stopped failure) ∧
      (¬ Stops checksum env call.token index target →
        ∃ error, (updateTargets checksum env call index (target :: rest)).finish = .returned error) := by
  rw [← activated_iff] at h
  rw [← stopped_iff, updateTargets]
  cases ho : (updateTarget checksum env call index target).outcome with
  | activated record ack observed => exact absurd ⟨record, ack, observed, ho⟩ h
  | stopped failure record =>
    exact ⟨rfl, rfl, fun _ => ⟨failure, rfl⟩, fun hn => absurd ⟨failure, record, rfl⟩ hn⟩
  | returned error =>
    refine ⟨rfl, rfl, ?_, fun _ => ⟨error, rfl⟩⟩
    rintro ⟨_, _, hs⟩
    cases hs

/-- A target that proceeds is applied, and the loop goes on with the others. -/
theorem updateTargets_cons_of_proceeds {index : ℕ} {target : RouterTarget} (rest : List RouterTarget)
    (h : Proceeds checksum env call.token index target) :
    (updateTargets checksum env call index (target :: rest)).calls.filterMap (AdminCall.activation? checksum)
        = index :: (updateTargets checksum env call (index + 1) rest).calls.filterMap
            (AdminCall.activation? checksum) ∧
      (updateTargets checksum env call index (target :: rest)).applied.map Prod.fst
        = index :: (updateTargets checksum env call (index + 1) rest).applied.map Prod.fst ∧
      (updateTargets checksum env call index (target :: rest)).targets.map RouterTarget.id
        = target.id :: (updateTargets checksum env call (index + 1) rest).targets.map RouterTarget.id ∧
      (updateTargets checksum env call index (target :: rest)).finish
        = (updateTargets checksum env call (index + 1) rest).finish := by
  obtain ⟨record, ack, observed, ho⟩ := activated_iff.mpr h
  have hact := updateTarget_activations.1 (activates_of_proceeds h)
  simp [updateTargets, ho, hact, updateTarget_id]

/-- A loop whose targets all proceed activates every one of them. -/
theorem updateTargets_activated {index : ℕ} {targets : List RouterTarget}
    (h : AllProceed checksum env call.token index targets) :
    (updateTargets checksum env call index targets).finish = .finished ∧
      (updateTargets checksum env call index targets).calls.filterMap (AdminCall.activation? checksum)
        = List.range' index targets.length ∧
      (updateTargets checksum env call index targets).targets.map RouterTarget.id = targets.map RouterTarget.id := by
  induction targets generalizing index with
  | nil => simp [updateTargets]
  | cons target rest ih =>
    obtain ⟨htarget, hrest⟩ := allProceed_cons.mp h
    obtain ⟨hfinish, hcalls, hids⟩ := ih hrest
    obtain ⟨hcalls', -, hids', hfinish'⟩ := updateTargets_cons_of_proceeds rest htarget
    rw [hcalls', hids', hfinish', hcalls, hids]
    exact ⟨hfinish, rfl, rfl⟩

/-- Up to the first target that does not proceed every target is activated, and the loop
ends at that one. -/
theorem updateTargets_ended {index : ℕ} {done : List RouterTarget} {target : RouterTarget}
    (rest : List RouterTarget) (hdone : AllProceed checksum env call.token index done) :
    (updateTargets checksum env call index (done ++ target :: rest)).calls.filterMap (AdminCall.activation? checksum)
        = List.range' index done.length ++
          (updateTargets checksum env call (index + done.length) (target :: rest)).calls.filterMap
            (AdminCall.activation? checksum) ∧
      (updateTargets checksum env call index (done ++ target :: rest)).applied.map Prod.fst
        = List.range' index done.length ++
          (updateTargets checksum env call (index + done.length) (target :: rest)).applied.map Prod.fst ∧
      (updateTargets checksum env call index (done ++ target :: rest)).finish
        = (updateTargets checksum env call (index + done.length) (target :: rest)).finish := by
  induction done generalizing index with
  | nil => simp
  | cons first done ih =>
    obtain ⟨hfirst, hdone⟩ := allProceed_cons.mp hdone
    obtain ⟨hcalls, happlied, hfinish⟩ := ih hdone
    obtain ⟨hcalls', happlied', -, hfinish'⟩ := updateTargets_cons_of_proceeds (done ++ target :: rest) hfirst
    have hlength : index + (first :: done).length = index + 1 + done.length := by
      rw [List.length_cons]
      omega
    rw [List.cons_append, hcalls', happlied', hfinish', hcalls, happlied, hfinish, hlength]
    exact ⟨rfl, rfl, rfl⟩

/-- The loop calls no router for a rollback. -/
theorem updateTargets_rollbacks (index : ℕ) (targets : List RouterTarget) :
    (updateTargets checksum env call index targets).calls.filterMap AdminCall.rollback? = [] := by
  induction targets generalizing index with
  | nil => rfl
  | cons target rest ih =>
    have hstep := @updateTarget_rollbacks checksum env call index target
    rw [updateTargets]
    cases (updateTarget checksum env call index target).outcome with
    | activated record ack observed => simp only [List.filterMap_append, hstep, ih, List.append_nil]
    | stopped failure record => exact hstep
    | returned error => exact hstep

/-- Every attempt of a rollback ends with one call that says so, and activates nothing. -/
theorem rollbackTarget_calls (index : ℕ) (target : RouterTarget) (observed : SnapshotIdentity) :
    (rollbackTarget checksum env call index target observed).1.filterMap AdminCall.rollback? = [index] ∧
      (rollbackTarget checksum env call index target observed).1.filterMap (AdminCall.activation? checksum) = [] := by
  unfold rollbackTarget
  cases env.admin.currentSnapshot .rollback index target.endpoint call.token with
  | error error => simp [AdminCall.rollback?, AdminCall.activation?]
  | ok current =>
    cases hv : current.version.checkedSucc with
    | none => simp [hv, AdminCall.rollback?, AdminCall.activation?]
    | some version => simp [hv, AdminCall.rollback?, AdminCall.activation?]

/-- The rollback makes one attempt for each target it is given, in the order given. -/
theorem rollbackAppliedTargets_calls {targets : List RouterTarget} {applied : List (ℕ × SnapshotIdentity)}
    (h : ∀ a ∈ applied, a.1 < targets.length) :
    (rollbackAppliedTargets checksum env call targets applied).1.filterMap AdminCall.rollback?
        = applied.map Prod.fst ∧
      (rollbackAppliedTargets checksum env call targets applied).1.filterMap (AdminCall.activation? checksum)
        = [] := by
  induction applied with
  | nil => exact ⟨rfl, rfl⟩
  | cons a rest ih =>
    obtain ⟨ha, hrest⟩ := List.forall_mem_cons.mp h
    obtain ⟨hrollback, hactivation⟩ := ih hrest
    obtain ⟨hstep, hstep'⟩ := @rollbackTarget_calls checksum env call a.1 targets[a.1] a.2
    simp only [rollbackAppliedTargets, List.getElem?_eq_getElem ha, List.filterMap_append, hstep, hstep',
      hrollback, hactivation, List.map_cons]
    exact ⟨rfl, rfl⟩

/-- Either every target proceeds, or there is a first one that does not. -/
theorem allProceed_or_first (index : ℕ) (targets : List RouterTarget) :
    AllProceed checksum env token index targets ∨
      ∃ done target rest, targets = done ++ target :: rest ∧ AllProceed checksum env token index done ∧
        ¬ Proceeds checksum env token (index + done.length) target := by
  induction targets generalizing index with
  | nil => exact .inl (allProceed_nil index)
  | cons target rest ih =>
    by_cases htarget : Proceeds checksum env token index target
    · rcases ih (index + 1) with h | ⟨done, stop, tail, rfl, hdone, hstop⟩
      · exact .inl (allProceed_cons.mpr ⟨htarget, h⟩)
      · refine .inr ⟨target :: done, stop, tail, rfl, allProceed_cons.mpr ⟨htarget, hdone⟩, ?_⟩
        rwa [List.length_cons, Nat.add_comm done.length, ← Nat.add_assoc]
    · exact .inr ⟨[], target, rest, rfl, allProceed_nil index, htarget⟩

/-- There is one first target that does not proceed at most. -/
theorem first_unique {index : ℕ} {done done' rest rest' : List RouterTarget} {target target' : RouterTarget}
    (h : done ++ target :: rest = done' ++ target' :: rest')
    (hdone : AllProceed checksum env token index done)
    (htarget : ¬ Proceeds checksum env token (index + done.length) target)
    (hdone' : AllProceed checksum env token index done')
    (htarget' : ¬ Proceeds checksum env token (index + done'.length) target') :
    done = done' ∧ target = target' := by
  induction done generalizing index done' with
  | nil =>
    cases done' with
    | nil => exact ⟨rfl, (List.cons.inj h).1⟩
    | cons first done' =>
      obtain ⟨rfl, -⟩ := List.cons.inj h
      exact absurd (allProceed_cons.mp hdone').1 htarget
  | cons first done ih =>
    cases done' with
    | nil =>
      obtain ⟨rfl, -⟩ := List.cons.inj h
      exact absurd (allProceed_cons.mp hdone).1 htarget'
    | cons first' done' =>
      obtain ⟨rfl, htail⟩ := List.cons.inj h
      have hshift : ∀ l : List RouterTarget, index + (first :: l).length = index + 1 + l.length := by
        intro l
        rw [List.length_cons]
        omega
      rw [hshift] at htarget htarget'
      obtain ⟨rfl, rfl⟩ := ih htail (allProceed_cons.mp hdone).2 htarget (allProceed_cons.mp hdone').2 htarget'
      exact ⟨rfl, rfl⟩

theorem compensable_iff_of_first {done rest : List RouterTarget} {target : RouterTarget}
    (hdone : AllProceed checksum env token 0 done)
    (htarget : ¬ Proceeds checksum env token done.length target) :
    Compensable checksum env token (done ++ target :: rest) ↔
      Stops checksum env token done.length target ∨
        (done = [] ∧ ¬ Activates checksum env token 0 target) := by
  constructor
  · intro h
    exact h.stops done target rest rfl hdone htarget
  · intro h
    constructor
    · intro done' target' rest' hsplit hdone' htarget'
      have hzero : ∀ l : List RouterTarget, 0 + l.length = l.length := fun l => Nat.zero_add _
      obtain ⟨rfl, rfl⟩ := first_unique hsplit hdone (by rwa [hzero]) hdone' (by rwa [hzero])
      exact h
    · intro _ hall
      refine absurd (hall (target, done.length) ?_) htarget
      rw [List.zipIdx_append, List.zipIdx_cons, Nat.zero_add]
      exact List.mem_append_right _ List.mem_cons_self

theorem compensable_iff_of_allProceed {targets : List RouterTarget}
    (h : AllProceed checksum env token 0 targets) :
    Compensable checksum env token targets ↔
      (targets ≠ [] → ((∃ target ∈ targets, target.id = "host-gateway") → env.writeHostRouter = .ok ()) ∧
        env.writePlan = .ok ()) := by
  constructor
  · intro hc hne
    exact hc.writes hne h
  · intro hw
    refine ⟨?_, fun hne _ => hw hne⟩
    rintro done target rest rfl - htarget
    refine absurd (h (target, done.length) ?_) htarget
    rw [List.zipIdx_append, List.zipIdx_cons, Nat.zero_add]
    exact List.mem_append_right _ List.mem_cons_self

end Loops

/-! ### The call -/

section Main

variable {checksum : RouterConfig → String} {codec : SnapshotCodec} {env : Surroundings} {prepared : Prepared}
  {progress : Progress}

theorem finishBinding_calls : (finishBinding codec env prepared progress).calls = progress.calls := by
  unfold finishBinding
  simp only
  split
  · rfl
  · split <;> rfl

/-- After the loop the call succeeds exactly if the files are written. -/
theorem finishBinding_succeeded_iff :
    (finishBinding codec env prepared progress).Succeeded ↔
      ((∃ target ∈ progress.targets, target.id = "host-gateway") → env.writeHostRouter = .ok ()) ∧
        env.writePlan = .ok () := by
  have hhost : ((progress.targets.find? fun target => target.id = "host-gateway").map fun target =>
      codec.encode target.candidate).isSome = true ↔ ∃ target ∈ progress.targets, target.id = "host-gateway" := by
    rw [Option.isSome_map, List.find?_isSome]
    simp
  rw [← hhost]
  unfold finishBinding Run.Succeeded
  generalize (progress.targets.find? fun target => target.id = "host-gateway").map
    (fun target => codec.encode target.candidate) = host
  cases host <;> cases env.writeHostRouter <;> cases env.writePlan <;> simp

theorem bindTargets_of_finished
    (h : (updateTargets checksum env prepared.call 0 prepared.targets).finish = .finished) :
    bindTargets checksum codec env prepared =
      finishBinding codec env prepared (updateTargets checksum env prepared.call 0 prepared.targets) := by
  simp only [bindTargets, h]

/-- A call whose targets all proceed activates them, and rolls back none. -/
theorem bindTargets_allProceed (h : AllProceed checksum env prepared.call.token 0 prepared.targets) :
    AllOrNothing checksum (bindTargets checksum codec env prepared) ↔
      Compensable checksum env prepared.call.token prepared.targets := by
  obtain ⟨hfinish, hacts, hids⟩ := @updateTargets_activated checksum env prepared.call 0 _ h
  have hhost : (∃ target ∈ (updateTargets checksum env prepared.call 0 prepared.targets).targets,
      target.id = "host-gateway") ↔ ∃ target ∈ prepared.targets, target.id = "host-gateway" := by
    rw [← List.mem_map, ← List.mem_map, hids]
  rw [compensable_iff_of_allProceed h, AllOrNothing, bindTargets_of_finished hfinish, finishBinding_succeeded_iff,
    Run.rollbacks, Run.activations, finishBinding_calls, hacts, updateTargets_rollbacks, hhost]
  constructor
  · intro himp hne
    by_contra hw
    have hlength := congrArg List.length (himp hw)
    simp only [List.length_nil, List.length_reverse, List.length_range'] at hlength
    exact hne (List.length_eq_zero_iff.mp hlength.symm)
  · intro himp hw
    have hnil : prepared.targets = [] := by
      by_contra hne
      exact hw (himp hne)
    rw [hnil]
    rfl

/-- A call whose loop stops rolls back what it applied, which is what it activated. -/
theorem bindTargets_of_stopped {failure : String}
    (hfinish : (updateTargets checksum env prepared.call 0 prepared.targets).finish = .stopped failure)
    (hacts : (updateTargets checksum env prepared.call 0 prepared.targets).calls.filterMap
        (AdminCall.activation? checksum)
      = (updateTargets checksum env prepared.call 0 prepared.targets).applied.map Prod.fst) :
    AllOrNothing checksum (bindTargets checksum codec env prepared) := by
  intro _
  have hlt : ∀ a ∈ (updateTargets checksum env prepared.call 0 prepared.targets).applied.reverse,
      a.1 < (updateTargets checksum env prepared.call 0 prepared.targets).targets.length := by
    intro a ha
    have := updateTargets_applied_lt 0 prepared.targets a (List.mem_reverse.mp ha)
    omega
  obtain ⟨hrollbacks, hnone⟩ := @rollbackAppliedTargets_calls checksum env prepared.call _ _ hlt
  simp only [Run.rollbacks, Run.activations, bindTargets, hfinish, List.filterMap_append,
    updateTargets_rollbacks, hrollbacks, hnone, hacts, List.nil_append, List.append_nil, List.map_reverse]

/-- A call that returns from its loop rolls back nothing. -/
theorem bindTargets_of_returned {error : ApiErrorV1}
    (hfinish : (updateTargets checksum env prepared.call 0 prepared.targets).finish = .returned error) :
    AllOrNothing checksum (bindTargets checksum codec env prepared) ↔
      (updateTargets checksum env prepared.call 0 prepared.targets).calls.filterMap
        (AdminCall.activation? checksum) = [] := by
  have hfail : ¬ (bindTargets checksum codec env prepared).Succeeded := by
    rintro ⟨done, h, -⟩
    simp only [bindTargets, hfinish] at h
    cases h
  simp only [AllOrNothing, hfail, not_false_eq_true, forall_const]
  simp only [Run.rollbacks, Run.activations, bindTargets, hfinish, updateTargets_rollbacks]
  rw [eq_comm, List.reverse_eq_nil_iff]

/-- **Compensation of a prepared call**, for every list of targets. -/
theorem bindTargets_allOrNothing_iff :
    AllOrNothing checksum (bindTargets checksum codec env prepared) ↔
      Compensable checksum env prepared.call.token prepared.targets := by
  rcases @allProceed_or_first checksum env prepared.call.token 0 prepared.targets with
    hall | ⟨done, target, rest, htargets, hdone, htarget⟩
  · exact bindTargets_allProceed hall
  · rw [Nat.zero_add] at htarget
    obtain ⟨hacts, happlied, hfinish⟩ := @updateTargets_ended checksum env prepared.call 0 done target rest hdone
    obtain ⟨hcalls, hnone, hstop, hreturn⟩ :=
      @updateTargets_cons_of_not_proceeds checksum env prepared.call done.length target rest htarget
    obtain ⟨hact, hnoact⟩ := @updateTarget_activations checksum env prepared.call done.length target
    rw [Nat.zero_add, ← htargets] at hacts happlied hfinish
    rw [hcalls] at hacts
    rw [hnone, List.map_nil, List.append_nil] at happlied
    rw [htargets, compensable_iff_of_first hdone htarget]
    by_cases hstops : Stops checksum env prepared.call.token done.length target
    · simp only [hstops, true_or, iff_true]
      obtain ⟨failure, hfailure⟩ := hstop hstops
      refine bindTargets_of_stopped (hfinish.trans hfailure) ?_
      rw [hacts, happlied, hnoact (not_activates_of_stops hstops), List.append_nil]
    · obtain ⟨error, herror⟩ := hreturn hstops
      rw [bindTargets_of_returned (hfinish.trans herror), hacts]
      simp only [hstops, false_or, List.append_eq_nil_iff, List.range'_eq_nil_iff, List.length_eq_zero_iff]
      refine and_congr_right ?_
      rintro rfl
      constructor
      · intro hnil hacts'
        rw [hact hacts'] at hnil
        cases hnil
      · exact hnoact

theorem prepare_token {active : ActiveSnapshots} {projectRoot : PathBuf} {token operationId : String}
    {planned : Except ApiErrorV1 MembershipPlan} {request : CommandRequestV1}
    (h : prepare codec active projectRoot token operationId planned request = .ok prepared) :
    prepared.call.token = token := by
  unfold prepare at h
  obtain ⟨consumer, -, h⟩ := bind_eq_ok_iff.mp h
  obtain ⟨group, -, h⟩ := bind_eq_ok_iff.mp h
  obtain ⟨plan, -, h⟩ := bind_eq_ok_iff.mp h
  obtain ⟨⟨plan', targets⟩, -, h⟩ := bind_eq_ok_iff.mp h
  obtain ⟨context, -, h⟩ := bind_eq_ok_iff.mp h
  rw [← Except.ok.inj h]

/-- **When a live binding is all or nothing.** For every plan, every active snapshot and
every answer of the routers and of the file system: a call that does not succeed has rolled
back exactly what it activated, in reverse order, if and only if its targets are
compensable. -/
theorem compensation_exact (checksum : RouterConfig → String) (codec : SnapshotCodec) (active : ActiveSnapshots)
    (env : Surroundings) (projectRoot : PathBuf) (token operationId : String)
    (planned : Except ApiErrorV1 MembershipPlan) (request : CommandRequestV1) :
    AllOrNothing checksum
        (applyLiveBindingWithAdmin checksum codec active env projectRoot token operationId planned request) ↔
      ∀ prepared, prepare codec active projectRoot token operationId planned request = .ok prepared →
        Compensable checksum env token prepared.targets := by
  unfold applyLiveBindingWithAdmin
  cases h : prepare codec active projectRoot token operationId planned request with
  | error error => simp [AllOrNothing, Run.rollbacks, Run.activations]
  | ok prepared =>
    simp only [Except.ok.injEq, forall_eq']
    rw [bindTargets_allOrNothing_iff, prepare_token h]

/-- A sidecar's snapshot: it sends the loopback connections of `web` to one member. -/
def webSnapshot (member : ComponentId) : RouterConfig where
  apiVersion := API_VERSION
  kind := KIND
  metadata := ⟨"shop"⟩
  spec := {
    snapshot := ⟨"web-1", 1, ⟨.close, .close, .close, .close, .close⟩⟩
    exposure := none
    listeners := []
    providers := []
    groups := []
    bindings := []
    routes := []
    browserRoutes := []
    transparentProxy := some ⟨"web", 15001, [⟨member, member, none⟩], 1000⟩
    identity := IdentityPolicy.default }

/-- A move that changes the members two sidecars see. -/
def webPlan : MembershipPlan where
  deployment := "shop"
  resourceHash := "c0ffee"
  routeConfigs := .ofList [("api", "new"), ("web", "new")]
  sidecars := .ofList [("api", ⟨"shop-api-router", ⟨"/run/admin.sock"⟩⟩), ("web", ⟨"shop-web-router", ⟨"/run/admin.sock"⟩⟩)]
  hostRouterConfig := none

/-- The first router is at version 1 and activates what it is sent; the second one is at
the last version there is. -/
def exhaustedPeer : Surroundings where
  admin := {
    currentSnapshot := fun _ index _ _ =>
      .ok ⟨"current", if index = 0 then 1 else ⟨2 ^ 64 - 1, by decide⟩, "sum"⟩
    applySnapshot := fun _ _ _ _ config => .ok ⟨config.spec.snapshot.version, "sum", .activated⟩ }
  cancelled := fun _ => false
  now := fun _ _ => 0
  writeHostRouter := .ok ()
  writePlan := .ok ()

/-- The move of `web` over these routers. -/
def exhaustedRun : Run :=
  applyLiveBindingWithAdmin (fun _ => "sum")
    ⟨fun text => .ok (webSnapshot (if text = "new" then "api-b" else "api-a")), fun _ => ""⟩
    ⟨fun _ => .ok "old", .notFound⟩ exhaustedPeer ⟨"/srv/shop"⟩ "token" "operation-1" (.ok webPlan)
    ⟨some "web", some "blue", none⟩

/-- **A target that stays activated**: the second router's version is exhausted, the call
returns from its loop, and the first router keeps the new snapshot. -/
theorem activated_target_left_behind : ¬ AllOrNothing (fun _ => "sum") exhaustedRun := by
  intro h
  have hfail : ¬ exhaustedRun.Succeeded := by
    rintro ⟨done, hdone, -⟩
    have herror : exhaustedRun.outcome.isOk = false := by decide
    rw [hdone] at herror
    cases herror
  have hactivations : exhaustedRun.activations (fun _ => "sum") = [0] := by decide
  have hrollbacks : exhaustedRun.rollbacks = [] := by decide
  have hrun := h hfail
  rw [hactivations, hrollbacks] at hrun
  cases hrun

end Main

end Apmpr.Daemon.LiveBinding
