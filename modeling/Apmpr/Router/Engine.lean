import Apmpr.Lib.Run
import Apmpr.Router.Compile
import Mathlib.Data.List.MinMax

/-!
# The route engine

`RouteEngine` of the crate `router-core` owns the active snapshot and the one before
it. `apply` compiles a configuration first and publishes it in one critical section,
so a sequence of calls, in the order they take the lock, is a run of the machine
`RouteEngine.call`. Nothing panics while the lock is held, so it is never poisoned.

Decoding (`serde_json::from_slice`) and the checksum are outside the repository: they
are parameters.

## What is proved

`call_cases` — all a call can do. `current_argmax` — after any run the active
snapshot is the first of the largest version among the valid snapshots submitted, the
initial one counted. `previous_of_last_activation` — the previous snapshot is the one
that was active before the last activation.
-/

namespace Apmpr.Router

/-- Whether a submitted snapshot was published. -/
inductive ActivationStatus where
  | activated
  | rejectedStale
  deriving DecidableEq, Repr

/-- The acknowledgement of a submitted snapshot. -/
structure ApplyAck where
  version : U64
  checksum : String
  status : ActivationStatus
  deriving DecidableEq, Repr

/-- Why a submission fails. The source panics where the compiler misses an index. -/
inductive ApplyError where
  | decode
  | invalid (errors : List ValidationError)
  | panicked (key : String)
  deriving DecidableEq

/-- The error of a compilation that failed. -/
def CompileError.toApplyError : CompileError → ApplyError
  | .invalid errors => .invalid errors
  | .index key => .panicked key

/-- The active snapshot and the one before it. -/
structure RouteEngine where
  current : CompiledSnapshot
  previous : Option CompiledSnapshot
  deriving DecidableEq

/-- A submission. -/
inductive Call where
  | apply (config : RouterConfig)
  | applyJson (input : List UInt8)

section

variable (decode : List UInt8 → Option RouterConfig) (checksum : RouterConfig → String)

/-- `RouteEngine::new`. -/
def RouteEngine.new (config : RouterConfig) : Except ApplyError RouteEngine :=
  match compile checksum config with
  | .error e => .error e.toApplyError
  | .ok current => .ok ⟨current, none⟩

/-- What `apply` does with the lock held. -/
def RouteEngine.publish (e : RouteEngine) (candidate : CompiledSnapshot) : RouteEngine × ApplyAck :=
  if candidate.version ≤ e.current.version then
    (e, ⟨candidate.version, candidate.checksum, .rejectedStale⟩)
  else
    (⟨candidate, some e.current⟩, ⟨candidate.version, candidate.checksum, .activated⟩)

/-- `apply`: compile, then publish. -/
def RouteEngine.apply (e : RouteEngine) (config : RouterConfig) : RouteEngine × Except ApplyError ApplyAck :=
  match compile checksum config with
  | .error error => (e, .error error.toApplyError)
  | .ok candidate => ((e.publish candidate).1, .ok (e.publish candidate).2)

/-- `apply_json`. -/
def RouteEngine.applyJson (e : RouteEngine) (input : List UInt8) : RouteEngine × Except ApplyError ApplyAck :=
  match decode input with
  | none => (e, .error .decode)
  | some config => e.apply checksum config

/-- One submission to the engine. -/
def RouteEngine.call (e : RouteEngine) : Call → RouteEngine × Except ApplyError ApplyAck
  | .apply config => e.apply checksum config
  | .applyJson input => e.applyJson decode checksum input

/-- The configuration a call submits, if it can be read. -/
def Call.config? : Call → Option RouterConfig
  | .apply config => some config
  | .applyJson input => decode input

/-- The valid snapshot a call submits, if it submits one. -/
def Call.snapshot? (c : Call) : Option CompiledSnapshot :=
  (c.config? decode).bind fun config => (compile checksum config).toOption

/-- The call is answered that its snapshot is active now. -/
def RouteEngine.Activates (e : RouteEngine) (c : Call) : Prop :=
  ∃ ack, (e.call decode checksum c).2 = .ok ack ∧ ack.status = .activated

end

variable {decode : List UInt8 → Option RouterConfig} {checksum : RouterConfig → String}

/-! ### One call -/

/-- A compiled snapshot has the version and the checksum of its configuration. -/
theorem compile_identity {config : RouterConfig} {s : CompiledSnapshot}
    (h : compile checksum config = .ok s) :
    config.Valid ∧ s.config = config ∧ s.version = config.spec.snapshot.version ∧
      s.checksum = checksum config := by
  obtain ⟨hvalid, bound, direct, browser, -, -, -, rfl⟩ := compile_cases h
  exact ⟨hvalid, rfl, rfl, rfl⟩

theorem snapshot?_eq_some_iff {c : Call} {s : CompiledSnapshot} :
    c.snapshot? decode checksum = some s ↔
      ∃ config, c.config? decode = some config ∧ compile checksum config = .ok s := by
  rw [Call.snapshot?, Option.bind_eq_some_iff]
  refine exists_congr fun config => and_congr_right fun _ => ?_
  cases compile checksum config <;> simp [Except.toOption]

/-- A call that can be read applies what it reads. -/
theorem call_of_config {c : Call} {config : RouterConfig} (h : c.config? decode = some config)
    (e : RouteEngine) : e.call decode checksum c = e.apply checksum config := by
  cases c with
  | apply config' =>
    obtain rfl := Option.some.inj h
    rfl
  | applyJson input =>
    simp only [Call.config?] at h
    simp only [RouteEngine.call, RouteEngine.applyJson, h]

theorem call_of_no_config {c : Call} (h : c.config? decode = none) (e : RouteEngine) :
    e.call decode checksum c = (e, .error .decode) := by
  cases c with
  | apply config' => cases h
  | applyJson input =>
    simp only [Call.config?] at h
    simp only [RouteEngine.call, RouteEngine.applyJson, h]

/-- **All a call can do**: fail, be stale, or activate what it submits. -/
theorem call_cases (decode : List UInt8 → Option RouterConfig) (checksum : RouterConfig → String)
    (e : RouteEngine) (c : Call) :
    (c.snapshot? decode checksum = none ∧ ∃ error, e.call decode checksum c = (e, .error error)) ∨
    (∃ s, c.snapshot? decode checksum = some s ∧ s.version ≤ e.current.version ∧
      e.call decode checksum c = (e, .ok ⟨s.version, s.checksum, .rejectedStale⟩)) ∨
    ∃ s, c.snapshot? decode checksum = some s ∧ e.current.version < s.version ∧
      e.call decode checksum c = (⟨s, some e.current⟩, .ok ⟨s.version, s.checksum, .activated⟩) := by
  cases hconfig : c.config? decode with
  | none => exact Or.inl ⟨by rw [Call.snapshot?, hconfig]; rfl, _, call_of_no_config hconfig e⟩
  | some config =>
    rw [call_of_config hconfig e, RouteEngine.apply]
    cases hcompile : compile checksum config with
    | error error =>
      refine Or.inl ⟨?_, _, rfl⟩
      rw [Call.snapshot?, hconfig, Option.bind_some, hcompile]
      rfl
    | ok s =>
      have hs : c.snapshot? decode checksum = some s := snapshot?_eq_some_iff.mpr ⟨config, hconfig, hcompile⟩
      rcases le_or_gt s.version e.current.version with hle | hlt
      · refine Or.inr (Or.inl ⟨s, hs, hle, ?_⟩)
        simp only [RouteEngine.publish, if_pos hle]
      · refine Or.inr (Or.inr ⟨s, hs, hlt, ?_⟩)
        simp only [RouteEngine.publish, if_neg (not_le.mpr hlt)]

/-- A call that does not activate changes nothing. -/
theorem call_of_not_activates {e : RouteEngine} {c : Call} (h : ¬ e.Activates decode checksum c) :
    (e.call decode checksum c).1 = e := by
  rcases call_cases decode checksum e c with
    ⟨-, error, hcall⟩ | ⟨s, -, -, hcall⟩ | ⟨s, -, -, hcall⟩
  · rw [hcall]
  · rw [hcall]
  · exact absurd ⟨_, by rw [hcall], rfl⟩ h

/-- A call that activates publishes a larger version and keeps what was active. -/
theorem call_of_activates {e : RouteEngine} {c : Call} (h : e.Activates decode checksum c) :
    e.current.version < (e.call decode checksum c).1.current.version ∧
      (e.call decode checksum c).1.previous = some e.current := by
  obtain ⟨ack, hack, hstatus⟩ := h
  rcases call_cases decode checksum e c with
    ⟨-, error, hcall⟩ | ⟨s, -, -, hcall⟩ | ⟨s, -, hlt, hcall⟩
  · rw [hcall] at hack
    cases hack
  · rw [hcall] at hack
    obtain rfl := Except.ok.inj hack
    cases hstatus
  · rw [hcall]
    exact ⟨hlt, rfl⟩

/-- An acknowledgement names the snapshot submitted. -/
theorem ack_identity {e : RouteEngine} {c : Call} {ack : ApplyAck}
    (h : (e.call decode checksum c).2 = .ok ack) :
    ∃ config, c.config? decode = some config ∧ config.Valid ∧
      ack.version = config.spec.snapshot.version ∧ ack.checksum = checksum config := by
  have hnames : ∀ {s : CompiledSnapshot} {status : ActivationStatus}, c.snapshot? decode checksum = some s →
      ⟨s.version, s.checksum, status⟩ = ack → ∃ config, c.config? decode = some config ∧ config.Valid ∧
        ack.version = config.spec.snapshot.version ∧ ack.checksum = checksum config := by
    rintro s status hs rfl
    obtain ⟨config, hconfig, hcompile⟩ := snapshot?_eq_some_iff.mp hs
    obtain ⟨hvalid, -, hversion, hchecksum⟩ := compile_identity hcompile
    exact ⟨config, hconfig, hvalid, hversion, hchecksum⟩
  rcases call_cases decode checksum e c with
    ⟨-, error, hcall⟩ | ⟨s, hs, -, hcall⟩ | ⟨s, hs, -, hcall⟩
  · rw [hcall] at h
    cases h
  · rw [hcall] at h
    exact hnames hs (Except.ok.inj h)
  · rw [hcall] at h
    exact hnames hs (Except.ok.inj h)

/-! ### Whole runs -/

/-- The valid snapshots submitted by a list of calls, in order. -/
def submitted (decode : List UInt8 → Option RouterConfig) (checksum : RouterConfig → String)
    (calls : List Call) : List CompiledSnapshot :=
  calls.filterMap (Call.snapshot? decode checksum)

/-- **The active snapshot** is the first of the largest version among the valid snapshots
submitted. -/
theorem current_argmax (e : RouteEngine) (calls : List Call) :
    (e.current :: submitted decode checksum calls).argmax CompiledSnapshot.version =
      some (after (RouteEngine.call decode checksum) e calls).current := by
  induction calls using List.reverseRecOn with
  | nil => rfl
  | append_singleton calls c ih =>
    rw [after_concat, submitted, List.filterMap_append, ← List.cons_append]
    change List.argmax _ ((e.current :: submitted decode checksum calls) ++ _) = _
    rcases call_cases decode checksum
      (after (RouteEngine.call decode checksum) e calls) c with
      ⟨hs, error, hcall⟩ | ⟨s, hs, hle, hcall⟩ | ⟨s, hs, hlt, hcall⟩
    · rw [hcall, List.filterMap_cons_none hs, List.filterMap_nil, List.append_nil, ih]
    · rw [hcall, List.filterMap_cons_some hs, List.filterMap_nil, List.argmax_concat, ih]
      exact if_neg (not_lt.mpr hle)
    · rw [hcall, List.filterMap_cons_some hs, List.filterMap_nil, List.argmax_concat, ih]
      exact if_pos hlt

/-- A run in which nothing is activated changes nothing. -/
theorem after_of_none_activated {e : RouteEngine} {calls : List Call}
    (h : ∀ pre c post, calls = pre ++ c :: post →
      ¬ (after (RouteEngine.call decode checksum) e pre).Activates decode checksum c) :
    after (RouteEngine.call decode checksum) e calls = e :=
  after_of_quiet fun pre c post hcalls => call_of_not_activates (h pre c post hcalls)

/-- **The previous snapshot** is the one that was active before the last activation. -/
theorem previous_of_last_activation {e : RouteEngine} {pre post : List Call} {c : Call}
    (hc : (after (RouteEngine.call decode checksum) e pre).Activates decode checksum c)
    (hlast : ∀ pre' c' post', post = pre' ++ c' :: post' →
      ¬ (after (RouteEngine.call decode checksum) e (pre ++ c :: pre')).Activates decode checksum c') :
    (after (RouteEngine.call decode checksum) e (pre ++ c :: post)).previous =
      some (after (RouteEngine.call decode checksum) e pre).current := by
  rw [after_append, after_cons, after_of_none_activated]
  · exact (call_of_activates hc).2
  · intro pre' c' post' hpost
    have := hlast pre' c' post' hpost
    rwa [after_append, after_cons] at this

/-- **The engine over any run** of calls from its construction. -/
theorem engine_run (decode : List UInt8 → Option RouterConfig) (checksum : RouterConfig → String)
    (config : RouterConfig) (e₀ : RouteEngine) (h₀ : RouteEngine.new checksum config = .ok e₀)
    (calls : List Call) :
    let run := after (RouteEngine.call decode checksum) e₀
    let e := run calls
    -- the active snapshot
    (e₀.current :: submitted decode checksum calls).argmax CompiledSnapshot.version = some e.current ∧
    -- the previous one, before the first activation and after the last
    ((∀ pre c post, calls = pre ++ c :: post → ¬ (run pre).Activates decode checksum c) →
      e.previous = none) ∧
    (∀ pre c post, calls = pre ++ c :: post → (run pre).Activates decode checksum c →
      (∀ pre' c' post', post = pre' ++ c' :: post' →
        ¬ (run (pre ++ c :: pre')).Activates decode checksum c') →
      e.previous = some (run pre).current) ∧
    -- the next call
    ∀ c, (e.Activates decode checksum c →
        e.current.version < (e.call decode checksum c).1.current.version) ∧
      (¬ e.Activates decode checksum c → (e.call decode checksum c).1 = e) ∧
      ∀ ack, (e.call decode checksum c).2 = .ok ack →
        ∃ config, c.config? decode = some config ∧ config.Valid ∧
          ack.version = config.spec.snapshot.version ∧ ack.checksum = checksum config := by
  intro run e
  refine ⟨current_argmax e₀ calls, fun hnone => ?_, ?_, fun c => ⟨?_, ?_, fun ack => ack_identity⟩⟩
  · have hstart : e₀.previous = none := by
      unfold RouteEngine.new at h₀
      split at h₀
      · cases h₀
      · rw [← Except.ok.inj h₀]
    have he : e = e₀ := after_of_none_activated hnone
    rw [he, hstart]
  · rintro pre c post rfl hc hlast
    exact previous_of_last_activation hc hlast
  · exact fun hc => (call_of_activates hc).1
  · exact call_of_not_activates

/-- The engine of the comparison deployment. -/
def comparisonEngine : RouteEngine where
  current := {
    config := comparisonConfig 1
    checksum := ""
    consumerRoutes := [
      (("backend-1", "catalog"), ⟨"services-main/catalog", ⟨.http, "127.0.0.1", 7001⟩, none, false⟩),
      (("backend-1", "search"), ⟨"services-main/search", ⟨.http, "127.0.0.1", 7002⟩, none, false⟩),
      (("backend-1", "catalog"), ⟨"services-main/search", ⟨.http, "127.0.0.1", 7002⟩, none, false⟩)]
    browserRoutes := [
      (("browser-backend", .header "ui-1"), ⟨"backend-1", ⟨.http, "127.0.0.1", 7003⟩, none, true⟩)] }
  previous := none

/-- A newer, a stale and an undecodable submission. -/
theorem engine_run_comparison :
    RouteEngine.new (fun _ => "") (comparisonConfig 1) = .ok comparisonEngine ∧
      (comparisonEngine.current :: submitted (fun _ => none) (fun _ => "")
          [.apply (comparisonConfig 3), .apply (comparisonConfig 2), .applyJson []]).argmax
          CompiledSnapshot.version =
        some (after (RouteEngine.call (fun _ => none) (fun _ => "")) comparisonEngine
          [.apply (comparisonConfig 3), .apply (comparisonConfig 2), .applyJson []]).current :=
  ⟨by decide, (engine_run (fun _ => none) (fun _ => "") (comparisonConfig 1) comparisonEngine (by decide)
    [.apply (comparisonConfig 3), .apply (comparisonConfig 2), .applyJson []]).1⟩

end Apmpr.Router
