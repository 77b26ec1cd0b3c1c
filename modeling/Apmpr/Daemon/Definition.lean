import Apmpr.Lib.Run
import Mathlib.Data.List.Chain
import Mathlib.Logic.Function.Basic

/-!
# Updating a deployment definition

`update_deployment_definition_blocking` reads the definition and compares its hash with
the one the request expects, validates the new text, reads and compares again, writes a
temporary file and renames it over the definition. Requests run on threads of their
own; an event below is one of their steps with the file system, with the outcome the
file system or the validation gave. `create_deployment_blocking` takes part with its
one effect, a hard link that fails where the definition exists.

The rename asks nothing: what was compared may be gone by then. `update_overwritten`
gives a run in which two requests that expect the same text are both accepted, and the
first one's update is gone without anyone having seen it.

## What is proved

`updates_chain` — in every run in which no rename lands between another request's
second read and its rename, the accepted updates form a chain: each replaces the text
the one before it wrote, and expected that text's hash; so of the requests that expect
one hash at most one is accepted, as long as no accepted text has that hash.

## Honest scope

All requests are for one definition file, the temporary files are the requests' own,
and nobody else writes the definition. The hash is a parameter.
-/

namespace Apmpr.Daemon.Definition

/-- How a request is answered. -/
inductive Answer where
  | accepted
  | conflict
  | notFound
  | readFailed
  | invalid
  | writeFailed
  deriving DecidableEq, Repr

/-- Where a request is. After the second read it is counted how many updates had been
accepted by then. -/
inductive Phase where
  | arrived
  | compared
  | validated
  | comparedAgain (updates : ℕ)
  | written (updates : ℕ)
  | answered (answer : Answer)
  deriving DecidableEq, Repr

/-- An update request. -/
structure Request where
  expectedHash : String
  yaml : String
  phase : Phase
  deriving DecidableEq, Repr

/-- An accepted update: what it expected, the text it replaced and the text it wrote. -/
structure Update where
  expectedHash : String
  replaced : Option String
  yaml : String
  deriving DecidableEq, Repr

/-- The definition file, the requests, and the updates accepted so far. -/
structure State where
  file : Option String
  requests : ℕ → Option Request
  accepted : List Update

/-- No requests yet. -/
def State.initial (file : Option String) : State := ⟨file, fun _ => none, []⟩

/-- A step of a request, with the outcome of what it calls. -/
inductive Event where
  | arrive (id : ℕ) (expectedHash yaml : String)
  | read (id : ℕ) (ok : Bool)
  | validate (id : ℕ) (ok : Bool)
  | readAgain (id : ℕ) (ok : Bool)
  | write (id : ℕ) (ok : Bool)
  | rename (id : ℕ) (ok : Bool)
  /-- A definition is created, where there is none. -/
  | create (yaml : String)

section

variable (definitionHash : String → String)

/-- What a read and the comparison after it lead to. -/
def compare (file : Option String) (expectedHash : String) (ok : Bool) (next : Phase) : Phase :=
  match ok, file with
  | false, _ => .answered .readFailed
  | true, none => .answered .notFound
  | true, some text => if definitionHash text ≠ expectedHash then .answered .conflict else next

/-- Move a request to a phase. -/
def State.move (s : State) (id : ℕ) (request : Request) (phase : Phase) : State :=
  { s with requests := Function.update s.requests id (some { request with phase }) }

/-- The rename: the request's text replaces what is there. -/
def State.replace (s : State) (id : ℕ) (request : Request) : State where
  file := some request.yaml
  requests := Function.update s.requests id (some { request with phase := .answered .accepted })
  accepted := s.accepted ++ [⟨request.expectedHash, s.file, request.yaml⟩]

/-- What the step of a known request does, where it is the request's next one. -/
def advance (s : State) (id : ℕ) (request : Request) : Event → Option State
  | .read _ ok =>
    if request.phase = .arrived then
      some (s.move id request (compare definitionHash s.file request.expectedHash ok .compared))
    else none
  | .validate _ ok =>
    if request.phase = .compared then
      some (s.move id request (if ok then .validated else .answered .invalid))
    else none
  | .readAgain _ ok =>
    if request.phase = .validated then
      some (s.move id request
        (compare definitionHash s.file request.expectedHash ok (.comparedAgain s.accepted.length)))
    else none
  | .write _ ok =>
    match request.phase with
    | .comparedAgain updates =>
      some (s.move id request (if ok then .written updates else .answered .writeFailed))
    | _ => none
  | .rename _ ok =>
    match request.phase with
    | .written _ =>
      some (if ok then s.replace id request else s.move id request (.answered .writeFailed))
    | _ => none
  | .arrive .. | .create _ => none

/-- The request an event is of. -/
def Event.id? : Event → Option ℕ
  | .arrive id .. | .read id _ | .validate id _ | .readAgain id _ | .write id _ | .rename id _ => some id
  | .create _ => none

/-- One event, where it is enabled. -/
def step (s : State) (e : Event) : Option State :=
  match e with
  | .arrive id expectedHash yaml =>
    if s.requests id = none then
      some { s with requests := Function.update s.requests id (some ⟨expectedHash, yaml, .arrived⟩) }
    else none
  | .create yaml => if s.file = none then some { s with file := some yaml } else none
  | e => e.id?.bind fun id => (s.requests id).bind fun request => advance definitionHash s id request e

end

/-- A rename lands with no other since the request's second read. -/
def Undisturbed (s : State) : Event → Prop
  | .rename id true => ∀ request updates, s.requests id = some request → request.phase = .written updates →
      updates = s.accepted.length
  | _ => True

/-- The accepted updates form a chain. -/
structure Chained (definitionHash : String → String) (accepted : List Update) : Prop where
  /-- Each expected the hash of the text it replaced. -/
  replaced : ∀ u ∈ accepted, ∃ text, u.replaced = some text ∧ definitionHash text = u.expectedHash
  /-- Each replaced the text that the one before it wrote: no update is lost. -/
  linked : accepted.IsChain fun u v => v.replaced = some u.yaml ∧ v.expectedHash = definitionHash u.yaml
  /-- Of the requests that expect one hash, at most one is accepted, as long as no accepted text
  has that hash. -/
  once : ∀ hash, (∀ u ∈ accepted, definitionHash u.yaml ≠ hash) →
    (accepted.filter fun u => u.expectedHash = hash).length ≤ 1

/-! ### The chain -/

variable {definitionHash : String → String}

/-- In a linked list only the first update can expect a hash that no accepted text has. -/
theorem filter_length_le_one {accepted : List Update} {hash : String}
    (hlinked : accepted.IsChain fun u v => v.replaced = some u.yaml ∧ v.expectedHash = definitionHash u.yaml)
    (hnone : ∀ u ∈ accepted, definitionHash u.yaml ≠ hash) :
    (accepted.filter fun u => u.expectedHash = hash).length ≤ 1 := by
  cases accepted with
  | nil => simp
  | cons u rest =>
    have hrest : rest.filter (fun v => v.expectedHash = hash) = [] := by
      refine List.filter_eq_nil_iff.mpr fun v hv => ?_
      obtain ⟨l₁, l₂, rfl⟩ := List.append_of_mem hv
      -- the update just before `v` wrote the text whose hash `v` expected
      obtain ⟨w, hw, hexpected⟩ : ∃ w ∈ u :: (l₁ ++ v :: l₂), v.expectedHash = definitionHash w.yaml := by
        rcases List.eq_nil_or_concat l₁ with rfl | ⟨l, w, rfl⟩
        · exact ⟨u, List.mem_cons_self .., (List.isChain_cons_cons.mp hlinked).1.2⟩
        · refine ⟨w, by simp, ?_⟩
          have hsplit : u :: (l ++ [w] ++ v :: l₂) = (u :: l) ++ w :: v :: l₂ := by simp
          rw [List.concat_eq_append, hsplit] at hlinked
          exact (List.isChain_append_cons_cons.mp hlinked).2.1.2
      rw [decide_eq_true_eq, hexpected]
      exact hnone w hw
    rw [List.filter_cons, hrest]
    split <;> simp

/-- What holds along the undisturbed runs. -/
structure Tracked (definitionHash : String → String) (s : State) : Prop where
  replaced : ∀ u ∈ s.accepted, ∃ text, u.replaced = some text ∧ definitionHash text = u.expectedHash
  linked : s.accepted.IsChain fun u v => v.replaced = some u.yaml ∧ v.expectedHash = definitionHash u.yaml
  /-- The file is what the last update wrote. -/
  last : ∀ u ∈ s.accepted.getLast?, s.file = some u.yaml
  /-- A request that has compared again compared the file as it is, or an update came since. -/
  current : ∀ id request updates, s.requests id = some request →
    request.phase = .comparedAgain updates ∨ request.phase = .written updates →
    updates < s.accepted.length ∨
      updates = s.accepted.length ∧ ∃ text, s.file = some text ∧ definitionHash text = request.expectedHash

section

variable {s s' : State} {id : ℕ} {request : Request}

namespace Tracked

/-- Moving a request that does not come out of a comparison keeps everything. -/
theorem move (h : Tracked definitionHash s) (id : ℕ) (request : Request) {phase : Phase}
    (hphase : ∀ updates, phase = .comparedAgain updates ∨ phase = .written updates →
      updates < s.accepted.length ∨
        updates = s.accepted.length ∧ ∃ text, s.file = some text ∧ definitionHash text = request.expectedHash) :
    Tracked definitionHash (s.move id request phase) := by
  refine { h with current := fun id' r updates hr hp => ?_ }
  by_cases heq : id' = id
  · subst heq
    simp only [State.move, Function.update_self, Option.some.injEq] at hr
    subst hr
    exact hphase updates hp
  · simp only [State.move, Function.update_of_ne heq] at hr
    exact h.current id' r updates hr hp

/-- A rename that nothing came before extends the chain. -/
theorem replace (h : Tracked definitionHash s) {text : String} (hfile : s.file = some text)
    (hhash : definitionHash text = request.expectedHash) : Tracked definitionHash (s.replace id request) where
  replaced := by
    intro u hu
    rcases List.mem_append.mp hu with hu | hu
    · exact h.replaced u hu
    · obtain rfl := List.mem_singleton.mp hu
      exact ⟨text, hfile, hhash⟩
  linked := by
    refine List.isChain_append.mpr ⟨h.linked, List.isChain_singleton _, fun u hu v hv => ?_⟩
    obtain rfl := Option.some.inj hv
    have hlast := h.last u hu
    refine ⟨hlast, ?_⟩
    rw [hfile] at hlast
    rw [← Option.some.inj hlast]
    exact hhash.symm
  last := by
    intro u hu
    rw [State.replace, List.getLast?_concat] at hu
    obtain rfl := Option.some.inj hu
    rfl
  current := by
    intro id' r updates hr hp
    have hlen : (s.replace id request).accepted.length = s.accepted.length + 1 := by
      simp [State.replace]
    left
    rw [hlen]
    by_cases heq : id' = id
    · subst heq
      simp only [State.replace, Function.update_self, Option.some.injEq] at hr
      subst hr
      rcases hp with hp | hp <;> cases hp
    · simp only [State.replace, Function.update_of_ne heq] at hr
      rcases h.current id' r updates hr hp with hlt | ⟨hle, -⟩ <;> omega

/-- A comparison that leads on has found the hash expected. -/
theorem compare_cases (definitionHash : String → String) (file : Option String) (expectedHash : String)
    (ok : Bool) (next : Phase) :
    (∃ answer, compare definitionHash file expectedHash ok next = .answered answer) ∨
      compare definitionHash file expectedHash ok next = next ∧
        ∃ text, file = some text ∧ definitionHash text = expectedHash := by
  cases ok with
  | false => exact Or.inl ⟨_, rfl⟩
  | true =>
    cases file with
    | none => exact Or.inl ⟨_, rfl⟩
    | some text =>
      simp only [compare]
      split
      · exact Or.inl ⟨_, rfl⟩
      · rename_i hhash
        exact Or.inr ⟨rfl, text, rfl, not_not.mp hhash⟩

/-- A known request's step, where no rename came between. -/
theorem advance {e : Event} (h : Tracked definitionHash s) (hid : s.requests id = some request)
    (hok : e = .rename id true → ∀ updates, request.phase = .written updates → updates = s.accepted.length)
    (he : e.id? = some id) (hstep : advance definitionHash s id request e = some s') :
    Tracked definitionHash s' := by
  cases e with
  | arrive => cases hstep
  | create => cases hstep
  | read id' ok =>
    simp only [Definition.advance, Option.ite_none_right_eq_some, Option.some.injEq] at hstep
    obtain ⟨-, rfl⟩ := hstep
    refine h.move _ _ fun updates hp => ?_
    rcases compare_cases definitionHash s.file request.expectedHash ok .compared with ⟨_, heq⟩ | ⟨heq, -⟩
    · rw [heq] at hp
      rcases hp with hp | hp <;> cases hp
    · rw [heq] at hp
      rcases hp with hp | hp <;> cases hp
  | validate id' ok =>
    simp only [Definition.advance, Option.ite_none_right_eq_some, Option.some.injEq] at hstep
    obtain ⟨-, rfl⟩ := hstep
    refine h.move _ _ fun updates hp => ?_
    cases ok <;> rcases hp with hp | hp <;> cases hp
  | readAgain id' ok =>
    simp only [Definition.advance, Option.ite_none_right_eq_some, Option.some.injEq] at hstep
    obtain ⟨-, rfl⟩ := hstep
    refine h.move _ _ fun updates hp => ?_
    rcases compare_cases definitionHash s.file request.expectedHash ok (.comparedAgain s.accepted.length) with
      ⟨_, heq⟩ | ⟨heq, hfound⟩
    · rw [heq] at hp
      rcases hp with hp | hp <;> cases hp
    · rw [heq] at hp
      rcases hp with hp | hp
      · obtain rfl := Phase.comparedAgain.inj hp
        exact Or.inr ⟨rfl, hfound⟩
      · cases hp
  | write id' ok =>
    simp only [Definition.advance] at hstep
    split at hstep
    · rename_i updates hphase
      obtain rfl := Option.some.inj hstep
      refine h.move _ _ fun updates' hp => ?_
      cases ok with
      | false => rcases hp with hp | hp <;> cases hp
      | true =>
        rcases hp with hp | hp
        · cases hp
        · obtain rfl := Phase.written.inj hp
          exact h.current id request _ hid (Or.inl hphase)
    · cases hstep
  | rename id' ok =>
    obtain rfl : id' = id := Option.some.inj he
    simp only [Definition.advance] at hstep
    split at hstep
    · rename_i updates hphase
      obtain rfl := Option.some.inj hstep
      cases ok with
      | false => exact h.move _ _ fun _ hp => by rcases hp with hp | hp <;> cases hp
      | true =>
        have hsame := hok rfl updates hphase
        rcases h.current id' request updates hid (Or.inr hphase) with hlt | ⟨-, text, hfile, hhash⟩
        · omega
        · exact h.replace hfile hhash
    · cases hstep

/-- **Every undisturbed event keeps the invariant.** -/
theorem step {e : Event} (h : Tracked definitionHash s) (hok : Undisturbed s e)
    (hstep : step definitionHash s e = some s') : Tracked definitionHash s' := by
  have hknown : ∀ {id}, e.id? = some id →
      ((s.requests id).bind fun request => Definition.advance definitionHash s id request e) = some s' →
      Tracked definitionHash s' := by
    intro id he hadvance
    obtain ⟨request, hid, hadvance⟩ := Option.bind_eq_some_iff.mp hadvance
    refine h.advance hid (fun hrename updates hp => ?_) he hadvance
    subst hrename
    exact hok request updates hid hp
  cases e with
  | arrive id expectedHash yaml =>
    simp only [Definition.step, Option.ite_none_right_eq_some, Option.some.injEq] at hstep
    obtain ⟨-, rfl⟩ := hstep
    exact h.move id ⟨expectedHash, yaml, .arrived⟩ fun _ hp => by rcases hp with hp | hp <;> cases hp
  | create yaml =>
    simp only [Definition.step, Option.ite_none_right_eq_some, Option.some.injEq] at hstep
    obtain ⟨hnone, rfl⟩ := hstep
    refine { h with last := fun u hu => ?_, current := fun id' r updates hr hp => ?_ }
    · rw [h.last u hu] at hnone
      cases hnone
    · rcases h.current id' r updates hr hp with hlt | ⟨-, text, hfile, -⟩
      · exact Or.inl hlt
      · rw [hfile] at hnone
        cases hnone
  | read id ok => exact hknown rfl hstep
  | validate id ok => exact hknown rfl hstep
  | readAgain id ok => exact hknown rfl hstep
  | write id ok => exact hknown rfl hstep
  | rename id ok => exact hknown rfl hstep

theorem initial (file : Option String) : Tracked definitionHash (.initial file) where
  replaced := by
    intro u hu
    cases hu
  linked := List.isChain_nil
  last := by
    intro u hu
    cases hu
  current := by
    intro id request updates hid
    cases hid

theorem chained (h : Tracked definitionHash s) : Chained definitionHash s.accepted :=
  ⟨h.replaced, h.linked, fun _ hnone => filter_length_le_one h.linked hnone⟩

end Tracked

end

/-- **The accepted updates form a chain**, in every run in which no rename lands between
another request's second read and its rename. -/
theorem updates_chain (definitionHash : String → String) (file : Option String) (s : State)
    (h : Reaches (step definitionHash) Undisturbed (.initial file) s) : Chained definitionHash s.accepted :=
  (h.invariant (P := Tracked definitionHash) (fun _ _ _ hok hstep hs => hs.step hok hstep)
    (.initial file)).chained

/-- The steps of a request in which nothing fails, up to its rename. -/
def prepare (id : ℕ) : List Event := [.read id true, .validate id true, .readAgain id true, .write id true]

/-- The hashes of three texts. -/
def sampleHash : String → String
  | "a" => "ca978112ca1bbdcafac231b39a23dc4da786eff8147c4e72b9807785afee48bb"
  | "b" => "3e23e8160039594a33894f6564e1b1348bbd7a0088d42c4acb73eeaed59c009d"
  | "c" => "2e7d2c03a9507ae265ecf5b5356885a53393a2029d241394997265a1a25aefc6"
  | _ => ""

/-- The test of a rename. -/
def undisturbed (s : State) : Event → Bool
  | .rename id true =>
    match (s.requests id).map Request.phase with
    | some (.written updates) => updates = s.accepted.length
    | _ => true
  | _ => true

theorem undisturbed_sound {s : State} {e : Event} (h : undisturbed s e = true) : Undisturbed s e := by
  cases e with
  | rename id ok =>
    cases ok with
    | false => trivial
    | true =>
      intro request updates hid hphase
      simpa only [undisturbed, hid, Option.map_some, hphase, decide_eq_true_eq] using h
  | _ => trivial

/-- Two requests expect the hash of `a`. Both have compared once when the first one's text lands; the
second one compares again and is refused, and a third one follows the first. -/
theorem updates_chain_refused :
    ∃ s, Reaches (step sampleHash) Undisturbed (.initial (some "a")) s ∧
      s.accepted = [⟨sampleHash "a", some "a", "b"⟩, ⟨sampleHash "b", some "b", "c"⟩] ∧
      (s.requests 1).map Request.phase = some (.answered .conflict) ∧ s.file = some "c" ∧
      Chained sampleHash s.accepted := by
  obtain ⟨s, hs, hend⟩ := exists_reaches_of_execWhere (step sampleHash) undisturbed (fun _ _ => undisturbed_sound)
    (.initial (some "a"))
    (fun s => decide (s.accepted = [⟨sampleHash "a", some "a", "b"⟩, ⟨sampleHash "b", some "b", "c"⟩] ∧
      (s.requests 1).map Request.phase = some (.answered .conflict) ∧ s.file = some "c"))
    ([.arrive 0 (sampleHash "a") "b", .arrive 1 (sampleHash "a") "d", .read 1 true, .validate 1 true] ++ prepare 0 ++
      [.rename 0 true, .readAgain 1 true, .arrive 2 (sampleHash "b") "c"] ++ prepare 2 ++ [.rename 2 true])
    (by decide +kernel)
  obtain ⟨haccepted, hrefused, hfile⟩ := of_decide_eq_true hend
  exact ⟨s, hs, haccepted, hrefused, hfile, updates_chain sampleHash (some "a") s hs⟩

/-! ### Where an update is overwritten -/

/-- **An accepted update is overwritten**: two requests that expect the hash of `a` compare twice
before either renames, and both are accepted. -/
theorem update_overwritten :
    ∃ s, Reaches (step sampleHash) (fun _ _ => True) (.initial (some "a")) s ∧
      s.accepted = [⟨sampleHash "a", some "a", "b"⟩, ⟨sampleHash "a", some "b", "c"⟩] ∧ ¬ Chained sampleHash s.accepted := by
  obtain ⟨s, hs, haccepted⟩ := exists_reaches_of_exec (step sampleHash) (.initial (some "a"))
    (fun s => decide (s.accepted = [⟨sampleHash "a", some "a", "b"⟩, ⟨sampleHash "a", some "b", "c"⟩]))
    (.arrive 0 (sampleHash "a") "b" :: .arrive 1 (sampleHash "a") "c" :: prepare 0 ++ prepare 1 ++ [.rename 0 true, .rename 1 true])
    (by decide)
  rw [decide_eq_true_eq] at haccepted
  refine ⟨s, hs, haccepted, fun hchained => ?_⟩
  have hlinked := hchained.linked
  rw [haccepted, List.isChain_cons_cons] at hlinked
  exact absurd hlinked.1.2 (by decide)

end Apmpr.Daemon.Definition
