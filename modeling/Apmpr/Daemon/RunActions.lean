import Apmpr.Daemon.Operations
import Apmpr.Lib.Lines
import Apmpr.Lib.Run

/-!
# Run actions

The crate `apmpr-run-actions`: the run actions of a project are kept in one YAML file.
`create`, `update` and `delete` read the whole file, change the collection and write the whole
file back. Calls run on threads of their own, and nothing keeps them apart: an event below is
the first part of a call, up to the file being read, or its second part, the file being written.

`create_lost` gives two runs. In one, two calls read the file before either one writes it: both
succeed, and the action the first one created is gone. In the other, the file is opened for a
second call, which truncates it, and nothing more can be written: the action of the first call,
which has succeeded, is gone with it.

## What is proved

* `find_change`: what a call changes of a collection, name by name.
* `run_eq`: a call with nothing in between is its two parts, one after the other.
* `updates_kept`: in every run in which no write breaks off, and no call writes the file after
  another one has written it since the call read it, the effects of all calls that succeed are
  kept; and names stay unique in every run in which no write breaks off.

The file is its collection, unless it cannot be read or is no collection; the YAML library reads
back what it writes. A read or a write is one step. A write that is refused changes nothing; one
that breaks off leaves any file.
-/

namespace Apmpr.Daemon.RunActions

open Operations

/-- `RunScript`. -/
structure RunScript where
  name : String
  description : Option String
  command : Option StructuredCommand
  overlays : List String
  variation : Option String
  set : List String
  shell : Option String
  deriving DecidableEq

/-- `char::is_control`. -/
def isControl (c : Char) : Bool := c.toNat < 0x20 || (0x7f ≤ c.toNat && c.toNat < 0xa0)

/-- `validate_name`. -/
def validateName (name : String) : Except String Unit :=
  let name := Text.trim name
  if name = "" then .error "name is required"
  else if name.toList.any isControl then .error "name may not contain control characters"
  else .ok ()

/-- What an action runs: a structured command or a shell command, and not both. -/
def RunScript.validateCommand (script : RunScript) : Except String Unit :=
  match script.command, script.shell with
  | some _, none => .ok ()
  | none, some shell =>
    if Text.isBlank shell then .error "choose a structured command or enter a shell command"
    else if script.overlays ≠ [] || script.variation.isSome || script.set ≠ [] then
      .error "overlays, variation, and set require a structured command"
    else .ok ()
  | some _, some _ => .error "choose a structured command or shell, not both"
  | none, none => .error "choose a structured command or enter a shell command"

/-- `RunScript::validate`. -/
def RunScript.validate (script : RunScript) : Except String Unit := do
  validateName script.name
  script.validateCommand
  if script.set.any fun value => (Text.splitOnce '=' value).all fun (key, _) => Text.isBlank key then
    .error "each set entry must be KEY=VALUE"
  else .ok ()

/-- `RunActionError`; the path is always that of the file. -/
inductive RunActionError where
  | io
  | invalidFile (message : String)
  | invalidAction (name message : String)
  | duplicateName (name : String)
  | notFound (name : String)
  deriving DecidableEq

/-- The file of a project. -/
inductive File where
  | missing
  | unreadable
  | malformed (message : String)
  | actions (scripts : List RunScript)
  deriving DecidableEq

/-- The loop of `validate_collection`, from an index on: the names before it are known. -/
def validateFrom : ℕ → List String → List RunScript → Except RunActionError Unit
  | _, _, [] => .ok ()
  | index, names, script :: rest =>
    match script.validate with
    | .error message => .error (.invalidFile s!"invalid script {index + 1}: {message}")
    | .ok () =>
      if script.name ∈ names then .error (.invalidFile s!"duplicate script name `{script.name}`")
      else validateFrom (index + 1) (names ++ [script.name]) rest

/-- `validate_collection`. -/
def validateCollection (scripts : List RunScript) : Except RunActionError Unit := validateFrom 0 [] scripts

/-- `load_result`. -/
def loadResult : File → Except RunActionError (List RunScript)
  | .missing => .ok []
  | .unreadable => .error .io
  | .malformed message => .error (.invalidFile message)
  | .actions scripts => (validateCollection scripts).map fun _ => scripts

/-- How `create_dir_all` and `fs::write` go. -/
inductive WriteOutcome where
  | written
  /-- The directory is not there, or the file is not opened. -/
  | refused
  /-- The file is truncated, and its text is not written to the end. -/
  | cut (left : File)
  deriving DecidableEq

/-- The write has begun and does not come to its end. -/
def WriteOutcome.breaksOff : WriteOutcome → Bool
  | .cut _ => true
  | _ => false

/-- `save_result`: the file after it, and whether it succeeds. -/
def saveResult (file : File) (scripts : List RunScript) (outcome : WriteOutcome) : File × Except RunActionError Unit :=
  match validateCollection scripts with
  | .error error => (file, .error error)
  | .ok () =>
    match outcome with
    | .written => (.actions scripts, .ok ())
    | .refused => (file, .error .io)
    | .cut left => (left, .error .io)

/-- A call. -/
inductive Call where
  | create (script : RunScript)
  | update (existingName : String) (script : RunScript)
  | delete (name : String)
  deriving DecidableEq

/-- The check of a call's own action. -/
def Call.check : Call → Except RunActionError Unit
  | .create script | .update _ script =>
    match script.validate with
    | .error message => .error (.invalidAction script.name message)
    | .ok () => .ok ()
  | .delete _ => .ok ()

/-- What a call makes of the collection it has read. -/
def Call.change (scripts : List RunScript) : Call → Except RunActionError (List RunScript)
  | .create script =>
    if scripts.any fun existing => existing.name = script.name then .error (.duplicateName script.name)
    else .ok (scripts ++ [script])
  | .update existingName script =>
    match scripts.findIdx? fun existing => existing.name = existingName with
    | none => .error (.notFound existingName)
    | some index =>
      if scripts.zipIdx.any fun (existing, other) => other ≠ index && existing.name = script.name then
        .error (.duplicateName script.name)
      else .ok (scripts.set index script)
  | .delete name =>
    match scripts.findIdx? fun script => script.name = name with
    | none => .error (.notFound name)
    | some index => .ok (scripts.eraseIdx index)

/-- The first part of a call: its checks, and the collection it will write. -/
def Call.load (file : File) (call : Call) : Except RunActionError (List RunScript) := do
  call.check
  let scripts ← loadResult file
  call.change scripts

/-- `create`, `update` and `delete`, with nothing in between. -/
def Call.run (file : File) (call : Call) (outcome : WriteOutcome) : File × Except RunActionError (List RunScript) :=
  match call.load file with
  | .error error => (file, .error error)
  | .ok scripts => ((saveResult file scripts outcome).1, (saveResult file scripts outcome).2.map fun _ => scripts)

/-! ### Calls at the same time -/

/-- Where a call is: it has read the file and is about to write a collection, or it has ended. -/
inductive Phase where
  | loaded (seen : File) (scripts : List RunScript)
  | ended (result : Except RunActionError (List RunScript))

/-- The file, the calls, and the calls that have succeeded, in the order they wrote the file. -/
structure State where
  file : File
  calls : ℕ → Option (Call × Phase)
  succeeded : List Call

/-- No calls yet. -/
def State.initial (file : File) : State := ⟨file, fun _ => none, []⟩

/-- A part of a call. -/
inductive Event where
  | load (id : ℕ) (call : Call)
  | save (id : ℕ) (outcome : WriteOutcome)

/-- The first part of a call. -/
def State.load (s : State) (id : ℕ) (call : Call) : State :=
  { s with calls := Function.update s.calls id (some (call,
    match call.load s.file with
    | .error error => .ended (.error error)
    | .ok scripts => .loaded s.file scripts)) }

/-- The second part of a call. -/
def State.save (s : State) (id : ℕ) (call : Call) (scripts : List RunScript) (outcome : WriteOutcome) : State :=
  match saveResult s.file scripts outcome with
  | (file, .error error) => { s with file, calls := Function.update s.calls id (some (call, .ended (.error error))) }
  | (file, .ok ()) => {
      file
      calls := Function.update s.calls id (some (call, .ended (.ok scripts)))
      succeeded := s.succeeded ++ [call] }

/-- One step; a call that reads the file is a new one. -/
def step (s : State) : Event → Option State
  | .load id call => if (s.calls id).isNone then some (s.load id call) else none
  | .save id outcome =>
    match s.calls id with
    | some (call, .loaded _ scripts) => some (s.save id call scripts outcome)
    | _ => none

/-- The collection of a file. -/
def File.collection : File → List RunScript
  | .actions scripts => scripts
  | _ => []

/-- The action of a name. -/
def find (scripts : List RunScript) (name : String) : Option RunScript := scripts.find? fun script => script.name = name

/-- What a call makes of a name, if it touches it: the action of the name, or none any more. -/
def Call.effect (name : String) : Call → Option (Option RunScript)
  | .create script => if script.name = name then some (some script) else none
  | .update existingName script =>
    if script.name = name then some (some script) else if existingName = name then some none else none
  | .delete deleted => if deleted = name then some none else none

/-- The effects of the calls that have succeeded are in the collection, unless a later one that
has succeeded touches the same name. -/
def EffectsKept (s : State) : Prop :=
  ∀ before call later, s.succeeded = before ++ call :: later → ∀ name action, call.effect name = some action →
    (∀ call' ∈ later, call'.effect name = none) → find s.file.collection name = action

/-- No name is there twice. -/
def UniqueNames (file : File) : Prop := (file.collection.map RunScript.name).Nodup

/-- No write breaks off. -/
def Whole : Event → Prop
  | .load _ _ => True
  | .save _ outcome => outcome.breaksOff = false

/-- No write breaks off, and a call writes the file as long as it is the one it has read. -/
def Unchanged (s : State) (event : Event) : Prop :=
  Whole event ∧ match event with
    | .load _ _ => True
    | .save id _ => ∀ call seen scripts, s.calls id = some (call, .loaded seen scripts) → s.file = seen

/-! ### What a call changes -/

theorem nodup_of_validateFrom {index : ℕ} {names : List String} {scripts : List RunScript}
    (h : validateFrom index names scripts = .ok ()) (hnames : names.Nodup) :
    (names ++ scripts.map RunScript.name).Nodup := by
  induction scripts generalizing index names with
  | nil => simpa using hnames
  | cons script rest ih =>
    rw [validateFrom] at h
    cases hvalid : script.validate with
    | error message => simp [hvalid] at h
    | ok u =>
      rw [hvalid] at h
      dsimp only at h
      split_ifs at h with hmem
      have hrest := ih h (List.nodup_append.mpr ⟨hnames, List.nodup_singleton _, by
        rintro name hname _ hnew rfl
        exact hmem (List.mem_singleton.mp hnew ▸ hname)⟩)
      rwa [List.append_assoc] at hrest

/-- A collection that is accepted has no name twice. -/
theorem nodup_of_validateCollection {scripts : List RunScript} (h : validateCollection scripts = .ok ()) :
    (scripts.map RunScript.name).Nodup := nodup_of_validateFrom h List.nodup_nil

/-- A collection that is read has no name twice, and is what the file holds. -/
theorem loadResult_ok {file : File} {scripts : List RunScript} (h : loadResult file = .ok scripts) :
    scripts = file.collection ∧ UniqueNames file := by
  cases file with
  | missing =>
    obtain rfl := Except.ok.inj h
    exact ⟨rfl, List.nodup_nil⟩
  | unreadable => cases h
  | malformed message => cases h
  | actions written =>
    rw [loadResult] at h
    cases hvalid : validateCollection written with
    | error error => simp [hvalid, Except.map] at h
    | ok u =>
      rw [hvalid] at h
      obtain rfl := Except.ok.inj h
      exact ⟨rfl, nodup_of_validateCollection hvalid⟩

theorem split_of_findIdx? {scripts : List RunScript} {p : RunScript → Bool} {index : ℕ}
    (h : scripts.findIdx? p = some index) :
    ∃ before found after, scripts = before ++ found :: after ∧ before.length = index ∧ p found = true := by
  obtain ⟨hlt, hfound, -⟩ := List.findIdx?_eq_some_iff_getElem.mp h
  refine ⟨scripts.take index, scripts[index], scripts.drop (index + 1), ?_, ?_, hfound⟩
  · rw [List.getElem_cons_drop, List.take_append_drop]
  · rw [List.length_take, Nat.min_eq_left hlt.le]

theorem any_zipIdx (p : RunScript → Bool) (index : ℕ) (scripts : List RunScript) (start : ℕ)
    (h : ∀ other, start ≤ other → other < start + scripts.length → other ≠ index) :
    ((scripts.zipIdx start).any fun pair => decide (pair.2 ≠ index) && p pair.1) = scripts.any p := by
  induction scripts generalizing start with
  | nil => rfl
  | cons script rest ih =>
    rw [List.length_cons] at h
    have hhere : start ≠ index := h start le_rfl (by omega)
    rw [List.zipIdx_cons, List.any_cons, List.any_cons, ih (start + 1) fun other hle hlt => h other (by omega) (by omega)]
    simp [hhere]

theorem find_append (left right : List RunScript) (name : String) :
    find (left ++ right) name = (find left name).or (find right name) := List.find?_append

theorem find_cons (script : RunScript) (rest : List RunScript) (name : String) :
    find (script :: rest) name = if script.name = name then some script else find rest name := by
  unfold find
  rw [List.find?_cons]
  by_cases hname : script.name = name <;> simp [hname]

theorem find_eq_none {scripts : List RunScript} {name : String} (h : ∀ script ∈ scripts, script.name ≠ name) :
    find scripts name = none := by
  unfold find
  rw [List.find?_eq_none]
  intro script hmem
  simpa using h script hmem

/-- The action in one place takes the place of another one. -/
theorem find_replaced {before after : List RunScript} {found script : RunScript}
    (hunique : ((before ++ found :: after).map RunScript.name).Nodup)
    (hfresh : ∀ other ∈ before ++ after, other.name ≠ script.name) (name : String) :
    find (before ++ script :: after) name =
      if script.name = name then some script else if found.name = name then none else find (before ++ found :: after) name := by
  rw [find_append, find_append, find_cons, find_cons]
  by_cases hname : script.name = name
  · subst hname
    rw [find_eq_none fun other hmem => hfresh other (List.mem_append_left _ hmem)]
    simp
  · by_cases hfound : found.name = name
    · subst hfound
      rw [List.map_append, List.map_cons, List.nodup_append, List.nodup_cons] at hunique
      obtain ⟨-, ⟨hafter, -⟩, hbefore⟩ := hunique
      have hnone : ∀ other ∈ before, other.name ≠ found.name := fun other hmem =>
        hbefore _ (List.mem_map_of_mem hmem) _ (List.mem_cons_self ..)
      have hnone' : ∀ other ∈ after, other.name ≠ found.name := fun other hmem hother =>
        hafter (hother ▸ List.mem_map_of_mem hmem)
      simp [hname, find_eq_none hnone, find_eq_none hnone']
    · simp [hname, hfound]

/-- The action in one place is gone. -/
theorem find_removed {before after : List RunScript} {found : RunScript}
    (hunique : ((before ++ found :: after).map RunScript.name).Nodup) (name : String) :
    find (before ++ after) name = if found.name = name then none else find (before ++ found :: after) name := by
  rw [find_append, find_append, find_cons]
  by_cases hfound : found.name = name
  · subst hfound
    rw [List.map_append, List.map_cons, List.nodup_append, List.nodup_cons] at hunique
    obtain ⟨-, ⟨hafter, -⟩, hbefore⟩ := hunique
    have hnone : ∀ other ∈ before, other.name ≠ found.name := fun other hmem =>
      hbefore _ (List.mem_map_of_mem hmem) _ (List.mem_cons_self ..)
    have hnone' : ∀ other ∈ after, other.name ≠ found.name := fun other hmem hother =>
      hafter (hother ▸ List.mem_map_of_mem hmem)
    simp [find_eq_none hnone, find_eq_none hnone']
  · simp [hfound]

/-- What a call changes of a collection, name by name. -/
theorem find_change {scripts scripts' : List RunScript} {call : Call} (hunique : (scripts.map RunScript.name).Nodup)
    (h : call.change scripts = .ok scripts') (name : String) :
    find scripts' name = (call.effect name).getD (find scripts name) := by
  cases call with
  | create script =>
    simp only [Call.change] at h
    split_ifs at h with hany
    obtain rfl := Except.ok.inj h
    have hfresh : find scripts script.name = none := by
      apply find_eq_none
      simpa using hany
    rw [find_append, find_cons, Call.effect]
    by_cases hname : script.name = name
    · subst hname
      simp [hfresh]
    · simp [hname, find]
  | update existingName script =>
    simp only [Call.change] at h
    cases hindex : scripts.findIdx? fun existing => existing.name = existingName with
    | none => simp [hindex] at h
    | some index =>
      rw [hindex] at h
      dsimp only at h
      split_ifs at h with hany
      obtain rfl := Except.ok.inj h
      obtain ⟨before, found, after, rfl, rfl, hfound⟩ := split_of_findIdx? hindex
      obtain rfl : found.name = existingName := by simpa using hfound
      have hfresh : ∀ other ∈ before ++ after, other.name ≠ script.name := by
        rw [List.zipIdx_append, List.zipIdx_cons, List.any_append, List.any_cons,
          any_zipIdx (fun other => other.name = script.name) before.length before 0 fun other _ hlt => by omega,
          any_zipIdx (fun other => other.name = script.name) before.length after _ fun other hle _ => by omega] at hany
        simp only [Bool.or_eq_true, not_or, List.any_eq_true, not_exists, not_and, decide_eq_true_eq] at hany
        intro other hmem
        rcases List.mem_append.mp hmem with hmem | hmem
        · exact hany.1 other hmem
        · exact hany.2.2 other hmem
      rw [List.set_append_right _ _ le_rfl, Nat.sub_self, List.set_cons_zero, find_replaced hunique hfresh, Call.effect]
      by_cases hname : script.name = name
      · simp [hname]
      · by_cases hexisting : found.name = name <;> simp [hname, hexisting]
  | delete deleted =>
    simp only [Call.change] at h
    cases hindex : scripts.findIdx? fun script => script.name = deleted with
    | none => simp [hindex] at h
    | some index =>
      rw [hindex] at h
      obtain rfl := Except.ok.inj h
      obtain ⟨before, found, after, rfl, rfl, hfound⟩ := split_of_findIdx? hindex
      obtain rfl : found.name = deleted := by simpa using hfound
      rw [List.eraseIdx_append_of_length_le le_rfl, Nat.sub_self, List.eraseIdx_cons_zero, find_removed hunique, Call.effect]
      by_cases hname : found.name = name <;> simp [hname]

/-! ### Runs -/

/-- What calls make of a name, one after the other. -/
def applied (name : String) (action : Option RunScript) (calls : List Call) : Option RunScript :=
  calls.foldl (fun action call => (call.effect name).getD action) action

/-- What is known of a run in which the file is never written over. -/
structure Kept (file : File) (s : State) : Prop where
  content : ∀ name, find s.file.collection name = applied name (find file.collection name) s.succeeded
  /-- A call that has read the file will write what it makes of it. -/
  loaded : ∀ id call seen scripts, s.calls id = some (call, .loaded seen scripts) → call.load seen = .ok scripts

section

variable {file : File} {s s' : State}

theorem saveResult_cases (file : File) (scripts : List RunScript) {outcome : WriteOutcome}
    (hwhole : outcome.breaksOff = false) :
    (∃ error, saveResult file scripts outcome = (file, .error error)) ∨
      saveResult file scripts outcome = (.actions scripts, .ok ()) ∧ (scripts.map RunScript.name).Nodup := by
  unfold saveResult
  cases hvalid : validateCollection scripts with
  | error error => exact .inl ⟨error, rfl⟩
  | ok u =>
    cases outcome with
    | written => exact .inr ⟨rfl, nodup_of_validateCollection hvalid⟩
    | refused => exact .inl ⟨.io, rfl⟩
    | cut left => cases hwhole

/-- What the second part of a call does. -/
theorem save_cases (s : State) (id : ℕ) (call : Call) (scripts : List RunScript) {outcome : WriteOutcome}
    (hwhole : outcome.breaksOff = false) :
    (∃ error, s.save id call scripts outcome =
      { s with calls := Function.update s.calls id (some (call, .ended (.error error))) }) ∨
    s.save id call scripts outcome = ⟨.actions scripts, Function.update s.calls id (some (call, .ended (.ok scripts))),
      s.succeeded ++ [call]⟩ ∧ (scripts.map RunScript.name).Nodup := by
  unfold State.save
  rcases saveResult_cases s.file scripts hwhole with ⟨error, hsave⟩ | ⟨hsave, hunique⟩
  · rw [hsave]
    exact .inl ⟨error, rfl⟩
  · rw [hsave]
    exact .inr ⟨rfl, hunique⟩

/-- What is read, and changed, is what the file holds. -/
theorem load_ok {call : Call} {scripts : List RunScript} (h : call.load file = .ok scripts) :
    UniqueNames file ∧ call.change file.collection = .ok scripts := by
  unfold Call.load at h
  cases hcheck : call.check with
  | error error => simp [hcheck, bind, Except.bind] at h
  | ok u =>
    cases hload : loadResult file with
    | error error => simp [hcheck, hload, bind, Except.bind] at h
    | ok read =>
      obtain ⟨rfl, hunique⟩ := loadResult_ok hload
      exact ⟨hunique, by simpa [hcheck, hload, bind, Except.bind] using h⟩

theorem Kept.initial (file : File) : Kept file (.initial file) where
  content _ := rfl
  loaded := by
    rintro id call seen scripts ⟨⟩

/-- A call that ends leaves what the others have read. -/
theorem Kept.loaded_update (h : Kept file s) {id : ℕ} {entry : Call × Phase}
    (hentry : ∀ call seen scripts, entry = (call, .loaded seen scripts) → call.load seen = .ok scripts) :
    ∀ id' call seen scripts, Function.update s.calls id (some entry) id' = some (call, .loaded seen scripts) →
      call.load seen = .ok scripts := by
  intro id' call seen scripts hcall
  by_cases hid : id' = id
  · subst hid
    rw [Function.update_self] at hcall
    exact hentry call seen scripts (Option.some.inj hcall)
  · rw [Function.update_of_ne hid] at hcall
    exact h.loaded id' call seen scripts hcall

/-- One step keeps the effects, if the file is the one that was read. -/
theorem Kept.step (h : Kept file s) {event : Event} (hok : Unchanged s event)
    (hstep : RunActions.step s event = some s') : Kept file s' := by
  cases event with
  | load id call =>
    simp only [RunActions.step, Option.ite_none_right_eq_some, Option.some.injEq] at hstep
    obtain ⟨-, rfl⟩ := hstep
    refine ⟨h.content, h.loaded_update ?_⟩
    rintro call' seen scripts hentry
    obtain ⟨rfl, hphase⟩ := Prod.mk.inj hentry
    cases hload : call.load s.file with
    | error error =>
      rw [hload] at hphase
      cases hphase
    | ok loaded =>
      rw [hload] at hphase
      cases hphase
      exact hload
  | save id outcome =>
    simp only [RunActions.step] at hstep
    cases hcall : s.calls id with
    | none => simp [hcall] at hstep
    | some entry =>
      obtain ⟨call, phase⟩ := entry
      cases phase with
      | ended result => simp [hcall] at hstep
      | loaded seen scripts =>
        rw [hcall] at hstep
        obtain rfl := Option.some.inj hstep
        obtain rfl := hok.2 call seen scripts hcall
        obtain ⟨hunique, hchange⟩ := load_ok (h.loaded id call s.file scripts hcall)
        rcases save_cases s id call scripts hok.1 with ⟨error, hsave⟩ | ⟨hsave, -⟩
        · rw [hsave]
          refine ⟨h.content, h.loaded_update ?_⟩
          rintro _ _ _ ⟨⟩
        · rw [hsave]
          refine ⟨fun name => ?_, h.loaded_update ?_⟩
          · rw [applied, List.foldl_append, List.foldl_cons, List.foldl_nil, ← applied, ← h.content name]
            exact find_change hunique hchange name
          · rintro _ _ _ ⟨⟩

/-- Calls that do not touch a name leave it. -/
theorem applied_of_untouched {name : String} {calls : List Call} (h : ∀ call ∈ calls, call.effect name = none)
    (action : Option RunScript) : applied name action calls = action := by
  induction calls generalizing action with
  | nil => rfl
  | cons call rest ih =>
    rw [applied, List.foldl_cons, h call (List.mem_cons_self ..), Option.getD_none]
    exact ih (fun call' hmem => h call' (List.mem_cons_of_mem _ hmem)) action

theorem Kept.effectsKept (h : Kept file s) : EffectsKept s := by
  intro before call later hsplit name action heffect huntouched
  rw [h.content name, hsplit, applied, List.foldl_append, List.foldl_cons, heffect, Option.getD_some]
  exact applied_of_untouched huntouched action

/-- A step keeps the names apart. -/
theorem uniqueNames_step {event : Event} (hwhole : Whole event) (hstep : step s event = some s') (h : UniqueNames s.file) :
    UniqueNames s'.file := by
  cases event with
  | load id call =>
    simp only [RunActions.step, Option.ite_none_right_eq_some, Option.some.injEq] at hstep
    obtain ⟨-, rfl⟩ := hstep
    exact h
  | save id outcome =>
    simp only [RunActions.step] at hstep
    cases hcall : s.calls id with
    | none => simp [hcall] at hstep
    | some entry =>
      obtain ⟨call, phase⟩ := entry
      cases phase with
      | ended result => simp [hcall] at hstep
      | loaded seen scripts =>
        rw [hcall] at hstep
        obtain rfl := Option.some.inj hstep
        rcases save_cases s id call scripts hwhole with ⟨error, hsave⟩ | ⟨hsave, hunique⟩
        · rw [hsave]
          exact h
        · rw [hsave]
          exact hunique

/-- **A call with nothing in between** is its two parts, one after the other. -/
theorem run_eq {id : ℕ} (hid : s.calls id = none) (call : Call) (outcome : WriteOutcome) :
    (∃ error, call.load s.file = .error error ∧
      step s (.load id call) = some { s with calls := Function.update s.calls id (some (call, .ended (.error error))) } ∧
      call.run s.file outcome = (s.file, .error error)) ∨
    ∃ scripts s', call.load s.file = .ok scripts ∧ exec step s [.load id call, .save id outcome] = some s' ∧
      s'.file = (call.run s.file outcome).1 ∧ s'.calls id = some (call, .ended (call.run s.file outcome).2) := by
  cases hload : call.load s.file with
  | error error =>
    refine .inl ⟨error, rfl, ?_, ?_⟩
    · simp only [step, hid, Option.isNone_none, if_true, State.load, hload]
    · simp only [Call.run, hload]
  | ok scripts =>
    have hstep : step s (.load id call) = some (s.load id call) := by
      simp only [step, hid, Option.isNone_none, if_true]
    have hcalls : (s.load id call).calls id = some (call, .loaded s.file scripts) := by
      simp only [State.load, Function.update_self, hload]
    have hsave : step (s.load id call) (.save id outcome) = some ((s.load id call).save id call scripts outcome) := by
      simp only [step, hcalls]
    refine .inr ⟨scripts, _, rfl, exec_cons.mpr ⟨_, hstep, exec_cons.mpr ⟨_, hsave, rfl⟩⟩, ?_⟩
    have hfile : (s.load id call).file = s.file := rfl
    simp only [State.save, hfile, Call.run, hload]
    rcases saveResult s.file scripts outcome with ⟨file, error | u⟩
    · exact ⟨rfl, Function.update_self ..⟩
    · exact ⟨rfl, Function.update_self ..⟩

/-- The effects of the calls that succeed are kept in every run in which no write breaks off and a
call writes the file only as long as it is the one it has read; names stay unique in every run in
which no write breaks off. -/
theorem updates_kept :
    (Reaches step Unchanged (.initial file) s → EffectsKept s) ∧
    (Reaches step (fun _ event => Whole event) (.initial file) s → UniqueNames file → UniqueNames s.file) := by
  constructor
  · intro hrun
    refine (Reaches.invariant (P := Kept file) ?_ hrun (.initial file)).effectsKept
    intro s event s' hok hstep h
    exact h.step hok hstep
  · intro hrun hunique
    refine Reaches.invariant (P := fun s => UniqueNames s.file) ?_ hrun hunique
    intro s event s' hwhole hstep h
    exact uniqueNames_step hwhole hstep h

end

/-- A structured action. -/
def namedAction (name : String) : RunScript := ⟨name, none, some .up, [], none, [], none⟩

/-- The test of a part of a call. -/
def unchanged (s : State) : Event → Bool
  | .load _ _ => true
  | .save id outcome =>
    !outcome.breaksOff && match s.calls id with
    | some (_, .loaded seen _) => s.file = seen
    | _ => true

theorem unchanged_sound {s : State} {event : Event} (h : unchanged s event = true) : Unchanged s event := by
  cases event with
  | load id call => exact ⟨trivial, trivial⟩
  | save id outcome =>
    rw [unchanged, Bool.and_eq_true, Bool.not_eq_true'] at h
    refine ⟨h.1, fun call seen scripts hcall => ?_⟩
    simpa only [hcall, decide_eq_true_eq] using h.2

/-- Two actions are created, a third call finds one of the names taken; the first one is renamed, at
the second attempt, and the second one deleted. -/
theorem updates_kept_build :
    ∃ s, Reaches step Unchanged (.initial .missing) s ∧
      s.succeeded = [.create (namedAction "build"), .create (namedAction "deploy"),
        .update "build" (namedAction "compile"), .delete "deploy"] ∧
      s.file = .actions [namedAction "compile"] ∧ EffectsKept s ∧ UniqueNames s.file := by
  obtain ⟨s, hs, hend⟩ := exists_reaches_of_execWhere step unchanged (fun _ _ => unchanged_sound) (.initial .missing)
    (fun s => decide (s.succeeded = [.create (namedAction "build"), .create (namedAction "deploy"),
        .update "build" (namedAction "compile"), .delete "deploy"] ∧
      s.file = .actions [namedAction "compile"])) [
      .load 0 (.create (namedAction "build")), .save 0 .written,
      .load 1 (.create (namedAction "deploy")), .load 2 (.create (namedAction "build")), .save 1 .written,
      .load 3 (.update "build" (namedAction "compile")), .save 3 .refused,
      .load 4 (.update "build" (namedAction "compile")), .save 4 .written,
      .load 5 (.delete "deploy"), .save 5 .written] (by decide +kernel)
  obtain ⟨hsucceeded, hfile⟩ := of_decide_eq_true hend
  exact ⟨s, hs, hsucceeded, hfile, updates_kept.1 hs, updates_kept.2 (hs.mono fun _ _ hok => hok.1) List.nodup_nil⟩

/-- Two actions are created at the same time: both calls read the file before either one writes
it. Both succeed, and the action the first one created is gone. -/
theorem create_overwritten :
    ∃ s, Reaches step (fun _ _ => True) (.initial .missing) s ∧
      s.succeeded = [.create (namedAction "build"), .create (namedAction "deploy")] ∧
      s.file = .actions [namedAction "deploy"] ∧ ¬ EffectsKept s := by
  obtain ⟨s, hs, hend⟩ := exists_reaches_of_exec step (.initial .missing)
    (fun s => decide (s.succeeded = [.create (namedAction "build"), .create (namedAction "deploy")] ∧
      s.file = .actions [namedAction "deploy"]))
    [.load 0 (.create (namedAction "build")), .load 1 (.create (namedAction "deploy")), .save 0 .written,
      .save 1 .written] (by decide +kernel)
  obtain ⟨hsucceeded, hfile⟩ := of_decide_eq_true hend
  refine ⟨s, hs, hsucceeded, hfile, fun hkept => ?_⟩
  have hfound := hkept [] (.create (namedAction "build")) [.create (namedAction "deploy")] hsucceeded "build"
    (some (namedAction "build")) (by decide) (by decide)
  rw [hfile] at hfound
  exact absurd hfound (by decide)

/-- The write of the second call breaks off when the file has been truncated: the second call fails,
and the action the first one created is gone. -/
theorem create_truncated :
    ∃ s, Reaches step (fun _ _ => True) (.initial .missing) s ∧ s.succeeded = [.create (namedAction "build")] ∧
      s.file = .malformed "EOF while parsing a value" ∧ ¬ EffectsKept s := by
  obtain ⟨s, hs, hend⟩ := exists_reaches_of_exec step (.initial .missing)
    (fun s => decide (s.succeeded = [.create (namedAction "build")] ∧ s.file = .malformed "EOF while parsing a value"))
    [.load 0 (.create (namedAction "build")), .save 0 .written, .load 1 (.create (namedAction "deploy")),
      .save 1 (.cut (.malformed "EOF while parsing a value"))] (by decide +kernel)
  obtain ⟨hsucceeded, hfile⟩ := of_decide_eq_true hend
  refine ⟨s, hs, hsucceeded, hfile, fun hkept => ?_⟩
  have hfound := hkept [] (.create (namedAction "build")) [] hsucceeded "build" (some (namedAction "build"))
    (by decide) (by decide)
  rw [hfile] at hfound
  exact absurd hfound (by decide)

/-- **An action is lost**, to a call at the same time or to a write that breaks off. -/
theorem create_lost :
    (∃ s, Reaches step (fun _ _ => True) (.initial .missing) s ∧
      s.succeeded = [.create (namedAction "build"), .create (namedAction "deploy")] ∧
      s.file = .actions [namedAction "deploy"] ∧ ¬ EffectsKept s) ∧
    ∃ s, Reaches step (fun _ _ => True) (.initial .missing) s ∧ s.succeeded = [.create (namedAction "build")] ∧
      s.file = .malformed "EOF while parsing a value" ∧ ¬ EffectsKept s :=
  ⟨create_overwritten, create_truncated⟩

end Apmpr.Daemon.RunActions
