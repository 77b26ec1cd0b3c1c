import Apmpr.Lib.Address
import Apmpr.Lib.Stateful
import Apmpr.Sources.Containment
import Apmpr.Sources.HostKey
import Apmpr.State.Lock

/-!
# Creating a source

`create_worktree_inner`, `clone_repository` and `clone_repository_browser` of the crate
`apmpr-sources`: a call checks what it is asked for, has Git make a checkout at a target, finds
out where that is, and registers it. The registered sources and what is at the target are the
state of a call. What is outside, Git and the file system and the clock and the database, is a
`Machine`, and any of it may fail at any point.

The calls clean up after some of their steps and not after others. A clone is removed where Git
fails, and a worktree where its registration fails; a clone that cannot be registered stays, and so
does a worktree that is made and then not found below its root.

## What is proved

`leaves_nothing_iff` — exactly when a failed call leaves the registered sources as they were and
nothing at the target. The registered sources are left as they were by every failed call
(`sources_of_error`).
-/

namespace Apmpr.Sources.Creation

open Containment (RegisteredSourceKind)
open HostKey (ApprovedHostKey)

/-- `CloneChallenge`. -/
inductive CloneChallenge where
  | credentials
  | hostKey (host fingerprint : String)
  deriving DecidableEq

/-- `SourceError`. -/
structure SourceError where
  code : String
  message : String
  challenge : Option CloneChallenge
  deriving DecidableEq

/-- `SourceError::new`. -/
def SourceError.new (code message : String) : SourceError := ⟨code, message, none⟩

/-- An error of the file system. -/
def ioResult {α : Type} : Except String α → Except SourceError α
  | .ok a => .ok a
  | .error error => .error (.new "source_io" error)

/-- An error of the state layer. -/
def stateResult {α : Type} : Except State.StateError α → Except SourceError α
  | .ok a => .ok a
  | .error error => .error (.new error.code error.display)

/-- An error of the scan of a host or of the command for SSH. -/
def hostKeyResult {α : Type} : Except HostKey.SourceError α → Except SourceError α
  | .ok a => .ok a
  | .error error => .error (.new error.code error.message)

/-- `RegisteredSource`. -/
structure RegisteredSource where
  name : String
  kind : RegisteredSourceKind
  path : PathBuf
  repositoryPath : Option PathBuf
  requestedRef : Option String
  createdAt : I64
  managedRelativePath : Option PathBuf
  deriving DecidableEq

/-- `GitCloneOptions`. -/
structure GitCloneOptions where
  requestedRef : Option String
  sshIdentityFile : Option PathBuf

/-- `CloneCredentials`. -/
structure CloneCredentials where
  username : String
  password : String

/-- `SourceManager`. -/
structure SourceManager where
  workspaceRoot : PathBuf
  worktreeRoot : PathBuf
  cloneRoot : PathBuf

/-- What may be at a path. -/
inductive Entry where
  /-- A symbolic link, and whether anything is where it leads. -/
  | link (leads : Bool)
  | file
  | directory
  | other
  deriving DecidableEq

/-- `Path::exists`. -/
def isThere : Option Entry → Bool
  | none => false
  | some (.link leads) => leads
  | some _ => true

/-- A command given to Git: its arguments, and the variables that are set for it. -/
structure Command where
  args : List String
  env : List (String × String)

/-- How a command went: there is no Git, it could not be started, or it ended, with a status unless
a signal ended it, and with what it printed. -/
inductive GitRun where
  | notFound (error : String)
  | notStarted (error : String)
  | exited (status : Option ℤ) (stdout stderr : String)
  deriving DecidableEq

/-- What is outside of a call. -/
structure Machine where
  /-- `validate_containment` of a target that is to be created below a root. -/
  contained : PathBuf → PathBuf → Except SourceError Unit
  /-- What Git answers to a command that only reads. -/
  inspects : Command → GitRun
  /-- What Git does, with what is at the target before and after. -/
  runs : Command → Option Entry → GitRun × Option Entry
  /-- `create_dir_all`, with what is at the target before and after. -/
  createDirAll : PathBuf → Option Entry → Except String Unit × Option Entry
  canonicalize : PathBuf → Except String PathBuf
  /-- Milliseconds since the epoch. -/
  clock : ℤ
  /-- The database may fail to read and to write. -/
  reads : Except String Unit
  writes : Except String Unit
  /-- Whether what is at the target can be looked at and removed. -/
  looks : Bool
  removesFile : Bool
  removesDir : Bool
  /-- The programs and files of a clone over SSH. -/
  hosts : HostKey.Machine
  /-- Writing the helper that answers for credentials may fail. -/
  writesHelper : Except String Unit

/-- What a call changes: the registered sources, and what is at its target. -/
structure World where
  sources : List RegisteredSource
  target : Option Entry
  deriving DecidableEq

/-- A step of a call. -/
abbrev Step (α : Type) := Stateful World SourceError α

section

variable (machine : Machine) (manager : SourceManager)

/-! ### The store -/

/-- A failure of the database. -/
def sqliteResult : Except String Unit → Except SourceError Unit
  | .ok () => .ok ()
  | .error error => .error (.new "state_sqlite" s!"SQLite state error: {error}")

/-- `StateStore::source`. -/
def storedSource (sources : List RegisteredSource) (name : String) : Except SourceError (Option RegisteredSource) := do
  sqliteResult machine.reads
  return sources.find? (·.name = name)

/-- The checks of `register_source` that do not look at the table. -/
def checkSource (source : RegisteredSource) : Except State.StateError Unit := do
  State.validateId "source name" source.name
  if source.path.isEmpty then throw (.invalidInput "invalid_source_path" "source path cannot be empty")
  if source.kind = .unmanaged && source.managedRelativePath.isSome then
    throw (.invalidInput "invalid_source_registration" "unmanaged sources cannot have a managed location")
  if source.kind = .managed && source.managedRelativePath.isNone then
    throw (.invalidInput "invalid_source_registration" "managed sources require a managed location")

/-- The table has one row for a name and one for a path. -/
def taken (sources : List RegisteredSource) (source : RegisteredSource) : Bool :=
  sources.any fun other => other.name = source.name || other.path.text = source.path.text

/-- What `register_source` answers. -/
def registration (sources : List RegisteredSource) (source : RegisteredSource) : Except SourceError Unit := do
  stateResult (checkSource source)
  sqliteResult machine.writes
  if taken sources source then
    stateResult (.error (.invalidInput "source_already_registered"
      s!"source `{source.name}` or path `{source.path.text}` is already registered"))

/-- `register_source`. -/
def registerSource (source : RegisteredSource) : Step Unit :=
  .ofFun fun world =>
    match registration machine world.sources source with
    | .ok () => (.ok (), { world with sources := world.sources ++ [source] })
    | .error error => (.error error, world)

/-! ### Git -/

/-- `output_text`. -/
def outputText (code : String) (status : Option ℤ) (stdout stderr : String) : Except SourceError String :=
  if status = some 0 then .ok (Text.trim stdout) else .error (.new code (Text.trim stderr))

/-- `git`. -/
def git (directory : PathBuf) (args : List String) : Except SourceError String :=
  match machine.inspects ⟨["-C", directory.text] ++ args, []⟩ with
  | .notFound _ => .error (.new "git_unavailable" "git binary is unavailable")
  | .notStarted error => .error (.new "git_inspection_failed" error)
  | .exited status stdout stderr => outputText "source_not_repository" status stdout stderr

/-- A command that may change what is at the target, and what is made of how it went. -/
def run (command : Command) (read : GitRun → Except SourceError String) : Step String :=
  .ofFun fun world => (read (machine.runs command world.target).1,
    { world with target := (machine.runs command world.target).2 })

/-- How a run is read whose output is the result. -/
def readOutput (code : String) : GitRun → Except SourceError String
  | .notFound error => .error (.new "git_unavailable" error)
  | .notStarted error => .error (.new code error)
  | .exited status stdout stderr => outputText code status stdout stderr

/-- `run_git`. -/
def runGit (directory : PathBuf) (args : List String) (code : String) : Step String :=
  run machine ⟨["-C", directory.text] ++ args, []⟩ (readOutput code)

/-- `run_git_clone`. -/
def runGitClone (path : PathBuf) (args : List String) (sshIdentityFile : Option PathBuf) : Step String := do
  let sshCommand ← .ofExcept (hostKeyResult (HostKey.sshCloneCommand machine.hosts sshIdentityFile))
  run machine ⟨["-C", path.text] ++ args, [("GIT_TERMINAL_PROMPT", "0"), ("GIT_SSH_COMMAND", sshCommand)]⟩
    (readOutput "clone_create_failed")

/-- How a run is read that is attached to the terminal. -/
def readStatus : GitRun → Except SourceError String
  | .notFound error => .error (.new "git_unavailable" error)
  | .notStarted error => .error (.new "clone_create_failed" error)
  | .exited status _ _ =>
    if status = some 0 then .ok ""
    else
      let shown := match status with
        | some code => toString code
        | none => "signal"
      .error (.new "clone_create_failed" s!"Git clone exited with status {shown}")

/-- `run_git_clone_interactive`. -/
def runGitCloneInteractive (path : PathBuf) (args : List String) : Step String :=
  run machine ⟨["-C", path.text] ++ args, []⟩ readStatus

/-- `is_http_repository`. -/
def isHttpRepository (repository : String) : Bool :=
  let lowercase := Text.toAsciiLowercase repository
  Text.startsWith lowercase "https://" || Text.startsWith lowercase "http://"

/-- `is_loopback_authority`. -/
def isLoopbackAuthority (authority : String) : Bool :=
  let host := match Text.afterStart "[" authority with
    | some bracketed => ((Text.splitOnce ']' bracketed).map Prod.fst).getD authority
    | none => ((Text.rsplitOnce ':' authority).map Prod.fst).getD authority
  host = "localhost" || Text.endsWith host ".localhost" ||
    match IpAddr.parse host with
    | some address => address.isLoopback
    | none => false

/-- `is_cleartext_remote`. -/
def isCleartextRemote (repository : String) : Bool :=
  match Text.afterStart "http://" (Text.toAsciiLowercase repository) with
  | none => false
  | some remainder =>
    let authority := HostKey.lastPart '@' (String.ofList (remainder.toList.takeWhile fun c =>
      c ≠ '/' && c ≠ '?' && c ≠ '#'))
    !isLoopbackAuthority authority

/-- `is_auth_failure`. -/
def isAuthFailure (stderr : String) : Bool :=
  ["authentication failed", "could not read username", "could not read password", "terminal prompts disabled",
    "invalid username or password"].any fun needle => Text.contains (Text.toAsciiLowercase stderr) needle

/-- `is_unknown_host_failure`. -/
def isUnknownHostFailure (stderr : String) : Bool :=
  Text.contains (Text.toAsciiLowercase stderr) "host key verification failed" ||
    Text.contains (Text.toAsciiLowercase stderr) "the authenticity of host"

/-- How a run is read that was started from the browser. -/
def readBrowser (repository : String) (credentials : Option CloneCredentials)
    (approvedHostKey : Option ApprovedHostKey) : GitRun → Except SourceError String
  | .notFound error => .error (.new "git_unavailable" error)
  | .notStarted error => .error (.new "clone_create_failed" error)
  | .exited status stdout stderr =>
    if status = some 0 then .ok (Text.trim stdout)
    else if isHttpRepository repository && isAuthFailure stderr then
      if isCleartextRemote repository then
        .error (.new "insecure_credential_transport" "this repository needs authentication, but credentials cannot be sent over plain http:// to a remote host; use https:// or an SSH URL")
      else
        .error ⟨"clone_credentials_required", "Git authentication is required", some .credentials⟩
    else if approvedHostKey.isNone && isUnknownHostFailure stderr then do
      let scanned ← hostKeyResult (HostKey.scanSshHost machine.hosts repository)
      .error ⟨"clone_host_key_approval_required", "the SSH host key requires explicit approval",
        some (.hostKey scanned.host (scanned.fingerprints.head?.getD ""))⟩
    else
      .error (.new "clone_create_failed"
        (if credentials.isSome then "Git rejected the submitted credentials" else "Git clone failed"))

/-- The variables that answer for credentials. -/
def askpassEnv (helper : PathBuf) : Option CloneCredentials → List (String × String)
  | none => []
  | some credentials =>
    [("GIT_ASKPASS", helper.text), ("SSH_ASKPASS", helper.text), ("APMPR_ASKPASS_USERNAME", credentials.username),
      ("APMPR_ASKPASS_PASSWORD", credentials.password)]

/-- `run_git_clone_browser`. -/
def runGitCloneBrowser (path : PathBuf) (args : List String) (repository : String) (sshIdentityFile : Option PathBuf)
    (credentials : Option CloneCredentials) (approvedHostKey : Option ApprovedHostKey) : Step String := do
  let privateDir ← .ofExcept (ioResult machine.hosts.privateDir)
  let launch ← .ofExcept (hostKeyResult (HostKey.launchClone machine.hosts repository sshIdentityFile approvedHostKey))
  if credentials.isSome then
    .ofExcept (ioResult machine.writesHelper)
  run machine ⟨(if credentials.isSome then ["-c", "credential.helper="] else []) ++ ["-C", path.text] ++ args,
      [("GIT_TERMINAL_PROMPT", "0"), ("GIT_SSH_COMMAND", launch.sshCommand)] ++
        askpassEnv (privateDir.join ⟨"askpass"⟩) credentials⟩
    (readBrowser machine repository credentials approvedHostKey)

/-! ### The calls -/

/-- `remove_failed_clone_target`, by what is left at the target. -/
def withoutTarget : Option Entry → Option Entry
  | none => none
  | some (.link leads) => if machine.looks && machine.removesFile then none else some (.link leads)
  | some .file => if machine.looks && machine.removesFile then none else some .file
  | some .directory => if machine.looks && machine.removesDir then none else some .directory
  | some .other => some .other

/-- `remove_failed_clone_target`. -/
def removeFailedCloneTarget : Step Unit :=
  .ofFun fun world => (.ok (), { world with target := withoutTarget machine world.target })

/-- `create_dir_all`. -/
def createDirAll (path : PathBuf) : Step Unit :=
  .ofFun fun world => (ioResult (machine.createDirAll path world.target).1,
    { world with target := (machine.createDirAll path world.target).2 })

/-- `now_millis`. -/
def nowMillis : Except SourceError I64 :=
  if machine.clock < 0 then .error (.new "clock_before_epoch" "second time provided was later than self")
  else
    match I64.ofInt? machine.clock with
    | some millis => .ok millis
    | none => .error (.new "clock_overflow" "current timestamp exceeds SQLite integer range")

/-- `strip_prefix` for what was created. -/
def relativeTo (path root : PathBuf) (message : String) : Except SourceError PathBuf :=
  if path.startsWith root then .ok (.ofComponents (path.components.drop root.components.length))
  else .error (.new "source_outside_managed_root" message)

/-- `guard_mutation` of a target that is to be created. -/
def guardMutation (world : World) (target root : PathBuf) : Except SourceError Unit := do
  machine.contained target root
  if isThere world.target then
    .error (.new "source_target_exists" s!"target `{target.text}` already exists")

/-- `validate_source_name`. -/
def validateSourceName (name : String) : Except SourceError Unit :=
  match Containment.validateSourceName name with
  | .ok () => .ok ()
  | .error error => .error (.new error.code error.message)

/-- A requested ref has to name a commit. -/
def refKnown (repositoryPath : PathBuf) (requestedRef : String) : Except SourceError Unit :=
  match git machine repositoryPath ["rev-parse", "--verify", requestedRef ++ "^\x7bcommit\x7d"] with
  | .ok _ => .ok ()
  | .error error =>
    if error.code = "git_unavailable" then .error error
    else .error (.new "source_ref_unknown" s!"Git ref `{requestedRef}` is unknown")

/-- A new branch has to have a name that Git takes. -/
def branchValid (repositoryPath : PathBuf) : Option String → Except SourceError Unit
  | none => .ok ()
  | some branch =>
    match git machine repositoryPath ["check-ref-format", "--branch", branch] with
    | .ok _ => .ok ()
    | .error _ => .error (.new "source_branch_invalid" s!"`{branch}` is not a valid Git branch name")

/-- What a call is asked to create. -/
inductive Call where
  /-- `create_worktree_inner`. -/
  | createWorktree (repositoryName requestedRef : String) (newBranch : Option String) (name : String)
    (requestedPath : Option PathBuf)
  /-- `clone_repository`. -/
  | cloneRepository (repository name : String) (options : GitCloneOptions) (interactive : Bool)
  /-- `clone_repository_browser`. -/
  | cloneRepositoryBrowser (repository name : String) (options : GitCloneOptions)
    (credentials : Option CloneCredentials) (approvedHostKey : Option ApprovedHostKey)

/-- The target of a call. -/
def Call.target : Call → PathBuf
  | .createWorktree _ _ _ name requestedPath => requestedPath.getD (manager.worktreeRoot.join ⟨name⟩)
  | .cloneRepository _ name _ _ => manager.cloneRoot.join ⟨name⟩
  | .cloneRepositoryBrowser _ name _ _ _ => manager.cloneRoot.join ⟨name⟩

/-- The guards of a call. A worktree is added to the repository that is found here. -/
def Call.guards (world : World) (call : Call) : Except SourceError PathBuf :=
  match call with
  | .createWorktree repositoryName _ _ name _ => do
    validateSourceName name
    match ← storedSource machine world.sources repositoryName with
    | none => .error (.new "repository_unregistered" s!"repository source `{repositoryName}` is not registered")
    | some repository =>
      guardMutation machine world (call.target manager) manager.worktreeRoot
      return repository.repositoryPath.getD repository.path
  | _ => do
    guardMutation machine world (call.target manager) manager.cloneRoot
    return manager.workspaceRoot

/-- The arguments of `git worktree add`. -/
def worktreeArgs (target : PathBuf) (requestedRef : String) (newBranch : Option String) : List String :=
  ["worktree", "add"] ++ (match newBranch with
    | some branch => ["-b", branch]
    | none => []) ++ [target.text, requestedRef]

/-- The registration of a worktree. -/
def worktreeSource (repositoryPath target : PathBuf) (requestedRef : String) (newBranch : Option String)
    (name : String) : Except SourceError RegisteredSource := do
  let path ← ioResult (machine.canonicalize target)
  let root ← ioResult (machine.canonicalize manager.worktreeRoot)
  let relative ← relativeTo path root "created worktree escaped the managed root"
  let repository ← ioResult (machine.canonicalize repositoryPath)
  let createdAt ← nowMillis machine
  return ⟨name, .managed, path, some repository, some (newBranch.getD requestedRef), createdAt, some relative⟩

/-- `git worktree remove`, which is asked for where a registration fails. -/
def removeWorktree (repositoryPath path : PathBuf) : Step Unit :=
  (runGit machine repositoryPath ["worktree", "remove", path.text] "worktree_remove_failed").ignore

/-- The end of `create_worktree_inner`. -/
def registerWorktree (repositoryPath : PathBuf) (source : RegisteredSource) : Step RegisteredSource := do
  tryCatch (registerSource machine source) fun error => do
    removeWorktree machine repositoryPath source.path
    throw error
  return source

/-- `create_worktree_inner`, after its guards. -/
def createWorktreeInner (repositoryPath target : PathBuf) (requestedRef : String) (newBranch : Option String)
    (name : String) : Step RegisteredSource := do
  .ofExcept (refKnown machine repositoryPath requestedRef)
  .ofExcept (branchValid machine repositoryPath newBranch)
  -- A target that passed its guard has a parent.
  createDirAll machine (target.parent.getD ⟨""⟩)
  let _ ← runGit machine repositoryPath (worktreeArgs target requestedRef newBranch) "worktree_create_failed"
  let source ← .ofExcept (worktreeSource machine manager repositoryPath target requestedRef newBranch name)
  registerWorktree machine repositoryPath source

/-- The arguments of `git clone`. -/
def cloneArgs (repository : String) (target : PathBuf) (requestedRef : Option String) : List String :=
  ["clone"] ++ (match requestedRef with
    | some reference => ["--branch", reference]
    | none => []) ++ ["--", repository, target.text]

/-- The registration of a clone. -/
def cloneSource (name : String) (options : GitCloneOptions) (target : PathBuf) : Except SourceError RegisteredSource := do
  let path ← ioResult (machine.canonicalize target)
  let createdAt ← nowMillis machine
  let root ← ioResult (machine.canonicalize manager.cloneRoot)
  let relative ← relativeTo path root "created clone escaped the managed root"
  return ⟨name, .managed, path, some path, options.requestedRef, createdAt, some relative⟩

/-- `register_clone`. -/
def registerClone (name : String) (options : GitCloneOptions) (target : PathBuf) : Step RegisteredSource := do
  let source ← .ofExcept (cloneSource machine manager name options target)
  registerSource machine source
  return source

/-- What `clone_repository` and `clone_repository_browser` do after their guards; `clone` is how they
run Git with its arguments. -/
def cloneWith (clone : List String → Step String) (repository name : String) (options : GitCloneOptions)
    (target : PathBuf) : Step RegisteredSource := do
  createDirAll machine manager.cloneRoot
  let _ ← tryCatch (clone (cloneArgs repository target options.requestedRef)) fun error => do
    removeFailedCloneTarget machine
    throw error
  registerClone machine manager name options target

/-- How a clone runs Git. -/
def cloneRun (options : GitCloneOptions) (interactive : Bool) (args : List String) : Step String :=
  if interactive then runGitCloneInteractive machine manager.workspaceRoot args
  else runGitClone machine manager.workspaceRoot args options.sshIdentityFile

/-- How a clone from the browser runs Git. -/
def cloneRunBrowser (repository : String) (options : GitCloneOptions) (credentials : Option CloneCredentials)
    (approvedHostKey : Option ApprovedHostKey) (args : List String) : Step String :=
  runGitCloneBrowser machine manager.workspaceRoot args repository options.sshIdentityFile credentials approvedHostKey

/-- A call after its guards. -/
def Call.create (call : Call) (repositoryPath : PathBuf) : Step RegisteredSource :=
  match call with
  | .createWorktree _ requestedRef newBranch name _ =>
    createWorktreeInner machine manager repositoryPath (call.target manager) requestedRef newBranch name
  | .cloneRepository repository name options interactive =>
    cloneWith machine manager (cloneRun machine manager options interactive) repository name options
      (call.target manager)
  | .cloneRepositoryBrowser repository name options credentials approvedHostKey =>
    cloneWith machine manager (cloneRunBrowser machine manager repository options credentials approvedHostKey) repository
      name options (call.target manager)

/-- A call. -/
def Call.run (call : Call) : Step RegisteredSource :=
  .ofFun fun world =>
    match call.guards machine manager world with
    | .error error => (.error error, world)
    | .ok repositoryPath => (call.create machine manager repositoryPath).exec world

/-! ### What is left behind -/

/-- The registered sources are as they were, and nothing is at the target. -/
def Clean (sources : List RegisteredSource) (world : World) : Prop :=
  world.sources = sources ∧ isThere world.target = false

/-- A call that has passed its guards and fails leaves nothing behind. -/
def LeavesNothing (world : World) (call : Call) : Prop :=
  ∀ repositoryPath, call.guards machine manager world = .ok repositoryPath →
    ∀ error world', (call.run machine manager).exec world = (.error error, world') → Clean world.sources world'

/-- A run that ended with success. -/
def GitRun.success : GitRun → Bool
  | .exited status _ _ => status = some 0
  | _ => false

/-- Where something was made, as its canonical path, which is below the canonical root. -/
def Located (target root path : PathBuf) : Prop :=
  machine.canonicalize target = .ok path ∧
    ∃ canonicalRoot, machine.canonicalize root = .ok canonicalRoot ∧ path.startsWith canonicalRoot = true

/-- What `git worktree remove` leaves at a target. -/
def withoutWorktree (repositoryPath path : PathBuf) (target : Option Entry) : Option Entry :=
  (machine.runs ⟨["-C", repositoryPath.text] ++ ["worktree", "remove", path.text], []⟩ target).2

/-- The clock shows a time that can be stored. -/
def Timed : Prop := 0 ≤ machine.clock ∧ machine.clock < 2 ^ 63

/-- The store takes a name and a path. -/
def Accepted (sources : List RegisteredSource) (name : String) (path : PathBuf) : Prop :=
  Text.isBlank name = false ∧ path.isEmpty = false ∧ machine.writes = .ok () ∧
    ∀ other ∈ sources, other.name ≠ name ∧ other.path.text ≠ path.text

/-- What a clone has to find outside so that nothing is left behind if it fails. -/
def CloneSettles (clone : List String → Step String) (world : World) (repository name : String)
    (options : GitCloneOptions) (target : PathBuf) : Prop :=
  let made := machine.createDirAll manager.cloneRoot world.target
  let cloned := (clone (cloneArgs repository target options.requestedRef)).exec { world with target := made.2 }
  (made.1 ≠ .ok () → isThere made.2 = false) ∧
    (made.1 = .ok () → (∀ error, cloned.1 = .error error → isThere (withoutTarget machine cloned.2.target) = false) ∧
      ∀ out, cloned.1 = .ok out → isThere cloned.2.target = true →
        ∃ path, Located machine target manager.cloneRoot path ∧ Timed machine ∧ Accepted machine world.sources name path)

/-- A worktree is found below its root, and its repository, and the clock is read. -/
def Found (repositoryPath target path : PathBuf) : Prop :=
  Located machine target manager.worktreeRoot path ∧
    (∃ repository, machine.canonicalize repositoryPath = .ok repository) ∧ Timed machine

/-- What the creation of a worktree has to find outside so that nothing is left behind if it fails. -/
def WorktreeSettles (world : World) (repositoryPath target : PathBuf) (requestedRef : String)
    (newBranch : Option String) (name : String) : Prop :=
  let made := machine.createDirAll (target.parent.getD ⟨""⟩) world.target
  let added := machine.runs ⟨["-C", repositoryPath.text] ++ worktreeArgs target requestedRef newBranch, []⟩ made.2
  refKnown machine repositoryPath requestedRef = .ok () → branchValid machine repositoryPath newBranch = .ok () →
    (made.1 ≠ .ok () → isThere made.2 = false) ∧
      (made.1 = .ok () → (added.1.success = false → isThere added.2 = false) ∧
        (added.1.success = true →
          (isThere added.2 = true → ∃ path, Found machine manager repositoryPath target path) ∧
            ∀ path, Found machine manager repositoryPath target path → ¬Accepted machine world.sources name path →
              isThere (withoutWorktree machine repositoryPath path added.2) = false))

/-- What a call has to find outside so that nothing is left behind if it fails. -/
def Call.Settles (world : World) (call : Call) (repositoryPath : PathBuf) : Prop :=
  match call with
  | .createWorktree _ requestedRef newBranch name _ =>
    WorktreeSettles machine manager world repositoryPath (call.target manager) requestedRef newBranch name
  | .cloneRepository repository name options interactive =>
    CloneSettles machine manager (cloneRun machine manager options interactive) world repository name options
      (call.target manager)
  | .cloneRepositoryBrowser repository name options credentials approvedHostKey =>
    CloneSettles machine manager (cloneRunBrowser machine manager repository options credentials approvedHostKey) world
      repository name options (call.target manager)

end

section

variable {machine : Machine} {manager : SourceManager} {world : World} {sources : List RegisteredSource}

/-! ### The store takes a source -/

theorem stateResult_ok_iff {result : Except State.StateError Unit} : stateResult result = .ok () ↔ result = .ok () := by
  cases result <;> simp [stateResult]

theorem sqliteResult_ok_iff {result : Except String Unit} : sqliteResult result = .ok () ↔ result = .ok () := by
  cases result <;> simp [sqliteResult]

theorem ioResult_ok_iff {α : Type} {result : Except String α} {a : α} : ioResult result = .ok a ↔ result = .ok a := by
  cases result <;> simp [ioResult]

/-- A managed source with a location passes the checks with its name and its path. -/
theorem checkSource_ok_iff {source : RegisteredSource} (hkind : source.kind = .managed)
    (hrelative : source.managedRelativePath.isSome = true) :
    checkSource source = .ok () ↔ Text.isBlank source.name = false ∧ source.path.isEmpty = false := by
  obtain ⟨relative, hrelative⟩ := Option.isSome_iff_exists.mp hrelative
  rw [checkSource, bind_eq_ok_iff]
  simp only [Unique.exists_iff, PUnit.default_eq_unit, State.validateId_ok_iff, hkind, hrelative, reduceCtorEq,
    decide_false, Bool.false_and, Option.isNone_some, Bool.and_false, Bool.false_eq_true, if_false]
  cases source.path.isEmpty <;> simp [bind, Except.bind, pure, Except.pure, throw, throwThe, MonadExceptOf.throw]

theorem taken_eq_false_iff {source : RegisteredSource} : taken sources source = false ↔
    ∀ other ∈ sources, other.name ≠ source.name ∧ other.path.text ≠ source.path.text := by
  simp [taken]

theorem registration_ok_iff {source : RegisteredSource} (hkind : source.kind = .managed)
    (hrelative : source.managedRelativePath.isSome = true) :
    registration machine sources source = .ok () ↔ Accepted machine sources source.name source.path := by
  have htaken : ∀ e : State.StateError, (if taken sources source = true then stateResult (.error e) else pure ()) =
      Except.ok () ↔ taken sources source = false := by
    intro e
    cases taken sources source <;> simp [stateResult, pure, Except.pure]
  simp only [registration, bind_eq_ok_iff, Unique.exists_iff, PUnit.default_eq_unit, stateResult_ok_iff,
    sqliteResult_ok_iff, checkSource_ok_iff hkind hrelative, htaken, taken_eq_false_iff, Accepted, and_assoc]

/-! ### What is registered -/

theorem exists_nowMillis_iff : (∃ millis, nowMillis machine = .ok millis) ↔ Timed machine := by
  unfold nowMillis Timed I64.ofInt?
  by_cases hneg : machine.clock < 0
  · simp only [hneg, if_true, reduceCtorEq, exists_false, false_iff]
    omega
  · by_cases hbig : machine.clock < 2 ^ 63
    · have hrange : -(2 ^ 63) ≤ machine.clock ∧ machine.clock < 2 ^ 63 := by omega
      simp only [hneg, if_false, dif_pos hrange, Except.ok.injEq, exists_eq', true_iff]
      omega
    · have hrange : ¬(-(2 ^ 63) ≤ machine.clock ∧ machine.clock < 2 ^ 63) := by omega
      simp only [hneg, if_false, dif_neg hrange, reduceCtorEq, exists_false, false_iff]
      omega

theorem exists_relativeTo_iff {path root : PathBuf} {message : String} :
    (∃ relative, relativeTo path root message = .ok relative) ↔ path.startsWith root = true := by
  unfold relativeTo
  cases path.startsWith root <;> simp

/-- A clone is registered exactly if it is found, the clock is read and the store takes it. -/
theorem exists_cloneSource_iff {name : String} {target : PathBuf} (options : GitCloneOptions) :
    (∃ source, cloneSource machine manager name options target = .ok source ∧
        registration machine sources source = .ok ()) ↔
      ∃ path, Located machine target manager.cloneRoot path ∧ Timed machine ∧ Accepted machine sources name path := by
  simp only [cloneSource, bind_eq_ok_iff, ioResult_ok_iff, ← exists_nowMillis_iff, Located]
  constructor
  · rintro ⟨_, ⟨path, hpath, createdAt, hcreated, root, hroot, relative, hrelative, ⟨⟩⟩, hregistered⟩
    rw [registration_ok_iff rfl rfl] at hregistered
    exact ⟨path, ⟨hpath, root, hroot, exists_relativeTo_iff.mp ⟨relative, hrelative⟩⟩, ⟨createdAt, hcreated⟩, hregistered⟩
  · rintro ⟨path, ⟨hpath, root, hroot, hbelow⟩, ⟨createdAt, hcreated⟩, haccepted⟩
    obtain ⟨relative, hrelative⟩ := exists_relativeTo_iff.mpr hbelow
    refine ⟨_, ⟨path, hpath, createdAt, hcreated, root, hroot, relative, hrelative, rfl⟩, ?_⟩
    rw [registration_ok_iff rfl rfl]
    exact haccepted

/-- What is registered of a worktree. -/
theorem worktreeSource_ok {repositoryPath target : PathBuf} {requestedRef name : String} {newBranch : Option String}
    {source : RegisteredSource}
    (h : worktreeSource machine manager repositoryPath target requestedRef newBranch name = .ok source) :
    source.name = name ∧ source.kind = .managed ∧ source.managedRelativePath.isSome = true ∧
      Found machine manager repositoryPath target source.path := by
  simp only [worktreeSource, bind_eq_ok_iff, ioResult_ok_iff] at h
  obtain ⟨path, hpath, root, hroot, relative, hrelative, repository, hrepository, createdAt, hcreated, ⟨⟩⟩ := h
  exact ⟨rfl, rfl, rfl, ⟨hpath, root, hroot, exists_relativeTo_iff.mp ⟨relative, hrelative⟩⟩, ⟨repository, hrepository⟩,
    exists_nowMillis_iff.mp ⟨createdAt, hcreated⟩⟩

/-- A worktree that is found can be registered. -/
theorem Found.source {repositoryPath target path : PathBuf} (h : Found machine manager repositoryPath target path)
    (requestedRef name : String) (newBranch : Option String) : ∃ source,
    worktreeSource machine manager repositoryPath target requestedRef newBranch name = .ok source ∧ source.path = path := by
  obtain ⟨⟨hpath, root, hroot, hbelow⟩, ⟨repository, hrepository⟩, htimed⟩ := h
  obtain ⟨createdAt, hcreated⟩ := exists_nowMillis_iff.mpr htimed
  obtain ⟨relative, hrelative⟩ := exists_relativeTo_iff.mpr hbelow
  simp only [worktreeSource, bind_eq_ok_iff, ioResult_ok_iff]
  exact ⟨_, ⟨path, hpath, root, hroot, relative, hrelative, repository, hrepository, createdAt, hcreated, rfl⟩, rfl⟩

/-! ### The registered sources -/

section Keeps

open Stateful

variable {α : Type}

theorem keeps_ofExcept {result : Except SourceError α} :
    Keeps (fun world : World => world.sources = sources) (.ofExcept result) := fun _ h => h

theorem keeps_run {command : Command} {read : GitRun → Except SourceError String} :
    Keeps (fun world => world.sources = sources) (run machine command read) := fun _ h => h

theorem keeps_createDirAll {path : PathBuf} :
    Keeps (fun world => world.sources = sources) (createDirAll machine path) := fun _ h => h

theorem keeps_cloneRun {options : GitCloneOptions} {interactive : Bool} {args : List String} :
    Keeps (fun world => world.sources = sources) (cloneRun machine manager options interactive args) := by
  cases interactive
  · exact .bind keeps_ofExcept fun _ => keeps_run
  · exact keeps_run

theorem keeps_cloneRunBrowser {repository : String} {options : GitCloneOptions} {credentials : Option CloneCredentials}
    {approvedHostKey : Option ApprovedHostKey} {args : List String} :
    Keeps (fun world => world.sources = sources)
      (cloneRunBrowser machine manager repository options credentials approvedHostKey args) := by
  refine .bind keeps_ofExcept fun _ => .bind keeps_ofExcept fun _ => ?_
  cases credentials
  · exact keeps_run
  · exact .bind keeps_ofExcept fun _ => keeps_run

end Keeps

/-! ### Exactly when nothing is left -/

section Wp

open Stateful

variable {after : World → Prop}

theorem clean_iff (h : world.sources = sources) : Clean sources world ↔ isThere world.target = false :=
  ⟨And.right, fun htarget => ⟨h, htarget⟩⟩

theorem clean_target_iff (h : world.sources = sources) {target : Option Entry} :
    Clean sources { world with target } ↔ isThere target = false := clean_iff h

theorem wp_createDirAll {path : PathBuf} (h : world.sources = sources) :
    Wp (createDirAll machine path) (fun _ => after) (fun _ => Clean sources) world ↔
      ((machine.createDirAll path world.target).1 ≠ .ok () → isThere (machine.createDirAll path world.target).2 = false) ∧
        ((machine.createDirAll path world.target).1 = .ok () →
          after { world with target := (machine.createDirAll path world.target).2 }) := by
  simp only [createDirAll, wp_ofFun, clean_target_iff h]
  rcases (machine.createDirAll path world.target).1 with error | _
  · simp [ioResult]
  · simp [ioResult]

/-- What is registered is either there, and then a failure leaves it, or it is not there at all. -/
theorem wp_registerSource {source : RegisteredSource} {failed : SourceError → World → Prop} :
    Wp (registerSource machine source) (fun _ _ => True) failed world ↔
      ∀ error, registration machine world.sources source = .error error → failed error world := by
  rw [registerSource, wp_ofFun]
  cases registration machine world.sources source <;> simp

/-- A clone that was made and is not registered stays. -/
theorem wp_registerClone {name : String} {options : GitCloneOptions} {target : PathBuf} (h : world.sources = sources) :
    Wp (registerClone machine manager name options target) (fun _ _ => True) (fun _ => Clean sources) world ↔
      (isThere world.target = true →
        ∃ path, Located machine target manager.cloneRoot path ∧ Timed machine ∧ Accepted machine sources name path) := by
  rw [← exists_cloneSource_iff options]
  simp only [registerClone, wp_bind, wp_ofExcept, wp_pure, wp_registerSource, clean_iff h, h]
  cases htarget : isThere world.target with
  | false => simp
  | true =>
    rcases hsource : cloneSource machine manager name options target with error | source
    · simp
    · rcases hregistered : registration machine sources source with error | _
      · simp [hregistered]
      · simp [hregistered]

/-- Where a clone fails before it is registered, the target is cleaned up. -/
theorem wp_cloneWith {clone : List String → Step String} {repository name : String} {options : GitCloneOptions}
    {target : PathBuf} (h : world.sources = sources)
    (hclone : ∀ args, Keeps (fun world => world.sources = sources) (clone args)) :
    Wp (cloneWith machine manager clone repository name options target) (fun _ _ => True) (fun _ => Clean sources) world ↔
      CloneSettles machine manager clone world repository name options target := by
  subst h
  simp only [cloneWith, wp_bind, CloneSettles]
  rw [wp_createDirAll rfl]
  refine and_congr_right fun _ => forall_congr' fun _ => ?_
  rw [wp_tryCatch]
  have hkept := hclone (cloneArgs repository target options.requestedRef)
    { world with target := (machine.createDirAll manager.cloneRoot world.target).2 } rfl
  rcases hrun : (clone (cloneArgs repository target options.requestedRef)).exec
      { world with target := (machine.createDirAll manager.cloneRoot world.target).2 } with ⟨error | out, world'⟩
  · rw [hrun] at hkept
    rw [wp_of_error hrun]
    simp only [wp_bind, removeFailedCloneTarget, wp_ofFun, wp_throw, clean_target_iff hkept]
    simp
  · rw [hrun] at hkept
    rw [wp_of_ok hrun, wp_registerClone hkept]
    simp

theorem wp_runGit {directory : PathBuf} {args : List String} {code : String} (h : world.sources = sources) :
    Wp (runGit machine directory args code) (fun _ => after) (fun _ => Clean sources) world ↔
      ((machine.runs ⟨["-C", directory.text] ++ args, []⟩ world.target).1.success = false →
        isThere (machine.runs ⟨["-C", directory.text] ++ args, []⟩ world.target).2 = false) ∧
      ((machine.runs ⟨["-C", directory.text] ++ args, []⟩ world.target).1.success = true →
        after { world with target := (machine.runs ⟨["-C", directory.text] ++ args, []⟩ world.target).2 }) := by
  simp only [runGit, run, wp_ofFun, clean_target_iff h]
  cases (machine.runs ⟨["-C", directory.text] ++ args, []⟩ world.target).1 with
  | notFound error => simp [readOutput, GitRun.success]
  | notStarted error => simp [readOutput, GitRun.success]
  | exited status stdout stderr =>
    by_cases hstatus : status = some 0
    · simp [readOutput, outputText, GitRun.success, hstatus]
    · simp [readOutput, outputText, GitRun.success, hstatus]

/-- Where a worktree is not registered, Git is asked to remove it. -/
theorem wp_registerWorktree {repositoryPath : PathBuf} {source : RegisteredSource} (h : world.sources = sources)
    (hkind : source.kind = .managed) (hrelative : source.managedRelativePath.isSome = true) :
    Wp (registerWorktree machine repositoryPath source) (fun _ _ => True) (fun _ => Clean sources) world ↔
      (¬Accepted machine sources source.name source.path →
        isThere (withoutWorktree machine repositoryPath source.path world.target) = false) := by
  have hremoved : ((runGit machine repositoryPath ["worktree", "remove", source.path.text] "worktree_remove_failed").exec
      world).2 = { world with target := withoutWorktree machine repositoryPath source.path world.target } := rfl
  subst h
  rw [← registration_ok_iff hkind hrelative]
  simp only [registerWorktree, wp_bind, wp_tryCatch, wp_pure, wp_registerSource, removeWorktree, wp_ignore, wp_throw,
    hremoved, clean_target_iff rfl]
  cases registration machine world.sources source <;> simp

/-- A worktree that was made stays where it is not found, or where it can be neither registered nor
removed. -/
theorem wp_worktreeSource {repositoryPath target : PathBuf} {requestedRef name : String} {newBranch : Option String}
    (h : world.sources = sources) :
    Wp (.ofExcept (worktreeSource machine manager repositoryPath target requestedRef newBranch name))
        (fun source world => Wp (registerWorktree machine repositoryPath source) (fun _ _ => True)
          (fun _ => Clean sources) world) (fun _ => Clean sources) world ↔
      (isThere world.target = true → ∃ path, Found machine manager repositoryPath target path) ∧
        ∀ path, Found machine manager repositoryPath target path → ¬Accepted machine sources name path →
          isThere (withoutWorktree machine repositoryPath path world.target) = false := by
  rw [wp_ofExcept]
  rcases hsource : worktreeSource machine manager repositoryPath target requestedRef newBranch name with error | source
  · have hnone : ∀ path, ¬Found machine manager repositoryPath target path := by
      intro path hfound
      obtain ⟨source, hok, -⟩ := hfound.source requestedRef name newBranch
      rw [hsource] at hok
      cases hok
    simp [hnone, clean_iff h]
  · obtain ⟨rfl, hkind, hrelative, hfound⟩ := worktreeSource_ok hsource
    have hunique : ∀ path, Found machine manager repositoryPath target path → path = source.path := by
      intro path hother
      obtain ⟨other, hok, rfl⟩ := hother.source requestedRef source.name newBranch
      rw [hsource] at hok
      rw [Except.ok.inj hok]
    simp only [Except.ok.injEq, forall_eq', reduceCtorEq, false_implies, implies_true, and_true,
      wp_registerWorktree h hkind hrelative]
    constructor
    · intro hremoved
      refine ⟨fun _ => ⟨_, hfound⟩, fun path hother => ?_⟩
      rw [hunique path hother]
      exact hremoved
    · rintro ⟨-, hremoved⟩
      exact hremoved _ hfound

theorem wp_createWorktreeInner {repositoryPath target : PathBuf} {requestedRef name : String} {newBranch : Option String}
    (h : isThere world.target = false) :
    Wp (createWorktreeInner machine manager repositoryPath target requestedRef newBranch name) (fun _ _ => True)
        (fun _ => Clean world.sources) world ↔
      WorktreeSettles machine manager world repositoryPath target requestedRef newBranch name := by
  have hguard : ∀ (result : Except SourceError Unit) (after : World → Prop),
      Wp (.ofExcept result) (fun _ => after) (fun _ => Clean world.sources) world ↔ (result = .ok () → after world) := by
    intro result after
    rw [wp_ofExcept]
    cases result <;> simp [clean_iff, h]
  simp only [createWorktreeInner, wp_bind, WorktreeSettles]
  rw [hguard]
  refine forall_congr' fun _ => ?_
  rw [hguard]
  refine forall_congr' fun _ => ?_
  rw [wp_createDirAll rfl]
  refine and_congr_right fun _ => forall_congr' fun _ => ?_
  have hmade : (⟨world.sources, (machine.createDirAll (target.parent.getD ⟨""⟩) world.target).2⟩ : World).sources =
      world.sources := rfl
  rw [wp_runGit hmade]
  refine and_congr_right fun _ => forall_congr' fun _ => ?_
  exact @wp_worktreeSource _ _ _ world.sources _ _ _ _ _ rfl

end Wp

/-- Nothing is at a target that has passed its guard. -/
theorem isThere_of_guardMutation {target root : PathBuf} (h : guardMutation machine world target root = .ok ()) :
    isThere world.target = false := by
  obtain ⟨-, -, h⟩ := bind_eq_ok_iff.mp h
  cases hthere : isThere world.target with
  | false => rfl
  | true => simp [hthere] at h

theorem isThere_of_guards {call : Call} {repositoryPath : PathBuf}
    (h : call.guards machine manager world = .ok repositoryPath) : isThere world.target = false := by
  cases call with
  | createWorktree repositoryName requestedRef newBranch name requestedPath =>
    obtain ⟨-, -, h⟩ := bind_eq_ok_iff.mp h
    obtain ⟨stored, -, h⟩ := bind_eq_ok_iff.mp h
    cases stored with
    | none => cases h
    | some repository =>
      obtain ⟨_, hguard, -⟩ := bind_eq_ok_iff.mp h
      exact isThere_of_guardMutation hguard
  | cloneRepository repository name options interactive =>
    obtain ⟨_, hguard, -⟩ := bind_eq_ok_iff.mp h
    exact isThere_of_guardMutation hguard
  | cloneRepositoryBrowser repository name options credentials approvedHostKey =>
    obtain ⟨_, hguard, -⟩ := bind_eq_ok_iff.mp h
    exact isThere_of_guardMutation hguard

/-- What a call comes to after its guards. -/
theorem wp_create {call : Call} {repositoryPath : PathBuf} (h : isThere world.target = false) :
    Stateful.Wp (call.create machine manager repositoryPath) (fun _ _ => True) (fun _ => Clean world.sources) world ↔
      call.Settles machine manager world repositoryPath := by
  cases call with
  | createWorktree repositoryName requestedRef newBranch name requestedPath => exact wp_createWorktreeInner h
  | cloneRepository repository name options interactive => exact wp_cloneWith rfl fun _ => keeps_cloneRun
  | cloneRepositoryBrowser repository name options credentials approvedHostKey =>
    exact wp_cloneWith rfl fun _ => keeps_cloneRunBrowser

variable (machine manager) in
/-- **Exactly when nothing is left** behind by a call that fails after its guards. -/
theorem leaves_nothing_iff (world : World) (call : Call) : LeavesNothing machine manager world call ↔
    ∀ repositoryPath, call.guards machine manager world = .ok repositoryPath →
      call.Settles machine manager world repositoryPath := by
  refine forall_congr' fun repositoryPath => forall_congr' fun hguards => ?_
  rw [← wp_create (isThere_of_guards hguards)]
  have hrun : (call.run machine manager).exec world = (call.create machine manager repositoryPath).exec world := by
    rw [Call.run, Stateful.exec_ofFun, hguards]
  rw [hrun]
  simp [Stateful.Wp]

/-! ### The registered sources are as they were -/

section Errors

open Stateful

/-- A step that keeps the sources, and then one that keeps them if it fails. -/
theorem wp_sources_bind {α β : Type} {m : Step β} {next : β → Step α} (h : world.sources = sources)
    (hfirst : Keeps (fun world => world.sources = sources) m)
    (hnext : ∀ value world, world.sources = sources →
      Wp (next value) (fun _ _ => True) (fun _ world => world.sources = sources) world) :
    Wp (m >>= next) (fun _ _ => True) (fun _ world => world.sources = sources) world := by
  rw [wp_bind]
  exact hfirst.wp h hnext fun _ _ herror => herror

theorem wp_sources_createWorktreeInner {repositoryPath target : PathBuf} {requestedRef name : String}
    {newBranch : Option String} (h : world.sources = sources) :
    Wp (createWorktreeInner machine manager repositoryPath target requestedRef newBranch name) (fun _ _ => True)
      (fun _ world => world.sources = sources) world := by
  refine wp_sources_bind h keeps_ofExcept fun _ _ h => wp_sources_bind h keeps_ofExcept fun _ _ h => ?_
  refine wp_sources_bind h keeps_createDirAll fun _ _ h => wp_sources_bind h keeps_run fun _ _ h => ?_
  refine wp_sources_bind h keeps_ofExcept fun source world h => ?_
  simp only [registerWorktree, wp_bind, wp_tryCatch, wp_registerSource, wp_pure, removeWorktree, wp_ignore, wp_throw]
  exact fun _ _ => h

theorem wp_sources_cloneWith {clone : List String → Step String} {repository name : String} {options : GitCloneOptions}
    {target : PathBuf} (h : world.sources = sources)
    (hclone : ∀ args, Keeps (fun world => world.sources = sources) (clone args)) :
    Wp (cloneWith machine manager clone repository name options target) (fun _ _ => True)
      (fun _ world => world.sources = sources) world := by
  have hregister : ∀ world : World, world.sources = sources → Wp (registerClone machine manager name options target)
      (fun _ _ => True) (fun _ world => world.sources = sources) world := by
    intro world h
    refine wp_sources_bind h keeps_ofExcept fun source world h => ?_
    simp only [wp_bind, wp_registerSource, wp_pure]
    exact fun _ _ => h
  refine wp_sources_bind h keeps_createDirAll fun _ world h => ?_
  rw [wp_bind, wp_tryCatch]
  refine (hclone _).wp h (fun _ world h => hregister world h) fun error world h => ?_
  simp only [wp_bind, removeFailedCloneTarget, wp_ofFun, wp_throw]
  exact ⟨fun _ _ => h, fun _ _ => h⟩

theorem wp_sources_create {call : Call} {repositoryPath : PathBuf} (h : world.sources = sources) :
    Wp (call.create machine manager repositoryPath) (fun _ _ => True) (fun _ world => world.sources = sources) world := by
  cases call with
  | createWorktree repositoryName requestedRef newBranch name requestedPath => exact wp_sources_createWorktreeInner h
  | cloneRepository repository name options interactive => exact wp_sources_cloneWith h fun _ => keeps_cloneRun
  | cloneRepositoryBrowser repository name options credentials approvedHostKey =>
    exact wp_sources_cloneWith h fun _ => keeps_cloneRunBrowser

end Errors

variable (machine manager) in
/-- A failed call leaves the registered sources as they were. -/
theorem sources_of_error {call : Call} {error : SourceError} {world' : World}
    (h : (call.run machine manager).exec world = (.error error, world')) : world'.sources = world.sources := by
  rw [Call.run, Stateful.exec_ofFun] at h
  cases hguards : call.guards machine manager world with
  | error error =>
    rw [hguards] at h
    cases h
    rfl
  | ok repositoryPath =>
    rw [hguards] at h
    exact (wp_sources_create rfl).2 _ _ h

/-! ### A name that is taken -/

/-- A machine on which everything goes well. -/
def laptop : Machine where
  contained _ _ := .ok ()
  inspects _ := .exited (some 0) "" ""
  runs _ _ := (.exited (some 0) "" "", some .directory)
  createDirAll _ target := (.ok (), target)
  canonicalize path := .ok path
  clock := 1700000000000
  reads := .ok ()
  writes := .ok ()
  looks := true
  removesFile := true
  removesDir := true
  hosts := HostKey.twoKeys
  writesHelper := .ok ()

/-- Its workspace. -/
def workspace : SourceManager where
  workspaceRoot := ⟨"/home/dev/apmpr"⟩
  worktreeRoot := ⟨"/home/dev/apmpr/worktrees"⟩
  cloneRoot := ⟨"/home/dev/apmpr/clones"⟩

/-- A checkout of the user's own is registered. -/
def registeredApp : World where
  sources := [⟨"app", .unmanaged, ⟨"/home/dev/app"⟩, some ⟨"/home/dev/app"⟩, none, ⟨1600000000000, by decide, by decide⟩, none⟩]
  target := none

/-- A clone by the name of the checkout. -/
def cloneApp : Call := .cloneRepository "https://example.invalid/team/app.git" "app" ⟨none, none⟩ false

/-- The clone is made, its registration is rejected, and the clone stays. -/
theorem cloneApp_left : ¬LeavesNothing laptop workspace registeredApp cloneApp := by
  intro h
  have hguards : cloneApp.guards laptop workspace registeredApp = .ok ⟨"/home/dev/apmpr"⟩ := by decide +kernel
  have hrun : (cloneApp.run laptop workspace).exec registeredApp =
      (.error (.new "source_already_registered" "source_already_registered: source `app` or path `/home/dev/apmpr/clones/app` is already registered"),
        { registeredApp with target := some .directory }) := by decide +kernel
  obtain ⟨-, htarget⟩ := h _ hguards _ _ hrun
  cases htarget

end

end Apmpr.Sources.Creation
