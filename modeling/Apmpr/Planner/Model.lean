import Apmpr.Router.Config

/-!
# The deployment document

The `apmpr.dev/v1alpha2` schema of the crate `apmpr-planner` (its `model.rs`), and what the
planner uses of it throughout: references to group members, generated names, and paths.
A `Document` is what the YAML text holds; a `Bundle` is a document that was loaded, with
the canonical directory it was loaded from and the workspace that directory is in.
-/

namespace Apmpr.Planner

/-- `apiVersion` of a deployment. -/
def API_VERSION : String := "apmpr.dev/v1alpha2"

/-- `kind` of a deployment. -/
def KIND : String := "Deployment"

/-- `Metadata`. -/
structure Metadata where
  name : String
  labels : SortedMap String String
  deriving DecidableEq

/-- `ResolvedOverlayFile`. -/
structure ResolvedOverlayFile where
  target : PathBuf
  contentHash : String
  mode : String
  origin : String
  deriving DecidableEq

/-- `Repository`: a managed clone of an URL, or an existing clone. -/
structure Repository where
  url : Option String
  clone : Option PathBuf
  deriving DecidableEq

/-- `Source`: a worktree of a repository. -/
structure Source where
  repository : String
  ref : String
  path : PathBuf
  deriving DecidableEq

/-- `Parameter`. -/
structure Parameter where
  required : Bool
  default : Option String
  deriving DecidableEq

/-- `Build`. -/
structure Build where
  context : PathBuf
  dockerfile : Option PathBuf
  deriving DecidableEq

/-- `ScriptLifecycle`. -/
inductive ScriptLifecycle where
  | service
  | task
  deriving DecidableEq

/-- What every kind of execution has. -/
structure Runtime where
  workingDirectory : Option PathBuf
  sourceMount : PathBuf
  writable : Bool
  environment : SortedMap String String
  deriving DecidableEq

/-- `Execution`. -/
inductive Execution where
  | container (image : Option String) (build : Option Build) (command : List String) (runtime : Runtime)
  | script (image : String) (command : List String) (lifecycle : ScriptLifecycle) (runtime : Runtime)
  | processCompose (image : String) (file : PathBuf) (runtime : Runtime)
  deriving DecidableEq

/-- The fields every kind of execution has. -/
def Execution.runtime : Execution → Runtime
  | .container _ _ _ runtime => runtime
  | .script _ _ _ runtime => runtime
  | .processCompose _ _ runtime => runtime

/-- `VolumeMount`. -/
structure VolumeMount where
  name : String
  target : PathBuf
  readOnly : Bool
  deriving DecidableEq

/-- `DependencyCondition`. -/
inductive DependencyCondition where
  | started
  | healthy
  | completedSuccessfully
  deriving DecidableEq

/-- `Probe`. -/
inductive Probe where
  | http (path : String) (port : U16) (https : Bool)
  | tcp (port : U16)
  | command (command : List String)
  deriving DecidableEq

/-- `Service`. -/
structure Service where
  execution : Execution
  publish : List U16
  volumes : List VolumeMount
  dependsOn : SortedMap String DependencyCondition
  probe : Option Probe
  deriving DecidableEq

/-- `Block`. -/
structure Block where
  parameters : SortedMap String Parameter
  services : SortedMap String Service
  deriving DecidableEq

/-- `ExternalPort`: one port or an inclusive range. -/
inductive ExternalPort where
  | single (port : U16)
  | range (start stop : U16)
  deriving DecidableEq

/-- The ends of a port or range. -/
def ExternalPort.ends : ExternalPort → U16 × U16
  | .single port => (port, port)
  | .range start stop => (start, stop)

/-- The numbers from the first to the last, both included. -/
def portsBetween (start stop : U16) : List U16 :=
  (List.range' start.val (stop.val + 1 - start.val)).map (Fin.ofNat 65536)

/-- `expanded`. -/
def ExternalPort.expanded (port : ExternalPort) : List U16 := portsBetween port.ends.1 port.ends.2

/-- `Instance`: a block run from a source, or an external host. -/
structure Instance where
  name : String
  block : String
  source : String
  external : Option String
  ports : List ExternalPort
  probe : Option Probe
  device : Option String
  address : Option String
  parameters : SortedMap String String
  labels : SortedMap String String
  environment : SortedMap String String
  environmentUnset : List String
  deriving DecidableEq

/-- `is_external`. -/
def Instance.isExternal (inst : Instance) : Bool := inst.external.isSome

/-- `expanded_external_ports`. -/
def Instance.expandedExternalPorts (inst : Instance) : List U16 := inst.ports.flatMap ExternalPort.expanded

/-- The device an instance is placed on, unless it is the local one. -/
def Instance.remoteDevice (inst : Instance) : Option String := inst.device.filter (· ≠ "local")

/-- `ServiceGroup`. -/
structure ServiceGroup where
  instances : List String
  disabled : List String
  address : Option String
  deriving DecidableEq

/-- `ManagedProfile`. -/
structure ManagedProfile where
  route : String
  startUrl : String
  deriving DecidableEq

/-- `PublishedUpstream`. -/
structure PublishedUpstream where
  inst : String
  service : String
  port : U16
  deriving DecidableEq

/-- `DeploymentSpec`. -/
structure DeploymentSpec where
  overlays : List PathBuf
  resolvedOverlayFiles : SortedMap String (List ResolvedOverlayFile)
  repositories : SortedMap String Repository
  sources : SortedMap String Source
  blocks : SortedMap String Block
  instances : List Instance
  groups : SortedMap String ServiceGroup
  managedProfiles : SortedMap String ManagedProfile
  hostRouter : Option Router.RouterConfig
  hostUpstreams : SortedMap String PublishedUpstream
  routerImage : String
  deriving DecidableEq

/-- What a deployment file holds. -/
structure Document where
  apiVersion : String
  kind : String
  metadata : Metadata
  spec : DeploymentSpec
  deriving DecidableEq

/-- `Bundle`: a document, the canonical directory it was loaded from, and its workspace.
Both paths are absolute, as `canonicalize` returns them. -/
structure Bundle where
  document : Document
  definitionDir : PathBuf
  workspaceRoot : PathBuf
  definitionDir_absolute : definitionDir.isAbsolute = true
  workspaceRoot_absolute : workspaceRoot.isAbsolute = true

/-- `PlanningDevice`. -/
structure PlanningDevice where
  user : String
  host : String
  port : U16
  identityFile : Option PathBuf
  deriving DecidableEq

/-- The registered devices. -/
abbrev Devices := SortedMap String PlanningDevice

/-! ### Diagnostics -/

/-- `DiagnosticCode`. -/
inductive DiagnosticCode where
  | unsupportedSchema
  | invalidName
  | invalidPath
  | duplicateName
  | missingReference
  | missingVariable
  | dependencyCycle
  | listenerConflict
  | incompleteGroup
  | invalidOverlay
  | selectorNoMatch
  | overlayConflict
  | unsupportedSecret
  deriving DecidableEq

/-- The name a code is printed with. -/
def DiagnosticCode.debug : DiagnosticCode → String
  | .unsupportedSchema => "UnsupportedSchema"
  | .invalidName => "InvalidName"
  | .invalidPath => "InvalidPath"
  | .duplicateName => "DuplicateName"
  | .missingReference => "MissingReference"
  | .missingVariable => "MissingVariable"
  | .dependencyCycle => "DependencyCycle"
  | .listenerConflict => "ListenerConflict"
  | .incompleteGroup => "IncompleteGroup"
  | .invalidOverlay => "InvalidOverlay"
  | .selectorNoMatch => "SelectorNoMatch"
  | .overlayConflict => "OverlayConflict"
  | .unsupportedSecret => "UnsupportedSecret"

/-- `Diagnostic`. -/
structure Diagnostic where
  code : DiagnosticCode
  path : String
  message : String
  deriving DecidableEq

/-- The text of a diagnostic. -/
def Diagnostic.display (d : Diagnostic) : String := s!"{d.code.debug} at {d.path}: {d.message}"

/-- How planning ends without a plan: with diagnostics, in a panic, or not at all. -/
inductive Failure where
  | diagnostics (errors : List Diagnostic)
  | panicked (what : String)
  | diverged (what : String)
  deriving DecidableEq

/-! ### The platform -/

/-- `SourceIdentity`. -/
structure SourceIdentity where
  path : String
  repository : Option String
  ref : Option String
  commit : Option String
  dirty : Option Bool
  deriving DecidableEq

/-- What `http::Uri` shows of a URI that parses: its scheme and authority. -/
structure Uri where
  scheme : Option String
  authority : Option String
  host : String
  port : Option U16
  deriving DecidableEq

/-- `InjectedFilePlan` as it is serialised, without the content. -/
structure InjectedFile where
  inst : String
  target : PathBuf
  mode : ℕ
  contentHash : String
  relativePath : PathBuf
  origin : String
  deriving DecidableEq

/-- A JSON text that goes into a hash. The texts are objects and arrays, which delimit
themselves, so that their concatenation and the list of them say the same. -/
inductive HashChunk where
  | document (document : Document)
  | devices (devices : SortedMap String PlanningDevice)
  | files (files : List InjectedFile)
  deriving DecidableEq

/-- What planning asks of its surroundings: SHA-256 of a text and of a sequence of JSON
texts (in hexadecimal), the files, Git, the URI parser, and the messages of the
JSON-schema validator. -/
structure Platform where
  sha256 : String → Vector (Fin 256) 32
  hash : List HashChunk → String
  pathExists : PathBuf → Bool
  readFile : PathBuf → Except String String
  inspect : PathBuf → PathBuf → String → SourceIdentity
  parseUri : String → Option Uri
  schemaMessage : String → String

/-! ### References and names -/

/-- `provider_reference`: the instance of a group member, and the service it names. -/
def providerReference (reference : String) : String × Option String :=
  match Text.splitOnce '/' reference with
  | some (inst, service) => (inst, some service)
  | none => (reference, none)

/-- The instance of a group member. -/
def memberInstance (member : String) : String := (providerReference member).1

/-- Whether a group member may be served by a service. -/
def namesService (member service : String) : Bool :=
  match (providerReference member).2 with
  | none => true
  | some requested => service = requested

/-- The number of bytes of a text. -/
def byteLength (s : String) : ℕ := (s.toList.map Char.utf8Size).sum

/-- The characters that end within the first `n` bytes. -/
def takeBytes : ℕ → List Char → List Char
  | _, [] => []
  | n, c :: rest => if c.utf8Size ≤ n then c :: takeBytes (n - c.utf8Size) rest else []

/-- A byte in hexadecimal. -/
def hexByte (b : Fin 256) : List Char :=
  [Nat.digitChar (b.val / 16), Nat.digitChar (b.val % 16)]

/-- A digest in hexadecimal. -/
def hexDigest (digest : Vector (Fin 256) 32) : String := String.ofList (digest.toList.flatMap hexByte)

/-- A character of a valid name. -/
def isNameChar (c : Char) : Bool := Text.isAsciiLower c || Text.isAsciiDigit c || c = '-'

theorem isNameChar_hexDigest {digest : Vector (Fin 256) 32} {c : Char} (h : c ∈ (hexDigest digest).toList) :
    isNameChar c = true := by
  rw [hexDigest, String.toList_ofList] at h
  obtain ⟨b, -, hb⟩ := List.mem_flatMap.mp h
  have hall : ∀ b : Fin 256, (hexByte b).all isNameChar = true := by decide +kernel
  exact List.all_eq_true.mp (hall b) c hb

/-- The number the first two bytes of a digest stand for. -/
def digestPrefix (digest : Vector (Fin 256) 32) : ℕ := digest[0].val * 256 + digest[1].val

/-- `resource_name`. A name that is too long is cut after 54 bytes; the source panics where
that splits a character. -/
def resourceName (platform : Platform) (parts : List String) : String :=
  let joined := "--".intercalate parts
  if byteLength joined ≤ 63 then joined
  else
    String.ofList (takeBytes 54 joined.toList) ++ "-" ++
      String.ofList ((hexDigest (platform.sha256 joined)).toList.take 8)

/-- `service_name_for`. -/
def serviceNameFor (platform : Platform) (deployment inst service : String) : String :=
  resourceName platform [deployment, inst, service]

/-- Whether a name is a lower-case DNS label. A character outside ASCII fails the test on
each of its bytes, so the length may be counted in characters. -/
def validName (name : String) : Bool :=
  name ≠ "" && name.toList.length ≤ 63 &&
    (name.toList.zipIdx.all fun (c, index) =>
      Text.isAsciiLower c || (Text.isAsciiDigit c && 0 < index) || (c = '-' && 0 < index)) &&
    !Text.endsWith name "-"

/-- `validate_name`. -/
def validateName (name path : String) : List Diagnostic :=
  if validName name then []
  else [⟨.invalidName, path, "name must be a lowercase DNS label (letters, digits, and hyphens)"⟩]

/-- `plausible_hostname`. -/
def plausibleHostname (value : String) : Bool :=
  let value := if Text.endsWith value "." then String.ofList value.toList.dropLast else value
  value ≠ "" && byteLength value ≤ 253 && (Text.split '.' value).all fun label =>
    label ≠ "" && label.toList.length ≤ 63 &&
      (label.toList.all fun c => Text.isAsciiAlphanumeric c || c = '-') &&
      (label.toList.head?.any Text.isAsciiAlphanumeric) &&
      (label.toList.getLast?.any Text.isAsciiAlphanumeric)

/-- `normalized_hostname`. -/
def normalizedHostname (value : String) : String := Text.toAsciiLowercase (Text.trimEndMatches '.' value)

/-! ### Paths -/

/-- `resolve_path`. -/
def resolvePath (base value : PathBuf) : PathBuf := if value.isAbsolute then value else base.join value

/-- The components `normalize_path` keeps: a `..` takes the last name back. -/
def normalizeComponents : List PathBuf.Component → List PathBuf.Component → List PathBuf.Component
  | done, [] => done.reverse
  | done, .curDir :: rest => normalizeComponents done rest
  | done, .parentDir :: rest =>
    match done with
    | .normal _ :: above => normalizeComponents above rest
    | _ => normalizeComponents done rest
  | done, component :: rest => normalizeComponents (component :: done) rest

/-- `normalize_path`, as the components of the path it returns. -/
def normalizePath (path : PathBuf) : List PathBuf.Component := normalizeComponents [] path.components

/-- `paths_overlap`. -/
def pathsOverlap (left right : List PathBuf.Component) : Bool :=
  right.isPrefixOf left || left.isPrefixOf right

/-- Whether a path has a component of this name. -/
def hasComponent (path : PathBuf) (name : String) : Bool := path.components.contains (.normal name)

/-- `clone_root` of the workspace's source manager. -/
def cloneRoot (workspaceRoot : PathBuf) : PathBuf := workspaceRoot.join ⟨".apmpr/clones"⟩

end Apmpr.Planner
