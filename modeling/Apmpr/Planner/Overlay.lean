import Apmpr.Planner.Model
import Mathlib.Data.Prod.Lex

/-!
# Overlays

The overlay documents of the crate `apmpr-planner` (its `overlay.rs`) and `resolve`: the
layers of a deployment are folded into its instances. First the defaults of the blocks are
traced, then every overlay is applied to the instances it matches, in order, then what the
deployment's own instances say, and last the values of the command line. Beside the folded
document the resolution keeps the injected files, the secret references, and for every
value where it came from.
-/

namespace Apmpr.Planner

/-! ### Overlay documents -/

/-- `OverlaySecretReference`. -/
structure OverlaySecretReference where
  environmentVariable : Option String
  file : Option PathBuf
  deriving DecidableEq

/-- `OverlayValue`. -/
inductive OverlayValue where
  | literal (value : String)
  | secret (reference : OverlaySecretReference)
  deriving DecidableEq

/-- `OverlayFileSource`. -/
inductive OverlayFileSource where
  | path (path : PathBuf)
  | secret (reference : OverlaySecretReference)
  deriving DecidableEq

/-- `OverlayFile`. -/
structure OverlayFile where
  source : Option OverlayFileSource
  content : Option String
  target : PathBuf
  mode : String
  template : Bool
  replace : Bool
  deriving DecidableEq

/-- `OverlaySelectors`. -/
structure OverlaySelectors where
  optional : Bool
  deploymentLabels : SortedMap String String
  instanceLabels : SortedMap String String
  instanceNames : List String
  deriving DecidableEq

/-- `OverlayEnvironment`. -/
structure OverlayEnvironment where
  envFiles : List PathBuf
  set : SortedMap String OverlayValue
  unset : List String
  deriving DecidableEq

/-- `Overlay`, with the path it was loaded from. -/
structure Overlay where
  apiVersion : String
  kind : String
  name : String
  selectors : OverlaySelectors
  environment : OverlayEnvironment
  files : List OverlayFile
  parameters : SortedMap String String
  vars : SortedMap String String
  replace : Bool
  sourcePath : PathBuf
  deriving DecidableEq

/-- `OverlayOptions`. -/
structure OverlayOptions where
  overlays : List PathBuf
  variation : Option String
  set : SortedMap String String
  deriving DecidableEq

/-- `OverlayOptions::default`. -/
def OverlayOptions.none : OverlayOptions := ⟨[], Option.none, ∅⟩

/-- `ShadowedOrigin`. -/
structure ShadowedOrigin where
  value : String
  layer : String
  deriving DecidableEq

/-- `OriginTrace`. -/
structure OriginTrace where
  inst : String
  category : String
  key : String
  value : String
  layer : String
  shadowed : List ShadowedOrigin
  deriving DecidableEq

/-- `InjectedFilePlan`. -/
structure InjectedFilePlan extends InjectedFile where
  content : String
  deriving DecidableEq

/-- The secret references, by instance and environment key. -/
abbrev SecretEnvironment := SortedMap (String ×ₗ String) OverlaySecretReference

/-- `OverlayResolution`. -/
structure OverlayResolution where
  origins : List OriginTrace
  files : List InjectedFilePlan
  secretEnvironment : SecretEnvironment

/-! ### Values and templates -/

/-- `valid_environment_name`. -/
def validEnvironmentName (name : String) : Bool :=
  name ≠ "" && name.toList.zipIdx.all fun (c, index) =>
    c = '_' || Text.isAsciiLower c || Text.isAsciiUpper c || (0 < index && Text.isAsciiDigit c)

/-- The lines of a text; a carriage return before a line's end does not belong to it. -/
def textLines (s : String) : List String :=
  let parts := Text.split '\n' s
  let parts := if parts.getLast? = some "" then parts.dropLast else parts
  parts.map (Text.trimEndMatches '\r')

/-- A line without the white space it begins with. -/
def trimStart (s : String) : String := String.ofList (s.toList.dropWhile Text.isWhitespace)

/-- `parse_dotenv`, from a line on. -/
def parseDotenvLines : ℕ → List String → SortedMap String String → Except String (SortedMap String String)
  | _, [], values => .ok values
  | index, line :: rest, values =>
    if Text.isBlank line || Text.startsWith (trimStart line) "#" then parseDotenvLines (index + 1) rest values
    else
      match Text.splitOnce '=' line with
      | none => .error s!"line {index + 1} must be KEY=VALUE"
      | some (key, value) =>
        if !validEnvironmentName key then .error s!"line {index + 1} has invalid environment key `{key}`"
        else if values.contains key then .error s!"line {index + 1} repeats environment key `{key}`"
        else parseDotenvLines (index + 1) rest (values.insert key value)

/-- `parse_dotenv`. -/
def parseDotenv (input : String) : Except String (SortedMap String String) := parseDotenvLines 0 (textLines input) ∅

/-- `parse_mode`. -/
def parseMode (mode : String) : Option ℕ :=
  if mode.toList.length = 4 && Text.startsWith mode "0" then
    match IpAddr.takeDigits 8 mode.toList with
    | (digits, []) =>
      let value := digits.foldl (fun acc d => acc * 8 + d) 0
      if value ≤ 511 then some value else none
    | _ => none
  else none

/-- The text up to a variable `${…}`, the variable, and the text after it; a variable that
is not ended has no text after it. -/
def nextVariable : List Char → Option (List Char × List Char × Option (List Char))
  | [] => none
  | '$' :: '\x7b' :: rest =>
    match Text.splitOnceChars '\x7d' rest with
    | some (name, after) => some ([], name, some after)
    | none => some ([], rest, none)
  | c :: rest => (nextVariable rest).map fun (before, name, after) => (c :: before, name, after)

/-- The variables of a text, in order, and whether the last one is not ended. -/
def templateVariables : ℕ → List Char → List String × Bool
  | 0, _ => ([], false)
  | fuel + 1, text =>
    match nextVariable text with
    | none => ([], false)
    | some (_, _, none) => ([], true)
    | some (_, name, some after) =>
      let r := templateVariables fuel after
      (String.ofList name :: r.1, r.2)

/-- Whether a variable of a template may be used. -/
def templateVariableKnown (overlay : Overlay) (name : String) : Bool :=
  name = "instance.name" || name = "deployment.name" ||
    ((Text.afterStart "overlay.variables." name).any overlay.vars.contains) ||
    ((Text.afterStart "parameters." name).any (· ≠ ""))

/-- `validate_template_namespace`. -/
def templateErrors (overlay : Overlay) (path input : String) : List Diagnostic :=
  let r := templateVariables (input.toList.length + 1) input.toList
  (r.1.filter fun name => !templateVariableKnown overlay name).map
      (fun name => ⟨.missingVariable, path, s!"unknown template variable `{name}`"⟩) ++
    if r.2 then [⟨.invalidOverlay, path, "unterminated template variable"⟩] else []

/-- `validate_secret`, as a test. -/
def validSecret (secret : OverlaySecretReference) : Bool :=
  match secret.environmentVariable, secret.file with
  | some name, none => name ≠ "" && name.toList.zipIdx.all fun (c, index) =>
      c = '_' || Text.isAsciiUpper c || (0 < index && Text.isAsciiDigit c)
  | none, some path => path.text ≠ ""
  | _, _ => false

/-- A path of an overlay, seen from the overlay's file. -/
def overlayPath (overlay : Overlay) (path : PathBuf) : PathBuf :=
  if path.isAbsolute then path else (overlay.sourcePath.parent.getD ⟨"."⟩).join path

/-- The checks of one value an overlay sets. -/
def overlayValueErrors (entry : String × OverlayValue) : List Diagnostic :=
  (if validEnvironmentName entry.1 then []
    else [⟨.invalidOverlay, s!"spec.environment.set.{entry.1}",
      "environment keys must contain only letters, digits, and underscores and cannot start with a digit"⟩]) ++
    match entry.2 with
    | .literal _ => []
    | .secret secret =>
      if validSecret secret then []
      else [⟨.invalidOverlay, s!"spec.environment.set.{entry.1}",
        "secret reference must contain exactly one valid environmentVariable or file"⟩]

/-- The checks of the keys an overlay unsets. -/
def unsetErrors : List String → List String → List Diagnostic
  | _, [] => []
  | earlier, key :: rest =>
    (if !validEnvironmentName key || earlier.contains key then
        [⟨.invalidOverlay, "spec.environment.unset", s!"invalid or repeated environment key `{key}`"⟩]
      else []) ++ unsetErrors (key :: earlier) rest

/-- The checks of one file an overlay injects. -/
def overlayFileErrors (platform : Platform) (overlay : Overlay) (entry : OverlayFile × ℕ) : List Diagnostic :=
  let file := entry.1
  let path := s!"spec.files[{entry.2}]"
  (if file.source.isSome = file.content.isSome then
      [⟨.invalidOverlay, path, "exactly one of source or content is required"⟩] else []) ++
    (match file.source with
      | some (.secret _) =>
        [⟨.unsupportedSecret, s!"{path}.source", "secret file injection is not yet supported"⟩]
      | _ => []) ++
    (if !file.target.isAbsolute || file.target.components.contains .parentDir then
        [⟨.invalidPath, s!"{path}.target",
          "file target must be an absolute normalized container path without `..` traversal"⟩] else []) ++
    (if (parseMode file.mode).isNone then
        [⟨.invalidOverlay, s!"{path}.mode",
          "mode must be a four-digit octal value no more permissive than 0777"⟩] else []) ++
    (if file.template then (file.content.toList.flatMap (templateErrors overlay path)) else []) ++
    match file.source with
    | some (.path source) =>
      match platform.readFile (overlayPath overlay source) with
      | .ok content => if file.template then templateErrors overlay path content else []
      | .error error =>
        [⟨.invalidPath, s!"{path}.source", s!"could not read injected file source: {error}"⟩]
    | _ => []

/-- `validate_overlay`. -/
def overlayErrors (platform : Platform) (overlay : Overlay) : List Diagnostic :=
  (if overlay.apiVersion ≠ "apmpr.dev/v1alpha1" || overlay.kind ≠ "Overlay" then
      [⟨.unsupportedSchema, "apiVersion", "expected apmpr.dev/v1alpha1 kind Overlay"⟩] else []) ++
    (if overlay.name = "" then [⟨.invalidName, "metadata.name", "overlay name cannot be empty"⟩] else []) ++
    overlay.environment.set.entries.flatMap overlayValueErrors ++
    unsetErrors [] overlay.environment.unset ++
    overlay.files.zipIdx.flatMap (overlayFileErrors platform overlay)

/-! ### Resolution -/

/-- What resolution has folded so far. -/
structure Resolving where
  instances : List Instance
  files : List InjectedFilePlan
  secrets : SecretEnvironment
  traces : SortedMap (String ×ₗ String ×ₗ String) OriginTrace
  errors : List Diagnostic

/-- `set_trace`: the value before becomes shadowed. -/
def setTrace (traces : SortedMap (String ×ₗ String ×ₗ String) OriginTrace)
    (inst category key value layer : String) : SortedMap (String ×ₗ String ×ₗ String) OriginTrace :=
  let id := toLex (inst, toLex (category, key))
  match traces.get? id with
  | some trace =>
    traces.insert id { trace with
      value := value
      layer := layer
      shadowed := trace.shadowed ++ [⟨trace.value, trace.layer⟩] }
  | none => traces.insert id ⟨inst, category, key, value, layer, []⟩

/-- A value traced. -/
def Resolving.trace (r : Resolving) (inst category key value layer : String) : Resolving :=
  { r with traces := setTrace r.traces inst category key value layer }

/-- The first instance of a name changed. -/
def Resolving.updateInstance (r : Resolving) (name : String) (f : Instance → Instance) : Resolving :=
  match r.instances.findIdx? fun inst => inst.name = name with
  | some index => { r with instances := r.instances.modify index f }
  | none => r

/-- An environment value of an instance: it is no longer unset. -/
def Instance.setEnvironment (inst : Instance) (key value : String) : Instance :=
  { inst with
    environment := inst.environment.insert key value
    environmentUnset := inst.environmentUnset.filter (· ≠ key) }

/-- A literal environment value of a layer. -/
def Resolving.setLiteral (r : Resolving) (target key value layer : String) : Resolving :=
  let r := r.trace target "environment" key value layer
  let r := r.updateInstance target fun inst => inst.setEnvironment key value
  { r with secrets := r.secrets.erase (toLex (target, key)) }

/-- `overlay_value`. -/
def overlayValue : OverlayValue → String
  | .literal value => value
  | .secret secret =>
    match secret.environmentVariable, secret.file with
    | some name, none => s!"«secret: {name}»"
    | none, some path => s!"«secret: {path.text}»"
    | _, _ => "«secret: invalid reference»"

/-- A value an overlay sets. -/
def Resolving.setValue (r : Resolving) (target layer key : String) (value : OverlayValue) : Resolving :=
  let r := r.setLiteral target key (overlayValue value) layer
  match value with
  | .secret secret => { r with secrets := r.secrets.insert (toLex (target, key)) secret }
  | .literal _ => r

/-- The trace of a value that is removed shows the removed value, if it shows nothing else. -/
def markRemoved (traces : SortedMap (String ×ₗ String ×ₗ String) OriginTrace) (target key previous : String) :
    SortedMap (String ×ₗ String ×ₗ String) OriginTrace :=
  let id := toLex (target, toLex ("environment", key))
  match traces.get? id with
  | some trace =>
    if trace.shadowed.isEmpty then
      traces.insert id { trace with shadowed := [⟨previous, "earlier overlay"⟩] }
    else traces
  | none => traces

/-- A key an overlay unsets. -/
def Resolving.unset (r : Resolving) (target layer key : String) : Resolving :=
  let previous := (r.instances.find? fun inst => inst.name = target).bind fun inst => inst.environment.get? key
  let r := r.updateInstance target fun inst => { inst with
    environment := inst.environment.erase key
    environmentUnset := if inst.environmentUnset.contains key then inst.environmentUnset
      else inst.environmentUnset ++ [key] }
  let r := { r with secrets := r.secrets.erase (toLex (target, key)) }
  match previous with
  | none => r
  | some value =>
    let r := r.trace target "environment" key "«unset»" layer
    { r with traces := markRemoved r.traces target key value }

/-- A parameter of a layer. -/
def Resolving.setParameter (r : Resolving) (target layer key value : String) : Resolving :=
  (r.trace target "parameter" key value layer).updateInstance target fun inst =>
    { inst with parameters := inst.parameters.insert key value }

/-- `load_env_files`: the values, and the files that cannot be read or parsed. -/
def loadEnvFiles (platform : Platform) (overlay : Overlay) : SortedMap String String × List Diagnostic :=
  overlay.environment.envFiles.foldl (fun state file =>
    let path := overlayPath overlay file
    match platform.readFile path with
    | .ok input =>
      match parseDotenv input with
      | .ok values => (state.1.insertAll values.entries, state.2)
      | .error message => (state.1, state.2 ++ [⟨.invalidOverlay, path.text, message⟩])
    | .error error => (state.1, state.2 ++ [⟨.invalidPath, path.text, error⟩])) (∅, [])

/-- The defaults of a block's parameters. -/
def parameterDefaults (block : Block) : List (String × String) :=
  block.parameters.entries.filterMap fun (key, parameter) => parameter.default.map (key, ·)

/-- `effective_parameters`: the defaults, what the layers so far say, what the instance says. -/
def effectiveParameters (spec : DeploymentSpec) (inst : Instance) : SortedMap String String :=
  let defaults := SortedMap.ofList ((spec.blocks.get? inst.block).toList.flatMap parameterDefaults)
  let layered := defaults.insertAll inst.parameters.entries
  match spec.instances.find? fun candidate => candidate.name = inst.name with
  | some authored => layered.insertAll authored.parameters.entries
  | none => layered

/-- `target_is_controlled`: a target below `/runtime`, a volume or a source mount. -/
def targetIsControlled (spec : DeploymentSpec) (inst : Instance) (target : PathBuf) : Bool :=
  let roots : List PathBuf := ⟨"/runtime"⟩ :: (spec.blocks.get? inst.block).toList.flatMap fun block =>
    block.services.values.flatMap fun service =>
      service.volumes.map (·.target) ++ [service.execution.runtime.sourceMount]
  target.isAbsolute && !target.components.contains .parentDir &&
    roots.any fun root => target.startsWith root && !(target == root)

/-- The value of a template's variable. -/
def templateValue (overlay : Overlay) (inst deployment : String) (parameters : SortedMap String String)
    (name : String) : Option String :=
  if name = "instance.name" then some inst
  else if name = "deployment.name" then some deployment
  else
    match Text.afterStart "overlay.variables." name with
    | some key => overlay.vars.get? key
    | none => (Text.afterStart "parameters." name).bind parameters.get?

/-- `render_template`: the text with its variables replaced, or the variable that has no
value. Every variable shortens the text, so its length is fuel enough. -/
def renderTemplate (value : String → Option String) : ℕ → List Char → Except String (List Char)
  | 0, text => .ok text
  | fuel + 1, text =>
    match nextVariable text with
    | none => .ok text
    | some (_, rest, none) => .error (String.ofList rest)
    | some (before, name, some after) =>
      match value (String.ofList name) with
      | none => .error (String.ofList name)
      | some replacement => do
        let rest ← renderTemplate value fuel after
        return before ++ replacement.toList ++ rest

/-- The text of a file before it is rendered; a file with neither source nor content, or
with both, is passed over. -/
def rawContent (platform : Platform) (overlay : Overlay) (file : OverlayFile) : Except Diagnostic (Option String) :=
  match file.source, file.content with
  | some (.path path), none =>
    match platform.readFile (overlayPath overlay path) with
    | .ok value => .ok (some value)
    | .error error => .error ⟨.invalidPath, (overlayPath overlay path).text, error⟩
  | none, some content => .ok (some content)
  | _, _ => .ok none

/-- The text of a file as it is injected. -/
def renderedContent (document : Document) (overlay : Overlay) (inst : Instance) (file : OverlayFile) (index : ℕ)
    (raw : String) : Except Diagnostic String :=
  if file.template then
    match renderTemplate (templateValue overlay inst.name document.metadata.name
        (effectiveParameters document.spec inst)) (raw.toList.length + 1) raw.toList with
    | .ok content => .ok (String.ofList content)
    | .error name => .error ⟨.missingVariable, s!"spec.files[{index}]", s!"unknown template variable `{name}`"⟩
  else .ok raw

/-- The plan of an injected file. -/
def injectedFile (platform : Platform) (layer : String) (inst : Instance) (file : OverlayFile) (content : String) :
    InjectedFilePlan :=
  let hash := hexDigest (platform.sha256 content)
  let filename := (file.target.fileName).getD "injected"
  { inst := inst.name
    target := file.target
    mode := (parseMode file.mode).getD 420
    contentHash := hash
    relativePath := (((⟨"overlays"⟩ : PathBuf).join ⟨inst.name⟩).join ⟨hash⟩).join ⟨filename⟩
    origin := layer
    content := content }

/-- One file of `resolve_files`. -/
def resolveFile (platform : Platform) (document : Document) (overlay : Overlay) (layer : String) (inst : Instance)
    (r : Resolving) (entry : OverlayFile × ℕ) : Resolving :=
  let (file, index) := entry
  let fail (d : Diagnostic) : Resolving := { r with errors := r.errors ++ [d] }
  let known := r.files.findIdx? fun planned => planned.inst = inst.name && planned.target == file.target
  if known.isSome && !(file.replace || overlay.replace) then
    fail ⟨.overlayConflict, s!"spec.files[{index}].target",
      s!"file target `{file.target.text}` for `{inst.name}` requires replace: true"⟩
  else if !targetIsControlled document.spec inst file.target then
    fail ⟨.invalidPath, s!"spec.files[{index}].target",
      s!"target `{file.target.text}` is outside controlled container mount roots"⟩
  else
    match rawContent platform overlay file with
    | .error d => fail d
    | .ok none => r
    | .ok (some raw) =>
      match renderedContent document overlay inst file index raw with
      | .error d => fail d
      | .ok content =>
        let planned := injectedFile platform layer inst file content
        let r := r.trace inst.name "file" file.target.text planned.contentHash layer
        match known with
        | some position => { r with files := r.files.set position planned }
        | none => { r with files := r.files ++ [planned] }

/-- `matching_instances`. -/
def matchingInstances (document : Document) (overlay : Overlay) : List String :=
  if overlay.selectors.deploymentLabels.entries.all fun (key, value) => document.metadata.labels.get? key = some value then
    (document.spec.instances.filter fun inst =>
      (overlay.selectors.instanceNames.isEmpty || overlay.selectors.instanceNames.contains inst.name) &&
        overlay.selectors.instanceLabels.entries.all fun (key, value) => inst.labels.get? key = some value).map (·.name)
  else []

/-- `overlay_layer`. -/
def overlayLayer (overlay : Overlay) : String :=
  if overlay.sourcePath.text = "" then s!"overlay {overlay.name}" else overlay.sourcePath.text

/-- An overlay applied to one instance it matches. -/
def applyOverlay (platform : Platform) (document : Document) (overlay : Overlay) (r : Resolving) (target : String) :
    Resolving :=
  let layer := overlayLayer overlay
  let loaded := loadEnvFiles platform overlay
  let r := { r with errors := r.errors ++ loaded.2 }
  let r := loaded.1.entries.foldl (fun r (key, value) => r.setLiteral target key value layer) r
  let r := overlay.environment.unset.foldl (fun r key => r.unset target layer key) r
  let r := overlay.environment.set.entries.foldl (fun r (key, value) => r.setValue target layer key value) r
  let r := overlay.parameters.entries.foldl (fun r (key, value) => r.setParameter target layer key value) r
  match r.instances.find? fun inst => inst.name = target with
  | none => r
  | some inst => overlay.files.zipIdx.foldl (resolveFile platform document overlay layer inst) r

/-- One overlay of `resolve`. -/
def resolveOverlay (platform : Platform) (document : Document) (r : Resolving) (overlay : Overlay) : Resolving :=
  let r := { r with errors := r.errors ++ overlayErrors platform overlay }
  let matched := matchingInstances document overlay
  if matched.isEmpty && !overlay.selectors.optional then
    { r with errors := r.errors ++ [⟨.selectorNoMatch, "spec.selectors",
        s!"required selector in `{overlayLayer overlay}` matched no deployment instances"⟩] }
  else matched.foldl (applyOverlay platform document overlay) r

/-- The traces of a block's defaults for an instance. -/
def traceDefaults (spec : DeploymentSpec) (r : Resolving) (inst : Instance) : Resolving :=
  match spec.blocks.get? inst.block with
  | none => r
  | some block =>
    let r := (parameterDefaults block).foldl (fun r (key, value) =>
      r.trace inst.name "parameter" key value s!"block default {inst.block}") r
    block.services.entries.foldl (fun r (service, definition) =>
      definition.execution.runtime.environment.entries.foldl (fun r (key, value) =>
        r.trace inst.name "environment" key value s!"block default {inst.block}/{service}") r) r

/-- What the deployment's instance says, and then the command line, at one position. -/
def applyAuthored (document : Document) (options : OverlayOptions) (r : Resolving) (index : ℕ) : Resolving :=
  match r.instances[index]? with
  | none => r
  | some inst =>
    let layer := s!"deployment instance {inst.name}"
    -- values are looked up by name: of two instances of a name the last one counts
    let authored := document.spec.instances.reverse.find? fun candidate => candidate.name = inst.name
    let change (r : Resolving) (f : Instance → Instance) : Resolving :=
      { r with instances := r.instances.modify index f }
    let setEnvironment (layer : String) (r : Resolving) (entry : String × String) : Resolving :=
      let r := change (r.trace inst.name "environment" entry.1 entry.2 layer) fun i => i.setEnvironment entry.1 entry.2
      { r with secrets := r.secrets.erase (toLex (inst.name, entry.1)) }
    let r := (authored.toList.flatMap fun a => a.parameters.entries).foldl (fun r (key, value) =>
      change (r.trace inst.name "parameter" key value layer) fun i =>
        { i with parameters := i.parameters.insert key value }) r
    let r := (authored.toList.flatMap fun a => a.environment.entries).foldl (setEnvironment layer) r
    options.set.entries.foldl (fun r entry =>
      if validEnvironmentName entry.1 then setEnvironment "ephemeral CLI --set" r entry
      else { r with errors := r.errors ++ [⟨.invalidOverlay, "--set", s!"invalid environment key `{entry.1}`"⟩] }) r

/-- The name of a variation: the deployment's, then the variation's; or what is wrong with it. -/
def variationName (name : String) : Option String → Except Diagnostic String
  | none => .ok name
  | some variation =>
    if variation = "" || !variation.toList.all fun c => Text.isAsciiLower c || Text.isAsciiDigit c || c = '-' then
      .error ⟨.invalidName, "--variation", "variation must be a lowercase DNS label"⟩
    else .ok s!"{name}--{variation}"

/-- The mode of a file as it is shown: four octal digits. -/
def modeText (mode : ℕ) : String :=
  let digits := Nat.toDigits 8 mode
  String.ofList ('0' :: (List.replicate (3 - digits.length) '0' ++ digits))

/-- What a resolved document says about an injected file. -/
def resolvedOverlayFile (file : InjectedFilePlan) : ResolvedOverlayFile :=
  ⟨file.target, file.contentHash, modeText file.mode, file.origin⟩

/-- The injected files by instance. -/
def resolvedOverlayFiles (files : List InjectedFilePlan) : SortedMap String (List ResolvedOverlayFile) :=
  files.foldl (fun m file =>
    m.insert file.inst ((m.get? file.inst).getD [] ++ [resolvedOverlayFile file])) ∅

/-- The document the layers are folded into, its instances without values of their own. -/
def strippedInstance (inst : Instance) : Instance :=
  { inst with parameters := ∅, environment := ∅, environmentUnset := [] }

/-- The folds of `resolve`. -/
def foldLayers (platform : Platform) (document : Document) (overlays : List Overlay) (options : OverlayOptions) :
    Resolving :=
  let r : Resolving := ⟨document.spec.instances.map strippedInstance, [], ∅, ∅, []⟩
  let r := document.spec.instances.foldl (traceDefaults document.spec) r
  let r := overlays.foldl (resolveOverlay platform document) r
  (List.range document.spec.instances.length).foldl (applyAuthored document options) r

/-- The document with its layers folded in. -/
def foldedDocument (document : Document) (name : String) (r : Resolving) : Document where
  apiVersion := document.apiVersion
  kind := document.kind
  metadata := { document.metadata with name := name }
  spec := { document.spec with
    overlays := []
    resolvedOverlayFiles := resolvedOverlayFiles r.files
    instances := r.instances
    hostRouter := document.spec.hostRouter.map fun router => { router with metadata := ⟨name⟩ } }

/-- `resolve`. The host router of the document is renamed with it only by a variation. -/
def resolve (platform : Platform) (document : Document) (overlays : List Overlay) (options : OverlayOptions) :
    Except (List Diagnostic) (Document × OverlayResolution) :=
  let r := foldLayers platform document overlays options
  match variationName document.metadata.name options.variation with
  | .error d => .error (r.errors ++ [d])
  | .ok name =>
    if !r.errors.isEmpty then .error r.errors
    else
      let folded := foldedDocument document name r
      let folded := if options.variation.isSome then folded
        else { folded with spec := { folded.spec with hostRouter := document.spec.hostRouter } }
      .ok (folded, ⟨r.traces.values.filter fun trace => trace.value ≠ "«unset»", r.files, r.secrets⟩)

end Apmpr.Planner
