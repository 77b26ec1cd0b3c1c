import Apmpr.Planner.Encoding
import Apmpr.Planner.Replan
import Mathlib.Data.List.Pairwise

/-!
# Portable bundles

The crate `apmpr-planner`'s `bundle.rs`: a deployment and its overlays are exported to one
JSON document that another machine imports. What is local to the machine — source
directories, env files, files to inject, and values of keys that look like credentials — is
replaced by inputs the receiver is to provide. An imported document must have the hash it
says, and must not have paths of the machine it came from.

## What is proved

* `export_keeps_iff`: an export keeps every overlay and every local input apart exactly where
  neither the names of the overlays nor the slugs of the paths coincide.
* `import_accepts_iff`: an exported bundle is imported, as it was exported, exactly where no
  clone, no name of a source and no target of an injected file is state of the machine.
-/

namespace Apmpr.Planner

/-! ### Portable bundles -/

/-- `RequiredLocalInputKind`. -/
inductive RequiredLocalInputKind where
  | sourceDirectory
  | file
  | dotenvFile
  | environmentValue
  | parameterValue
  deriving DecidableEq

/-- `RequiredLocalInput`. -/
structure RequiredLocalInput where
  name : String
  kind : RequiredLocalInputKind
  expectedShape : String
  description : String
  scaffoldPaths : List PathBuf
  deriving DecidableEq

/-- `PortableBundleMetadata`. -/
structure PortableBundleMetadata where
  deploymentName : String
  createdAt : String
  sourceToolVersion : String
  deriving DecidableEq

/-- `PortableBundle`. -/
structure PortableBundle where
  apiVersion : String
  metadata : PortableBundleMetadata
  deployment : Document
  overlays : SortedMap String Encoding.UnplacedOverlay
  requiredLocalInputs : List RequiredLocalInput
  contentHash : String

/-- `BundleWarningCode`. -/
inductive BundleWarningCode where
  | credentialLikeKey
  | localPathReplaced
  deriving DecidableEq

/-- `BundleWarning`. -/
structure BundleWarning where
  code : BundleWarningCode
  path : String
  message : String
  deriving DecidableEq

/-- `BundleErrorCode`, less that of a file that cannot be read. -/
inductive BundleErrorCode where
  | bundleInvalidJson
  | bundleUnsupportedApiVersion
  | bundleHashMismatch
  | bundleWriteConflict
  | bundleWriteFailed
  | bundleValidationFailed
  deriving DecidableEq

/-- `BundleError`. -/
structure BundleError where
  code : BundleErrorCode
  path : String
  message : String
  deriving DecidableEq

/-- `PORTABLE_BUNDLE_API_VERSION`. -/
def PORTABLE_BUNDLE_API_VERSION : String := "apmpr.dev/bundle/v1alpha1"

namespace Encoding

open Codec Fields

/-- `RequiredLocalInputKind`. -/
def requiredLocalInputKind : Codec RequiredLocalInputKind :=
  enum [.sourceDirectory, .file, .dotenvFile, .environmentValue, .parameterValue]
    (fun
      | .sourceDirectory => "source-directory"
      | .file => "file"
      | .dotenvFile => "dotenv-file"
      | .environmentValue => "environment-value"
      | .parameterValue => "parameter-value")
    fun k => by cases k <;> decide

/-- `RequiredLocalInput`. -/
def requiredLocalInput : Codec RequiredLocalInput :=
  (((required "name" string).and ((required "kind" requiredLocalInputKind).and ((required "expectedShape" string).and
    ((required "description" string).and (nonemptyItems "scaffoldPaths" path))))).imap
    (fun (name, kind, expectedShape, description, scaffoldPaths) =>
      RequiredLocalInput.mk name kind expectedShape description scaffoldPaths)
    (fun i => (i.name, i.kind, i.expectedShape, i.description, i.scaffoldPaths)) fun _ => rfl).object

/-- `PortableBundleMetadata`. -/
def portableBundleMetadata : Codec PortableBundleMetadata :=
  (((required "deploymentName" string).and ((required "createdAt" string).and (required "sourceToolVersion" string))).imap
    (fun (deploymentName, createdAt, sourceToolVersion) =>
      PortableBundleMetadata.mk deploymentName createdAt sourceToolVersion)
    (fun m => (m.deploymentName, m.createdAt, m.sourceToolVersion)) fun _ => rfl).object

/-- `PortableBundle`. -/
def portableBundle : Codec PortableBundle :=
  (((required "apiVersion" string).and ((required "metadata" portableBundleMetadata).and
    ((required "deployment" document).and ((nonemptyMap "overlays" overlay).and
      ((nonemptyItems "requiredLocalInputs" requiredLocalInput).and (required "contentHash" string)))))).imap
    (fun (apiVersion, metadata, deployment, overlays, inputs, contentHash) =>
      PortableBundle.mk apiVersion metadata deployment overlays inputs contentHash)
    (fun b => (b.apiVersion, b.metadata, b.deployment, b.overlays, b.requiredLocalInputs, b.contentHash))
    fun _ => rfl).object

end Encoding

/-- `HashPayload`: what the hash is taken of. Here nothing is left out. -/
def hashPayload (bundle : PortableBundle) : Json :=
  .object [("apiVersion", .string bundle.apiVersion),
    ("metadata", Encoding.portableBundleMetadata.encode bundle.metadata),
    ("deployment", Encoding.document.encode bundle.deployment),
    ("overlays", Encoding.overlay.map.encode bundle.overlays),
    ("requiredLocalInputs", Encoding.requiredLocalInput.list.encode bundle.requiredLocalInputs)]

/-- `content_hash`. -/
def contentHash (platform : Platform) (bundle : PortableBundle) : String :=
  hexDigest (platform.sha256 (hashPayload bundle).render)

/-! ### Sanitising -/

/-- The lower-case form of an ASCII letter or digit, and a dash for any other character. -/
def slugChar (c : Char) : Char := if Text.isAsciiAlphanumeric c then Text.asciiLowerChar c else '-'

/-- The words of a text: its runs of ASCII letters and digits, in lower case. -/
def slugWords (value : String) : List String :=
  (Text.split '-' (String.ofList (value.toList.map slugChar))).filter (· ≠ "")

/-- `slug`. -/
def slug (platform : Platform) (value : String) : String :=
  let slug := "-".intercalate (slugWords value)
  if slug = "" then "input"
  else if 48 < slug.toList.length then
    String.ofList (slug.toList.take 39) ++ "-" ++ String.ofList ((hexDigest (platform.sha256 value)).toList.take 8)
  else slug

/-- The upper-case form of an ASCII letter; other characters stay. -/
def asciiUpperChar (c : Char) : Char := if Text.isAsciiLower c then Char.ofNat (c.toNat - 32) else c

/-- `credential_like_key`. -/
def credentialLikeKey (key : String) : Bool :=
  let upper := String.ofList (key.toList.map asciiUpperChar)
  Text.contains upper "PASSWORD" || Text.contains upper "PASSWD" || Text.contains upper "SECRET" ||
    Text.contains upper "TOKEN" || Text.contains upper "CREDENTIAL" || Text.contains upper "API_KEY" ||
    Text.endsWith upper "_KEY" || Text.contains upper "PRIVATE_KEY" || Text.contains upper "AUTH"

/-- `input_prefix`. -/
def inputPrefix : RequiredLocalInputKind → String
  | .sourceDirectory => "source"
  | .file => "file"
  | .dotenvFile => "dotenv"
  | .environmentValue => "env"
  | .parameterValue => "parameter"

/-- The text that stands for the value of an input. -/
def inputText (name : String) : String := "$\x7b" ++ name ++ "\x7d"

/-- What sanitising finds, in order: the inputs it requires and the warnings it gives. -/
structure Findings where
  inputs : List RequiredLocalInput
  warnings : List BundleWarning

namespace Findings

/-- Nothing. -/
def none : Findings := ⟨[], []⟩

/-- What is found one after the other. -/
def join (l : List Findings) : Findings := ⟨l.flatMap (·.inputs), l.flatMap (·.warnings)⟩

end Findings

section Sanitizer

variable (platform : Platform)

/-- The name of the input for a key. -/
def keyInput (kind : RequiredLocalInputKind) (key : String) : String := s!"{inputPrefix kind}-{slug platform key}"

/-- `sanitize_string_map`: the values. -/
def sanitizedMap (kind : RequiredLocalInputKind) (values : SortedMap String String) : SortedMap String String :=
  values.mapValues fun key value => if credentialLikeKey key then inputText (keyInput platform kind key) else value

/-- `sanitize_string_map`: what it finds. -/
def mapFindings (path : String) (kind : RequiredLocalInputKind) (values : SortedMap String String) : Findings :=
  let keys := values.keys.filter credentialLikeKey
  ⟨keys.map fun key => ⟨keyInput platform kind key, kind, "non-empty local value",
      s!"Local value for credential-looking key `{key}`", []⟩,
    keys.map fun key => ⟨.credentialLikeKey, s!"{path}.{key}",
      s!"credential-looking key `{key}` was replaced by required local input `{keyInput platform kind key}`"⟩⟩

/-- The execution with another environment. -/
def Execution.withEnvironment (f : SortedMap String String → SortedMap String String) : Execution → Execution
  | .container image build command runtime =>
    .container image build command { runtime with environment := f runtime.environment }
  | .script image command lifecycle runtime =>
    .script image command lifecycle { runtime with environment := f runtime.environment }
  | .processCompose image file runtime => .processCompose image file { runtime with environment := f runtime.environment }

/-- The directory that stands for a source. -/
def sourceInput (name : String) : PathBuf := (⟨"required-local-inputs"⟩ : PathBuf).join ⟨s!"source-{name}"⟩

/-- What a source must have for the blocks that are run from it. -/
def scaffoldPaths (spec : DeploymentSpec) (source : String) : List PathBuf :=
  let blocks := (SortedMap.ofList ((spec.instances.filter fun inst => inst.source = source).map
    fun inst => (inst.block, ()))).keys
  blocks.flatMap fun name => (spec.blocks.get? name).toList.flatMap fun block =>
    block.services.values.filterMap fun service => (neededPath service.execution).map Prod.fst

/-- `sanitize_deployment`: the document. -/
def sanitizedDeployment (document : Document) : Document :=
  let spec := document.spec
  document.withSpec { spec with
    sources := spec.sources.mapValues fun name source => { source with path := sourceInput name }
    blocks := spec.blocks.mapValues fun _ block => { block with
      services := block.services.mapValues fun _ service => { service with
        execution := service.execution.withEnvironment (sanitizedMap platform .environmentValue) } }
    instances := spec.instances.map fun inst => { inst with
      environment := sanitizedMap platform .environmentValue inst.environment
      parameters := sanitizedMap platform .parameterValue inst.parameters } }

/-- What is found about one source. -/
def sourceFindings (spec : DeploymentSpec) (name : String) : Findings :=
  ⟨[⟨s!"source-{name}", .sourceDirectory, "directory containing the source tree expected by referenced blocks",
      s!"Local source directory for deployment source `{name}`", scaffoldPaths spec name⟩],
    [⟨.localPathReplaced, s!"spec.sources.{name}.path",
      s!"source path was replaced by required local input `source-{name}`"⟩]⟩

/-- `sanitize_deployment`: what it finds. -/
def deploymentFindings (spec : DeploymentSpec) : Findings :=
  .join (spec.sources.keys.map (sourceFindings spec) ++
    (spec.blocks.entries.flatMap fun (block, definition) => definition.services.entries.map fun (service, s) =>
      mapFindings platform s!"spec.blocks.{block}.services.{service}.execution.environment" .environmentValue
        s.execution.runtime.environment) ++
    spec.instances.zipIdx.flatMap fun (inst, index) =>
      [mapFindings platform s!"spec.instances[{index}].environment" .environmentValue inst.environment,
        mapFindings platform s!"spec.instances[{index}].parameters" .parameterValue inst.parameters])

/-- The path that stands for a local file of an overlay. -/
def localInput (kind : RequiredLocalInputKind) (path : PathBuf) : PathBuf :=
  (⟨"../required-local-inputs"⟩ : PathBuf).join ⟨keyInput platform kind path.text⟩

/-- The value of a key of an overlay: a text of a key that looks like a credential is replaced. -/
def sanitizedValue (key : String) : OverlayValue → OverlayValue
  | .literal value =>
    .literal (if credentialLikeKey key then inputText (keyInput platform .environmentValue key) else value)
  | .secret reference => .secret reference

/-- A file of an overlay, its source replaced. -/
def sanitizedFile (file : OverlayFile) : OverlayFile :=
  match file.source with
  | some (.path path) => { file with source := some (.path (localInput platform .file path)) }
  | _ => file

/-- `sanitize_overlay`: the overlay, without the path it was loaded from. -/
def sanitizedOverlay (overlay : Overlay) : Encoding.UnplacedOverlay :=
  ⟨{ overlay with
      environment := { overlay.environment with
        envFiles := overlay.environment.envFiles.map (localInput platform .dotenvFile)
        set := overlay.environment.set.mapValues (sanitizedValue platform) }
      parameters := sanitizedMap platform .parameterValue overlay.parameters
      files := overlay.files.map (sanitizedFile platform)
      sourcePath := ⟨""⟩ }, rfl⟩

/-- The local sources of an overlay's files, with their places. -/
def fileSources (overlay : Overlay) : List (PathBuf × ℕ) :=
  overlay.files.zipIdx.filterMap fun (file, index) =>
    match file.source with
    | some (.path path) => some (path, index)
    | _ => none

/-- `sanitize_overlay`: what it finds. -/
def overlayFindings (overlay : Overlay) : Findings :=
  .join [⟨overlay.environment.envFiles.map fun path => ⟨keyInput platform .dotenvFile path.text, .dotenvFile,
        "dotenv file with KEY=VALUE lines", s!"Local dotenv file for overlay `{overlay.name}`", []⟩, []⟩,
    .join ((overlay.environment.set.entries.filter fun entry => credentialLikeKey entry.1).map fun (key, value) =>
      ⟨match value with
        | .literal _ => [⟨keyInput platform .environmentValue key, .environmentValue, "non-empty local environment value",
            s!"Local value for credential-looking overlay key `{key}`", []⟩]
        | .secret _ => [],
        [⟨.credentialLikeKey, s!"overlay.{overlay.name}.spec.environment.set.{key}",
          s!"credential-looking key `{key}` needs receiver review"⟩]⟩),
    mapFindings platform s!"overlay.{overlay.name}.spec.parameters" .parameterValue overlay.parameters,
    ⟨(fileSources overlay).map fun (path, index) => ⟨keyInput platform .file path.text, .file,
        "regular file readable by the overlay file injector",
        s!"Local file source for overlay `{overlay.name}` file #{index}", []⟩, []⟩]

end Sanitizer

/-- `require`: of two inputs of one name the first is kept, with the paths of both. -/
def requireInput (required : SortedMap String RequiredLocalInput) (input : RequiredLocalInput) :
    SortedMap String RequiredLocalInput :=
  match required.get? input.name with
  | none => required.insert input.name input
  | some existing =>
    required.insert input.name { existing with scaffoldPaths := existing.scaffoldPaths ++ input.scaffoldPaths }

/-- The place of a component among others. -/
def componentRank : PathBuf.Component → ℕ
  | .rootDir => 0
  | .curDir => 1
  | .parentDir => 2
  | .normal _ => 3

/-- The order of paths: component by component. -/
def componentsLE : List PathBuf.Component → List PathBuf.Component → Bool
  | [], _ => true
  | _ :: _, [] => false
  | a :: l, b :: r =>
    if a = b then componentsLE l r
    else componentRank a < componentRank b || (componentRank a = componentRank b && a.text < b.text)

/-- Neighbours that are the same path kept once. -/
def dedupPaths : List PathBuf → List PathBuf
  | [] => []
  | path :: rest =>
    match dedupPaths rest with
    | [] => [path]
    | next :: others => if path == next then path :: others else path :: next :: others

/-- An input with its paths in order. -/
def sortedInput (input : RequiredLocalInput) : RequiredLocalInput :=
  { input with scaffoldPaths :=
      dedupPaths (input.scaffoldPaths.mergeSort fun p q => componentsLE p.components q.components) }

/-! ### Exporting -/

/-- `ExportBundleResult`. -/
structure ExportBundleResult where
  bundle : PortableBundle
  warnings : List BundleWarning

/-- The overlays of a deployment and of the command line, loaded. -/
def exportedOverlays (host : Host) (bundle : Bundle) (overlays : List PathBuf) : Except String (List Overlay) :=
  (overlayPaths bundle ⟨overlays, none, ∅⟩).mapM fun entry => host.loadOverlay (overlayFile host.toPlatform bundle entry)

/-- The path an exported overlay is to be written to. -/
def importedPath (overlay : Overlay) : PathBuf := ⟨s!"overlays/{overlay.name}.yaml"⟩

/-- A list without what is the same as an item before. -/
def keepFirst {α : Type} (same : α → α → Bool) (l : List α) : List α :=
  l.foldl (fun kept x => if kept.any fun y => same y x then kept else kept ++ [x]) []

/-- `export_portable_bundle`, from the deployment as it was loaded. -/
def exportPortableBundle (host : Host) (bundle : Bundle) (overlays : List PathBuf) :
    Except String ExportBundleResult := do
  let platform := host.toPlatform
  let loaded ← exportedOverlays host bundle overlays
  let findings := Findings.join (deploymentFindings platform bundle.document.spec :: loaded.map (overlayFindings platform))
  let deployment := sanitizedDeployment platform bundle.document
  let exported : PortableBundle := {
    apiVersion := PORTABLE_BUNDLE_API_VERSION
    metadata := ⟨deployment.metadata.name, "1970-01-01T00:00:00Z", "0.1.0"⟩
    deployment := deployment.withSpec { deployment.spec with
      overlays := keepFirst (· == ·) (loaded.map importedPath) }
    overlays := .ofList (loaded.map fun overlay => (overlay.name, sanitizedOverlay platform overlay))
    -- the inputs are in the order of their names, which are all different
    requiredLocalInputs := (findings.inputs.foldl requireInput ∅).values.map sortedInput
    contentHash := "" }
  return ⟨{ exported with contentHash := contentHash platform exported }, findings.warnings⟩

/-! ### Importing -/

/-- `path_is_machine_state`. -/
def pathIsMachineState (path : PathBuf) : Bool := path.isAbsolute || hasComponent path ".apmpr"

/-- What of an overlay is state of a machine, by its field. -/
def overlayMachineState (name : String) (overlay : Overlay) : List String :=
  (overlay.environment.envFiles.zipIdx.filter fun (path, _) => pathIsMachineState path).map
      (fun (_, index) => s!"overlays.{name}.spec.environment.envFiles[{index}]") ++
    overlay.files.zipIdx.flatMap fun (file, index) =>
      (match file.source with
        | some (.path path) => if pathIsMachineState path then [s!"overlays.{name}.spec.files[{index}].source"] else []
        | _ => []) ++
      if hasComponent file.target ".apmpr" then [s!"overlays.{name}.spec.files[{index}].target"] else []

/-- What of a bundle is state of a machine, in the order it is looked for. -/
def machineState (bundle : PortableBundle) : List String :=
  let spec := bundle.deployment.spec
  (spec.sources.entries.filter fun (_, source) => pathIsMachineState source.path).map
      (fun (name, _) => s!"deployment.spec.sources.{name}.path") ++
    (spec.repositories.entries.filter fun (_, repository) => repository.clone.any pathIsMachineState).map
      (fun (name, _) => s!"deployment.spec.repositories.{name}.clone") ++
    bundle.overlays.entries.flatMap fun (name, overlay) => overlayMachineState name overlay.1

/-- `verify_portable_bundle`, with `reject_machine_state`. -/
def verifyPortableBundle (platform : Platform) (bundle : PortableBundle) : Except BundleError PortableBundle :=
  if bundle.apiVersion ≠ PORTABLE_BUNDLE_API_VERSION then
    .error ⟨.bundleUnsupportedApiVersion, "apiVersion", s!"expected {PORTABLE_BUNDLE_API_VERSION}"⟩
  else if contentHash platform bundle ≠ bundle.contentHash then
    let expected := contentHash platform bundle
    .error ⟨.bundleHashMismatch, "contentHash", s!"expected {expected}, found {bundle.contentHash}"⟩
  else
    match machineState bundle with
    | path :: _ =>
      .error ⟨.bundleValidationFailed, path, "portable bundles must not contain absolute host paths or .apmpr state"⟩
    | [] => .ok bundle

/-- `write_portable_bundle`: the JSON that is in the file. -/
def writePortableBundle (bundle : PortableBundle) : Json := Encoding.portableBundle.encode bundle

/-- `parse_portable_bundle`, from the JSON in the file; the message is that of the first field
that does not fit. -/
def parsePortableBundle (platform : Platform) (input : Json) : Except BundleError PortableBundle :=
  match Encoding.portableBundle.decode input with
  | none => .error ⟨.bundleInvalidJson, "$", platform.schemaMessage "bundle"⟩
  | some bundle => verifyPortableBundle platform bundle

/-! ### What is kept apart -/

section KeepFirst

variable {α β : Type} {same : α → α → Bool} {same' : β → β → Bool}

theorem keepFirst_concat (l : List α) (x : α) :
    keepFirst same (l ++ [x]) =
      if (keepFirst same l).any fun y => same y x then keepFirst same l else keepFirst same l ++ [x] := by
  simp [keepFirst, List.foldl_append]

theorem mem_of_mem_keepFirst {l : List α} {x : α} (h : x ∈ keepFirst same l) : x ∈ l := by
  induction l using List.reverseRecOn with
  | nil => exact h
  | append_singleton l y ih =>
    rw [keepFirst_concat] at h
    split_ifs at h
    · exact List.mem_append_left _ (ih h)
    · rcases List.mem_append.mp h with h | h
      · exact List.mem_append_left _ (ih h)
      · exact List.mem_append_right _ h

/-- What is not kept is the same as something that is. -/
theorem exists_mem_keepFirst (hrefl : ∀ x, same x x = true) {l : List α} {x : α} (h : x ∈ l) :
    ∃ y ∈ keepFirst same l, same y x = true := by
  induction l using List.reverseRecOn with
  | nil => cases h
  | append_singleton l z ih =>
    rw [keepFirst_concat]
    rcases List.mem_append.mp h with h | h
    · obtain ⟨y, hy, hsame⟩ := ih h
      split_ifs
      · exact ⟨y, hy, hsame⟩
      · exact ⟨y, List.mem_append_left _ hy, hsame⟩
    · obtain rfl := List.mem_singleton.mp h
      split_ifs with hany
      · exact List.any_eq_true.mp hany
      · exact ⟨x, List.mem_append_right _ (List.mem_singleton_self x), hrefl x⟩

theorem pairwise_keepFirst (l : List α) : (keepFirst same l).Pairwise fun a b => same a b = false := by
  induction l using List.reverseRecOn with
  | nil => exact List.Pairwise.nil
  | append_singleton l x ih =>
    rw [keepFirst_concat]
    split_ifs with hany
    · exact ih
    · refine List.pairwise_append.mpr ⟨ih, List.pairwise_singleton _ _, fun a ha b hb => ?_⟩
      obtain rfl := List.mem_singleton.mp hb
      simp only [List.any_eq_true, not_exists, not_and, Bool.not_eq_true] at hany
      exact hany a ha

/-- A function that keeps apart what is kept apart commutes with keeping the first. -/
theorem keepFirst_map {f : α → β} {l : List α} (h : ∀ a ∈ l, ∀ b ∈ l, same' (f a) (f b) = same a b) :
    keepFirst same' (l.map f) = (keepFirst same l).map f := by
  induction l using List.reverseRecOn with
  | nil => rfl
  | append_singleton l x ih =>
    have hl : ∀ a ∈ l, a ∈ l ++ [x] := fun a ha => List.mem_append_left _ ha
    have hx : x ∈ l ++ [x] := List.mem_append_right _ (List.mem_singleton_self x)
    have hany : ((keepFirst same l).map f).any (fun y => same' y (f x)) = (keepFirst same l).any fun y => same y x := by
      rw [List.any_map, Bool.eq_iff_iff, List.any_eq_true, List.any_eq_true]
      refine exists_congr fun y => and_congr_right fun hy => ?_
      rw [Function.comp, h y (hl y (mem_of_mem_keepFirst hy)) x hx]
    rw [List.map_append, List.map_singleton, keepFirst_concat, ih fun a ha b hb => h a (hl a ha) b (hl b hb), hany,
      keepFirst_concat]
    split_ifs
    · rfl
    · rw [List.map_append, List.map_singleton]

end KeepFirst

/-- Whether two loaded overlays are one: one file, with one content. -/
def sameOverlay (a b : Overlay) : Bool :=
  a.sourcePath == b.sourcePath && decide ({ a with sourcePath := b.sourcePath } = b)

/-- The env files of an overlay, each with the path it is replaced by. -/
def envFileInputs (platform : Platform) (overlay : Overlay) : List (PathBuf × PathBuf) :=
  overlay.environment.envFiles.zip (sanitizedOverlay platform overlay).1.environment.envFiles

/-- The local path of a file's source. -/
def localSource (file : OverlayFile) : Option PathBuf :=
  match file.source with
  | some (.path path) => some path
  | _ => none

/-- The local sources of an overlay's files, each with the path it is replaced by. -/
def fileInputs (platform : Platform) (overlay : Overlay) : List (PathBuf × PathBuf) :=
  (overlay.files.zip (sanitizedOverlay platform overlay).1.files).filterMap fun (file, sanitized) => do
    return (← localSource file, ← localSource sanitized)

/-- No two different local inputs are replaced by one path. -/
def DistinctInputs (inputs : List (PathBuf × PathBuf)) : Prop :=
  ∀ a ∈ inputs, ∀ b ∈ inputs, (a.1 == b.1) = false → (a.2 == b.2) = false

/-- An export loses and merges nothing. -/
structure KeepsAll (platform : Platform) (loaded : List Overlay) (bundle : PortableBundle) : Prop where
  /-- One overlay for each overlay that was loaded, in order. -/
  overlays : List.Forall₂ (fun path overlay => path = importedPath overlay ∧
    bundle.overlays.get? overlay.name = some (sanitizedOverlay platform overlay))
    bundle.deployment.spec.overlays (keepFirst sameOverlay loaded)
  /-- Different env files are different inputs. -/
  envFiles : DistinctInputs (loaded.flatMap (envFileInputs platform))
  /-- Different files are different inputs. -/
  files : DistinctInputs (loaded.flatMap (fileInputs platform))

/-- Neither the names of overlays nor the slugs of local paths coincide. -/
structure NamedApart (platform : Platform) (loaded : List Overlay) : Prop where
  /-- Different overlays have different paths made of their names. -/
  overlays : ∀ a ∈ loaded, ∀ b ∈ loaded, sameOverlay a b = false → (importedPath a == importedPath b) = false
  /-- Different env files have different slugs. -/
  envFiles : ∀ p ∈ loaded.flatMap (·.environment.envFiles), ∀ q ∈ loaded.flatMap (·.environment.envFiles),
    (p == q) = false → slug platform p.text ≠ slug platform q.text
  /-- Different local files have different slugs. -/
  files : ∀ p ∈ loaded.flatMap (·.files.filterMap localSource), ∀ q ∈ loaded.flatMap (·.files.filterMap localSource),
    (p == q) = false → slug platform p.text ≠ slug platform q.text

/-! ### Names of inputs -/

theorem isNameChar_slugChar (c : Char) : isNameChar (slugChar c) = true := by
  rw [slugChar]
  split_ifs with h
  · by_cases hupper : Text.isAsciiUpper c = true
    · have hall : ∀ n < 91, 65 ≤ n → isNameChar (Char.ofNat (n + 32)) = true := by decide
      simp only [Text.isAsciiUpper, Bool.and_eq_true, decide_eq_true_eq] at hupper
      rw [Text.asciiLowerChar, if_pos (by simpa [Text.isAsciiUpper] using hupper)]
      exact hall c.toNat (Nat.lt_succ_of_le hupper.2) hupper.1
    · rw [Text.asciiLowerChar, if_neg hupper]
      simp only [Text.isAsciiAlphanumeric, Bool.or_eq_true] at h
      simp only [isNameChar, Bool.or_eq_true]
      tauto
  · decide

theorem isNameChar_slugWords {value word : String} (h : word ∈ slugWords value) {c : Char} (hc : c ∈ word.toList) :
    isNameChar c = true := by
  rw [slugWords, Text.split] at h
  obtain ⟨part, hpart, rfl⟩ := List.mem_map.mp (List.mem_filter.mp h).1
  rw [String.toList_ofList] at hpart hc
  obtain ⟨a, -, rfl⟩ := List.mem_map.mp (Text.mem_of_mem_splitChars hpart hc)
  exact isNameChar_slugChar a

theorem isNameChar_intercalate {l : List String} (h : ∀ word ∈ l, ∀ c ∈ word.toList, isNameChar c = true) {c : Char}
    (hc : c ∈ ("-".intercalate l).toList) : isNameChar c = true := by
  induction l with
  | nil => cases hc
  | cons word rest ih =>
    cases rest with
    | nil => exact h word (List.mem_cons_self ..) c hc
    | cons next rest =>
      rw [String.intercalate_cons_cons, String.toList_append, String.toList_append, List.mem_append,
        List.mem_append] at hc
      rcases hc with (hc | hc) | hc
      · exact h word (List.mem_cons_self ..) c hc
      · obtain rfl := List.mem_singleton.mp hc
        rfl
      · exact ih (fun w hw => h w (List.mem_cons_of_mem _ hw)) hc

/-- A slug has only characters of names. -/
theorem isNameChar_slug (platform : Platform) {value : String} {c : Char} (hc : c ∈ (slug platform value).toList) :
    isNameChar c = true := by
  have hwords : ∀ c ∈ ("-".intercalate (slugWords value)).toList, isNameChar c = true := fun c hc =>
    isNameChar_intercalate (fun word hword c hc => isNameChar_slugWords hword hc) hc
  have hinput : ∀ c ∈ "input".toList, isNameChar c = true := List.all_eq_true.mp (by decide)
  unfold slug at hc
  dsimp only at hc
  split_ifs at hc
  · exact hinput c hc
  · simp only [String.toList_append, String.toList_ofList, List.mem_append] at hc
    rcases hc with (hc | hc) | hc
    · exact hwords c (List.mem_of_mem_take hc)
    · obtain rfl := List.mem_singleton.mp hc
      rfl
    · exact isNameChar_hexDigest (List.mem_of_mem_take hc)
  · exact hwords c hc

section Inputs

variable (platform : Platform)

theorem keyInput_eq (kind : RequiredLocalInputKind) (key : String) :
    keyInput platform kind key = inputPrefix kind ++ "-" ++ slug platform key := rfl

theorem isNameChar_keyInput (kind : RequiredLocalInputKind) (key : String) {c : Char}
    (hc : c ∈ (keyInput platform kind key).toList) : isNameChar c = true := by
  have hstart : ∀ c ∈ (inputPrefix kind ++ "-").toList, isNameChar c = true :=
    List.all_eq_true.mp (by cases kind <;> decide)
  rw [keyInput_eq, String.toList_append, List.mem_append] at hc
  rcases hc with hc | hc
  · exact hstart c hc
  · exact isNameChar_slug platform hc

/-- The name of an input is one component of a path. -/
theorem component_keyInput (kind : RequiredLocalInputKind) (key : String) :
    PathBuf.component (keyInput platform kind key) = some (.normal (keyInput platform kind key)) := by
  have hdash : '-' ∈ (keyInput platform kind key).toList := by
    rw [keyInput_eq, String.toList_append, String.toList_append]
    simp
  have hne : ∀ text : String, '-' ∉ text.toList → keyInput platform kind key ≠ text := fun text htext h =>
    htext (h ▸ hdash)
  rw [PathBuf.component, if_neg (by simp [hne]), if_neg (hne ".." (by decide))]

theorem components_localInput (kind : RequiredLocalInputKind) (path : PathBuf) :
    (localInput platform kind path).components =
      [.parentDir, .normal "required-local-inputs", .normal (keyInput platform kind path.text)] := by
  have hslash : '/' ∉ (keyInput platform kind path.text).toList := fun h =>
    absurd (isNameChar_keyInput platform kind path.text h) (by decide)
  rw [localInput, PathBuf.components_join_name (by decide) (by decide) hslash (component_keyInput platform kind path.text)]
  rfl

/-- Local paths are replaced by one path exactly if they have one slug. -/
theorem localInput_beq_iff (kind : RequiredLocalInputKind) (p q : PathBuf) :
    (localInput platform kind p == localInput platform kind q) = true ↔ slug platform p.text = slug platform q.text := by
  rw [PathBuf.beq_iff, components_localInput, components_localInput]
  simp only [List.cons.injEq, PathBuf.Component.normal.injEq, true_and, and_true, keyInput_eq]
  exact String.append_right_inj _

end Inputs

/-! ### What an export keeps -/

theorem sameOverlay_refl (overlay : Overlay) : sameOverlay overlay overlay = true := by
  simp [sameOverlay, PathBuf.beq_iff]

theorem sameOverlay_iff (a b : Overlay) :
    sameOverlay a b = true ↔ a.sourcePath.components = b.sourcePath.components ∧ { a with sourcePath := b.sourcePath } = b := by
  rw [sameOverlay, Bool.and_eq_true, PathBuf.beq_iff, decide_eq_true_eq]

/-- Overlays that are one have one name and are exported as one. -/
theorem name_of_sameOverlay {a b : Overlay} (h : sameOverlay a b = true) : a.name = b.name := by
  obtain ⟨-, h⟩ := (sameOverlay_iff a b).mp h
  rw [← h]

theorem sanitizedOverlay_of_same (platform : Platform) {a b : Overlay} (h : sameOverlay a b = true) :
    sanitizedOverlay platform a = sanitizedOverlay platform b := by
  obtain ⟨-, h⟩ := (sameOverlay_iff a b).mp h
  rw [← h]
  rfl

theorem sameOverlay_symm {a b : Overlay} (h : sameOverlay a b = true) : sameOverlay b a = true := by
  obtain ⟨hpath, h⟩ := (sameOverlay_iff a b).mp h
  refine (sameOverlay_iff b a).mpr ⟨hpath.symm, ?_⟩
  rw [← h]

theorem sameOverlay_trans {a b c : Overlay} (hab : sameOverlay a b = true) (hbc : sameOverlay b c = true) :
    sameOverlay a c = true := by
  obtain ⟨hpath, hab⟩ := (sameOverlay_iff a b).mp hab
  obtain ⟨hpath', hbc⟩ := (sameOverlay_iff b c).mp hbc
  refine (sameOverlay_iff a c).mpr ⟨hpath.trans hpath', ?_⟩
  rw [← hbc, ← hab]

theorem importedPath_beq_of_same {a b : Overlay} (h : sameOverlay a b = true) :
    (importedPath a == importedPath b) = true := by
  rw [PathBuf.beq_iff, importedPath, importedPath, name_of_sameOverlay h]

/-- The overlays of an export are those that were loaded, exactly if different ones have
different paths. -/
theorem overlays_kept_iff (platform : Platform) (loaded : List Overlay) :
    List.Forall₂ (fun path overlay => path = importedPath overlay ∧
        (SortedMap.ofList (loaded.map fun o => (o.name, sanitizedOverlay platform o))).get? overlay.name =
          some (sanitizedOverlay platform overlay))
        (keepFirst (· == ·) (loaded.map importedPath)) (keepFirst sameOverlay loaded) ↔
      ∀ a ∈ loaded, ∀ b ∈ loaded, sameOverlay a b = false → (importedPath a == importedPath b) = false := by
  constructor
  · intro h a ha b hb hdiff
    rw [Bool.eq_false_iff]
    intro hpath
    have hmap : keepFirst (· == ·) (loaded.map importedPath) = (keepFirst sameOverlay loaded).map importedPath :=
      List.forall₂_eq_eq_eq.symm ▸ (List.forall₂_map_right_iff.mpr (h.imp fun _ _ h => h.1))
    obtain ⟨a', ha', haa⟩ := exists_mem_keepFirst sameOverlay_refl ha
    obtain ⟨b', hb', hbb⟩ := exists_mem_keepFirst sameOverlay_refl hb
    -- what is kept for the two is different, so their paths stand at two places of the list
    have hne : a' ≠ b' := by
      rintro rfl
      rw [sameOverlay_trans (sameOverlay_symm haa) hbb] at hdiff
      cases hdiff
    have hpairs : (keepFirst (· == ·) (loaded.map importedPath)).Pairwise fun p q => (p == q) = false :=
      pairwise_keepFirst _
    rw [hmap, List.pairwise_map] at hpairs
    have hsymm : Std.Symm fun a b => (importedPath a == importedPath b) = false :=
      ⟨fun x y hxy => by rwa [Bool.eq_false_iff, ne_eq, PathBuf.beq_iff, eq_comm, ← PathBuf.beq_iff, ← ne_eq, ← Bool.eq_false_iff]⟩
    have happart := hpairs.forall ha' hb' hne
    rw [Bool.eq_false_iff, ne_eq, PathBuf.beq_iff, importedPath, importedPath, name_of_sameOverlay haa,
      name_of_sameOverlay hbb] at happart
    exact happart ((PathBuf.beq_iff _ _).mp hpath)
  · intro h
    have hbeq : ∀ a ∈ loaded, ∀ b ∈ loaded, (importedPath a == importedPath b) = sameOverlay a b := by
      intro a ha b hb
      cases hsame : sameOverlay a b with
      | true => exact importedPath_beq_of_same hsame
      | false => exact h a ha b hb hsame
    rw [keepFirst_map hbeq, List.forall₂_map_left_iff, List.forall₂_same]
    intro overlay hoverlay
    have hmem := mem_of_mem_keepFirst hoverlay
    refine ⟨rfl, SortedMap.get?_insertAll_of_mem (List.mem_map.mpr ⟨overlay, hmem, rfl⟩) ?_⟩
    intro y hy
    obtain ⟨other, hother, heq⟩ := List.mem_map.mp hy
    obtain ⟨hname, rfl⟩ := Prod.mk.inj heq
    have hpath : (importedPath other == importedPath overlay) = true := by
      rw [PathBuf.beq_iff, importedPath, importedPath, hname]
    exact sanitizedOverlay_of_same platform (hbeq other hother overlay hmem ▸ hpath)

/-- Inputs replaced by their slugs are kept apart exactly if the slugs are. -/
theorem distinctInputs_iff (platform : Platform) (kind : RequiredLocalInputKind) (paths : List PathBuf) :
    DistinctInputs (paths.map fun path => (path, localInput platform kind path)) ↔
      ∀ p ∈ paths, ∀ q ∈ paths, (p == q) = false → slug platform p.text ≠ slug platform q.text := by
  simp only [DistinctInputs, List.forall_mem_map, Bool.eq_false_iff (b := (localInput _ _ _ == localInput _ _ _)),
    ne_eq, localInput_beq_iff]

theorem envFileInputs_eq (platform : Platform) (overlay : Overlay) :
    envFileInputs platform overlay =
      overlay.environment.envFiles.map fun path => (path, localInput platform .dotenvFile path) := by
  exact (congrArg (List.zip · _) (List.map_id _).symm).trans List.zip_map'

theorem localSource_sanitizedFile (platform : Platform) (file : OverlayFile) :
    localSource (sanitizedFile platform file) = (localSource file).map (localInput platform .file) := by
  obtain ⟨source, content, target, mode, template, replace⟩ := file
  rcases source with _ | (path | reference) <;> rfl

theorem fileInputs_eq (platform : Platform) (overlay : Overlay) :
    fileInputs platform overlay =
      (overlay.files.filterMap localSource).map fun path => (path, localInput platform .file path) := by
  have hzip : overlay.files.zip (sanitizedOverlay platform overlay).1.files =
      overlay.files.map fun file => (file, sanitizedFile platform file) := by
    exact (congrArg (List.zip · _) (List.map_id _).symm).trans List.zip_map'
  rw [fileInputs, hzip, List.filterMap_map, List.map_filterMap]
  refine List.filterMap_congr fun file _ => ?_
  simp only [Function.comp, localSource_sanitizedFile]
  cases localSource file <;> rfl

/-- What an export gives, of the overlays that were loaded. -/
theorem exportPortableBundle_ok {host : Host} {bundle : Bundle} {overlays : List PathBuf} {result : ExportBundleResult}
    (h : exportPortableBundle host bundle overlays = .ok result) :
    ∃ loaded, exportedOverlays host bundle overlays = .ok loaded ∧
      result.bundle.apiVersion = PORTABLE_BUNDLE_API_VERSION ∧
      result.bundle.deployment = (sanitizedDeployment host.toPlatform bundle.document).withSpec
        { (sanitizedDeployment host.toPlatform bundle.document).spec with
          overlays := keepFirst (· == ·) (loaded.map importedPath) } ∧
      result.bundle.overlays = .ofList (loaded.map fun o => (o.name, sanitizedOverlay host.toPlatform o)) ∧
      result.bundle.contentHash = contentHash host.toPlatform result.bundle := by
  unfold exportPortableBundle at h
  cases hloaded : exportedOverlays host bundle overlays with
  | error message =>
    rw [hloaded] at h
    cases h
  | ok loaded =>
    rw [hloaded] at h
    obtain rfl := Except.ok.inj h
    exact ⟨loaded, rfl, rfl, rfl, rfl, rfl⟩

/-- An export loses and merges nothing exactly if the names of its overlays and the slugs of
its local paths are all different. -/
theorem export_keeps_iff {host : Host} {bundle : Bundle} {overlays : List PathBuf} {result : ExportBundleResult}
    (h : exportPortableBundle host bundle overlays = .ok result) :
    ∃ loaded, exportedOverlays host bundle overlays = .ok loaded ∧
      (KeepsAll host.toPlatform loaded result.bundle ↔ NamedApart host.toPlatform loaded) := by
  obtain ⟨loaded, hloaded, -, hdeployment, hoverlays, -⟩ := exportPortableBundle_ok h
  have hlist : result.bundle.deployment.spec.overlays = keepFirst (· == ·) (loaded.map importedPath) := by
    rw [hdeployment]
    rfl
  have henv := distinctInputs_iff host.toPlatform .dotenvFile (loaded.flatMap (·.environment.envFiles))
  have hfiles := distinctInputs_iff host.toPlatform .file (loaded.flatMap (·.files.filterMap localSource))
  simp only [List.map_flatMap, ← envFileInputs_eq] at henv
  simp only [List.map_flatMap, ← fileInputs_eq] at hfiles
  refine ⟨loaded, hloaded, ?_, ?_⟩
  · rintro ⟨hkept, hkeptEnv, hkeptFiles⟩
    rw [hlist, hoverlays] at hkept
    exact ⟨(overlays_kept_iff _ loaded).mp hkept, henv.mp hkeptEnv, hfiles.mp hkeptFiles⟩
  · rintro ⟨hapart, hapartEnv, hapartFiles⟩
    refine ⟨?_, henv.mpr hapartEnv, hfiles.mpr hapartFiles⟩
    rw [hlist, hoverlays]
    exact (overlays_kept_iff _ loaded).mpr hapart

/-! ### Two deployments -/

/-- An overlay of the first web server with one env file. -/
def envFileOverlay (name path envFile : String) : Overlay where
  apiVersion := "apmpr.dev/v1alpha1"
  kind := "Overlay"
  name := name
  selectors := ⟨false, ∅, ∅, ["front"]⟩
  environment := ⟨[⟨envFile⟩], ∅, []⟩
  files := []
  parameters := ∅
  vars := ∅
  replace := false
  sourcePath := ⟨path⟩

/-- A machine with these overlays; every text has this digest. -/
def exportHost (digest : Vector (Fin 256) 32) (overlays : List Overlay) : Host :=
  { shopHost with
    sha256 := fun _ => digest
    loadOverlay := fun path =>
      match overlays.find? fun overlay => overlay.sourcePath = path with
      | some overlay => .ok overlay
      | none => .error "No such file or directory (os error 2)" }

/-- The deployment with overlays. -/
def overlaidShop (bundle : Bundle) (paths : List PathBuf) : Bundle :=
  bundle.withDocument (bundle.document.withSpec { bundle.document.spec with overlays := paths })

/-- Two overlays with names and env files of their own. -/
def apartOverlays : List Overlay :=
  [envFileOverlay "dev" "/srv/shop/overlays/dev.yaml" "dev.env", envFileOverlay "ci" "/srv/shop/overlays/ci.yaml" "ci.env"]

/-- Two overlays of one name, with env files of one slug. -/
def mergedOverlays : List Overlay :=
  [envFileOverlay "dev" "/srv/shop/overlays/dev.yaml" "a/b.env",
    envFileOverlay "dev" "/srv/shop/overlays/more.yaml" "a-b.env"]

/-- The machine of the two overlays that are apart, with the digest of their export. -/
def apartHost : Host := exportHost
  #v[240, 239, 122, 189, 254, 72, 44, 209, 237, 35, 61, 161, 169, 135, 221, 117, 255, 209, 95, 68,
    194, 27, 245, 216, 172, 9, 98, 229, 202, 29, 185, 205] apartOverlays

/-- The machine of the two overlays that are merged, with the digest of their export. -/
def mergedHost : Host := exportHost
  #v[253, 165, 83, 128, 215, 222, 212, 61, 131, 79, 123, 101, 103, 6, 111, 230, 240, 180, 120, 101,
    72, 129, 171, 4, 128, 122, 6, 238, 170, 166, 208, 23] mergedOverlays

/-- A machine without overlays, with the digest of the export of the resolved deployment. -/
def cloneHost : Host := exportHost
  #v[92, 106, 254, 130, 106, 216, 42, 205, 1, 133, 122, 59, 70, 189, 192, 130, 51, 98, 169, 186,
    123, 154, 135, 92, 207, 187, 193, 124, 73, 219, 160, 206] []

def apartShop : Bundle := overlaidShop shopBundle [⟨"overlays/dev.yaml"⟩, ⟨"overlays/ci.yaml"⟩]

def mergedShop : Bundle := overlaidShop shopBundle [⟨"overlays/dev.yaml"⟩, ⟨"overlays/more.yaml"⟩]

/-- Overlays and env files that are named apart are kept. -/
theorem export_keeps_apart :
    ∃ result, exportPortableBundle apartHost apartShop [] = .ok result ∧
      KeepsAll apartHost.toPlatform apartOverlays result.bundle := by
  obtain ⟨result, hresult⟩ : ∃ result, exportPortableBundle apartHost apartShop [] = .ok result := ⟨_, rfl⟩
  obtain ⟨loaded, hloaded, hiff⟩ := export_keeps_iff hresult
  obtain rfl : apartOverlays = loaded := Except.ok.inj (show Except.ok apartOverlays = _ from hloaded)
  exact ⟨result, hresult, hiff.mpr ⟨by decide +kernel, by decide +kernel, by decide +kernel⟩⟩

/-- Of two overlays of one name the export has one, and two env files of one slug are one input. -/
theorem export_merges :
    ∃ result, exportPortableBundle mergedHost mergedShop [] = .ok result ∧
      exportedOverlays mergedHost mergedShop [] = .ok mergedOverlays ∧
      ¬KeepsAll mergedHost.toPlatform mergedOverlays result.bundle ∧
      result.bundle.deployment.spec.overlays.length < (keepFirst sameOverlay mergedOverlays).length ∧
      ¬DistinctInputs (mergedOverlays.flatMap (envFileInputs mergedHost.toPlatform)) := by
  obtain ⟨result, hresult⟩ : ∃ result, exportPortableBundle mergedHost mergedShop [] = .ok result := ⟨_, rfl⟩
  have hapart : ¬DistinctInputs (mergedOverlays.flatMap (envFileInputs mergedHost.toPlatform)) := by
    unfold DistinctInputs
    decide +kernel
  obtain ⟨loaded, hloaded, -, hdeployment, -, -⟩ := exportPortableBundle_ok hresult
  obtain rfl : mergedOverlays = loaded := Except.ok.inj (show Except.ok mergedOverlays = _ from hloaded)
  have hlength : result.bundle.deployment.spec.overlays.length < (keepFirst sameOverlay mergedOverlays).length := by
    rw [hdeployment]
    decide +kernel
  exact ⟨result, hresult, hloaded, fun h => hapart h.envFiles, hlength, hapart⟩

/-! ### What an import accepts -/

theorem component_apmpr : PathBuf.component ".apmpr" = some (.normal ".apmpr") := by decide

theorem hasComponent_apmpr_iff (path : PathBuf) :
    hasComponent path ".apmpr" = true ↔ ".apmpr" ∈ Text.split '/' path.text := by
  rw [hasComponent, List.contains_iff_mem, PathBuf.normal_mem_components_iff component_apmpr]

/-- The path of an input is relative and has no state of the machine. -/
theorem pathIsMachineState_localInput (platform : Platform) (kind : RequiredLocalInputKind) (path : PathBuf) :
    pathIsMachineState (localInput platform kind path) = false := by
  have hrel : (localInput platform kind path).isAbsolute = false := by
    rw [Bool.eq_false_iff]
    intro habs
    have hroot := PathBuf.components_of_isAbsolute habs
    rw [components_localInput] at hroot
    simp at hroot
  have hname : keyInput platform kind path.text ≠ ".apmpr" := by
    intro h
    have hdot : '.' ∈ (keyInput platform kind path.text).toList := by
      rw [h]
      decide
    exact absurd (isNameChar_keyInput platform kind path.text hdot) (by decide)
  rw [pathIsMachineState, hrel, hasComponent, components_localInput]
  simp [hname.symm]

/-- The directory that stands for a source is state of the machine exactly if a part of the
source's name after a separator is. -/
theorem pathIsMachineState_sourceInput (name : String) :
    pathIsMachineState (sourceInput name) = true ↔ ".apmpr" ∈ (Text.split '/' name).tail := by
  obtain ⟨first, parts, hsplit⟩ := List.exists_cons_of_ne_nil (Text.splitChars_ne_nil '/' name.toList)
  have hrel : PathBuf.isAbsolute ⟨"source-" ++ name⟩ = false := by
    rw [PathBuf.isAbsolute, Text.startsWith, String.toList_append]
    rfl
  have htext : (sourceInput name).text = "required-local-inputs" ++ "/" ++ ("source-" ++ name) := by
    rw [sourceInput, show s!"source-{name}" = "source-" ++ name from rfl, PathBuf.join, if_neg (by simp [hrel]),
      if_neg (by decide)]
  have hlist : (sourceInput name).text.toList =
      "required-local-inputs".toList ++ '/' :: ("source-".toList ++ name.toList) := by
    rw [htext]
    simp only [String.toList_append]
    rfl
  have hparts : Text.split '/' (sourceInput name).text =
      "required-local-inputs" :: ("source-" ++ String.ofList first) :: (Text.split '/' name).tail := by
    rw [Text.split, Text.split, hlist, Text.splitChars_append_cons, Text.splitChars_of_not_mem (by decide),
      Text.splitChars_append (by decide) hsplit, hsplit]
    simp only [List.map_cons, List.singleton_append, List.tail_cons, String.ofList_append, String.ofList_toList]
  have hfirst : ".apmpr" ≠ "source-" ++ String.ofList first := by
    intro h
    have hhead := congrArg (fun text => text.toList.head?) h
    rw [String.toList_append] at hhead
    exact absurd hhead (by simp)
  have habs : (sourceInput name).isAbsolute = false := by
    rw [PathBuf.isAbsolute, Text.startsWith, hlist]
    rfl
  rw [pathIsMachineState, habs, Bool.false_or, hasComponent_apmpr_iff, hparts, List.mem_cons, List.mem_cons]
  constructor
  · rintro (h | h | h)
    · exact absurd h (by decide)
    · exact absurd h hfirst
    · exact h
  · exact fun h => Or.inr (Or.inr h)

/-- A sanitised overlay has no state of the machine exactly if none of its files is put there. -/
theorem overlayMachineState_sanitized (platform : Platform) (name : String) (overlay : Overlay) :
    overlayMachineState name (sanitizedOverlay platform overlay).1 = [] ↔
      ∀ file ∈ overlay.files, hasComponent file.target ".apmpr" = false := by
  have henv : ((sanitizedOverlay platform overlay).1.environment.envFiles.zipIdx.filter
      fun (path, _) => pathIsMachineState path) = [] := by
    refine List.filter_eq_nil_iff.mpr fun ⟨replaced, index⟩ hentry => ?_
    obtain ⟨path, -, rfl⟩ := List.mem_map.mp (List.fst_mem_of_mem_zipIdx hentry)
    simp [pathIsMachineState_localInput]
  have hfile : ∀ (file : OverlayFile) (index : ℕ), (match (sanitizedFile platform file).source with
      | some (.path path) => if pathIsMachineState path then [s!"overlays.{name}.spec.files[{index}].source"] else []
      | _ => ([] : List String)) = [] ∧ (sanitizedFile platform file).target = file.target := by
    intro file index
    obtain ⟨source, content, target, mode, template, replace⟩ := file
    rcases source with _ | (path | reference)
    · exact ⟨rfl, rfl⟩
    · exact ⟨by simp [sanitizedFile, pathIsMachineState_localInput], rfl⟩
    · exact ⟨rfl, rfl⟩
  rw [overlayMachineState, henv, List.map_nil, List.nil_append, List.flatMap_eq_nil_iff]
  constructor
  · intro h file hmem
    obtain ⟨index, hindex, hget⟩ := List.mem_iff_getElem.mp (List.mem_map_of_mem (f := sanitizedFile platform) hmem)
    have hnil := h (sanitizedFile platform file, index) (List.mem_zipIdx_iff_getElem?.mpr (by
      rw [← hget]
      exact List.getElem?_eq_getElem hindex))
    have htarget := (List.append_eq_nil_iff.mp hnil).2
    simpa [(hfile file index).2] using htarget
  · rintro h ⟨sanitized, index⟩ hentry
    obtain ⟨file, hmem, rfl⟩ := List.mem_map.mp (List.fst_mem_of_mem_zipIdx hentry)
    refine List.append_eq_nil_iff.mpr ⟨(hfile file index).1, ?_⟩
    rw [(hfile file index).2, h file hmem]
    rfl

/-- The deployment and the overlays have nothing that an import takes for state of the machine. -/
structure Importable (bundle : Bundle) (loaded : List Overlay) : Prop where
  /-- No name of a source has `.apmpr` after a separator. -/
  sources : ∀ name ∈ bundle.document.spec.sources.keys, ".apmpr" ∉ (Text.split '/' name).tail
  /-- No clone is absolute or below `.apmpr`. -/
  clones : ∀ repository ∈ bundle.document.spec.repositories.values, repository.clone.any pathIsMachineState = false
  /-- No file of an overlay that is the last of its name is put below `.apmpr`. -/
  targets : ∀ before overlay after, loaded = before ++ overlay :: after → (∀ other ∈ after, other.name ≠ overlay.name) →
    ∀ file ∈ overlay.files, hasComponent file.target ".apmpr" = false

/-- Of the overlays of one name the last is exported. -/
theorem get?_ofList_overlays_iff (platform : Platform) (loaded : List Overlay) (name : String)
    (sanitized : Encoding.UnplacedOverlay) :
    (SortedMap.ofList (loaded.map fun o => (o.name, sanitizedOverlay platform o))).get? name = some sanitized ↔
      ∃ before overlay after, loaded = before ++ overlay :: after ∧ (∀ other ∈ after, other.name ≠ overlay.name) ∧
        name = overlay.name ∧ sanitized = sanitizedOverlay platform overlay :=
  SortedMap.get?_ofList_map_iff

/-- A bundle has no state of the machine exactly if nothing in it is. -/
theorem machineState_nil_iff (bundle : PortableBundle) :
    machineState bundle = [] ↔
      (∀ name source, bundle.deployment.spec.sources.get? name = some source → pathIsMachineState source.path = false) ∧
      (∀ name repository, bundle.deployment.spec.repositories.get? name = some repository →
        repository.clone.any pathIsMachineState = false) ∧
      ∀ name overlay, bundle.overlays.get? name = some overlay → overlayMachineState name overlay.1 = [] := by
  simp only [machineState, List.append_eq_nil_iff, List.map_eq_nil_iff, List.filter_eq_nil_iff, List.flatMap_eq_nil_iff,
    Prod.forall, SortedMap.mem_entries_iff, Bool.not_eq_true, and_assoc]

/-- An exported bundle has no state of the machine exactly if its deployment is importable. -/
theorem machineState_exported_iff {platform : Platform} {bundle : Bundle} {loaded : List Overlay}
    {exported : PortableBundle}
    (hsources : exported.deployment.spec.sources =
      bundle.document.spec.sources.mapValues fun name source => { source with path := sourceInput name })
    (hrepositories : exported.deployment.spec.repositories = bundle.document.spec.repositories)
    (hoverlays : exported.overlays = .ofList (loaded.map fun o => (o.name, sanitizedOverlay platform o))) :
    machineState exported = [] ↔ Importable bundle loaded := by
  rw [machineState_nil_iff, hsources, hrepositories, hoverlays]
  constructor
  · rintro ⟨hs, hr, ho⟩
    refine ⟨fun name hname hpart => ?_, fun repository hmem => ?_, fun before overlay after hlist hafter => ?_⟩
    · obtain ⟨source, hsource⟩ := (SortedMap.mem_keys_iff _).mp hname
      have hclear := hs name { source with path := sourceInput name } (by rw [SortedMap.get?_mapValues, hsource]; rfl)
      exact Bool.eq_false_iff.mp hclear ((pathIsMachineState_sourceInput name).mpr hpart)
    · obtain ⟨⟨name, repository⟩, hentry, rfl⟩ := List.mem_map.mp hmem
      exact hr name repository ((SortedMap.mem_entries_iff _).mp hentry)
    · have hget := (get?_ofList_overlays_iff platform loaded overlay.name (sanitizedOverlay platform overlay)).mpr
        ⟨before, overlay, after, hlist, hafter, rfl, rfl⟩
      exact (overlayMachineState_sanitized platform overlay.name overlay).mp (ho _ _ hget)
  · rintro ⟨hs, hr, ho⟩
    refine ⟨fun name source hget => ?_, fun name repository hget => ?_, fun name sanitized hget => ?_⟩
    · rw [SortedMap.get?_mapValues, Option.map_eq_some_iff] at hget
      obtain ⟨original, horiginal, rfl⟩ := hget
      rw [Bool.eq_false_iff, ne_eq, pathIsMachineState_sourceInput]
      exact hs name ((SortedMap.mem_keys_iff _).mpr ⟨original, horiginal⟩)
    · exact hr repository (List.mem_map_of_mem ((SortedMap.mem_entries_iff _).mpr hget))
    · obtain ⟨before, overlay, after, hlist, hafter, rfl, rfl⟩ := (get?_ofList_overlays_iff platform loaded _ _).mp hget
      exact (overlayMachineState_sanitized platform overlay.name overlay).mpr (ho before overlay after hlist hafter)

/-- What was written is read back, and is verified. -/
theorem parse_write (platform : Platform) (bundle : PortableBundle) :
    parsePortableBundle platform (writePortableBundle bundle) = verifyPortableBundle platform bundle := by
  rw [parsePortableBundle, writePortableBundle, Encoding.portableBundle.decode_encode]

/-- A bundle of the version that has its own hash is accepted exactly without state of the machine. -/
theorem verify_ok_iff {platform : Platform} {bundle : PortableBundle}
    (hversion : bundle.apiVersion = PORTABLE_BUNDLE_API_VERSION) (hhash : bundle.contentHash = contentHash platform bundle) :
    verifyPortableBundle platform bundle = .ok bundle ↔ machineState bundle = [] := by
  rw [verifyPortableBundle, if_neg (by simp [hversion]), if_neg (by simp [hhash])]
  cases machineState bundle <;> simp

/-- An exported bundle is imported as it was exported, exactly if the deployment is importable. -/
theorem import_accepts_iff {host : Host} {bundle : Bundle} {overlays : List PathBuf} {result : ExportBundleResult}
    (h : exportPortableBundle host bundle overlays = .ok result) :
    ∃ loaded, exportedOverlays host bundle overlays = .ok loaded ∧
      (parsePortableBundle host.toPlatform (writePortableBundle result.bundle) = .ok result.bundle ↔
        Importable bundle loaded) := by
  obtain ⟨loaded, hloaded, hversion, hdeployment, hoverlays, hhash⟩ := exportPortableBundle_ok h
  refine ⟨loaded, hloaded, ?_⟩
  rw [parse_write, verify_ok_iff hversion hhash]
  refine machineState_exported_iff ?_ ?_ hoverlays
  · rw [hdeployment]
    rfl
  · rw [hdeployment]
    rfl

/-- A deployment whose clones have URLs is imported. -/
theorem import_accepts_apart :
    ∃ result, exportPortableBundle apartHost apartShop [] = .ok result ∧
      parsePortableBundle apartHost.toPlatform (writePortableBundle result.bundle) = .ok result.bundle := by
  obtain ⟨result, hresult⟩ : ∃ result, exportPortableBundle apartHost apartShop [] = .ok result := ⟨_, rfl⟩
  obtain ⟨loaded, hloaded, hiff⟩ := import_accepts_iff hresult
  obtain rfl : apartOverlays = loaded := Except.ok.inj (show Except.ok apartOverlays = _ from hloaded)
  have hfiles : ∀ overlay ∈ apartOverlays, overlay.files = [] := by decide
  refine ⟨result, hresult, hiff.mpr ⟨by decide, by decide, ?_⟩⟩
  intro before overlay after hlist _ file hfile
  rw [hfiles overlay (hlist ▸ List.mem_append_right _ (List.mem_cons_self ..))] at hfile
  cases hfile

/-- A deployment with an absolute clone is exported, and then refused. -/
theorem import_refuses_clone :
    ∃ result, exportPortableBundle cloneHost resolvedShopBundle [] = .ok result ∧
      parsePortableBundle cloneHost.toPlatform (writePortableBundle result.bundle) =
        .error ⟨.bundleValidationFailed, "deployment.spec.repositories.app.clone",
          "portable bundles must not contain absolute host paths or .apmpr state"⟩ := by
  obtain ⟨result, hresult⟩ : ∃ result, exportPortableBundle cloneHost resolvedShopBundle [] = .ok result := ⟨_, rfl⟩
  obtain ⟨loaded, hloaded, hversion, hdeployment, hoverlays, hhash⟩ := exportPortableBundle_ok hresult
  obtain rfl : [] = loaded := Except.ok.inj (show Except.ok [] = _ from hloaded)
  have hstate : machineState result.bundle = ["deployment.spec.repositories.app.clone"] := by
    rw [machineState, hdeployment, hoverlays]
    decide +kernel
  refine ⟨result, hresult, ?_⟩
  rw [parse_write, verifyPortableBundle, if_neg (by simp [hversion]), if_neg (by simp [hhash]), hstate]

end Apmpr.Planner
