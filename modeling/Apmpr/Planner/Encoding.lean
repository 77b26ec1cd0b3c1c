import Apmpr.Planner.Overlay
import Apmpr.Router.Encoding

/-!
# The JSON of deployments and overlays

The serialised form of the `apmpr.dev/v1alpha2` deployment schema and of overlay documents,
field by field as the crate `apmpr-planner` declares them (`model.rs`, `overlay.rs`). Fields
that are skipped, such as the path an overlay was loaded from, are not written.
-/

namespace Apmpr.Planner.Encoding

open Codec Fields
open Router.Encoding (flag items)

/-- A map that is empty where it is left out, but always written. -/
def mapField {α : Type} (name : String) (codec : Codec α) : Fields (SortedMap String α) := withDefault name codec.map ∅

/-- A map that is left out where it is empty. -/
def nonemptyMap {α : Type} (name : String) (codec : Codec α) : Fields (SortedMap String α) :=
  defaulted name codec.map ∅ (·.entries.isEmpty) fun m h => by
    obtain ⟨entries, sorted⟩ := m
    obtain rfl : entries = [] := by simpa using h
    rfl

/-- A list that is left out where it is empty. -/
def nonemptyItems {α : Type} (name : String) (codec : Codec α) : Fields (List α) :=
  defaulted name codec.list [] (·.isEmpty) fun l h => by simpa using h

/-- A value that may be absent, and is then written as `null`. -/
def nullable {α : Type} (name : String) (codec : Codec α)
    (h : ∀ a, codec.encode a ≠ .null := by first | exact Codec.string_ne_null | exact Codec.path_ne_null | rintro _ ⟨⟩) :
    Fields (Option α) :=
  withDefault name (codec.option h) none

/-- A text that is left out where it is empty. -/
def nonemptyText (name : String) : Fields String := defaulted name string "" (· = "") fun _ h => by simpa using h

/-! ### Deployments -/

/-- `Metadata`. -/
def metadata : Codec Metadata :=
  (((required "name" string).and (nonemptyMap "labels" string)).imap
    (fun (name, labels) => Metadata.mk name labels) (fun m => (m.name, m.labels)) fun _ => rfl).object

/-- `ResolvedOverlayFile`. -/
def resolvedOverlayFile : Codec ResolvedOverlayFile :=
  (((required "target" path).and ((required "contentHash" string).and ((required "mode" string).and
    (required "origin" string)))).imap
    (fun (target, contentHash, mode, origin) => ResolvedOverlayFile.mk target contentHash mode origin)
    (fun f => (f.target, f.contentHash, f.mode, f.origin)) fun _ => rfl).object

/-- `Repository`. -/
def repository : Codec Repository :=
  (((Fields.optional "url" string).and (Fields.optional "clone" path)).imap
    (fun (url, clone) => Repository.mk url clone) (fun r => (r.url, r.clone)) fun _ => rfl).object

/-- `Source`. -/
def source : Codec Source :=
  (((required "repository" string).and ((required "ref" string).and (required "path" path))).imap
    (fun (repository, ref, path) => Source.mk repository ref path)
    (fun s => (s.repository, s.ref, s.path)) fun _ => rfl).object

/-- `Parameter`. -/
def parameter : Codec Parameter :=
  (((withDefault "required" bool false).and (nullable "default" string)).imap
    (fun (required, default) => Parameter.mk required default) (fun p => (p.required, p.default)) fun _ => rfl).object

/-- `Build`. -/
def build : Codec Build :=
  (((required "context" path).and (nullable "dockerfile" path)).imap
    (fun (context, dockerfile) => Build.mk context dockerfile) (fun b => (b.context, b.dockerfile)) fun _ => rfl).object

/-- The fields every kind of execution has, in the order they are written. -/
def runtime : Fields Runtime :=
  ((nullable "workingDirectory" path).and ((withDefault "sourceMount" path ⟨"/workspace"⟩).and
    ((withDefault "writable" bool false).and (mapField "environment" string)))).imap
    (fun (workingDirectory, sourceMount, writable, environment) =>
      Runtime.mk workingDirectory sourceMount writable environment)
    (fun r => (r.workingDirectory, r.sourceMount, r.writable, r.environment)) fun _ => rfl

/-- `ScriptLifecycle`. -/
def scriptLifecycle : Codec ScriptLifecycle :=
  enum [.service, .task]
    (fun
      | .service => "service"
      | .task => "task")
    fun l => by cases l <;> decide

/-- `Execution`. -/
def execution : Codec Execution :=
  (((Variants.one "container" ((nullable "image" string).and ((nullable "build" build).and
      ((items "command" string).and runtime)))).or
    ((Variants.one "script" ((required "image" string).and ((required "command" string.list).and
        (runtime.and (withDefault "lifecycle" scriptLifecycle .service))))).or
      (Variants.one "processCompose" ((required "image" string).and ((required "file" path).and runtime))))).imap
    (fun
      | .inl (image, build, command, runtime) => Execution.container image build command runtime
      | .inr (.inl (image, command, runtime, lifecycle)) => .script image command lifecycle runtime
      | .inr (.inr (image, file, runtime)) => .processCompose image file runtime)
    (fun
      | .container image build command runtime => .inl (image, build, command, runtime)
      | .script image command lifecycle runtime => .inr (.inl (image, command, runtime, lifecycle))
      | .processCompose image file runtime => .inr (.inr (image, file, runtime)))
    fun e => by cases e <;> rfl).tagged "type"

/-- `VolumeMount`. -/
def volumeMount : Codec VolumeMount :=
  (((required "name" string).and ((required "target" path).and (withDefault "readOnly" bool false))).imap
    (fun (name, target, readOnly) => VolumeMount.mk name target readOnly)
    (fun v => (v.name, v.target, v.readOnly)) fun _ => rfl).object

/-- `DependencyCondition`. -/
def dependencyCondition : Codec DependencyCondition :=
  enum [.started, .healthy, .completedSuccessfully]
    (fun
      | .started => "started"
      | .healthy => "healthy"
      | .completedSuccessfully => "completed_successfully")
    fun c => by cases c <;> decide

/-- `Probe`. -/
def probe : Codec Probe :=
  (((Variants.one "http" ((required "path" string).and ((required "port" (bounded 65536)).and
      (withDefault "https" bool false)))).or
    ((Variants.one "tcp" (required "port" (bounded 65536))).or
      (Variants.one "command" (required "command" string.list)))).imap
    (fun
      | .inl (path, port, https) => Probe.http path port https
      | .inr (.inl port) => .tcp port
      | .inr (.inr command) => .command command)
    (fun
      | .http path port https => .inl (path, port, https)
      | .tcp port => .inr (.inl port)
      | .command command => .inr (.inr command))
    fun p => by cases p <;> rfl).tagged "type"

/-- `Service`. -/
def service : Codec Service :=
  (((required "execution" execution).and ((items "publish" (bounded 65536)).and ((items "volumes" volumeMount).and
    ((mapField "dependsOn" dependencyCondition).and (nullable "probe" probe))))).imap
    (fun (execution, publish, volumes, dependsOn, probe) => Service.mk execution publish volumes dependsOn probe)
    (fun s => (s.execution, s.publish, s.volumes, s.dependsOn, s.probe)) fun _ => rfl).object

/-- `Block`. -/
def block : Codec Block :=
  (((mapField "parameters" parameter).and (required "services" service.map)).imap
    (fun (parameters, services) => Block.mk parameters services) (fun b => (b.parameters, b.services)) fun _ => rfl).object

/-- A port as the text of a range has it: digits, perhaps after a plus. -/
def readPort (text : String) : Option U16 := readBounded 65536 ((Text.afterStart "+" text).getD text)

/-- The range a text stands for. -/
def readRange (text : String) : Option ExternalPort :=
  match Text.splitOnce '-' text with
  | none => none
  | some (start, stop) =>
    if start = "" || stop = "" || Text.contains stop "-" then none
    else do
      let start ← readPort start
      let stop ← readPort stop
      return .range start stop

theorem readPort_toString (port : U16) : readPort (toString port.val) = some port := readUnsigned_toString port

theorem readRange_toString (start stop : U16) : readRange s!"{start}-{stop}" = some (.range start stop) := by
  have hdash : ∀ port : U16, '-' ∉ (toString port.val).toList := fun port => not_mem_toString (by decide)
  have hnonempty : ∀ port : U16, toString port.val ≠ "" := fun port => Nat.repr_ne_empty
  have hsplit : Text.splitOnce '-' s!"{start}-{stop}" = some (toString start.val, toString stop.val) := by
    have htext : (s!"{start}-{stop}").toList = (toString start.val).toList ++ '-' :: (toString stop.val).toList := by
      have hmiddle : (toString "-").toList = ['-'] := by decide
      rw [String.toList_append, String.toList_append, hmiddle, List.append_assoc]
      rfl
    rw [Text.splitOnce, htext, Text.splitOnceChars_append (hdash start), Option.map_some, String.ofList_toList,
      String.ofList_toList]
  have hcontains : Text.contains (toString stop.val) "-" = false := by
    have hchars : ∀ l : List Char, '-' ∉ l → Text.containsChars ['-'] l = false := by
      intro l hl
      induction l with
      | nil => rfl
      | cons c rest ih =>
        rw [List.mem_cons, not_or] at hl
        simp [Text.containsChars, List.isPrefixOf, hl.1, ih hl.2]
    exact hchars _ (hdash stop)
  rw [readRange, hsplit]
  dsimp only
  rw [hcontains, readPort_toString, readPort_toString]
  simp only [hnonempty, decide_false, Bool.or_self, Bool.false_eq_true, if_false]
  rfl

/-- `ExternalPort`: a number, or a range as text. -/
def externalPort : Codec ExternalPort where
  encode
    | .single port => .nat port
    | .range start stop => .string s!"{start}-{stop}"
  decode
    | .number text => (readBounded 65536 text).map .single
    | .string text => readRange text
    | _ => none
  decode_encode
    | .single port => by
      have hread : readBounded 65536 (toString port.val) = some port := readBounded_toString port
      simp only [Json.nat, hread, Option.map_some]
    | .range start stop => readRange_toString start stop

/-- `Instance`. -/
def inst : Codec Instance :=
  (((required "name" string).and ((nonemptyText "block").and ((nonemptyText "source").and
    ((Fields.optional "external" string).and ((nonemptyItems "ports" externalPort).and
      ((Fields.optional "probe" probe).and ((Fields.optional "device" string).and ((Fields.optional "address" string).and
        ((mapField "parameters" string).and ((nonemptyMap "labels" string).and ((nonemptyMap "environment" string).and
          (nonemptyItems "environmentUnset" string)))))))))))).imap
    (fun (name, block, source, external, ports, probe, device, address, parameters, labels, environment, unset) =>
      Instance.mk name block source external ports probe device address parameters labels environment unset)
    (fun i => (i.name, i.block, i.source, i.external, i.ports, i.probe, i.device, i.address, i.parameters, i.labels,
      i.environment, i.environmentUnset))
    fun _ => rfl).object

/-- `ServiceGroup`. -/
def serviceGroup : Codec ServiceGroup :=
  (((items "instances" string).and ((nonemptyItems "disabled" string).and (Fields.optional "address" string))).imap
    (fun (instances, disabled, address) => ServiceGroup.mk instances disabled address)
    (fun g => (g.instances, g.disabled, g.address)) fun _ => rfl).object

/-- `ManagedProfile`. -/
def managedProfile : Codec ManagedProfile :=
  (((required "route" string).and (required "startUrl" string)).imap
    (fun (route, startUrl) => ManagedProfile.mk route startUrl) (fun p => (p.route, p.startUrl)) fun _ => rfl).object

/-- `PublishedUpstream`. -/
def publishedUpstream : Codec PublishedUpstream :=
  (((required "instance" string).and ((required "service" string).and (required "port" (bounded 65536)))).imap
    (fun (inst, service, port) => PublishedUpstream.mk inst service port)
    (fun u => (u.inst, u.service, u.port)) fun _ => rfl).object

/-- `DeploymentSpec`. -/
def deploymentSpec : Codec DeploymentSpec :=
  (((nonemptyItems "overlays" path).and ((nonemptyMap "resolvedOverlayFiles" resolvedOverlayFile.list).and
    ((mapField "repositories" repository).and ((mapField "sources" source).and ((mapField "blocks" block).and
      ((items "instances" inst).and ((mapField "groups" serviceGroup).and ((mapField "managedProfiles" managedProfile).and
        ((nullable "hostRouter" Router.Encoding.routerConfig).and ((mapField "hostUpstreams" publishedUpstream).and
          (withDefault "routerImage" string "apmpr-router:local"))))))))))).imap
    (fun (overlays, files, repositories, sources, blocks, instances, groups, profiles, hostRouter, upstreams, image) =>
      DeploymentSpec.mk overlays files repositories sources blocks instances groups profiles hostRouter upstreams image)
    (fun s => (s.overlays, s.resolvedOverlayFiles, s.repositories, s.sources, s.blocks, s.instances, s.groups,
      s.managedProfiles, s.hostRouter, s.hostUpstreams, s.routerImage))
    fun _ => rfl).object

/-- A deployment document. -/
def document : Codec Document :=
  (((required "apiVersion" string).and ((required "kind" string).and ((required "metadata" metadata).and
    (required "spec" deploymentSpec)))).imap
    (fun (apiVersion, kind, metadata, spec) => Document.mk apiVersion kind metadata spec)
    (fun d => (d.apiVersion, d.kind, d.metadata, d.spec)) fun _ => rfl).object

/-! ### Overlays -/

/-- `OverlaySecretReference`. -/
def overlaySecretReference : Codec OverlaySecretReference :=
  (((Fields.optional "environmentVariable" string).and (Fields.optional "file" path)).imap
    (fun (environmentVariable, file) => OverlaySecretReference.mk environmentVariable file)
    (fun r => (r.environmentVariable, r.file)) fun _ => rfl).object

/-- `OverlayValue`: a text, or a reference. -/
def overlayValue : Codec OverlayValue :=
  (string.either overlaySecretReference fun _ => rfl).imap
    (fun
      | .inl value => OverlayValue.literal value
      | .inr reference => .secret reference)
    (fun
      | .literal value => .inl value
      | .secret reference => .inr reference)
    fun v => by cases v <;> rfl

/-- `OverlayFileSource`: a path, or a reference. -/
def overlayFileSource : Codec OverlayFileSource :=
  (path.either overlaySecretReference fun _ => rfl).imap
    (fun
      | .inl path => OverlayFileSource.path path
      | .inr reference => .secret reference)
    (fun
      | .path path => .inl path
      | .secret reference => .inr reference)
    fun v => by cases v <;> rfl

/-- `OverlayFile`. -/
def overlayFile : Codec OverlayFile :=
  (((nullable "source" overlayFileSource fun s => by cases s <;> exact Json.noConfusion).and
    ((nullable "content" string).and ((required "target" path).and ((withDefault "mode" string "0644").and
      ((withDefault "template" bool false).and (withDefault "replace" bool false)))))).imap
    (fun (source, content, target, mode, template, replace) => OverlayFile.mk source content target mode template replace)
    (fun f => (f.source, f.content, f.target, f.mode, f.template, f.replace)) fun _ => rfl).object

/-- `OverlaySelectors`, with the labels of the deployment and of instances. -/
def overlaySelectors : Codec OverlaySelectors :=
  (((withDefault "optional" bool false).and
    ((withDefault "deployment" (mapField "matchLabels" string).object ∅).and
      (withDefault "instances" ((mapField "matchLabels" string).and (items "names" string)).object (∅, [])))).imap
    (fun (isOptional, deploymentLabels, instanceLabels, instanceNames) =>
      OverlaySelectors.mk isOptional deploymentLabels instanceLabels instanceNames)
    (fun s => (s.optional, s.deploymentLabels, s.instanceLabels, s.instanceNames)) fun _ => rfl).object

/-- `OverlayEnvironment`. -/
def overlayEnvironment : Codec OverlayEnvironment :=
  (((items "envFiles" path).and ((mapField "set" overlayValue).and (items "unset" string))).imap
    (fun (envFiles, set, unset) => OverlayEnvironment.mk envFiles set unset)
    (fun e => (e.envFiles, e.set, e.unset)) fun _ => rfl).object

/-- An overlay as it is written: without the path it was loaded from. -/
abbrev UnplacedOverlay := { overlay : Overlay // overlay.sourcePath = ⟨""⟩ }

/-- The fields of an overlay's `spec`. -/
abbrev OverlayFields :=
  OverlaySelectors × OverlayEnvironment × List OverlayFile × SortedMap String String × SortedMap String String × Bool

/-- `OverlaySpec`. -/
def overlaySpec : Codec OverlayFields :=
  ((withDefault "selectors" overlaySelectors ⟨false, ∅, ∅, []⟩).and
    ((withDefault "environment" overlayEnvironment ⟨[], ∅, []⟩).and ((items "files" overlayFile).and
      ((mapField "parameters" string).and ((mapField "variables" string).and (withDefault "replace" bool false)))))).object

/-- `Overlay`. -/
def overlay : Codec UnplacedOverlay :=
  (((required "apiVersion" string).and ((required "kind" string).and
    ((required "metadata" (required "name" string).object).and (required "spec" overlaySpec)))).imap
    (fun (apiVersion, kind, name, selectors, environment, files, parameters, variables', replace) =>
      (⟨Overlay.mk apiVersion kind name selectors environment files parameters variables' replace ⟨""⟩, rfl⟩ :
        UnplacedOverlay))
    (fun o => (o.1.apiVersion, o.1.kind, o.1.name, o.1.selectors, o.1.environment, o.1.files, o.1.parameters, o.1.vars,
      o.1.replace))
    fun o => by
      obtain ⟨⟨apiVersion, kind, name, selectors, environment, files, parameters, vars, replace, sourcePath⟩, h⟩ := o
      obtain rfl : sourcePath = ⟨""⟩ := h
      rfl).object

end Apmpr.Planner.Encoding
