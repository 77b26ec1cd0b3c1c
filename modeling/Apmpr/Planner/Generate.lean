import Apmpr.Lib.Json
import Apmpr.Planner.Overlay
import Apmpr.Planner.Validate

/-!
# Generation of a plan

`generate` of the crate `apmpr-planner`: the hashes, the local Compose project and one
project for each device, the configurations of the sidecar routers and of the host router,
and the resolved deployment. Compose projects and sidecar configurations are JSON values;
the resolved deployment and the host router's configuration are kept as the values they
encode.

## Honest scope

The manifest is left out, except for the hashes, the sidecars and the upstreams it repeats.
-/

namespace Apmpr.Planner

open Router (RouterConfig)

/-! ### The plan -/

/-- `SidecarPlan`. -/
structure SidecarPlan where
  service : String
  adminSocket : PathBuf
  configPath : PathBuf
  deriving DecidableEq

/-- `HostUpstreamPlan`. -/
structure HostUpstreamPlan where
  composeService : String
  containerPort : U16
  remoteAddress : Option String
  deriving DecidableEq

/-- `RemoteComposePlan`. -/
structure RemoteComposePlan where
  device : PlanningDevice
  composeProject : String
  composeFile : PathBuf
  compose : Json
  services : List String

/-- `RuntimeSecretPlan`. -/
structure RuntimeSecretPlan where
  name : String
  reference : OverlaySecretReference
  deriving DecidableEq

/-- `ExternalProbePlan`. -/
structure ExternalProbePlan where
  inst : String
  host : String
  probe : Probe
  deriving DecidableEq

/-- `Plan`. -/
structure Plan where
  deployment : String
  definitionHash : String
  resourceHash : String
  composeProject : String
  artifactDir : PathBuf
  compose : Json
  localServiceCount : ℕ
  remoteProjects : SortedMap String RemoteComposePlan
  resolvedDeployment : Document
  routeConfigs : SortedMap String Json
  sidecars : SortedMap String SidecarPlan
  managedProfiles : List (String × ManagedProfilePlan)
  hostRouterConfig : Option RouterConfig
  hostUpstreams : SortedMap String HostUpstreamPlan
  sourceIdentities : SortedMap String SourceIdentity
  origins : List OriginTrace
  injectedFiles : List InjectedFilePlan
  externalProbes : List ExternalProbePlan
  runtimeSecrets : List RuntimeSecretPlan
  hasOverrides : Bool

/-! ### Hashes -/

/-- The instances of groups that are run, by name. -/
def routedNames (spec : DeploymentSpec) : List String :=
  (SortedMap.ofList (((spec.groups.values.flatMap fun group => group.instances.map memberInstance).filter
    fun name => spec.instances.any fun inst => !inst.isExternal && inst.name = name).map
      fun name => (name, ()))).keys

/-- `resource_definition`: what running resources depend on. -/
def resourceDefinition (document : Document) : Document :=
  let spec := document.spec
  let routed := routedNames spec
  document.withSpec { spec with
    instances := (spec.instances.map fun inst => { inst with address := none }).filter fun inst => !inst.isExternal
    groups := if routed.isEmpty then ∅ else SortedMap.insert ∅ "__routed_instances__" ⟨routed, [], none⟩
    managedProfiles := ∅
    hostRouter := none
    hostUpstreams := ∅ }

/-- The devices the instances are placed on. -/
def referencedDevices (spec : DeploymentSpec) (devices : Devices) : Devices :=
  .ofList (spec.instances.filterMap fun inst =>
    inst.remoteDevice.bind fun device => (devices.get? device).map (device, ·))

/-- The injected files, as they are hashed. -/
def fileChunks (overlay : Option OverlayResolution) : List HashChunk :=
  overlay.toList.map fun resolution => .files (resolution.files.map (·.toInjectedFile))

/-- The texts of `definition_hash`. -/
def definitionChunks (document : Document) (overlay : Option OverlayResolution) : List HashChunk :=
  .document document :: fileChunks overlay

/-- The texts of `resource_hash`. -/
def resourceChunks (document : Document) (overlay : Option OverlayResolution) (devices : Devices) : List HashChunk :=
  let referenced := referencedDevices document.spec devices
  .document (resourceDefinition document) ::
    (if referenced.entries.isEmpty then [] else [.devices referenced]) ++ fileChunks overlay

/-! ### Compose services -/

/-- `ownership_labels`. -/
def ownershipLabels (deployment resourceHash : String) : SortedMap String String :=
  .ofList [("dev.apmpr.deployment", deployment), ("dev.apmpr.managed", "true"),
    ("dev.apmpr.resource-hash", resourceHash)]

/-- The labels of an instance's resources. -/
def instanceLabels (deployment resourceHash : String) (inst : Instance) : SortedMap String String :=
  let labels := (ownershipLabels deployment resourceHash).insert "dev.apmpr.instance" inst.name
  match inst.remoteDevice with
  | some device => labels.insert "dev.apmpr.device" device
  | none => labels

/-- `compose_ports`. -/
def composePorts (ports : List U16) : Json := Json.strings (ports.map fun port => s!"127.0.0.1::{port}")

/-- `compose_remote_ports`. -/
def composeRemotePorts (ports : List U16) : Json := Json.strings (ports.map fun port => s!"{port}:{port}")

/-- The command a probe is checked with. -/
def probeTest : Probe → List String
  | .http path port https =>
    let scheme := if https then "https" else "http"
    ["CMD-SHELL", s!"wget -q --spider {scheme}://127.0.0.1:{port}{path}"]
  | .tcp port =>
    ["CMD-SHELL", s!"if command -v nc >/dev/null 2>&1; then nc -z 127.0.0.1 {port}; elif command -v bash >/dev/null 2>&1; then bash -c '</dev/tcp/127.0.0.1/{port}'; else echo 'TCP probe needs nc or bash' >&2; exit 127; fi"]
  | .command command => "CMD" :: command

/-- `compose_probe`. -/
def composeProbe (probe : Probe) : Json :=
  .obj [("test", .strings (probeTest probe)), ("interval", .string "2s"), ("timeout", .string "1s"),
    ("retries", .nat 30)]

/-- The environment of a service: the defaults, then what the execution, the instance's
parameters and its environment say. -/
def serviceEnvironment (document : Document) (block : Block) (inst : Instance) (environment : SortedMap String String) :
    SortedMap String String :=
  let variables' := (SortedMap.ofList (parameterDefaults block)).insertAll environment.entries
  let variables' := (variables'.insertAll inst.parameters.entries).insertAll inst.environment.entries
  (variables'.insert "APMPR_DEPLOYMENT" document.metadata.name).insert "APMPR_INSTANCE" inst.name

/-- `add_runtime_fields`. -/
def addRuntimeFields (document : Document) (block : Block) (inst : Instance) (command : List String)
    (workingDirectory : Option PathBuf) (environment : SortedMap String String) (value : SortedMap String Json) :
    SortedMap String Json :=
  let value := if command.isEmpty then value else value.insert "command" (.strings command)
  let value := match workingDirectory with
    | some directory => value.insert "working_dir" (.string directory.text)
    | none => value
  value.insert "environment" (.ofTexts (serviceEnvironment document block inst environment))

/-- A bind mount. -/
def mountText (source target : PathBuf) (writable : Bool) : String :=
  source.text ++ ":" ++ target.text ++ (if writable then "" else ":ro")

/-- The mounts of a value so far. -/
def mountsOf (value : SortedMap String Json) : List Json :=
  match value.get? "volumes" with
  | some (.array mounts) => mounts
  | _ => []

/-- The value with more mounts. -/
def addMounts (mounts : List String) (value : SortedMap String Json) : SortedMap String Json :=
  value.insert "volumes" (.array (mountsOf value ++ mounts.map .string))

section Compose

variable (platform : Platform) (document : Document)

/-- The fields of an execution. -/
def executionFields (block : Block) (inst : Instance) (source : PathBuf) (execution : Execution)
    (value : SortedMap String Json) : SortedMap String Json :=
  let runtime := execution.runtime
  let mount (value : SortedMap String Json) : SortedMap String Json :=
    value.insert "volumes" (.strings [mountText source runtime.sourceMount runtime.writable])
  match execution with
  | .container image build command _ =>
    let mounted := inst.remoteDevice.isNone
    let value := match image with
      | some image => value.insert "image" (.string image)
      | none => value
    let value := match build with
      | some build =>
        value.insert "build" (.obj (("context", .string (source.join build.context).text) ::
          build.dockerfile.toList.map fun dockerfile => ("dockerfile", .string dockerfile.text)))
      | none => value
    let directory := runtime.workingDirectory.or
      (if mounted && !command.isEmpty then some runtime.sourceMount else none)
    let value := addRuntimeFields document block inst command directory runtime.environment value
    if mounted then mount value else value
  | .script image command _ _ =>
    let value := value.insert "image" (.string image)
    mount (addRuntimeFields document block inst command runtime.workingDirectory runtime.environment value)
  | .processCompose image file _ =>
    let value := value.insert "image" (.string image)
    let command := ["process-compose", "--ordered-shutdown", "--no-server", "-t=false", "-f",
      (runtime.sourceMount.join file).text, "up"]
    mount (addRuntimeFields document block inst command
      (runtime.workingDirectory.or (some runtime.sourceMount)) runtime.environment value)

/-- Whether a service runs to its end. -/
def Service.isTask (service : Service) : Bool :=
  match service.execution with
  | .script _ _ .task _ => true
  | _ => false

/-- `compose_application`. -/
def composeApplication (block : Block) (inst : Instance) (service : Service) (source : PathBuf) (network : String)
    (labels : SortedMap String String) : SortedMap String Json :=
  let value := SortedMap.ofList [("labels", .ofTexts labels), ("networks", .strings [network])]
  let value := if service.isTask then value else value.insert "restart" (.string "unless-stopped")
  let value := executionFields document block inst source service.execution value
  let value := addMounts (service.volumes.map fun volume =>
    mountText ⟨resourceName platform [document.metadata.name, inst.name, volume.name]⟩ volume.target
      (!volume.readOnly)) value
  let value := if service.publish.isEmpty then value else value.insert "ports" (composePorts service.publish)
  match service.probe with
  | some probe => value.insert "healthcheck" (composeProbe probe)
  | none => value

/-- `overlay_secret_variable`. -/
def overlaySecretVariable (inst key : String) : String :=
  let digest := (hexDigest (platform.sha256 s!"{inst}\x00{key}")).toList.take 16
  "APMPR_OVERLAY_SECRET_" ++ String.ofList (digest.map Char.toUpper)

/-- `add_injected_mounts`. -/
def addInjectedMounts (overlay : Option OverlayResolution) (inst : String) (artifactDir : PathBuf)
    (value : SortedMap String Json) : SortedMap String Json :=
  match overlay with
  | none => value
  | some resolution =>
    addMounts ((resolution.files.filter fun file => file.inst = inst).map fun file =>
      mountText (artifactDir.join file.relativePath) file.target false) value

/-- The environment with the secrets of an instance, to be filled in when it is run. -/
def secretFields (overlay : Option OverlayResolution) (inst : String) : List (String × Json) :=
  overlay.toList.flatMap fun resolution =>
    (resolution.secretEnvironment.keys.filter fun k => (ofLex k).1 = inst).map fun k =>
      ((ofLex k).2, .string ("$\x7b" ++ overlaySecretVariable platform inst (ofLex k).2 ++
        ":?overlay secret is required\x7d"))

/-- `apply_overlay_environment`. -/
def applyOverlayEnvironment (overlay : Option OverlayResolution) (inst : Instance) (value : SortedMap String Json) :
    SortedMap String Json :=
  match value.get? "environment" with
  | some (.object fields) =>
    let kept := fields.filter fun field => !inst.environmentUnset.contains field.1
    value.insert "environment" (.ofMap ((SortedMap.ofList kept).insertAll (secretFields platform overlay inst.name)))
  | _ => value

/-- The Compose name of a condition. -/
def DependencyCondition.compose : DependencyCondition → String
  | .started => "service_started"
  | .healthy => "service_healthy"
  | .completedSuccessfully => "service_completed_successfully"

/-- The Compose service a dependency names. -/
def dependencyService (routed : List String) (inst reference : String) : String :=
  let target := (Text.splitOnce '/' reference).getD (inst, reference)
  let name := serviceNameFor platform document.metadata.name target.1 target.2
  if routed.contains target.1 then resourceName platform [name, "app"] else name

/-- `add_compose_dependencies`. -/
def addComposeDependencies (routed : List String) (inst : Instance) (service : Service)
    (value : SortedMap String Json) : SortedMap String Json :=
  if service.dependsOn.entries.isEmpty then value
  else
    value.insert "depends_on" (.obj (service.dependsOn.entries.map fun (reference, condition) =>
      (dependencyService platform document routed inst.name reference,
        .obj [("condition", .string condition.compose)])))

/-- `compose_namespace_service`, with the ports and aliases `generate` gives it. -/
def composeNamespace (network : String) (labels : SortedMap String String) (ports : List U16) (aliases : List String) :
    Json :=
  let value := SortedMap.ofList [("image", .string "alpine:3.22"), ("command", .strings ["sleep", "infinity"]),
    ("restart", .string "unless-stopped"),
    ("networks", .obj [(network, .obj [("aliases", .strings aliases)])]), ("labels", .ofTexts labels)]
  .ofMap (if ports.isEmpty then value else value.insert "ports" (composePorts ports))

/-- `compose_sidecar`. -/
def composeSidecar (image namespaceService sidecar : String) (configPath : PathBuf) (labels : SortedMap String String)
    (transparent : Bool) : Json :=
  let file := configPath.fileName.getD ""
  let value := SortedMap.ofList [("image", .string image), ("user", .string "$\x7bAPMPR_UID:-1000\x7d:$\x7bAPMPR_GID:-1000\x7d"),
    ("restart", .string "unless-stopped"), ("network_mode", .string s!"service:{namespaceService}"),
    ("command", .strings ["/usr/local/bin/apmpr-router", s!"/config/{file}", "/tmp/apmpr-admin.socket"]),
    ("environment", .obj [("APMPR_ROUTER_TOKEN",
      .string "$\x7bAPMPR_ROUTER_TOKEN:?set APMPR_ROUTER_TOKEN\x7d")]),
    ("volumes", .strings [mountText configPath ⟨s!"/config/{file}"⟩ false]),
    ("depends_on", .obj [(namespaceService, .obj [("condition", .string "service_started")])]),
    ("healthcheck", .obj [("test", .strings ["CMD", "test", "-S", "/tmp/apmpr-admin.socket"]),
      ("interval", .string "1s"), ("timeout", .string "1s"), ("retries", .nat 30)]),
    ("labels", .ofTexts labels), ("container_name", .string sidecar)]
  .ofMap (if transparent then value.insertAll [("user", .string "0:0"), ("cap_drop", .strings ["ALL"]),
    ("cap_add", .strings ["NET_ADMIN"]), ("security_opt", .strings ["no-new-privileges:true"])] else value)

/-- `transparent_members`: the members of a group, in order, and where their services are. -/
def transparentMembers (groups : ResolvedGroups) (group : String) (devices : Devices) : List Json :=
  ((groups.members.get? group).getD []).flatMap fun member =>
    let name := memberInstance member
    match (instanceMap document.spec).get? name with
    | none => []
    | some inst =>
      match inst.external with
      | some host =>
        [.obj [("component", .string name), ("host", .string host),
          ("ports", .array (inst.expandedExternalPorts.map fun port => .nat port))]]
      | none =>
        ((document.spec.blocks.get? inst.block).toList.flatMap fun block =>
          (block.services.keys.filter (namesService member)).map fun service =>
            let host := match inst.remoteDevice.bind devices.get? with
              | some device => device.host
              | none => serviceNameFor platform document.metadata.name name service
            .obj [("component", .string s!"{name}/{service}"), ("host", .string host)])

/-- `router_config`: the configuration of a sidecar router. -/
def routerConfig (groups : ResolvedGroups) (devices : Devices) (consumer : Instance) (transparent : Bool)
    (group : Option String) : Json :=
  let transition := Json.obj [("strategy", .string "close")]
  let spec := [("snapshot", .obj [
      ("id", .string (resourceName platform [document.metadata.name, consumer.name, "initial"])), ("version", .nat 1),
      ("transitions", .obj [("http", transition), ("https", transition), ("websocket", transition),
        ("grpc", transition), ("tcp", transition)])]),
    ("listeners", .array []), ("providers", .array []), ("routes", .array [])]
  let proxy := if transparent then [("transparentProxy", Json.obj [("consumer", .string consumer.name),
    ("port", .nat 65535),
    ("members", .array (group.toList.flatMap fun group => transparentMembers platform document groups group devices)),
    ("connectTimeoutMs", .nat 250)])] else []
  .obj [("apiVersion", .string "apmpr.dev/router/v1alpha1"), ("kind", .string "RouterConfiguration"),
    ("metadata", .obj [("deployment", .string document.metadata.name)]), ("spec", .obj (spec ++ proxy))]

end Compose

/-! ### Instances -/

/-- Whether an instance is a declared member of a group. -/
def declaredMember (groups : ResolvedGroups) (inst : String) : Bool :=
  groups.declaredMembers.values.any fun members => members.any fun member => memberInstance member = inst

/-- `selected_group_for_instance`: the group of an instance that is active in exactly one. -/
def selectedGroupForInstance (groups : ResolvedGroups) (inst : String) : Option String :=
  match (groups.members.entries.filter fun entry => entry.2.any fun member => memberInstance member = inst).map
      Prod.fst with
  | [group] => some group
  | _ => none

/-- Whether the connections of an instance are routed by its group. -/
def isTransparent (groups : ResolvedGroups) (inst : String) : Bool :=
  (selectedGroupForInstance groups inst).isSome || declaredMember groups inst

/-- `routed_instances`: the instances that are run here behind a router. -/
def routedInstances (spec : DeploymentSpec) (groups : ResolvedGroups) : List String :=
  (spec.instances.filter fun inst =>
    !inst.isExternal && inst.remoteDevice.isNone && isTransparent groups inst.name).map (·.name)

/-- What an instance adds to the Compose project of its device. -/
structure InstanceOutput where
  inst : Instance
  services : List (String × Json)
  volumes : List (String × Json)
  route : Option (Json × SidecarPlan)
  identity : SourceIdentity

/-- An application in the network of its instance's namespace, behind the sidecar. -/
def behindSidecar (namespaceService sidecar : String) (value : SortedMap String Json) : SortedMap String Json :=
  let value := (value.erase "networks").erase "ports"
  let value := value.insert "network_mode" (.string s!"service:{namespaceService}")
  let dependencies := ((value.get? "depends_on").bind Json.asObject).getD []
  value.insert "depends_on" (.ofMap ((SortedMap.ofList dependencies).insert sidecar
    (.obj [("condition", .string "service_healthy")])))

/-- The directory of the generated artifacts, in the workspace. -/
def artifactDir (deployment : String) : PathBuf := (⟨".apmpr/generated"⟩ : PathBuf).join ⟨deployment⟩

section Instances

variable (platform : Platform) (bundle : Bundle) (groups : ResolvedGroups) (overlay : Option OverlayResolution)
  (devices : Devices) (resourceHash : String)

/-- The private network of a deployment. -/
def networkName (deployment : String) : String := resourceName platform ["apmpr", deployment, "private"]

/-- `remote_network_name`. -/
def remoteNetworkName (deployment device : String) : String :=
  resourceName platform ["apmpr", s!"{deployment}-{device}", "private"]

/-- The Compose project of a deployment. -/
def projectName (deployment : String) : String := resourceName platform ["apmpr", deployment]

/-- The labels of one service of an instance. -/
def serviceLabels (deployment : String) (inst : Instance) (service : String) : SortedMap String String :=
  (instanceLabels deployment resourceHash inst).insert "dev.apmpr.service" service

/-- The volumes of one service. -/
def serviceVolumes (deployment : String) (inst : Instance) (entry : String × Service) : List (String × Json) :=
  entry.2.volumes.map fun volume =>
    (resourceName platform [deployment, inst.name, volume.name],
      .obj [("labels", .ofTexts (serviceLabels resourceHash deployment inst entry.1)),
        ("name", .string (resourceName platform ["apmpr", deployment, inst.name, volume.name]))])

/-- A service before it is placed: the application, the injected files and the overlay's
environment. -/
def overlaidApplication (block : Block) (inst : Instance) (source : PathBuf) (network : String)
    (entry : String × Service) : SortedMap String Json :=
  let deployment := bundle.document.metadata.name
  let labels := serviceLabels resourceHash deployment inst entry.1
  let app := composeApplication platform bundle.document block inst entry.2 source network labels
  let app := addInjectedMounts overlay inst.name (bundle.workspaceRoot.join (artifactDir deployment)) app
  applyOverlayEnvironment platform overlay inst app

/-- A service of an instance on a device. -/
def remoteService (block : Block) (inst : Instance) (source : PathBuf) (device : String) (entry : String × Service) :
    String × Json :=
  let deployment := bundle.document.metadata.name
  let app := overlaidApplication platform bundle overlay resourceHash block inst source
    (remoteNetworkName platform deployment device) entry
  let app := app.insert "ports" (composeRemotePorts entry.2.publish)
  (serviceNameFor platform deployment inst.name entry.1,
    .ofMap (addComposeDependencies platform bundle.document (routedInstances bundle.document.spec groups) inst
      entry.2 app))

/-- A service of an instance that is run here. -/
def localService (block : Block) (inst : Instance) (source : PathBuf) (entry : String × Service) : String × Json :=
  let deployment := bundle.document.metadata.name
  let routed := routedInstances bundle.document.spec groups
  let app := overlaidApplication platform bundle overlay resourceHash block inst source
    (networkName platform deployment) entry
  let app := addComposeDependencies platform bundle.document routed inst entry.2 app
  let base := serviceNameFor platform deployment inst.name entry.1
  if routed.contains inst.name then
    (resourceName platform [base, "app"], .ofMap (behindSidecar
      (resourceName platform [deployment, inst.name, "namespace"])
      (resourceName platform [deployment, inst.name, "router"]) app))
  else (base, .ofMap app)

/-- The namespace of a routed instance: it publishes the ports and has the names of all its
services. -/
def namespaceEntry (block : Block) (inst : Instance) : String × Json :=
  let deployment := bundle.document.metadata.name
  let ports := (SortedMap.ofList ((block.services.values.flatMap (·.publish)).map fun port => (port, ()))).keys
  (resourceName platform [deployment, inst.name, "namespace"],
    composeNamespace (networkName platform deployment) (serviceLabels resourceHash deployment inst "namespace") ports
      (block.services.keys.map (serviceNameFor platform deployment inst.name)))

/-- The sidecar of a routed instance. -/
def sidecarEntry (inst : Instance) : String × Json :=
  let deployment := bundle.document.metadata.name
  let sidecar := resourceName platform [deployment, inst.name, "router"]
  let configPath := ((bundle.workspaceRoot.join (artifactDir deployment)).join ⟨"routes"⟩).join ⟨s!"{inst.name}.json"⟩
  (sidecar, composeSidecar bundle.document.spec.routerImage
    (resourceName platform [deployment, inst.name, "namespace"]) sidecar configPath
    (serviceLabels resourceHash deployment inst "router") (isTransparent groups inst.name))

/-- The configuration of a routed instance's sidecar, and where it is. -/
def sidecarRoute (inst : Instance) : Json × SidecarPlan :=
  let deployment := bundle.document.metadata.name
  (routerConfig platform bundle.document groups devices inst (isTransparent groups inst.name)
      (selectedGroupForInstance groups inst.name),
    { service := resourceName platform [deployment, inst.name, "router"]
      adminSocket := ⟨"/tmp/apmpr-admin.socket"⟩
      configPath := ((artifactDir deployment).join ⟨"routes"⟩).join ⟨s!"{inst.name}.json"⟩ })

/-- The services of an instance, given its block and the directory of its source. -/
def instanceServices (block : Block) (inst : Instance) (source : PathBuf) : List (String × Json) :=
  match inst.remoteDevice with
  | some device =>
    block.services.entries.map (remoteService platform bundle groups overlay resourceHash block inst source device)
  | none =>
    let services := block.services.entries.map (localService platform bundle groups overlay resourceHash block inst source)
    if (routedInstances bundle.document.spec groups).contains inst.name then
      namespaceEntry platform bundle resourceHash block inst :: services ++
        [sidecarEntry platform bundle groups resourceHash inst]
    else services

/-- One round of the loop over the instances that are run. An instance without a block or
source ends it in a panic. -/
def instanceOutput (inst : Instance) : Except Failure InstanceOutput :=
  match bundle.document.spec.blocks.get? inst.block, bundle.document.spec.sources.get? inst.source with
  | some block, some source =>
    let directory := resolvePath bundle.definitionDir source.path
    let deployment := bundle.document.metadata.name
    let routed := inst.remoteDevice.isNone && (routedInstances bundle.document.spec groups).contains inst.name
    .ok {
      inst := inst
      services := instanceServices platform bundle groups overlay resourceHash block inst directory
      volumes := block.services.entries.flatMap (serviceVolumes platform resourceHash deployment inst)
      route := if routed then some (sidecarRoute platform bundle groups devices inst) else none
      identity := platform.inspect bundle.workspaceRoot directory source.ref }
  | none, _ => .error (.panicked s!"no block {inst.block}")
  | some _, none => .error (.panicked s!"no source {inst.source}")

/-- The outputs of the instances that are run. -/
def instanceOutputs : Except Failure (List InstanceOutput) :=
  (bundle.document.spec.instances.filter fun inst => !inst.isExternal).mapM
    (instanceOutput platform bundle groups overlay devices resourceHash)

end Instances

/-! ### Compose projects -/

section Projects

variable (platform : Platform) (deployment resourceHash : String) (devices : Devices)

/-- A Compose project. -/
def composeFile (project network : String) (labels : SortedMap String String) (outputs : List InstanceOutput) : Json :=
  .obj [("name", .string project), ("services", .obj (outputs.flatMap (·.services))),
    ("networks", .obj [(network, .obj [("name", .string network), ("driver", .string "bridge"),
      ("labels", .ofTexts labels)])]),
    ("volumes", .obj (outputs.flatMap (·.volumes)))]

/-- The outputs of the instances that are run here. -/
def localOutputs (outputs : List InstanceOutput) : List InstanceOutput :=
  outputs.filter fun output => output.inst.remoteDevice.isNone

/-- The local Compose project. -/
def localCompose (outputs : List InstanceOutput) : Json :=
  composeFile (projectName platform deployment) (networkName platform deployment)
    (ownershipLabels deployment resourceHash) (localOutputs outputs)

/-- The devices that are given a service, by name. -/
def usedDevices (outputs : List InstanceOutput) : List String :=
  (SortedMap.ofList (outputs.filterMap fun output =>
    if output.services.isEmpty then none else output.inst.remoteDevice.map fun device => (device, ()))).keys

/-- The Compose project of a device; one that is not registered ends generation in a panic. -/
def remoteProject (outputs : List InstanceOutput) (device : String) : Except Failure (String × RemoteComposePlan) :=
  match devices.get? device with
  | none => .error (.panicked s!"no device {device}")
  | some details =>
    let own := outputs.filter fun output => output.inst.remoteDevice = some device
    let project := s!"{projectName platform deployment}-{device}"
    .ok (device, {
      device := details
      composeProject := project
      composeFile := ⟨s!"compose.{device}.yaml"⟩
      compose := composeFile project (remoteNetworkName platform deployment device)
        ((ownershipLabels deployment resourceHash).insert "dev.apmpr.device" device) own
      services := own.flatMap fun output => output.services.map Prod.fst })

/-- The Compose projects of the devices. -/
def remoteProjects (outputs : List InstanceOutput) : Except Failure (SortedMap String RemoteComposePlan) := do
  let projects ← (usedDevices outputs).mapM (remoteProject platform deployment resourceHash devices outputs)
  return .ofList projects

end Projects

/-! ### The rest of the plan -/

/-- One published upstream, as the host reaches it. -/
def hostUpstream (platform : Platform) (document : Document) (devices : Devices) (upstream : PublishedUpstream) :
    HostUpstreamPlan :=
  let spec := document.spec
  let inst := spec.instances.find? fun inst => inst.name = upstream.inst
  let member := spec.groups.values.any fun group => group.instances.any fun m => memberInstance m = upstream.inst
  { composeService :=
      if (inst.any fun inst => inst.remoteDevice.isNone) && member then
        resourceName platform [document.metadata.name, upstream.inst, "namespace"]
      else serviceNameFor platform document.metadata.name upstream.inst upstream.service
    containerPort := upstream.port
    remoteAddress := (placedOn spec devices upstream.inst).map fun device => s!"{device.host}:{upstream.port}" }

/-- `host_upstreams`. -/
def hostUpstreams (platform : Platform) (document : Document) (devices : Devices) :
    SortedMap String HostUpstreamPlan :=
  document.spec.hostUpstreams.mapValues fun _ upstream => hostUpstream platform document devices upstream

/-- The probes of external instances; a probe without a host ends generation in a panic. -/
def externalProbes (spec : DeploymentSpec) : Except Failure (List ExternalProbePlan) :=
  (spec.instances.filterMap fun inst => inst.probe.map (inst, ·)).mapM fun (inst, probe) =>
    match inst.external with
    | some host => .ok ⟨inst.name, host, probe⟩
    | none => .error (.panicked "validated external probe")

/-- The repository in a resolved deployment: the clone that is used for it. -/
def resolvedRepository (bundle : Bundle) (name : String) (repository : Repository) : Repository :=
  if repository.url.isSome then ⟨none, some ((cloneRoot bundle.workspaceRoot).join ⟨name⟩)⟩
  else ⟨none, repository.clone.map (resolvePath bundle.definitionDir)⟩

/-- The source in a resolved deployment. -/
def resolvedSource (bundle : Bundle) (source : Source) : Source :=
  { source with path := resolvePath bundle.definitionDir source.path }

/-- A document with other repositories and sources. -/
def Document.withPaths (document : Document) (repositories : SortedMap String Repository)
    (sources : SortedMap String Source) : Document :=
  document.withSpec { document.spec with repositories := repositories, sources := sources }

/-- The resolved deployment: the document with the paths it was planned with. -/
def resolvedDocument (bundle : Bundle) : Document :=
  bundle.document.withPaths (bundle.document.spec.repositories.mapValues (resolvedRepository bundle))
    (bundle.document.spec.sources.mapValues fun _ source => resolvedSource bundle source)

/-- The secrets to be filled in when the deployment is run. -/
def runtimeSecrets (platform : Platform) (resolution : OverlayResolution) : List RuntimeSecretPlan :=
  resolution.secretEnvironment.entries.map fun (key, reference) =>
    ⟨overlaySecretVariable platform (ofLex key).1 (ofLex key).2, reference⟩

/-- An error of `generate` as planning reports it. -/
def generateError {α : Type} : Except String α → Except Failure α
  | .ok value => .ok value
  | .error message => .error (.diagnostics [⟨.invalidPath, "$", message⟩])

/-- The hash of a plan's resources. -/
def resourceHashOf (platform : Platform) (document : Document) (overlay : Option OverlayResolution)
    (devices : Devices) : String :=
  platform.hash (resourceChunks document overlay devices)

/-- The plan, from what its instances and devices are given. -/
def assemblePlan (platform : Platform) (bundle : Bundle) (overlay : Option OverlayResolution) (devices : Devices)
    (profiles : List (String × ManagedProfilePlan)) (config : Option RouterConfig) (probes : List ExternalProbePlan)
    (outputs : List InstanceOutput) (remotes : SortedMap String RemoteComposePlan) : Plan :=
  let deployment := bundle.document.metadata.name
  let resourceHash := resourceHashOf platform bundle.document overlay devices
  { deployment := deployment
    definitionHash := platform.hash (definitionChunks bundle.document overlay)
    resourceHash := resourceHash
    composeProject := projectName platform deployment
    artifactDir := artifactDir deployment
    compose := localCompose platform deployment resourceHash outputs
    localServiceCount := (SortedMap.ofList ((localOutputs outputs).flatMap (·.services))).entries.length
    remoteProjects := remotes
    resolvedDeployment := resolvedDocument bundle
    routeConfigs := .ofList (outputs.filterMap fun output => output.route.map fun route => (output.inst.name, route.1))
    sidecars := .ofList (outputs.filterMap fun output => output.route.map fun route => (output.inst.name, route.2))
    managedProfiles := profiles
    hostRouterConfig := config
    hostUpstreams := hostUpstreams platform bundle.document devices
    sourceIdentities := .ofList (outputs.map fun output => (output.inst.name, output.identity))
    origins := (overlay.map (·.origins)).getD []
    injectedFiles := (overlay.map (·.files)).getD []
    externalProbes := probes
    runtimeSecrets := (overlay.map (runtimeSecrets platform)).getD []
    hasOverrides := overlay.isSome }

/-- `generate`. -/
def generate (platform : Platform) (bundle : Bundle) (groups : ResolvedGroups) (overlay : Option OverlayResolution)
    (devices : Devices) : Except Failure Plan := do
  let deployment := bundle.document.metadata.name
  let resourceHash := resourceHashOf platform bundle.document overlay devices
  let profiles ← managedProfiles platform bundle.document
  let config ← generateError (generateHostRouterConfig platform bundle groups profiles devices)
  let probes ← externalProbes bundle.document.spec
  let outputs ← instanceOutputs platform bundle groups overlay devices resourceHash
  let remotes ← remoteProjects platform deployment resourceHash devices outputs
  return assemblePlan platform bundle overlay devices profiles config probes outputs remotes

end Apmpr.Planner
