import Apmpr.Planner.Profiles

/-!
# Validation of a deployment

`validate` of the crate `apmpr-planner`: every check it makes, in the order it makes them,
with the code, the path and the message of each diagnostic. A check returns the
diagnostics it finds. The messages of the JSON-schema validator behind the built-in
adapters are the platform's.
-/

namespace Apmpr.Planner

open Router (RouterConfig)

/-- One diagnostic where a condition holds. -/
def reportIf (b : Bool) (d : Diagnostic) : List Diagnostic := if b then [d] else []

@[simp] theorem reportIf_eq_nil (b : Bool) (d : Diagnostic) : reportIf b d = [] ↔ b = false := by
  cases b <;> simp [reportIf]

/-! ### Repositories and sources -/

/-- Where the clone of a repository is. -/
def repositoryPath (bundle : Bundle) (name : String) (repository : Repository) : Except Diagnostic PathBuf :=
  match repository.url, repository.clone with
  | some url, none =>
    if Text.isBlank url then
      .error ⟨.invalidPath, s!"spec.repositories.{name}.url", "repository URL must not be empty"⟩
    else .ok ((cloneRoot bundle.workspaceRoot).join ⟨name⟩)
  | none, some path => .ok (resolvePath bundle.definitionDir path)
  | _, _ =>
    .error ⟨.unsupportedSchema, s!"spec.repositories.{name}", "exactly one of `url` or `clone` is required"⟩

/-- The diagnostic of a result that is one. -/
def errorOf {α : Type} : Except Diagnostic α → List Diagnostic
  | .ok _ => []
  | .error d => [d]

/-- The checks of one repository. -/
def repositoryErrors (bundle : Bundle) (entry : String × Repository) : List Diagnostic :=
  validateName entry.1 s!"spec.repositories.{entry.1}" ++ errorOf (repositoryPath bundle entry.1 entry.2)

/-- `repository_paths`: the clone of a declared repository. -/
def repositoryClone (bundle : Bundle) (name : String) : Option PathBuf :=
  (bundle.document.spec.repositories.get? name).bind fun repository =>
    (repositoryPath bundle name repository).toOption

/-- `generated_definition`: the definition is one the planner wrote. -/
def generatedDefinition (definitionDir : PathBuf) : Bool :=
  hasComponent definitionDir "generated" && hasComponent definitionDir ".apmpr"

/-- The texts an adapter's schema requires to be there; each empty one is reported. -/
def emptyTexts (platform : Platform) (fields : List (String × String)) : List String :=
  fields.filterMap fun (field, value) => if value = "" then some (platform.schemaMessage field) else none

/-- What the adapter `source-git` finds. -/
def sourceGitErrors (platform : Platform) (source : Source) : List String :=
  emptyTexts platform [("path", source.path.text), ("repository", source.repository), ("ref", source.ref)]

/-- The normalized path of a source. -/
def sourcePath (bundle : Bundle) (source : Source) : List PathBuf.Component :=
  normalizePath (resolvePath bundle.definitionDir source.path)

/-- The check of a source's repository. -/
def sourceRepositoryErrors (bundle : Bundle) (name : String) (source : Source) : List Diagnostic :=
  match repositoryClone bundle source.repository with
  | none =>
    [⟨.missingReference, s!"spec.sources.{name}.repository", s!"unknown repository `{source.repository}`"⟩]
  | some clone =>
    reportIf (pathsOverlap (sourcePath bundle source) (normalizePath clone))
      ⟨.invalidPath, s!"spec.sources.{name}.path",
        "source worktree and repository clone may not be the same directory or contain one another"⟩

/-- The checks of one source, after the sources before it. -/
def sourceErrors (platform : Platform) (bundle : Bundle) (earlier : List (String × Source)) (name : String)
    (source : Source) : List Diagnostic :=
  let generated := generatedDefinition bundle.definitionDir
  let path := sourcePath bundle source
  validateName name s!"spec.sources.{name}" ++
    (sourceGitErrors platform source).map (fun message => ⟨.invalidPath, s!"spec.sources.{name}", message⟩) ++
    reportIf (source.path.isAbsolute && !generated)
      ⟨.invalidPath, s!"spec.sources.{name}.path", "source path must be relative to the deployment file"⟩ ++
    reportIf (!generated && !bundle.workspaceRoot.components.isPrefixOf path)
      ⟨.invalidPath, s!"spec.sources.{name}.path",
        s!"source path `{source.path.text}` escapes project directory `{bundle.workspaceRoot.text}`"⟩ ++
    (match earlier.reverse.find? fun other => sourcePath bundle other.2 = path with
      | some previous =>
        [⟨.duplicateName, s!"spec.sources.{name}.path", s!"source path is already used by `{previous.1}`"⟩]
      | none => []) ++
    reportIf (Text.isBlank source.ref)
      ⟨.missingReference, s!"spec.sources.{name}.ref", "source ref must not be empty"⟩ ++
    sourceRepositoryErrors bundle name source

/-- The checks of the sources after some of them. -/
def allSourceErrors (platform : Platform) (bundle : Bundle) :
    List (String × Source) → List (String × Source) → List Diagnostic
  | _, [] => []
  | earlier, (name, source) :: rest =>
    sourceErrors platform bundle earlier name source ++
      allSourceErrors platform bundle (earlier ++ [(name, source)]) rest

/-! ### Blocks -/

/-- `invalid_path` of an adapter: a path that leaves the source. -/
def leavesSource (path : PathBuf) : Bool := path.isAbsolute || path.components.contains .parentDir

/-- The texts a path that leaves the source is reported with. -/
def leavingPaths (paths : List PathBuf) : List String :=
  (paths.filter leavesSource).map fun _ => "path must stay within the selected source"

/-- What a built-in execution adapter finds: whether it is a missing reference, and the
message. An adapter whose schema is violated looks no further. -/
def executionErrors (platform : Platform) : Execution → List (Bool × String)
  | .container image build _ runtime =>
    let schema := emptyTexts platform
      ((build.toList.map fun b => ("build.context", b.context.text)) ++ [("sourceMount", runtime.sourceMount.text)])
    if !schema.isEmpty then schema.map (true, ·)
    else
      (if (image.getD "" = "") && build.isNone then [(true, "container execution needs image or build")] else []) ++
        (leavingPaths (build.toList.flatMap fun b => b.context :: b.dockerfile.toList)).map (false, ·)
  | .script image command _ runtime =>
    (emptyTexts platform [("image", image), ("sourceMount", runtime.sourceMount.text)] ++
      (if command.isEmpty then [platform.schemaMessage "command"] else [])).map (true, ·)
  | .processCompose image file runtime =>
    let schema := emptyTexts platform
      [("image", image), ("file", file.text), ("sourceMount", runtime.sourceMount.text)]
    if !schema.isEmpty then schema.map (false, ·) else (leavingPaths [file]).map (false, ·)

/-- `validate_execution`. -/
def validateExecution (platform : Platform) (block service : String) (execution : Execution) : List Diagnostic :=
  (executionErrors platform execution).map fun (missing, message) =>
    ⟨if missing then .missingReference else .invalidPath,
      s!"spec.blocks.{block}.services.{service}.execution", message⟩

/-- What the adapter `probe-health` finds. -/
def probeErrors (platform : Platform) : Probe → List String
  | .http path port _ => if path = "" || port = 0 then [platform.schemaMessage "probe"] else []
  | .tcp port => if port = 0 then [platform.schemaMessage "probe"] else []
  | .command command => if command.isEmpty then [platform.schemaMessage "probe"] else []

/-- The diagnostics of a probe at a path. -/
def validateProbe (platform : Platform) (path : String) (probe : Option Probe) : List Diagnostic :=
  (probe.toList.flatMap (probeErrors platform)).map fun message => ⟨.missingReference, path, message⟩

/-- The search for a cycle from a node: whether there is one, and the nodes that were
looked at. A node on the path `active` closes a cycle, one in `done` was looked at before. -/
def cyclicFrom (edges : String → List String) : ℕ → String → List String → List String → Bool × List String
  | 0, _, _, done => (false, done)
  | fuel + 1, node, active, done =>
    if active.contains node then (true, done)
    else if done.contains node then (false, done)
    else
      (edges node).foldl
        (fun found next => if found.1 then found else cyclicFrom edges fuel next (node :: active) found.2)
        (false, node :: done)

/-- The services of the same block a service depends on. -/
def localDependencies (service : Service) : List String :=
  service.dependsOn.keys.filter fun dependency => !Text.contains dependency "/"

/-- The edges of a block's own dependency graph. -/
def localEdges (block : Block) (service : String) : List String :=
  ((block.services.get? service).toList.flatMap localDependencies).filter block.services.contains

/-- `validate_local_dependencies`, from a service on. -/
def localDependencyErrors (name : String) (block : Block) :
    List (String × Service) → List String → List Diagnostic
  | [], _ => []
  | (service, definition) :: rest, done =>
    match cyclicFrom (localEdges block) (block.services.entries.length + 1) service [] done with
    | (true, _) =>
      [⟨.dependencyCycle, s!"spec.blocks.{name}.services.{service}.dependsOn", "service dependency cycle detected"⟩]
    | (false, done) =>
      ((localDependencies definition).filter fun dependency => !block.services.contains dependency).map
          (fun dependency => ⟨.missingReference, s!"spec.blocks.{name}.services.{service}.dependsOn",
            s!"unknown local service {dependency}"⟩) ++
        localDependencyErrors name block rest done

/-- The checks of one volume. -/
def volumeErrors (block service : String) (volume : VolumeMount) : List Diagnostic :=
  validateName volume.name s!"spec.blocks.{block}.services.{service}.volumes" ++
    reportIf (!volume.target.isAbsolute)
      ⟨.invalidPath, s!"spec.blocks.{block}.services.{service}.volumes",
        "volume target must be an absolute container path"⟩

/-- The checks of one service. -/
def serviceErrors (platform : Platform) (block : String) (entry : String × Service) : List Diagnostic :=
  validateName entry.1 s!"spec.blocks.{block}.services.{entry.1}" ++
    validateExecution platform block entry.1 entry.2.execution ++
    validateProbe platform s!"spec.blocks.{block}.services.{entry.1}.probe" entry.2.probe ++
    entry.2.volumes.flatMap (volumeErrors block entry.1)

/-- `validate_block`. -/
def blockErrors (platform : Platform) (entry : String × Block) : List Diagnostic :=
  validateName entry.1 s!"spec.blocks.{entry.1}" ++
    reportIf entry.2.services.entries.isEmpty
      ⟨.missingReference, s!"spec.blocks.{entry.1}.services", "a block must contain at least one service"⟩ ++
    entry.2.services.entries.flatMap (serviceErrors platform entry.1) ++
    localDependencyErrors entry.1 entry.2 entry.2.services.entries []

/-! ### Instances -/

/-- The checks of one external port, and the ports it adds. -/
def externalPortStep (path : String) (state : List U16 × List Diagnostic) (entry : ExternalPort × ℕ) :
    List U16 × List Diagnostic :=
  let portPath := s!"{path}.ports[{entry.2}]"
  let (start, stop) := entry.1.ends
  if start = 0 || stop = 0 then
    (state.1, state.2 ++ [⟨.invalidPath, portPath, "external ports must be between 1 and 65535"⟩])
  else if stop < start then
    (state.1, state.2 ++ [⟨.invalidPath, portPath, s!"external port range start {start} exceeds end {stop}"⟩])
  else if 1024 < stop.val - start.val + 1 then
    (state.1, state.2 ++ [⟨.invalidPath, portPath, "external port ranges may contain at most 1024 ports"⟩])
  else
    (portsBetween start stop).foldl (fun state value =>
      if state.1.contains value then
        (state.1, state.2 ++ [⟨.duplicateName, portPath, s!"external port {value} is declared more than once"⟩])
      else (value :: state.1, state.2)) state

/-- The port of a probe. -/
def Probe.port : Probe → Option U16
  | .http _ port _ => some port
  | .tcp port => some port
  | .command _ => none

/-- `validate_external_instance`. -/
def externalInstanceErrors (platform : Platform) (path : String) (inst : Instance) : List Diagnostic :=
  let host := inst.external.getD ""
  let ports := inst.ports.zipIdx.foldl (externalPortStep path) ([], [])
  reportIf (Text.isBlank host || !(plausibleHostname host || (IpAddr.parse host).isSome))
      ⟨.invalidPath, s!"{path}.external", "external must be a nonempty hostname or IP address without a port"⟩ ++
    reportIf (inst.block ≠ "" || inst.source ≠ "" || inst.device.isSome || inst.address.isSome ||
        !inst.parameters.entries.isEmpty || !inst.environment.entries.isEmpty || !inst.environmentUnset.isEmpty)
      ⟨.unsupportedSchema, path,
        "an external instance may contain only `name`, `external`, `ports`, optional `probe`, and labels"⟩ ++
    reportIf inst.ports.isEmpty
      ⟨.missingReference, s!"{path}.ports", "an external instance must declare at least one port"⟩ ++
    ports.2 ++
    validateProbe platform s!"{path}.probe" inst.probe ++
    reportIf ((inst.probe.bind Probe.port).any fun port => !ports.1.contains port)
      ⟨.missingReference, s!"{path}.probe.port", "external probe port must be included in the instance `ports` list"⟩

/-- The checks of an instance's device. -/
def deviceErrors (devices : Devices) (path : String) (block : Block) (inst : Instance) : List Diagnostic :=
  match inst.remoteDevice with
  | none => []
  | some device =>
    validateName device s!"{path}.device" ++
      reportIf (!devices.contains device)
        ⟨.missingReference, s!"{path}.device", s!"instance `{inst.name}` references unregistered device `{device}`"⟩ ++
      block.services.entries.flatMap fun (service, definition) =>
        match definition.execution with
        | .container _ _ _ _ => []
        | _ =>
          [⟨.unsupportedSchema, s!"spec.blocks.{inst.block}.services.{service}.execution",
            s!"remote instance `{inst.name}` only supports container execution"⟩]

/-- The path a service needs below its source, and what it is. -/
def neededPath : Execution → Option (PathBuf × String)
  | .container _ (some build) _ _ => some (build.context, "build context")
  | .processCompose _ file _ => some (file, "Process Compose file")
  | _ => none

/-- The files a source that is there must have. -/
def sourceFileErrors (platform : Platform) (bundle : Bundle) (block : Block) (inst : Instance) : List Diagnostic :=
  match bundle.document.spec.sources.get? inst.source with
  | none => []
  | some source =>
    let path := resolvePath bundle.definitionDir source.path
    if !platform.pathExists path then []
    else
      block.services.entries.flatMap fun (service, definition) =>
        match neededPath definition.execution with
        | none => []
        | some (relative, description) =>
          let resolved := path.join relative
          reportIf (!platform.pathExists resolved)
            ⟨.invalidPath, s!"spec.blocks.{inst.block}.services.{service}.execution",
              s!"{description} does not exist: {resolved.text}"⟩

/-- The checks of an instance that is run. -/
def managedInstanceErrors (platform : Platform) (bundle : Bundle) (devices : Devices) (path : String)
    (inst : Instance) : List Diagnostic :=
  reportIf (!inst.ports.isEmpty || inst.probe.isSome)
      ⟨.unsupportedSchema, path, "`ports` and instance-level `probe` are valid only with `external`"⟩ ++
    match bundle.document.spec.blocks.get? inst.block with
    | none => [⟨.missingReference, s!"{path}.block", s!"unknown block {inst.block}"⟩]
    | some block =>
      deviceErrors devices path block inst ++
        reportIf (!bundle.document.spec.sources.contains inst.source)
          ⟨.missingReference, s!"{path}.source", s!"unknown source {inst.source}"⟩ ++
        (block.parameters.entries.flatMap fun (name, parameter) =>
          reportIf (parameter.required && parameter.default.isNone && !inst.parameters.contains name)
            ⟨.missingVariable, s!"{path}.parameters.{name}", "required block parameter has no value"⟩) ++
        sourceFileErrors platform bundle block inst

/-- The checks of one instance, after the instances before it. -/
def instanceErrors (platform : Platform) (bundle : Bundle) (devices : Devices) (earlier : List Instance)
    (inst : Instance) : List Diagnostic :=
  let path := s!"spec.instances[{earlier.length}]"
  validateName inst.name s!"{path}.name" ++
    reportIf (earlier.any fun other => other.name = inst.name)
      ⟨.duplicateName, s!"{path}.name", "instance name is declared more than once"⟩ ++
    if inst.isExternal then externalInstanceErrors platform path inst
    else managedInstanceErrors platform bundle devices path inst

/-- The checks of the instances after some of them. -/
def allInstanceErrors (platform : Platform) (bundle : Bundle) (devices : Devices) :
    List Instance → List Instance → List Diagnostic
  | _, [] => []
  | earlier, inst :: rest =>
    instanceErrors platform bundle devices earlier inst ++
      allInstanceErrors platform bundle devices (earlier ++ [inst]) rest

/-! ### Groups -/

/-- What is known while the members of a group are read: the valid members, the members
seen, the places of the instances (the group and index they were last found at), and the
diagnostics. -/
structure GroupScan where
  valid : List String
  seen : List String
  places : List (String × String × ℕ)
  errors : List Diagnostic

/-- A member that can be taken: it must not be listed twice, nor its instance be placed. -/
def placeMember (group path advice : String) (scan : GroupScan) (member : String) (index : ℕ) : GroupScan :=
  let inst := memberInstance member
  if scan.seen.contains member then
    { scan with errors := scan.errors ++
        [⟨.duplicateName, path, s!"group member `{member}` is listed more than once"⟩] }
  else
    let places := (inst, group, index) :: scan.places
    match scan.places.find? fun place => place.1 = inst with
    | some (_, firstGroup, firstIndex) =>
      { scan with
        seen := member :: scan.seen
        places := places
        errors := scan.errors ++ [⟨.duplicateName, path,
          s!"instance `{inst}` belongs to both group `{firstGroup}` (spec.groups.{firstGroup}.instances[{firstIndex}]) and group `{group}`; {advice}"⟩] }
    | none => { scan with valid := scan.valid ++ [member], seen := member :: scan.seen, places := places }

/-- One member of a group. -/
def scanMember (spec : DeploymentSpec) (group : String) (scan : GroupScan) (entry : String × ℕ) : GroupScan :=
  let (member, index) := entry
  let path := s!"spec.groups.{group}.instances[{index}]"
  let inst := memberInstance member
  let fail (message : String) : GroupScan :=
    { scan with errors := scan.errors ++ [⟨.missingReference, path, message⟩] }
  match (instanceMap spec).get? inst with
  | none => fail s!"group member `{member}` does not exist"
  | some definition =>
    if definition.isExternal then
      if (providerReference member).2.isSome then fail s!"external group member `{inst}` must not name a service"
      else placeMember group path "create a separate external instance for each group" scan member index
    else
      match spec.blocks.get? definition.block with
      | none => scan
      | some block =>
        if (providerReference member).2.any fun service => !block.services.contains service then
          fail s!"`{member}` does not name a service on group member `{inst}`"
        else placeMember group path "create a separate instance to reuse the same source or block" scan member index

/-- The checks of a group's disabled members. -/
def disabledErrors (group : String) (valid : List String) : List String → List String → List Diagnostic
  | _, [] => []
  | earlier, inst :: rest =>
    let path := s!"spec.groups.{group}.disabled[{earlier.length}]"
    validateName inst path ++
      reportIf (!(valid.map memberInstance).contains inst)
        ⟨.missingReference, path, s!"disabled instance `{inst}` is not a resolved member of group `{group}`"⟩ ++
      reportIf (earlier.contains inst)
        ⟨.duplicateName, path, s!"disabled instance `{inst}` is listed more than once"⟩ ++
      disabledErrors group valid (earlier ++ [inst]) rest

/-- What is known while the groups are read. -/
structure GroupsScan where
  groups : ResolvedGroups
  places : List (String × String × ℕ)
  errors : List Diagnostic

/-- One group. -/
def scanGroup (spec : DeploymentSpec) (state : GroupsScan) (entry : String × ServiceGroup) : GroupsScan :=
  let (name, group) := entry
  let scan := group.instances.zipIdx.foldl (scanMember spec name)
    ⟨[], [], state.places, validateName name s!"spec.groups.{name}"⟩
  let active := scan.valid.filter fun member => !group.disabled.contains (memberInstance member)
  { groups := ⟨state.groups.members.insert name active, state.groups.declaredMembers.insert name scan.valid⟩
    places := scan.places
    errors := state.errors ++ scan.errors ++ disabledErrors name scan.valid [] group.disabled }

/-- `resolve_groups`. -/
def resolveGroups (spec : DeploymentSpec) : ResolvedGroups × List Diagnostic :=
  let state := spec.groups.entries.foldl (scanGroup spec) ⟨⟨∅, ∅⟩, [], []⟩
  (state.groups, state.errors)

/-! ### Dependencies between instances -/

/-- The node a dependency of an instance's service names. -/
def dependencyTarget (inst reference : String) : String :=
  match Text.splitOnce '/' reference with
  | some (target, service) => s!"{target}/{service}"
  | none => s!"{inst}/{reference}"

/-- Whether a node is a service of an instance that is run. -/
def isServiceNode (spec : DeploymentSpec) (node : String) : Bool :=
  match Text.splitOnce '/' node with
  | none => false
  | some (inst, service) =>
    ((instanceMap spec).get? inst).any fun candidate => !candidate.isExternal &&
      (spec.blocks.get? candidate.block).any fun block => block.services.contains service

/-- The services of the instances that are run, in the order they are visited. -/
def serviceNodes (spec : DeploymentSpec) : List (Instance × String × Service) :=
  ((instanceMap spec).values.filter fun inst => !inst.isExternal).flatMap fun inst =>
    ((spec.blocks.get? inst.block).toList.flatMap fun block => block.services.entries).map
      fun (service, definition) => (inst, service, definition)

/-- The dependencies of a service on nodes there are. -/
def nodeEdges (spec : DeploymentSpec) (node : Instance × String × Service) : List String :=
  (node.2.2.dependsOn.keys.map (dependencyTarget node.1.name)).filter (isServiceNode spec)

/-- The expanded dependency graph. -/
def dependencyGraph (spec : DeploymentSpec) : SortedMap String (List String) :=
  (serviceNodes spec).foldl (fun graph node =>
    let key := s!"{node.1.name}/{node.2.1}"
    graph.insert key ((graph.get? key).getD [] ++ nodeEdges spec node)) ∅

/-- The dependencies on services there are not. -/
def unknownDependencies (spec : DeploymentSpec) (node : Instance × String × Service) : List Diagnostic :=
  (node.2.2.dependsOn.keys.filter fun reference =>
      Text.contains (dependencyTarget node.1.name reference) "/" &&
        !isServiceNode spec (dependencyTarget node.1.name reference)).map
    fun reference => ⟨.missingReference, s!"spec.instances.{node.1.name}.services.{node.2.1}.dependsOn",
      s!"unknown service dependency {reference}"⟩

/-- The first cycle found from the nodes of the graph. -/
def cycleErrors (graph : SortedMap String (List String)) : List String → List String → List Diagnostic
  | [], _ => []
  | node :: rest, done =>
    match cyclicFrom (fun n => (graph.get? n).getD []) (graph.entries.length + 2) node [] done with
    | (true, _) =>
      [⟨.dependencyCycle, s!"spec.instances.{node}.dependsOn", "expanded service dependency cycle detected"⟩]
    | (false, done) => cycleErrors graph rest done

/-- `validate_expanded_dependencies`. -/
def expandedDependencyErrors (spec : DeploymentSpec) : List Diagnostic :=
  (serviceNodes spec).flatMap (unknownDependencies spec) ++
    cycleErrors (dependencyGraph spec) (dependencyGraph spec).keys []

/-- An instance whose block is not there ends `validate_expanded_dependencies` in a panic. -/
def missingBlock (spec : DeploymentSpec) : Option Instance :=
  (instanceMap spec).values.find? fun inst => !inst.isExternal && !spec.blocks.contains inst.block

/-! ### Addresses and upstreams -/

/-- The addresses of a deployment, with their paths. -/
def addressClaims (spec : DeploymentSpec) : List (String × String) :=
  (spec.instances.zipIdx.filterMap fun (inst, index) =>
      inst.address.map fun address => (s!"spec.instances[{index}].address", address)) ++
    spec.groups.entries.filterMap fun (name, group) =>
      group.address.map fun address => (s!"spec.groups.{name}.address", address)

/-- `validate_address_claims`, given the names claimed so far with their paths. -/
def addressClaimErrors : List (String × String) → List (String × String) → List Diagnostic
  | _, [] => []
  | claimed, (path, address) :: rest =>
    if !plausibleHostname address then
      ⟨.invalidPath, path, "address must be a plausible hostname"⟩ :: addressClaimErrors claimed rest
    else
      (match claimed.find? fun claim => claim.1 = normalizedHostname address with
        | some (_, first) => [⟨.duplicateName, path, s!"address `{address}` is already claimed at {first}"⟩]
        | none => []) ++
        addressClaimErrors ((normalizedHostname address, path) :: claimed) rest

/-- The checks of a provider of the host router. -/
def hostProviderErrors (spec : DeploymentSpec) (provider : Router.Provider) : List Diagnostic :=
  let host := provider.endpoint.host
  let loopback := Text.toAsciiLowercase host = "localhost" ||
    (match IpAddr.parse host with
      | some address => address.isLoopback
      | none => false)
  reportIf (!loopback)
      ⟨.invalidPath, s!"spec.hostRouter.providers.{provider.id}.endpoint.host",
        "host-router providers must use localhost or a loopback IP address"⟩ ++
    reportIf (provider.endpoint.port = 0 && !spec.hostUpstreams.contains provider.id)
      ⟨.missingReference, s!"spec.hostRouter.providers.{provider.id}",
        "provider port 0 requires one spec.hostUpstreams mapping"⟩

/-- The checks of the instance and service of an upstream. -/
def upstreamTargetErrors (spec : DeploymentSpec) (path : String) (upstream : PublishedUpstream) : List Diagnostic :=
  match (instanceMap spec).get? upstream.inst with
  | none => [⟨.missingReference, s!"{path}.instance", "mapping refers to an unknown instance"⟩]
  | some inst =>
    if inst.isExternal then
      [⟨.unsupportedSchema, s!"{path}.instance",
        "external instances are routed by group membership and may not be host upstreams"⟩]
    else
      match (spec.blocks.get? inst.block).bind fun block => block.services.get? upstream.service with
      | none => [⟨.missingReference, s!"{path}.service", "mapping refers to an unknown instance service"⟩]
      | some service =>
        reportIf (!service.publish.contains upstream.port)
          ⟨.missingReference, s!"{path}.port", "mapped container port is not declared in service.publish"⟩

/-- The checks of one upstream. -/
def upstreamErrors (spec : DeploymentSpec) (config : RouterConfig) (entry : String × PublishedUpstream) :
    List Diagnostic :=
  let path := s!"spec.hostUpstreams.{entry.1}"
  reportIf (entry.2.port = 0) ⟨.invalidPath, s!"{path}.port", "mapped container port must be nonzero"⟩ ++
    reportIf (!config.spec.providers.any fun candidate => candidate.id = entry.1)
      ⟨.missingReference, path, "mapping refers to an unknown host-router provider"⟩ ++
    upstreamTargetErrors spec path entry.2

/-- `validate_host_upstreams`. -/
def hostUpstreamErrors (spec : DeploymentSpec) (config : RouterConfig) : List Diagnostic :=
  config.spec.providers.flatMap (hostProviderErrors spec) ++
    spec.hostUpstreams.entries.flatMap (upstreamErrors spec config)

/-- The checks of one managed profile. -/
def profileErrors (platform : Platform) (spec : DeploymentSpec) (router : Option RouterConfig)
    (entry : String × ManagedProfile) : List Diagnostic :=
  let path := s!"spec.managedProfiles.{entry.1}"
  let localUrl := isLocalHttpUrl platform entry.2.startUrl
  validateName entry.1 path ++ validateName entry.2.route s!"{path}.route" ++
    reportIf (!(instanceMap spec).contains entry.1)
      ⟨.missingReference, path, "managed profile key must name a declared instance"⟩ ++
    reportIf (!localUrl)
      ⟨.invalidPath, s!"{path}.startUrl",
        "managed profiles currently require a local http:// URL (localhost, loopback, or *.localhost); use Origin or explicit-header routing for HTTPS"⟩ ++
    match router with
    | none => [⟨.missingReference, path, "managed profiles require spec.hostRouter"⟩]
    | some config =>
      if localUrl then
        match managedProfileDestinations platform config entry.2.route entry.2.startUrl with
        | .ok _ => []
        | .error message => [⟨.missingReference, s!"{path}.route", message⟩]
      else []

/-- The checks of the host router with its addresses applied. -/
def hostRouterErrors (document : Document) (router : Option RouterConfig) : List Diagnostic :=
  match router with
  | some config =>
    reportIf (config.metadata.deployment ≠ document.metadata.name)
        ⟨.missingReference, "spec.hostRouter.metadata.deployment",
          "host router deployment must match deployment metadata.name"⟩ ++
      (match config.validate with
        | .ok () => []
        | .error errors => errors.map fun error =>
          ⟨.missingReference, s!"spec.hostRouter.{error.path}", error.message⟩) ++
      hostUpstreamErrors document.spec config
  | none =>
    reportIf (!document.spec.hostUpstreams.entries.isEmpty)
      ⟨.missingReference, "spec.hostUpstreams", "published host upstreams require spec.hostRouter"⟩

/-! ### The validation -/

/-- The host router with its addresses, and what is wrong with them. -/
def addressedRouter (platform : Platform) (spec : DeploymentSpec) (groups : ResolvedGroups) :
    Option RouterConfig × List Diagnostic :=
  match spec.hostRouter with
  | some config =>
    let pass := applyAddresses platform spec groups config
    (some pass.1, pass.2)
  | none =>
    (none, reportIf spec.hasAddresses
      ⟨.missingReference, "spec.hostRouter", "group and instance addresses require spec.hostRouter"⟩)

/-- The checks of what the document says, wherever it was loaded from. -/
def documentErrors (platform : Platform) (document : Document) : List Diagnostic :=
  let spec := document.spec
  let groups := resolveGroups spec
  let router := addressedRouter platform spec groups.1
  groups.2 ++ expandedDependencyErrors spec ++ addressClaimErrors [] (addressClaims spec) ++ router.2 ++
    spec.managedProfiles.entries.flatMap (profileErrors platform spec router.1) ++
    hostRouterErrors document router.1

/-- The checks up to the groups. -/
def resourceErrors (platform : Platform) (bundle : Bundle) (devices : Devices) : List Diagnostic :=
  let document := bundle.document
  reportIf (document.apiVersion ≠ API_VERSION || document.kind ≠ KIND)
      ⟨.unsupportedSchema, "apiVersion", s!"expected {API_VERSION} kind {KIND}"⟩ ++
    validateName document.metadata.name "metadata.name" ++
    document.spec.repositories.entries.flatMap (repositoryErrors bundle) ++
    allSourceErrors platform bundle [] document.spec.sources.entries ++
    document.spec.blocks.entries.flatMap (blockErrors platform) ++
    allInstanceErrors platform bundle devices [] document.spec.instances

/-- `validate`; it finds no warnings. -/
def validate (platform : Platform) (bundle : Bundle) (devices : Devices) : Except Failure ResolvedGroups :=
  match missingBlock bundle.document.spec with
  | some inst => .error (.panicked s!"no block {inst.block}")
  | none =>
    let errors := resourceErrors platform bundle devices ++ documentErrors platform bundle.document
    if errors.isEmpty then .ok (resolveGroups bundle.document.spec).1 else .error (.diagnostics errors)

/-- What a validation that succeeded found. -/
theorem validate_ok_iff {platform : Platform} {bundle : Bundle} {devices : Devices} {groups : ResolvedGroups} :
    validate platform bundle devices = .ok groups ↔
      missingBlock bundle.document.spec = none ∧ resourceErrors platform bundle devices = [] ∧
        documentErrors platform bundle.document = [] ∧ (resolveGroups bundle.document.spec).1 = groups := by
  rw [validate]
  cases missingBlock bundle.document.spec with
  | some inst => simp
  | none =>
    simp only [List.isEmpty_iff, List.append_eq_nil_iff, true_and]
    split_ifs with h
    · simp [h.1, h.2]
    · simp only [false_iff]
      rintro ⟨hresources, hdocument, -⟩
      exact h ⟨hresources, hdocument⟩

end Apmpr.Planner
