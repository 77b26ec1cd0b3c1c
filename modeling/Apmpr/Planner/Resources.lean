import Apmpr.Planner.Outputs

/-!
# What the resources of a plan depend on

The resource hash is taken of a definition without addresses, groups, external instances and
host routing, in which one group lists the instances that are routed. What is run depends on
no more than that, on the devices that instances are placed on, on the injected files and on
the secrets.

## What is proved

* `move_keeps_containers`: planning with a member moved to another group changes nothing but
  routing.
* `resourceHash_sound_iff`: plans with the same resource hash are run with the same Compose
  projects and secrets exactly if the same keys are taken from the same secrets.
* `secret_hashed_as_text`: a key whose text is what a secret is shown as has the hash of the
  key that is taken from the secret.

## Honest scope

That two different texts have different SHA-256 hashes is assumed of the two texts that are
hashed. That the variables of secrets, which have a part of a digest in their name, differ is
assumed only to show that the condition is necessary.
-/

namespace Apmpr.Planner

/-- The instances that are run. -/
def managedInstances (spec : DeploymentSpec) : List Instance := spec.instances.filter fun inst => !inst.isExternal

/-- An instance without its address. -/
def withoutAddress (inst : Instance) : Instance := { inst with address := none }

theorem fields_of_withoutAddress {inst inst' : Instance} (h : withoutAddress inst' = withoutAddress inst) :
    inst'.name = inst.name ∧ inst'.block = inst.block ∧ inst'.source = inst.source ∧
      inst'.remoteDevice = inst.remoteDevice := by
  have hdevice : (withoutAddress inst').remoteDevice = (withoutAddress inst).remoteDevice := by rw [h]
  rw [withoutAddress, withoutAddress, Instance.mk.injEq] at h
  exact ⟨h.1, h.2.1, h.2.2.1, hdevice⟩

/-! ### Groups of valid bundles -/

section Groups

variable {spec : DeploymentSpec}

/-- The instances of the members of groups. -/
def memberNames (groups : SortedMap String ServiceGroup) : List String :=
  groups.values.flatMap fun group => group.instances.map memberInstance

theorem placeMember_of_errors_eq_nil {group path advice member : String} {scan : GroupScan} {index : ℕ}
    (h : (placeMember group path advice scan member index).errors = []) :
    scan.errors = [] ∧ (placeMember group path advice scan member index).valid = scan.valid ++ [member] := by
  unfold placeMember at h ⊢
  dsimp only at h ⊢
  split_ifs at h ⊢ with hseen
  · simp at h
  · split at h
    · simp at h
    · exact ⟨h, rfl⟩

/-- A member that is not reported is a valid one. -/
theorem scanMember_of_errors_eq_nil (hblocks : missingBlock spec = none) {group : String} {scan : GroupScan}
    {entry : String × ℕ} (h : (scanMember spec group scan entry).errors = []) :
    scan.errors = [] ∧ (scanMember spec group scan entry).valid = scan.valid ++ [entry.1] := by
  unfold scanMember at h ⊢
  dsimp only at h ⊢
  split at h
  · simp at h
  · rename_i inst hinst
    split_ifs at h ⊢ with hexternal hservice
    · simp at h
    · exact placeMember_of_errors_eq_nil h
    · split at h
      · rename_i hblock
        have hmem : inst ∈ (instanceMap spec).values :=
          List.mem_map.mpr ⟨_, (SortedMap.mem_entries_iff _).mpr hinst, rfl⟩
        have hpresent := List.find?_eq_none.mp hblocks inst hmem
        simp [hexternal, SortedMap.contains, hblock] at hpresent
      · split_ifs at h ⊢ with hmissing
        · simp at h
        · exact placeMember_of_errors_eq_nil h

theorem foldl_scanMember_of_errors_eq_nil (hblocks : missingBlock spec = none) {group : String}
    {members : List (String × ℕ)} {scan : GroupScan} (h : (members.foldl (scanMember spec group) scan).errors = []) :
    scan.errors = [] ∧ (members.foldl (scanMember spec group) scan).valid = scan.valid ++ members.map Prod.fst := by
  induction members generalizing scan with
  | nil => exact ⟨h, (List.append_nil _).symm⟩
  | cons entry rest ih =>
    obtain ⟨hstep, hrest⟩ := ih h
    obtain ⟨hscan, hvalid⟩ := scanMember_of_errors_eq_nil hblocks hstep
    refine ⟨hscan, ?_⟩
    rw [List.foldl_cons, hrest, hvalid, List.map_cons, List.append_assoc, List.singleton_append]

/-- The active members of a group. -/
def ServiceGroup.active (group : ServiceGroup) : List String :=
  group.instances.filter fun member => !group.disabled.contains (memberInstance member)

/-- A group that is not reported declares all its members. -/
theorem scanGroup_of_errors_eq_nil (hblocks : missingBlock spec = none) {state : GroupsScan}
    {entry : String × ServiceGroup} (h : (scanGroup spec state entry).errors = []) :
    state.errors = [] ∧ (scanGroup spec state entry).groups =
      ⟨state.groups.members.insert entry.1 entry.2.active, state.groups.declaredMembers.insert entry.1 entry.2.instances⟩ := by
  unfold scanGroup at h ⊢
  dsimp only at h ⊢
  obtain ⟨hboth, -⟩ := List.append_eq_nil_iff.mp h
  obtain ⟨hstate, hscan⟩ := List.append_eq_nil_iff.mp hboth
  obtain ⟨-, hvalid⟩ := foldl_scanMember_of_errors_eq_nil hblocks hscan
  rw [List.nil_append, List.zipIdx_map_fst] at hvalid
  refine ⟨hstate, ?_⟩
  rw [hvalid]
  rfl

theorem foldl_scanGroup_of_errors_eq_nil (hblocks : missingBlock spec = none) {entries : List (String × ServiceGroup)}
    {state : GroupsScan} (h : (entries.foldl (scanGroup spec) state).errors = []) :
    state.errors = [] ∧ (entries.foldl (scanGroup spec) state).groups =
      ⟨state.groups.members.insertAll (entries.map fun entry => (entry.1, entry.2.active)),
        state.groups.declaredMembers.insertAll (entries.map fun entry => (entry.1, entry.2.instances))⟩ := by
  induction entries generalizing state with
  | nil => exact ⟨h, rfl⟩
  | cons entry rest ih =>
    obtain ⟨hstep, hrest⟩ := ih h
    obtain ⟨hstate, hgroups⟩ := scanGroup_of_errors_eq_nil hblocks hstep
    refine ⟨hstate, ?_⟩
    rw [List.foldl_cons, hrest, hgroups]
    rfl

/-- **The groups of a valid bundle are resolved to what they list.** -/
theorem resolveGroups_of_validate {platform : Platform} {bundle : Bundle} {devices : Devices} {groups : ResolvedGroups}
    (h : validate platform bundle devices = .ok groups) :
    groups = ⟨bundle.document.spec.groups.mapValues fun _ group => group.active,
      bundle.document.spec.groups.mapValues fun _ group => group.instances⟩ := by
  obtain ⟨hblocks, -, hdocument, rfl⟩ := validate_ok_iff.mp h
  simp only [documentErrors, List.append_eq_nil_iff] at hdocument
  obtain ⟨⟨⟨⟨⟨hgroups, -⟩, -⟩, -⟩, -⟩, -⟩ := hdocument
  have hresolved := (foldl_scanGroup_of_errors_eq_nil hblocks hgroups).2
  refine hresolved.trans ?_
  congr 1
  · exact ofList_entries (bundle.document.spec.groups.mapValues fun _ group => group.active)
  · exact ofList_entries (bundle.document.spec.groups.mapValues fun _ group => group.instances)

/-- The instances that are routed are those the resource definition lists. -/
theorem isTransparent_of_validate {platform : Platform} {bundle : Bundle} {devices : Devices} {groups : ResolvedGroups}
    (h : validate platform bundle devices = .ok groups) (name : String) :
    isTransparent groups name = (memberNames bundle.document.spec.groups).contains name := by
  have hdeclared : declaredMember groups name = (memberNames bundle.document.spec.groups).contains name := by
    have hvalues : groups.declaredMembers.values = bundle.document.spec.groups.values.map (·.instances) := by
      rw [resolveGroups_of_validate h]
      simp only [SortedMap.values, SortedMap.mapValues, List.map_map]
      rfl
    rw [Bool.eq_iff_iff, List.contains_iff_mem, declaredMember, hvalues]
    simp [memberNames]
  have hselected : (selectedGroupForInstance groups name).isSome = true → declaredMember groups name = true := by
    intro hsome
    obtain ⟨selected, hselected⟩ := Option.isSome_iff_exists.mp hsome
    unfold selectedGroupForInstance at hselected
    split at hselected
    · rename_i group hgroup
      have hmem : group ∈ (groups.members.entries.filter fun entry =>
          entry.2.any fun member => memberInstance member = name).map Prod.fst := by
        rw [hgroup]
        exact List.mem_singleton_self _
      obtain ⟨entry, hentry, -⟩ := List.mem_map.mp hmem
      obtain ⟨hentry, hactive⟩ := List.mem_filter.mp hentry
      obtain ⟨member, hmember, hname⟩ := List.any_eq_true.mp hactive
      rw [hdeclared, List.contains_iff_mem]
      rw [resolveGroups_of_validate h] at hentry
      obtain ⟨⟨key, declared⟩, hdeclaredEntry, rfl⟩ := List.mem_map.mp hentry
      exact List.mem_flatMap.mpr ⟨declared, List.mem_map.mpr ⟨_, hdeclaredEntry, rfl⟩,
        List.mem_map.mpr ⟨member, (List.mem_filter.mp hmember).1, of_decide_eq_true hname⟩⟩
    · cases hselected
  rw [← hdeclared, isTransparent]
  exact Bool.or_eq_right_iff_imp.mpr hselected

theorem mem_routedNames {name : String} : name ∈ routedNames spec ↔
    name ∈ memberNames spec.groups ∧ ∃ inst ∈ spec.instances, inst.isExternal = false ∧ inst.name = name := by
  rw [routedNames, mem_keys_ofList, List.map_map]
  simp [memberNames]

theorem contains_memberNames {inst : Instance} (hinst : inst ∈ spec.instances) (hmanaged : inst.isExternal = false) :
    (memberNames spec.groups).contains inst.name = (routedNames spec).contains inst.name := by
  rw [Bool.eq_iff_iff, List.contains_iff_mem, List.contains_iff_mem, mem_routedNames]
  exact ⟨fun hmem => ⟨hmem, inst, hinst, hmanaged, rfl⟩, fun hmem => hmem.1⟩

/-- The routed instances of a valid bundle, in terms of its resource definition. -/
theorem routedInstances_of_validate {platform : Platform} {bundle : Bundle} {devices : Devices} {groups : ResolvedGroups}
    (h : validate platform bundle devices = .ok groups) :
    routedInstances bundle.document.spec groups = (((managedInstances bundle.document.spec).map withoutAddress).filter
      fun inst => inst.remoteDevice.isNone && (routedNames bundle.document.spec).contains inst.name).map (·.name) := by
  rw [routedInstances, List.filter_map, List.map_map, managedInstances, List.filter_filter]
  refine congrArg (List.map _) (List.filter_congr fun inst hinst => ?_)
  rw [isTransparent_of_validate h]
  cases hexternal : inst.isExternal with
  | true => simp
  | false =>
    rw [contains_memberNames hinst hexternal, Bool.not_false, Bool.true_and, Bool.and_true]
    rfl

end Groups

/-! ### Services -/

section Services

variable {platform platform' : Platform} {bundle bundle' : Bundle} {groups groups' : ResolvedGroups}
  {overlay overlay' : Option OverlayResolution} {inst : Instance}

/-- Two bundles are run in the same way, as far as the services of an instance show it. -/
structure SameFor (platform : Platform) (bundle bundle' : Bundle) (groups groups' : ResolvedGroups)
    (overlay overlay' : Option OverlayResolution) (inst : Instance) : Prop where
  name : bundle'.document.metadata.name = bundle.document.metadata.name
  routerImage : bundle'.document.spec.routerImage = bundle.document.spec.routerImage
  workspaceRoot : bundle'.workspaceRoot = bundle.workspaceRoot
  routed : routedInstances bundle'.document.spec groups' = routedInstances bundle.document.spec groups
  transparent : isTransparent groups' inst.name = isTransparent groups inst.name
  files : fileChunks overlay' = fileChunks overlay
  secrets : secretFields platform overlay' inst.name = secretFields platform overlay inst.name

/-- The injected files are mounted as they are hashed. -/
theorem addInjectedMounts_of_fileChunks (h : fileChunks overlay' = fileChunks overlay) (name : String) (dir : PathBuf)
    (value : SortedMap String Json) :
    addInjectedMounts overlay' name dir value = addInjectedMounts overlay name dir value := by
  have hmounts : ∀ resolution : OverlayResolution, ((resolution.files.filter fun file => file.inst = name).map fun file =>
        mountText (dir.join file.relativePath) file.target false) =
      ((resolution.files.map (·.toInjectedFile)).filter fun file => file.inst = name).map fun file =>
        mountText (dir.join file.relativePath) file.target false := by
    intro resolution
    rw [List.filter_map, List.map_map]
    rfl
  cases overlay with
  | none =>
    cases overlay' with
    | none => rfl
    | some resolution' => cases h
  | some resolution =>
    cases overlay' with
    | none => cases h
    | some resolution' =>
      have hfiles := HashChunk.files.inj (List.cons.inj h).1
      unfold addInjectedMounts
      dsimp only
      rw [hmounts, hmounts, hfiles]

theorem overlaidApplication_congr (h : SameFor platform bundle bundle' groups groups' overlay overlay' inst)
    (resourceHash : String) (block : Block) (source : PathBuf) (network : String) (entry : String × Service) :
    overlaidApplication platform bundle' overlay' resourceHash block inst source network entry =
      overlaidApplication platform bundle overlay resourceHash block inst source network entry := by
  have happlication : ∀ (document document' : Document), document'.metadata.name = document.metadata.name →
      ∀ labels, composeApplication platform document' block inst entry.2 source network labels =
        composeApplication platform document block inst entry.2 source network labels := by
    rintro ⟨_, _, ⟨_, _⟩, _⟩ ⟨_, _, ⟨_, _⟩, _⟩ hname labels
    cases hname
    rfl
  unfold overlaidApplication
  dsimp only
  rw [h.name, h.workspaceRoot, happlication _ _ h.name, addInjectedMounts_of_fileChunks h.files]
  unfold applyOverlayEnvironment
  rw [h.secrets]

theorem addComposeDependencies_congr {document document' : Document}
    (h : document'.metadata.name = document.metadata.name) (routed : List String) (service : Service)
    (value : SortedMap String Json) :
    addComposeDependencies platform document' routed inst service value =
      addComposeDependencies platform document routed inst service value := by
  obtain ⟨_, _, ⟨_, _⟩, _⟩ := document
  obtain ⟨_, _, ⟨_, _⟩, _⟩ := document'
  cases h
  rfl

/-- **The services of an instance depend on no more than how it is run.** -/
theorem instanceServices_congr (h : SameFor platform bundle bundle' groups groups' overlay overlay' inst)
    (resourceHash : String) (block : Block) (source : PathBuf) :
    instanceServices platform bundle' groups' overlay' resourceHash block inst source =
      instanceServices platform bundle groups overlay resourceHash block inst source := by
  have hremote : ∀ device, remoteService platform bundle' groups' overlay' resourceHash block inst source device =
      remoteService platform bundle groups overlay resourceHash block inst source device := by
    intro device
    funext entry
    unfold remoteService
    dsimp only
    rw [h.routed, addComposeDependencies_congr h.name, overlaidApplication_congr h, h.name]
  have hlocal : localService platform bundle' groups' overlay' resourceHash block inst source =
      localService platform bundle groups overlay resourceHash block inst source := by
    funext entry
    unfold localService
    dsimp only
    rw [h.routed, addComposeDependencies_congr h.name, overlaidApplication_congr h, h.name]
  have hnamespace : namespaceEntry platform bundle' resourceHash block inst =
      namespaceEntry platform bundle resourceHash block inst := by
    unfold namespaceEntry
    dsimp only
    rw [h.name]
  have hsidecar : sidecarEntry platform bundle' groups' resourceHash inst =
      sidecarEntry platform bundle groups resourceHash inst := by
    unfold sidecarEntry
    dsimp only
    rw [h.name, h.workspaceRoot, h.routerImage, h.transparent]
  unfold instanceServices
  simp only [hremote, hlocal, hnamespace, hsidecar, h.routed]

end Services

/-! ### Outputs -/

/-- What an instance adds to the projects and sidecars of a plan. -/
structure OutputView where
  name : String
  device : Option String
  services : List (String × Json)
  volumes : List (String × Json)
  sidecar : Option SidecarPlan

/-- What an output adds. -/
def InstanceOutput.view (output : InstanceOutput) : OutputView where
  name := output.inst.name
  device := output.inst.remoteDevice
  services := output.services
  volumes := output.volumes
  sidecar := output.route.map Prod.snd

section Views

variable {platform : Platform} {deployment resourceHash : String} {devices devices' : Devices}
  {outputs outputs' : List InstanceOutput}

/-- The outputs of a device, as they are seen. -/
theorem flatMap_filter_view {α : Type} (p : Option String → Bool) (f : OutputView → List α) (outputs : List InstanceOutput) :
    ((outputs.filter fun output => p output.inst.remoteDevice).flatMap fun output => f output.view) =
      ((outputs.map InstanceOutput.view).filter fun view => p view.device).flatMap f := by
  rw [List.filter_map, List.flatMap_map]
  rfl

variable (h : outputs'.map InstanceOutput.view = outputs.map InstanceOutput.view)
include h

theorem composeFile_of_view (p : Option String → Bool) (project network : String) (labels : SortedMap String String) :
    composeFile project network labels (outputs'.filter fun output => p output.inst.remoteDevice) =
      composeFile project network labels (outputs.filter fun output => p output.inst.remoteDevice) := by
  have hservices := flatMap_filter_view p OutputView.services
  have hvolumes := flatMap_filter_view p OutputView.volumes
  simp only [InstanceOutput.view] at hservices hvolumes
  unfold composeFile
  rw [hservices, hservices, hvolumes, hvolumes, h]

theorem usedDevices_of_view : usedDevices outputs' = usedDevices outputs := by
  have hused : ∀ outputs : List InstanceOutput, (outputs.filterMap fun output =>
      if output.services.isEmpty then none else output.inst.remoteDevice.map fun device => (device, ())) =
      (outputs.map InstanceOutput.view).filterMap fun view =>
        if view.services.isEmpty then none else view.device.map fun device => (device, ()) := by
    intro outputs
    rw [List.filterMap_map]
    rfl
  unfold usedDevices
  rw [hused, hused, h]

theorem remoteProjects_of_view (hdevices : ∀ device ∈ usedDevices outputs, devices'.get? device = devices.get? device) :
    remoteProjects platform deployment resourceHash devices' outputs' =
      remoteProjects platform deployment resourceHash devices outputs := by
  have hproject : ∀ device ∈ usedDevices outputs,
      remoteProject platform deployment resourceHash devices' outputs' device =
        remoteProject platform deployment resourceHash devices outputs device := by
    intro device hused
    have hservices := flatMap_filter_view (fun d => decide (d = some device)) fun view => view.services.map Prod.fst
    simp only [InstanceOutput.view] at hservices
    unfold remoteProject
    dsimp only
    rw [hdevices device hused, composeFile_of_view h fun d => decide (d = some device), hservices, hservices, h]
  unfold remoteProjects
  rw [usedDevices_of_view h, mapM_congr_left hproject]

theorem sidecars_of_view : (outputs'.filterMap fun output => output.route.map fun route => (output.inst.name, route.2)) =
    outputs.filterMap fun output => output.route.map fun route => (output.inst.name, route.2) := by
  have hsidecars : ∀ outputs : List InstanceOutput,
      (outputs.filterMap fun output => output.route.map fun route => (output.inst.name, route.2)) =
        (outputs.map InstanceOutput.view).filterMap fun view => view.sidecar.map (view.name, ·) := by
    intro outputs
    rw [List.filterMap_map]
    refine List.filterMap_congr fun output _ => ?_
    simp only [InstanceOutput.view, Function.comp_apply, Option.map_map]
    rfl
  rw [hsidecars, hsidecars, h]

end Views

/-! ### Bundles that are run in the same way -/

section Runs

theorem instances_resourceDefinition (document : Document) :
    (resourceDefinition document).spec.instances = (managedInstances document.spec).map withoutAddress := by
  unfold resourceDefinition managedInstances
  dsimp only [Document.withSpec]
  rw [List.filter_map]
  rfl

theorem routedNames_of_resourceDefinition {document document' : Document}
    (h : resourceDefinition document' = resourceDefinition document) : routedNames document'.spec = routedNames document.spec := by
  have hgroup : ∀ document : Document, (((resourceDefinition document).spec.groups.get? "__routed_instances__").map
      (·.instances)).getD [] = routedNames document.spec := by
    intro document
    unfold resourceDefinition
    dsimp only [Document.withSpec]
    split_ifs with hempty
    · rw [List.isEmpty_iff.mp hempty]
      rfl
    · rw [SortedMap.get?_insert, if_pos rfl]
      rfl
  rw [← hgroup, ← hgroup, h]

/-- Two effective bundles are run in the same way: they are hashed alike, and are in the same
directories. -/
structure SameRun (e e' : Effective) (devices devices' : Devices) : Prop where
  definition : resourceDefinition e'.bundle.document = resourceDefinition e.bundle.document
  devices : referencedDevices e'.bundle.document.spec devices' = referencedDevices e.bundle.document.spec devices
  files : fileChunks e'.overlay = fileChunks e.overlay
  definitionDir : e'.bundle.definitionDir = e.bundle.definitionDir
  workspaceRoot : e'.bundle.workspaceRoot = e.bundle.workspaceRoot

variable {platform platform' : Platform} {e e' : Effective} {devices devices' : Devices} {groups groups' : ResolvedGroups}
  {resourceHash : String} {outputs outputs' : List InstanceOutput}

theorem instances_of_sameRun (h : SameRun e e' devices devices') :
    (managedInstances e'.bundle.document.spec).map withoutAddress =
      (managedInstances e.bundle.document.spec).map withoutAddress := by
  rw [← instances_resourceDefinition, ← instances_resourceDefinition, h.definition]

theorem routedInstances_of_sameRun (h : SameRun e e' devices devices')
    (hvalid : validate platform e.bundle devices = .ok groups)
    (hvalid' : validate platform' e'.bundle devices' = .ok groups') :
    routedInstances e'.bundle.document.spec groups' = routedInstances e.bundle.document.spec groups := by
  rw [routedInstances_of_validate hvalid, routedInstances_of_validate hvalid', instances_of_sameRun h,
    routedNames_of_resourceDefinition h.definition]

/-- What an instance adds to a plan, given its block and the directory of its source. -/
def runView (platform : Platform) (bundle : Bundle) (groups : ResolvedGroups) (overlay : Option OverlayResolution)
    (resourceHash : String) (block : Block) (inst : Instance) (source : PathBuf) : OutputView where
  name := inst.name
  device := inst.remoteDevice
  services := instanceServices platform bundle groups overlay resourceHash block inst source
  volumes := block.services.entries.flatMap (serviceVolumes platform resourceHash bundle.document.metadata.name inst)
  sidecar :=
    if inst.remoteDevice.isNone && (routedInstances bundle.document.spec groups).contains inst.name then
      some {
        service := resourceName platform [bundle.document.metadata.name, inst.name, "router"]
        adminSocket := ⟨"/tmp/apmpr-admin.socket"⟩
        configPath := ((artifactDir bundle.document.metadata.name).join ⟨"routes"⟩).join ⟨s!"{inst.name}.json"⟩ }
    else none

theorem view_instanceOutput {bundle : Bundle} {overlay : Option OverlayResolution} {inst : Instance}
    {output : InstanceOutput}
    (h : instanceOutput platform bundle groups overlay devices resourceHash inst = .ok output) :
    ∃ block source, bundle.document.spec.blocks.get? inst.block = some block ∧
      bundle.document.spec.sources.get? inst.source = some source ∧ output.view =
        runView platform bundle groups overlay resourceHash block inst (resolvePath bundle.definitionDir source.path) := by
  unfold instanceOutput at h
  split at h
  · rename_i block source hblock hsource
    cases h
    refine ⟨block, source, hblock, hsource, ?_⟩
    unfold InstanceOutput.view runView
    dsimp only
    split_ifs <;> rfl
  · cases h
  · cases h

theorem runView_of_sha256 (h : platform'.sha256 = platform.sha256) (bundle : Bundle) (overlay : Option OverlayResolution)
    (block : Block) (inst : Instance) (source : PathBuf) :
    runView platform' bundle groups overlay resourceHash block inst source =
      runView platform bundle groups overlay resourceHash block inst source := by
  obtain ⟨_, _, _, _, _, _, _⟩ := platform
  obtain ⟨_, _, _, _, _, _, _⟩ := platform'
  cases h
  rfl

theorem runView_withoutAddress (bundle : Bundle) (overlay : Option OverlayResolution) (block : Block) (inst : Instance)
    (source : PathBuf) : runView platform bundle groups overlay resourceHash block (withoutAddress inst) source =
      runView platform bundle groups overlay resourceHash block inst source := rfl

/-- What an instance adds, in both bundles. -/
theorem view_of_sameRun (h : SameRun e e' devices devices') (hsha : platform'.sha256 = platform.sha256)
    (hvalid : validate platform e.bundle devices = .ok groups)
    (hvalid' : validate platform' e'.bundle devices' = .ok groups') {inst inst' : Instance}
    (hinst : inst ∈ managedInstances e.bundle.document.spec) (hinst' : inst' ∈ managedInstances e'.bundle.document.spec)
    (hsame : withoutAddress inst' = withoutAddress inst)
    (hsecrets : secretFields platform e'.overlay inst.name = secretFields platform e.overlay inst.name)
    {output output' : InstanceOutput}
    (houtput : instanceOutput platform e.bundle groups e.overlay devices resourceHash inst = .ok output)
    (houtput' : instanceOutput platform' e'.bundle groups' e'.overlay devices' resourceHash inst' = .ok output') :
    output'.view = output.view := by
  obtain ⟨block, source, hblock, hsource, hview⟩ := view_instanceOutput houtput
  obtain ⟨block', source', hblock', hsource', hview'⟩ := view_instanceOutput houtput'
  obtain ⟨hinstName, hinstBlock, hinstSource, -⟩ := fields_of_withoutAddress hsame
  obtain rfl : block' = block := by
    rw [hinstBlock,
      show e'.bundle.document.spec.blocks = e.bundle.document.spec.blocks from congrArg (·.spec.blocks) h.definition,
      hblock] at hblock'
    exact (Option.some.inj hblock').symm
  obtain rfl : source' = source := by
    rw [hinstSource,
      show e'.bundle.document.spec.sources = e.bundle.document.spec.sources from congrArg (·.spec.sources) h.definition,
      hsource] at hsource'
    exact (Option.some.inj hsource').symm
  obtain ⟨hmem, hmanaged⟩ := List.mem_filter.mp hinst
  obtain ⟨hmem', hmanaged'⟩ := List.mem_filter.mp hinst'
  have hrun : SameFor platform e.bundle e'.bundle groups groups' e.overlay e'.overlay (withoutAddress inst) := {
    name := congrArg (·.metadata.name) h.definition
    routerImage := congrArg (·.spec.routerImage) h.definition
    workspaceRoot := h.workspaceRoot
    routed := routedInstances_of_sameRun h hvalid hvalid'
    transparent := by
      have htransparent' := isTransparent_of_validate hvalid' inst'.name
      rw [contains_memberNames hmem' (by simpa using hmanaged'), routedNames_of_resourceDefinition h.definition,
        hinstName] at htransparent'
      have htransparent := isTransparent_of_validate hvalid inst.name
      rw [contains_memberNames hmem (by simpa using hmanaged)] at htransparent
      exact htransparent'.trans htransparent.symm
    files := h.files
    secrets := hsecrets }
  rw [hview, hview', runView_of_sha256 hsha, ← runView_withoutAddress e'.bundle, ← runView_withoutAddress e.bundle, hsame,
    h.definitionDir]
  unfold runView
  rw [instanceServices_congr hrun, hrun.name, hrun.routed]

/-- **Bundles that are run in the same way, with the same secrets, add the same to a plan.** -/
theorem views_of_sameRun (h : SameRun e e' devices devices') (hsha : platform'.sha256 = platform.sha256)
    (hvalid : validate platform e.bundle devices = .ok groups)
    (hvalid' : validate platform' e'.bundle devices' = .ok groups')
    (hsecrets : ∀ inst ∈ managedInstances e.bundle.document.spec,
      secretFields platform e'.overlay inst.name = secretFields platform e.overlay inst.name)
    (houtputs : instanceOutputs platform e.bundle groups e.overlay devices resourceHash = .ok outputs)
    (houtputs' : instanceOutputs platform' e'.bundle groups' e'.overlay devices' resourceHash = .ok outputs') :
    outputs'.map InstanceOutput.view = outputs.map InstanceOutput.view := by
  have hpairs : List.Forall₂ (fun inst' inst => withoutAddress inst' = withoutAddress inst)
      (managedInstances e'.bundle.document.spec) (managedInstances e.bundle.document.spec) := by
    have heq := instances_of_sameRun h
    rw [← List.forall₂_eq_eq_eq, List.forall₂_map_left_iff, List.forall₂_map_right_iff] at heq
    exact heq
  have hmem := (List.forall₂_and_left _ _).mpr ⟨fun _ hinst' => hinst',
    ((List.forall₂_and_left _ _).mpr ⟨fun _ hinst => hinst, hpairs.flip⟩).flip⟩
  refine map_eq_of_mapM_ok (hmem.imp fun inst' inst hrelated output' output houtput' houtput => ?_) houtputs' houtputs
  obtain ⟨hinst', hinst, hsame⟩ := hrelated
  exact view_of_sameRun h hsha hvalid hvalid' hinst hinst' hsame (hsecrets inst hinst) houtput houtput'

/-- The devices that instances are placed on are hashed as they are registered. -/
theorem get?_referencedDevices {spec : DeploymentSpec} {inst : Instance} (hinst : inst ∈ spec.instances) {device : String}
    (hdevice : inst.remoteDevice = some device) : (referencedDevices spec devices).get? device = devices.get? device := by
  have hmem : ∀ (name : String) (details : PlanningDevice), (name, details) ∈ (spec.instances.filterMap fun inst =>
      inst.remoteDevice.bind fun device => (devices.get? device).map (device, ·)) → devices.get? name = some details := by
    intro name details hentry
    obtain ⟨other, -, hother⟩ := List.mem_filterMap.mp hentry
    obtain ⟨placed, -, hplaced⟩ := Option.bind_eq_some_iff.mp hother
    obtain ⟨found, hfound, heq⟩ := Option.map_eq_some_iff.mp hplaced
    obtain ⟨rfl, rfl⟩ := Prod.mk.inj heq
    exact hfound
  refine Option.ext fun details => ?_
  rw [referencedDevices, SortedMap.get?_ofList_iff]
  · refine ⟨hmem device details, fun hdetails => List.mem_filterMap.mpr ⟨inst, hinst, ?_⟩⟩
    rw [hdevice, Option.bind_some, hdetails, Option.map_some]
  · intro name x y hx hy
    exact Option.some.inj ((hmem name x hx).symm.trans (hmem name y hy))

theorem devices_of_sameRun (h : SameRun e e' devices devices')
    (houtputs : instanceOutputs platform e.bundle groups e.overlay devices resourceHash = .ok outputs) {device : String}
    (hdevice : device ∈ usedDevices outputs) : devices'.get? device = devices.get? device := by
  obtain ⟨⟨name, _⟩, hentry, rfl⟩ := List.mem_map.mp (mem_keys_ofList.mp hdevice)
  obtain ⟨output, houtput, hplaced⟩ := List.mem_filterMap.mp hentry
  obtain ⟨inst, hinst, hrun⟩ := (mem_of_mapM_ok houtputs).mp houtput
  have hremote : inst.remoteDevice = some name := by
    rw [← inst_of_instanceOutput hrun]
    split_ifs at hplaced
    obtain ⟨placed, hplaced, heq⟩ := Option.map_eq_some_iff.mp hplaced
    rw [hplaced, (Prod.mk.inj heq).1]
  -- the other bundle has the instance as well, up to its address
  have hmem : withoutAddress inst ∈ (managedInstances e'.bundle.document.spec).map withoutAddress := by
    rw [instances_of_sameRun h]
    exact List.mem_map.mpr ⟨inst, hinst, rfl⟩
  obtain ⟨inst', hinst', hsame⟩ := List.mem_map.mp hmem
  have hremote' : inst'.remoteDevice = some name := (fields_of_withoutAddress hsame).2.2.2.trans hremote
  calc devices'.get? name
      = (referencedDevices e'.bundle.document.spec devices').get? name :=
        (get?_referencedDevices (List.mem_filter.mp hinst').1 hremote').symm
    _ = (referencedDevices e.bundle.document.spec devices).get? name := by rw [h.devices]
    _ = devices.get? name := get?_referencedDevices (List.mem_filter.mp hinst).1 hremote

section Sha256

variable (hsha : platform'.sha256 = platform.sha256)
include hsha

/-- The names of generated resources depend only on SHA-256. -/
theorem resourceName_of_sha256 : resourceName platform' = resourceName platform := by
  funext parts
  unfold resourceName
  rw [hsha]

theorem projectName_of_sha256 (deployment : String) : projectName platform' deployment = projectName platform deployment := by
  unfold projectName
  rw [resourceName_of_sha256 hsha]

theorem localCompose_of_sha256 (deployment hash : String) (outputs : List InstanceOutput) :
    localCompose platform' deployment hash outputs = localCompose platform deployment hash outputs := by
  unfold localCompose networkName
  rw [projectName_of_sha256 hsha, resourceName_of_sha256 hsha]

theorem remoteProjects_of_sha256 (deployment hash : String) (devices : Devices) (outputs : List InstanceOutput) :
    remoteProjects platform' deployment hash devices outputs = remoteProjects platform deployment hash devices outputs := by
  have hproject : remoteProject platform' deployment hash devices outputs =
      remoteProject platform deployment hash devices outputs := by
    funext device
    unfold remoteProject remoteNetworkName
    rw [projectName_of_sha256 hsha, resourceName_of_sha256 hsha]
  unfold remoteProjects
  rw [hproject]

end Sha256

/-- Two plans of the same containers: their Compose projects and sidecars are the same, and
what these are told apart by. -/
structure SameContainers (plan plan' : Plan) : Prop where
  deployment : plan'.deployment = plan.deployment
  resourceHash : plan'.resourceHash = plan.resourceHash
  composeProject : plan'.composeProject = plan.composeProject
  artifactDir : plan'.artifactDir = plan.artifactDir
  compose : plan'.compose = plan.compose
  localServiceCount : plan'.localServiceCount = plan.localServiceCount
  remoteProjects : plan'.remoteProjects = plan.remoteProjects
  sidecars : plan'.sidecars = plan.sidecars

/-- **Bundles that are run in the same way, with the same secrets, are planned with the same
containers.** -/
theorem sameContainers_of_sameRun {plan plan' : Plan} (h : SameRun e e' devices devices')
    (hsha : platform'.sha256 = platform.sha256) (hhash : plan'.resourceHash = plan.resourceHash)
    (hvalid : validate platform e.bundle devices = .ok groups)
    (hvalid' : validate platform' e'.bundle devices' = .ok groups')
    (hsecrets : ∀ inst ∈ managedInstances e.bundle.document.spec,
      secretFields platform e'.overlay inst.name = secretFields platform e.overlay inst.name)
    (hgenerate : generate platform e.bundle groups e.overlay devices = .ok plan)
    (hgenerate' : generate platform' e'.bundle groups' e'.overlay devices' = .ok plan') : SameContainers plan plan' := by
  obtain ⟨_, _, _, outputs, remotes, -, -, -, houtputs, hremotes, rfl⟩ := generate_ok_iff.mp hgenerate
  obtain ⟨_, _, _, outputs', remotes', -, -, -, houtputs', hremotes', rfl⟩ := generate_ok_iff.mp hgenerate'
  have hname : e'.bundle.document.metadata.name = e.bundle.document.metadata.name :=
    congrArg (·.metadata.name) h.definition
  have hresource : resourceHashOf platform' e'.bundle.document e'.overlay devices' =
      resourceHashOf platform e.bundle.document e.overlay devices := hhash
  rw [hresource] at houtputs' hremotes'
  have hviews := views_of_sameRun h hsha hvalid hvalid' hsecrets houtputs houtputs'
  have hcompose : localCompose platform e'.bundle.document.metadata.name
        (resourceHashOf platform e.bundle.document e.overlay devices) outputs' =
      localCompose platform e.bundle.document.metadata.name
        (resourceHashOf platform e.bundle.document e.overlay devices) outputs := by
    rw [hname]
    exact composeFile_of_view hviews Option.isNone _ _ _
  refine ⟨hname, hhash, ?_, ?_, ?_, ?_, ?_, ?_⟩
  · exact (projectName_of_sha256 hsha _).trans (congrArg (projectName platform) hname)
  · exact congrArg artifactDir hname
  · refine Eq.trans ?_ ((localCompose_of_sha256 hsha _ _ outputs').trans hcompose)
    exact congrArg (fun hash => localCompose platform' _ hash outputs') hresource
  · have hservices := flatMap_filter_view Option.isNone OutputView.services
    simp only [InstanceOutput.view] at hservices
    have hflat : (localOutputs outputs').flatMap (·.services) = (localOutputs outputs).flatMap (·.services) := by
      rw [localOutputs, localOutputs, hservices, hservices, hviews]
    exact congrArg (fun services => (SortedMap.ofList services).entries.length) hflat
  · rw [remoteProjects_of_sha256 hsha, hname,
      remoteProjects_of_view hviews fun device hdevice => devices_of_sameRun h houtputs hdevice, hremotes] at hremotes'
    exact (Except.ok.inj hremotes').symm
  · exact congrArg SortedMap.ofList (sidecars_of_view hviews)

end Runs

/-! ### Documents with other groups -/

section Moves

/-- A document with other groups. -/
def Document.withGroups (document : Document) (groups : SortedMap String ServiceGroup) : Document :=
  document.withSpec { document.spec with groups := groups }

/-- A document without its groups and its host routing. -/
def Document.unrouted (document : Document) : Document :=
  document.withSpec { document.spec with groups := ∅, hostRouter := none, hostUpstreams := ∅ }

/-- Overlays do not look at groups. -/
theorem foldLayers_withGroups (platform : Platform) (document : Document) (groups : SortedMap String ServiceGroup)
    (overlays : List Overlay) (options : OverlayOptions) :
    foldLayers platform (document.withGroups groups) overlays options = foldLayers platform document overlays options :=
  rfl

theorem resolve_withGroups {platform : Platform} {document resolved resolved' : Document} {overlays : List Overlay}
    {options : OverlayOptions} {resolution resolution' : OverlayResolution} {groups : SortedMap String ServiceGroup}
    (h : resolve platform document overlays options = .ok (resolved, resolution))
    (h' : resolve platform (document.withGroups groups) overlays options = .ok (resolved', resolution')) :
    resolved' = resolved.withGroups groups ∧ resolution' = resolution := by
  unfold resolve at h h'
  rw [foldLayers_withGroups] at h'
  dsimp only [Document.withGroups, Document.withSpec] at h h'
  cases hname : variationName document.metadata.name options.variation with
  | error d =>
    rw [hname] at h
    cases h
  | ok name =>
    rw [hname] at h h'
    dsimp only at h h'
    split_ifs at h h' <;> cases h <;> cases h' <;> exact ⟨rfl, rfl⟩

variable {host : Host} {bundle : Bundle} {options : OverlayOptions} {e e' : Effective}

theorem unrouted_of_withDerivedHostRouting {platform : Platform} {document derived : Document}
    (h : withDerivedHostRouting platform document = .ok derived) : derived.unrouted = document.unrouted := by
  obtain ⟨_, _, rfl⟩ := spec_of_withDerivedHostRouting h
  rfl

/-- Other groups change the groups and the host routing of an effective bundle, and nothing
else. -/
theorem effective_withGroups {groups : SortedMap String ServiceGroup} (h : effective host bundle options = .ok e)
    (h' : effective host (bundle.withDocument (bundle.document.withGroups groups)) options = .ok e') :
    e'.bundle.document.unrouted = e.bundle.document.unrouted ∧ e'.overlay = e.overlay := by
  have hplainEq : isPlain (bundle.withDocument (bundle.document.withGroups groups)) options = isPlain bundle options := rfl
  cases hplain : isPlain bundle options with
  | true =>
    rw [effective, if_pos hplain] at h
    rw [effective, if_pos (hplainEq.trans hplain)] at h'
    obtain ⟨hderived, -, hoverlay⟩ := madeEffective_of_plain h
    obtain ⟨hderived', -, hoverlay'⟩ := madeEffective_of_plain h'
    refine ⟨?_, hoverlay'.trans hoverlay.symm⟩
    rw [unrouted_of_withDerivedHostRouting hderived, unrouted_of_withDerivedHostRouting hderived']
    rfl
  | false =>
    obtain ⟨resolved, resolution, hoverlaid⟩ := exists_overlaid hplain h
    obtain ⟨resolved', resolution', hoverlaid'⟩ := exists_overlaid (hplainEq.trans hplain) h'
    obtain ⟨hresolved, hresolution⟩ := resolve_withGroups hoverlaid.resolves hoverlaid'.resolves
    refine ⟨?_, ?_⟩
    · rw [unrouted_of_withDerivedHostRouting hoverlaid.derived, unrouted_of_withDerivedHostRouting hoverlaid'.derived,
        hresolved]
      rfl
    · rw [hoverlaid.overlay, hoverlaid'.overlay, hresolution]

/-- What is hashed of the groups is which instances they list. -/
theorem resourceDefinition_of_unrouted {document document' : Document} (h : document'.unrouted = document.unrouted)
    (hnames : ∀ name, name ∈ memberNames document'.spec.groups ↔ name ∈ memberNames document.spec.groups) :
    resourceDefinition document' = resourceDefinition document := by
  have hinstances : document'.spec.instances = document.spec.instances := congrArg (·.spec.instances) h
  have hrouted : routedNames document'.spec = routedNames document.spec := by
    unfold routedNames
    refine keys_ofList_congr fun name => ?_
    rw [List.mem_filter, List.mem_filter, hinstances]
    exact and_congr (hnames name) Iff.rfl
  have hform : ∀ document : Document, resourceDefinition document =
      document.unrouted.withSpec { document.unrouted.spec with
        instances := (document.unrouted.spec.instances.map fun inst => { inst with address := none }).filter
          fun inst => !inst.isExternal
        groups := if (routedNames document.spec).isEmpty then ∅
          else SortedMap.insert ∅ "__routed_instances__" ⟨routedNames document.spec, [], none⟩
        managedProfiles := ∅ } := fun _ => rfl
  rw [hform, hform, h, hrouted]

/-- **A move of a member leaves the instances that groups list.** -/
theorem mem_memberNames_move {document : Document} {inst group : String}
    (hmember : inst ∈ memberNames document.spec.groups) (hgroup : document.spec.groups.contains group = true)
    (name : String) : name ∈ memberNames (moveInstanceToGroup document inst group).spec.groups ↔
      name ∈ memberNames document.spec.groups := by
  have hmoved : memberInstance (movedMember document.spec inst) = inst := by
    obtain ⟨owner, howner, hmem⟩ := List.mem_flatMap.mp hmember
    obtain ⟨member, hmem, hname⟩ := List.mem_map.mp hmem
    have hfound : ((document.spec.groups.values.flatMap (·.instances)).find? fun member =>
        memberInstance member = inst).isSome = true := by
      rw [List.find?_isSome]
      exact ⟨member, List.mem_flatMap.mpr ⟨owner, howner, hmem⟩, decide_eq_true hname⟩
    obtain ⟨found, hfound⟩ := Option.isSome_iff_exists.mp hfound
    have hfoundName := List.find?_some hfound
    rw [movedMember, hfound]
    exact of_decide_eq_true hfoundName
  constructor
  · intro hname
    obtain ⟨changed, hchanged, hname⟩ := List.mem_flatMap.mp hname
    obtain ⟨_, hentry, rfl⟩ := List.mem_map.mp hchanged
    obtain ⟨⟨key, owner⟩, howner, rfl⟩ := List.mem_map.mp hentry
    obtain ⟨member, hmem, rfl⟩ := List.mem_map.mp hname
    have hkept : member ∈ (owner.without inst).instances → memberInstance member ∈ memberNames document.spec.groups :=
      fun hmem => List.mem_flatMap.mpr ⟨owner, List.mem_map.mpr ⟨_, howner, rfl⟩,
        List.mem_map.mpr ⟨member, (List.mem_filter.mp hmem).1, rfl⟩⟩
    dsimp only at hmem
    split_ifs at hmem
    · rcases List.mem_append.mp hmem with hmem | hmem
      · exact hkept hmem
      · rw [List.mem_singleton.mp hmem, hmoved]
        exact hmember
    · exact hkept hmem
  · intro hname
    obtain ⟨owner, howner, hname⟩ := List.mem_flatMap.mp hname
    obtain ⟨⟨key, _⟩, hentry, rfl⟩ := List.mem_map.mp howner
    obtain ⟨member, hmem, rfl⟩ := List.mem_map.mp hname
    by_cases hsame : memberInstance member = inst
    · -- the instance is in its new group
      obtain ⟨target, htarget⟩ := (SortedMap.contains_iff _ _).mp hgroup
      refine List.mem_flatMap.mpr ⟨_, List.mem_map.mpr ⟨_, List.mem_map.mpr ⟨(group, target),
        (SortedMap.mem_entries_iff _).mpr htarget, rfl⟩, rfl⟩, List.mem_map.mpr ⟨movedMember document.spec inst, ?_,
          hmoved.trans hsame.symm⟩⟩
      dsimp only
      rw [if_pos rfl]
      exact List.mem_append_right _ (List.mem_singleton_self _)
    · refine List.mem_flatMap.mpr ⟨_, List.mem_map.mpr ⟨_, List.mem_map.mpr ⟨_, hentry, rfl⟩, rfl⟩,
        List.mem_map.mpr ⟨member, ?_, rfl⟩⟩
      have hkept : member ∈ (ServiceGroup.without inst _).instances :=
        List.mem_filter.mpr ⟨hmem, decide_eq_true hsame⟩
      dsimp only
      split_ifs
      · exact List.mem_append_left _ hkept
      · exact hkept

variable {devices : Devices} {groups groups' : ResolvedGroups}

/-- Two plans differ in routing only: in the configurations of routers, the upstreams and the
managed profiles behind them, and in what records the groups, which are the definition hash
and the resolved deployment. -/
structure DifferInRouting (plan plan' : Plan) : Prop extends SameContainers plan plan' where
  resolvedDeployment : plan'.resolvedDeployment.unrouted = plan.resolvedDeployment.unrouted
  sourceIdentities : plan'.sourceIdentities = plan.sourceIdentities
  origins : plan'.origins = plan.origins
  injectedFiles : plan'.injectedFiles = plan.injectedFiles
  externalProbes : plan'.externalProbes = plan.externalProbes
  runtimeSecrets : plan'.runtimeSecrets = plan.runtimeSecrets
  hasOverrides : plan'.hasOverrides = plan.hasOverrides

theorem identity_of_instanceOutput {platform : Platform} {bundle : Bundle} {overlay : Option OverlayResolution}
    {resourceHash : String} {inst : Instance} {output : InstanceOutput}
    (h : instanceOutput platform bundle groups overlay devices resourceHash inst = .ok output) :
    ∃ source, bundle.document.spec.sources.get? inst.source = some source ∧ (output.inst.name, output.identity) =
      (inst.name, platform.inspect bundle.workspaceRoot (resolvePath bundle.definitionDir source.path) source.ref) := by
  unfold instanceOutput at h
  split at h
  · rename_i block source hblock hsource
    cases h
    exact ⟨source, hsource, rfl⟩
  · cases h
  · cases h

theorem resolvedDocument_of_unrouted {bundle bundle' : Bundle} (h : bundle'.document.unrouted = bundle.document.unrouted)
    (hdir : bundle'.definitionDir = bundle.definitionDir) (hroot : bundle'.workspaceRoot = bundle.workspaceRoot) :
    (resolvedDocument bundle').unrouted = (resolvedDocument bundle).unrouted := by
  have hform : ∀ bundle : Bundle, (resolvedDocument bundle).unrouted =
      resolvedDocument (bundle.withDocument bundle.document.unrouted) := fun _ => rfl
  have hbundle : bundle'.withDocument bundle'.document.unrouted = bundle.withDocument bundle.document.unrouted := by
    obtain ⟨_, _, _, _, _⟩ := bundle
    obtain ⟨_, _, _, _, _⟩ := bundle'
    cases hdir
    cases hroot
    rw [h]
    rfl
  rw [hform, hform, hbundle]

/-- **A live move of a member needs no new containers.** Whatever overlays, placements and
disabled members a bundle has, planning it with an instance of some group moved to another
group changes nothing but routing. -/
theorem move_keeps_containers (host : Host) (bundle : Bundle) (devices : Devices) (plan moved : Plan)
    (inst group : String) (hplan : planWithDevices host bundle devices = .ok plan)
    (hmember : inst ∈ memberNames bundle.document.spec.groups)
    (hmoved : planWithMembershipAndDevices host bundle inst group devices = .ok moved) : DifferInRouting plan moved := by
  obtain ⟨herrors, hmoved⟩ := planWithMembershipAndDevices_ok_iff.mp hmoved
  rw [planWithDevices_eq] at hplan hmoved
  obtain ⟨e, groups, he, hvalid, hgenerate⟩ := planWithOverlaysAndDevices_ok hplan
  obtain ⟨e', groups', he', hvalid', hgenerate'⟩ := planWithOverlaysAndDevices_ok hmoved
  have hgroup : bundle.document.spec.groups.contains group = true := by
    have hexists := (List.append_eq_nil_iff.mp herrors).2
    rwa [reportIf_eq_nil, Bool.not_eq_false'] at hexists
  obtain ⟨hunrouted, hoverlay⟩ := effective_withGroups he he'
  have hdefinition : resourceDefinition e'.bundle.document = resourceDefinition e.bundle.document := by
    refine resourceDefinition_of_unrouted hunrouted fun name => ?_
    rw [(keepsSpec he).groups, (keepsSpec he').groups]
    exact mem_memberNames_move hmember hgroup name
  have hinstances : e'.bundle.document.spec.instances = e.bundle.document.spec.instances :=
    congrArg (·.spec.instances) hunrouted
  have hrun : SameRun e e' devices devices := {
    definition := hdefinition
    devices := by rw [referencedDevices, referencedDevices, hinstances]
    files := by rw [hoverlay]
    definitionDir := (workspaceRoot_effective he').2.trans (workspaceRoot_effective he).2.symm
    workspaceRoot := (workspaceRoot_effective he').1.trans (workspaceRoot_effective he).1.symm }
  have hchunks : resourceChunks e'.bundle.document e'.overlay devices = resourceChunks e.bundle.document e.overlay devices := by
    rw [resourceChunks, resourceChunks, hdefinition, hrun.devices, hoverlay]
  have hhash : moved.resourceHash = plan.resourceHash := by
    obtain ⟨_, _, _, _, _, -, -, -, -, -, rfl⟩ := generate_ok_iff.mp hgenerate
    obtain ⟨_, _, _, _, _, -, -, -, -, -, rfl⟩ := generate_ok_iff.mp hgenerate'
    exact congrArg host.hash hchunks
  have hcontainers := sameContainers_of_sameRun hrun rfl hhash hvalid hvalid' (fun _ _ => by rw [hoverlay]) hgenerate hgenerate'
  obtain ⟨_, _, probes, outputs, _, -, -, hprobes, houtputs, -, rfl⟩ := generate_ok_iff.mp hgenerate
  obtain ⟨_, _, probes', outputs', _, -, -, hprobes', houtputs', -, rfl⟩ := generate_ok_iff.mp hgenerate'
  refine { hcontainers with
    resolvedDeployment := ?_, sourceIdentities := ?_, origins := ?_, injectedFiles := ?_, externalProbes := ?_
    runtimeSecrets := ?_, hasOverrides := ?_ }
  · exact resolvedDocument_of_unrouted hunrouted hrun.definitionDir hrun.workspaceRoot
  · refine congrArg SortedMap.ofList (map_eq_of_mapM_ok (g := fun output => (output.inst.name, output.identity)) ?_ houtputs'
      houtputs)
    rw [hinstances]
    refine List.forall₂_same.mpr fun run _ output' output houtput' houtput => ?_
    obtain ⟨source, hsource, hidentity⟩ := identity_of_instanceOutput houtput
    obtain ⟨source', hsource', hidentity'⟩ := identity_of_instanceOutput houtput'
    have hsources : e'.bundle.document.spec.sources = e.bundle.document.spec.sources :=
      congrArg (·.spec.sources) hunrouted
    rw [hsources, hsource] at hsource'
    rw [hidentity, hidentity', ← Option.some.inj hsource', hrun.definitionDir, hrun.workspaceRoot]
  · exact congrArg (fun overlay => (Option.map OverlayResolution.origins overlay).getD []) hoverlay
  · exact congrArg (fun overlay => (Option.map OverlayResolution.files overlay).getD []) hoverlay
  · rw [externalProbes, hinstances] at hprobes'
    exact Except.ok.inj (hprobes'.symm.trans hprobes)
  · exact congrArg (fun overlay => (Option.map (runtimeSecrets host.toPlatform) overlay).getD []) hoverlay
  · exact congrArg Option.isSome hoverlay

end Moves

/-- `back` is moved to the group of `front`. -/
theorem move_keeps_containers_shop :
    ∃ plan moved, planWithDevices shopHost shopBundle ∅ = .ok plan ∧
      planWithMembershipAndDevices shopHost shopBundle "back" "one" ∅ = .ok moved ∧
      moved.compose = plan.compose ∧ moved.sidecars.keys = ["back", "front"] := by
  have hrun : (planWithDevices shopHost shopBundle ∅).toOption.map (·.deployment) = some "shop" := by decide +kernel
  have hmovedRun : (planWithMembershipAndDevices shopHost shopBundle "back" "one" ∅).toOption.map (·.sidecars.keys) =
      some ["back", "front"] := by decide +kernel
  obtain ⟨plan, hplan, -⟩ := exists_ok_of_toOption hrun
  obtain ⟨moved, hmoved, hsidecars⟩ := exists_ok_of_toOption hmovedRun
  have hcontainers := move_keeps_containers shopHost shopBundle ∅ plan moved "back" "one" hplan (by decide +kernel) hmoved
  exact ⟨plan, moved, hplan, hmoved, hcontainers.compose, hsidecars⟩

/-! ### Secrets -/

section Secrets

/-- The secrets of a resolution. -/
def secretsOf (overlay : Option OverlayResolution) : SecretEnvironment := (overlay.map (·.secretEnvironment)).getD ∅

/-- The secret that a key of an instance is taken from: what its last layer refers to. -/
def secretAt (host : Host) (bundle : Bundle) (options : OverlayOptions) (name key : String) :
    Option OverlaySecretReference :=
  (instanceNamed bundle.document.spec.instances name).bind fun inst =>
    (lastLayer host.toPlatform bundle.document (loadOverlays host bundle options).1 options inst key).bind Touch.secret

variable {host : Host} {bundle : Bundle} {options : OverlayOptions} {e : Effective} {devices : Devices}
  {groups : ResolvedGroups}

/-- A deployment itself has no secrets. -/
theorem secretAt_of_isPlain (h : isPlain bundle options = true) (name key : String) :
    secretAt host bundle options name key = none := by
  rw [isPlain, Bool.and_eq_true, Bool.and_eq_true, List.isEmpty_iff, List.isEmpty_iff] at h
  have hoverlays : (loadOverlays host bundle options).1 = [] := by
    rw [loadOverlays, h.1.1]
    rfl
  rw [secretAt, hoverlays]
  cases instanceNamed bundle.document.spec.instances name with
  | none => rfl
  | some inst =>
    rw [Option.bind_some]
    cases hlast : lastLayer host.toPlatform bundle.document [] options inst key with
    | none => rfl
    | some touch =>
      have hmem := mem_atKey.mp (List.mem_of_getLast? hlast)
      rw [layers, commandLineTouches, h.2, List.map_nil, List.append_nil] at hmem
      obtain ⟨entry, -, heq⟩ := List.mem_map.mp hmem
      rw [← (Prod.mk.inj heq).2]
      rfl

/-- **The secrets a bundle is run with are those its last layers refer to.** -/
theorem get?_secretsOf (h : effective host bundle options = .ok e)
    (hvalid : validate host.toPlatform e.bundle devices = .ok groups) (name key : String) :
    (secretsOf e.overlay).get? (toLex (name, key)) = secretAt host bundle options name key := by
  cases hplain : isPlain bundle options with
  | true =>
    rw [secretAt_of_isPlain hplain]
    rw [effective, if_pos hplain] at h
    rw [(madeEffective_of_plain h).2.2]
    rfl
  | false =>
    have hnodup : (instanceNames bundle.document.spec.instances).Nodup := by
      rw [← instanceNames_of_stripped (keepsSpec h).instances]
      exact nodup_of_validate hvalid
    obtain ⟨resolved, resolution, hoverlaid⟩ := exists_overlaid hplain h
    have hsecrets : secretsOf e.overlay = resolution.secretEnvironment := by
      rw [hoverlaid.overlay]
      rfl
    rw [hsecrets, secretAt]
    cases hnamed : instanceNamed bundle.document.spec.instances name with
    | none =>
      rw [Option.bind_none, (resolve_ok hoverlaid.resolves).2.2.1]
      refine Option.eq_none_iff_forall_ne_some.mpr fun reference hreference => ?_
      have hmem := (wellKeyed_foldLayers ..).secrets _ _ hreference
      obtain ⟨inst, hinst⟩ := exists_instanceNamed hmem
      rw [show (ofLex (toLex (name, key))).1 = name from rfl, hnamed] at hinst
      cases hinst
    | some inst =>
      have hmatch := List.find?_some hnamed
      obtain ⟨index, hindex⟩ := List.mem_iff_getElem?.mp (List.mem_of_find?_eq_some hnamed)
      obtain ⟨i, hi, -⟩ := exists_resolved hoverlaid.resolves hindex
      have hkey := (resolve_at_key hnodup hoverlaid.resolves hindex hi key).2.2.1
      rw [show inst.name = name from of_decide_eq_true hmatch] at hkey
      rw [hkey, Option.bind_some]

theorem secretFields_eq (platform : Platform) (overlay : Option OverlayResolution) (inst : String) :
    secretFields platform overlay inst =
      ((secretsOf overlay).keys.filter fun k => (ofLex k).1 = inst).map fun k =>
        ((ofLex k).2, .string ("$\x7b" ++ overlaySecretVariable platform inst (ofLex k).2 ++
          ":?overlay secret is required\x7d")) := by
  cases overlay with
  | none => rfl
  | some resolution => simp [secretFields, secretsOf]

theorem runtimeSecrets_eq (platform : Platform) (overlay : Option OverlayResolution) :
    (overlay.map (runtimeSecrets platform)).getD [] = (secretsOf overlay).entries.map fun entry =>
      ⟨overlaySecretVariable platform (ofLex entry.1).1 (ofLex entry.1).2, entry.2⟩ := by
  cases overlay <;> rfl

end Secrets

/-! ### What the resource hash shows -/

section Hash

variable {e e' : Effective} {devices devices' : Devices}

/-- The devices and the files of the texts that are hashed. -/
theorem devices_of_chunks {referenced referenced' : Devices} {overlay overlay' : Option OverlayResolution}
    (h : (if referenced'.entries.isEmpty then [] else [.devices referenced']) ++ fileChunks overlay' =
      (if referenced.entries.isEmpty then [] else [HashChunk.devices referenced]) ++ fileChunks overlay) :
    referenced' = referenced ∧ fileChunks overlay' = fileChunks overlay := by
  have hempty : ∀ devices : Devices, devices.entries.isEmpty = true → devices = ∅ := by
    intro devices hentries
    refine SortedMap.ext_get? fun k => ?_
    rw [SortedMap.get?, List.isEmpty_iff.mp hentries]
    rfl
  split_ifs at h with hnew hold hold
  · exact ⟨(hempty _ hnew).trans (hempty _ hold).symm, h⟩
  · exfalso
    cases overlay' <;> cases h
  · exfalso
    cases overlay <;> cases h
  · obtain ⟨hdevices, hfiles⟩ := List.cons.inj h
    exact ⟨HashChunk.devices.inj hdevices, hfiles⟩

theorem sameRun_of_resourceChunks (h : resourceChunks e'.bundle.document e'.overlay devices' =
      resourceChunks e.bundle.document e.overlay devices)
    (hdir : e'.bundle.definitionDir = e.bundle.definitionDir)
    (hroot : e'.bundle.workspaceRoot = e.bundle.workspaceRoot) : SameRun e e' devices devices' := by
  obtain ⟨hdocument, hrest⟩ := List.cons.inj h
  obtain ⟨hdevices, hfiles⟩ := devices_of_chunks hrest
  exact ⟨HashChunk.document.inj hdocument, hdevices, hfiles, hdir, hroot⟩

/-- What two plans are run with is the same: the Compose projects, and the variables of the
secrets with what they are taken from. -/
structure SameRuntime (plan plan' : Plan) : Prop where
  compose : plan'.compose = plan.compose
  remoteComposes : (plan'.remoteProjects.mapValues fun _ remote => remote.compose)
    = plan.remoteProjects.mapValues fun _ remote => remote.compose
  runtimeSecrets : plan'.runtimeSecrets = plan.runtimeSecrets

/-- Two bundles take the same keys from the same secrets. -/
def SecretsAgree (host host' : Host) (bundle bundle' : Bundle) (options options' : OverlayOptions) : Prop :=
  ∀ name key, secretAt host' bundle' options' name key = secretAt host bundle options name key

/-- The variables of the secrets of two bundles are not a collision of digests. -/
def VariablesDiffer (host host' : Host) (bundle bundle' : Bundle) (options options' : OverlayOptions) : Prop :=
  ∀ name key name' key', (secretAt host bundle options name key).isSome = true →
    (secretAt host' bundle' options' name' key').isSome = true →
    overlaySecretVariable host'.toPlatform name' key' = overlaySecretVariable host.toPlatform name key →
      name' = name ∧ key' = key

/-- Bindings of different keys to different variables show the keys. -/
theorem eq_of_map_eq {κ ν μ : Type} {f g : κ → μ} {l l' : List (κ × ν)}
    (hinj : ∀ k ∈ l.map Prod.fst, ∀ k' ∈ l'.map Prod.fst, g k' = f k → k' = k)
    (h : (l'.map fun e => (g e.1, e.2)) = l.map fun e => (f e.1, e.2)) : l' = l := by
  induction l generalizing l' with
  | nil => exact List.map_eq_nil_iff.mp h
  | cons first rest ih =>
    cases l' with
    | nil => cases h
    | cons first' rest' =>
      obtain ⟨hfirst, hrest⟩ := List.cons.inj h
      obtain ⟨hkey, hvalue⟩ := Prod.mk.inj hfirst
      have hsame : first' = first := Prod.ext (hinj _ (List.mem_cons_self ..) _ (List.mem_cons_self ..) hkey) hvalue
      rw [hsame, ih (fun k hk k' hk' => hinj k (List.mem_cons_of_mem _ hk) k' (List.mem_cons_of_mem _ hk')) hrest]

/-- **Where two plans have the same resource hash, they are run with the same exactly if the
same keys are taken from the same secrets.** The plans may be made at different times, with
other files and overlays; only SHA-256 is the same. -/
theorem resourceHash_sound_iff (host host' : Host) (bundle bundle' : Bundle) (options options' : OverlayOptions)
    (devices devices' : Devices) (plan plan' : Plan) (hsha : host'.sha256 = host.sha256) (hash : host'.hash = host.hash)
    (hplan : planWithOverlaysAndDevices host bundle options devices = .ok plan)
    (hplan' : planWithOverlaysAndDevices host' bundle' options' devices' = .ok plan')
    (hdir : bundle'.definitionDir = bundle.definitionDir) (hroot : bundle'.workspaceRoot = bundle.workspaceRoot)
    (hcollision : ∀ e e', effective host bundle options = .ok e → effective host' bundle' options' = .ok e' →
      NoCollision host.toPlatform (resourceChunks e'.bundle.document e'.overlay devices')
        (resourceChunks e.bundle.document e.overlay devices))
    (hequal : plan'.resourceHash = plan.resourceHash) :
    (SecretsAgree host host' bundle bundle' options options' → SameRuntime plan plan') ∧
      (VariablesDiffer host host' bundle bundle' options options' → SameRuntime plan plan' →
        SecretsAgree host host' bundle bundle' options options') := by
  obtain ⟨e, groups, he, hvalid, hgenerate⟩ := planWithOverlaysAndDevices_ok hplan
  obtain ⟨e', groups', he', hvalid', hgenerate'⟩ := planWithOverlaysAndDevices_ok hplan'
  have hrun : SameRun e e' devices devices' := by
    refine sameRun_of_resourceChunks (hcollision e e' he he' ?_)
      ((workspaceRoot_effective he').2.trans (hdir.trans (workspaceRoot_effective he).2.symm))
      ((workspaceRoot_effective he').1.trans (hroot.trans (workspaceRoot_effective he).1.symm))
    obtain ⟨_, _, _, _, _, -, -, -, -, -, rfl⟩ := generate_ok_iff.mp hgenerate
    obtain ⟨_, _, _, _, _, -, -, -, -, -, rfl⟩ := generate_ok_iff.mp hgenerate'
    exact (congrFun hash.symm _).trans hequal
  have hruntime : plan.runtimeSecrets = (secretsOf e.overlay).entries.map fun entry =>
      ⟨overlaySecretVariable host.toPlatform (ofLex entry.1).1 (ofLex entry.1).2, entry.2⟩ := by
    obtain ⟨_, _, _, _, _, -, -, -, -, -, rfl⟩ := generate_ok_iff.mp hgenerate
    exact runtimeSecrets_eq ..
  have hruntime' : plan'.runtimeSecrets = (secretsOf e'.overlay).entries.map fun entry =>
      ⟨overlaySecretVariable host'.toPlatform (ofLex entry.1).1 (ofLex entry.1).2, entry.2⟩ := by
    obtain ⟨_, _, _, _, _, -, -, -, -, -, rfl⟩ := generate_ok_iff.mp hgenerate'
    exact runtimeSecrets_eq ..
  have hvariable : ∀ name key, overlaySecretVariable host'.toPlatform name key =
      overlaySecretVariable host.toPlatform name key := by
    intro name key
    unfold overlaySecretVariable
    rw [hsha]
  constructor
  · intro hagree
    have hsecrets : secretsOf e'.overlay = secretsOf e.overlay := by
      refine SortedMap.ext_get? fun id => ?_
      rw [show id = toLex ((ofLex id).1, (ofLex id).2) from rfl, get?_secretsOf he hvalid, get?_secretsOf he' hvalid', hagree]
    have hcontainers := sameContainers_of_sameRun hrun hsha hequal hvalid hvalid'
      (fun inst _ => by rw [secretFields_eq, secretFields_eq, hsecrets]) hgenerate hgenerate'
    refine ⟨hcontainers.compose, by rw [hcontainers.remoteProjects], ?_⟩
    rw [hruntime, hruntime', hsecrets]
    simp only [hvariable]
  · intro hdiffer hsame name key
    rw [← get?_secretsOf he hvalid, ← get?_secretsOf he' hvalid']
    have hmap := hsame.runtimeSecrets
    rw [hruntime, hruntime'] at hmap
    have hentries : (secretsOf e'.overlay).entries = (secretsOf e.overlay).entries := by
      refine eq_of_map_eq (f := fun id => overlaySecretVariable host.toPlatform (ofLex id).1 (ofLex id).2)
        (g := fun id => overlaySecretVariable host'.toPlatform (ofLex id).1 (ofLex id).2) (fun id hid id' hid' heq => ?_) ?_
      · obtain ⟨reference, hreference⟩ := (SortedMap.mem_keys_iff _).mp hid
        obtain ⟨reference', hreference'⟩ := (SortedMap.mem_keys_iff _).mp hid'
        have hsome := (get?_secretsOf he hvalid (ofLex id).1 (ofLex id).2).symm.trans hreference
        have hsome' := (get?_secretsOf he' hvalid' (ofLex id').1 (ofLex id').2).symm.trans hreference'
        obtain ⟨hname, hkey⟩ := hdiffer _ _ _ _ (Option.isSome_of_eq_some hsome) (Option.isSome_of_eq_some hsome') heq
        exact ofLex_inj.mp (Prod.ext hname hkey)
      · have hbindings := congrArg (List.map fun secret : RuntimeSecretPlan => (secret.name, secret.reference)) hmap
        rw [List.map_map, List.map_map] at hbindings
        exact hbindings
    rw [SortedMap.get?, hentries]
    rfl

end Hash

/-- The shop, with an overlay that it lists. -/
def listedBundle : Bundle :=
  shopBundle.withDocument (shopBundle.document.withSpec { shopBundle.document.spec with overlays := [⟨"dev.yaml"⟩] })

/-- An overlay that sets `TOKEN` to a text. -/
def literalOverlay : Overlay := frontOverlay (.ofList [("TOKEN", .literal "«secret: SHOP_TOKEN»")]) []

/-- The texts that two plans hash, as far as they can be made effective. -/
theorem noCollision_of_toOption {host host' : Host} {bundle bundle' : Bundle} {options options' : OverlayOptions}
    {devices devices' : Devices} (h : ((effective host' bundle' options').toOption.map fun e =>
        resourceChunks e.bundle.document e.overlay devices') =
      (effective host bundle options).toOption.map fun e => resourceChunks e.bundle.document e.overlay devices) :
    ∀ e e', effective host bundle options = .ok e → effective host' bundle' options' = .ok e' →
      NoCollision host.toPlatform (resourceChunks e'.bundle.document e'.overlay devices')
        (resourceChunks e.bundle.document e.overlay devices) := by
  intro e e' he he' _
  rw [he, he'] at h
  exact Option.some.inj h

/-- The plan of the shop with its token taken from the environment. -/
theorem tokenPlan_values :
    (planWithOverlaysAndDevices (overlaidHost tokenOverlay) listedBundle OverlayOptions.none ∅).toOption.map
      (fun plan => (plan.resourceHash, plan.runtimeSecrets)) = some ("|worktrees/app",
        [⟨"APMPR_OVERLAY_SECRET_139D82A31E628F72", ⟨some "SHOP_TOKEN", none⟩⟩]) := by decide +kernel

/-- The overlay is edited: what was a text is taken from the environment. The document that
is hashed shows a secret as such a text, and does not change. -/
theorem secret_hashed_as_text :
    ∃ plan plan', planWithOverlaysAndDevices (overlaidHost literalOverlay) listedBundle OverlayOptions.none ∅ = .ok plan ∧
      planWithOverlaysAndDevices (overlaidHost tokenOverlay) listedBundle OverlayOptions.none ∅ = .ok plan' ∧
      (∀ e e', effective (overlaidHost literalOverlay) listedBundle OverlayOptions.none = .ok e →
        effective (overlaidHost tokenOverlay) listedBundle OverlayOptions.none = .ok e' →
          NoCollision (overlaidHost literalOverlay).toPlatform (resourceChunks e'.bundle.document e'.overlay ∅)
            (resourceChunks e.bundle.document e.overlay ∅)) ∧
      plan'.resourceHash = plan.resourceHash ∧ ¬SameRuntime plan plan' := by
  have hrun : (planWithOverlaysAndDevices (overlaidHost literalOverlay) listedBundle OverlayOptions.none ∅).toOption.map
      (fun plan => (plan.resourceHash, plan.runtimeSecrets)) = some ("|worktrees/app", []) := by decide +kernel
  obtain ⟨plan, hplan, hvalues⟩ := exists_ok_of_toOption hrun
  obtain ⟨plan', hplan', hvalues'⟩ := exists_ok_of_toOption tokenPlan_values
  obtain ⟨hhash, hsecrets⟩ := Prod.mk.inj hvalues
  obtain ⟨hhash', hsecrets'⟩ := Prod.mk.inj hvalues'
  refine ⟨plan, plan', hplan, hplan', noCollision_of_toOption (by decide +kernel), hhash'.trans hhash.symm, fun hsame => ?_⟩
  have heq := hsame.runtimeSecrets
  rw [hsecrets, hsecrets'] at heq
  cases heq

/-- The groups are changed, and the secrets are not. -/
theorem groups_changed_same_runtime :
    ∃ plan plan', planWithOverlaysAndDevices (overlaidHost tokenOverlay) listedBundle OverlayOptions.none ∅ = .ok plan ∧
      planWithOverlaysAndDevices (overlaidHost tokenOverlay)
        (listedBundle.withDocument (moveInstanceToGroup listedBundle.document "back" "one")) OverlayOptions.none ∅ = .ok plan' ∧
      plan.runtimeSecrets ≠ [] ∧ SameRuntime plan plan' := by
  have hrun : (planWithOverlaysAndDevices (overlaidHost tokenOverlay) (listedBundle.withDocument
      (moveInstanceToGroup listedBundle.document "back" "one")) OverlayOptions.none ∅).toOption.map
        (·.resourceHash) = some "|worktrees/app" := by decide +kernel
  obtain ⟨plan, hplan, hvalues⟩ := exists_ok_of_toOption tokenPlan_values
  obtain ⟨plan', hplan', hhash'⟩ := exists_ok_of_toOption hrun
  obtain ⟨hhash, hsecrets⟩ := Prod.mk.inj hvalues
  have hsound := resourceHash_sound_iff (overlaidHost tokenOverlay) (overlaidHost tokenOverlay) listedBundle
    (listedBundle.withDocument (moveInstanceToGroup listedBundle.document "back" "one")) OverlayOptions.none
    OverlayOptions.none ∅ ∅ plan plan' rfl rfl hplan hplan' rfl rfl (noCollision_of_toOption (by decide +kernel))
    (hhash'.trans hhash.symm)
  exact ⟨plan, plan', hplan, hplan', by rw [hsecrets]; exact List.cons_ne_nil _ _, hsound.1 fun _ _ => rfl⟩

end Apmpr.Planner
