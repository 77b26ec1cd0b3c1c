import Apmpr.Lib.Registry
import Apmpr.Planner.Plan

/-!
# Resolved deployments

The resolved deployment of a plan is written beside the other artifacts and loaded again
when a member is moved or the applied state is recorded. It differs from the effective
document it was made from only in its paths: sources and clones are absolute, and a
repository with an URL has become its clone. Loading it finds another definition directory,
below `.apmpr/generated`, and the same workspace.

## What is proved

* `validate_reloaded`: an effective bundle that is valid stays valid when its resolved
  deployment is loaded from below `.apmpr/generated`, with the same groups.
* `generateHostRouterConfig_reloaded`, `instanceOutputs_reloaded`: what is generated for it
  is the same, up to the resource hash in the labels.
* `generate_succeeds`: generation of a valid bundle ends in a plan once the host router's
  configuration is there; none of its lookups can panic.
-/

namespace Apmpr.Planner

open Router (RouterConfig)

/-! ### Paths -/

theorem isAbsolute_resolvePath {base : PathBuf} (h : base.isAbsolute = true) (p : PathBuf) :
    (resolvePath base p).isAbsolute = true := by
  rw [resolvePath]
  split_ifs with hp
  · exact hp
  · exact PathBuf.isAbsolute_join h p

theorem resolvePath_of_isAbsolute (base : PathBuf) {p : PathBuf} (h : p.isAbsolute = true) : resolvePath base p = p :=
  if_pos h

/-- Resolving changes exactly the relative paths. -/
theorem resolvePath_eq_self_iff {base : PathBuf} (h : base.isAbsolute = true) (p : PathBuf) :
    resolvePath base p = p ↔ p.isAbsolute = true := by
  constructor
  · intro heq
    rw [← heq]
    exact isAbsolute_resolvePath h p
  · exact resolvePath_of_isAbsolute base

theorem text_ne_of_isAbsolute {p : PathBuf} (h : p.isAbsolute = true) : p.text ≠ "" := by
  obtain ⟨rest, hrest⟩ := (PathBuf.isAbsolute_iff p).mp h
  intro he
  rw [he] at hrest
  cases hrest

/-- The bundle that loading the resolved deployment of an effective bundle gives. -/
def Bundle.reloaded (bundle : Bundle) (dir : PathBuf) (h : dir.isAbsolute = true) : Bundle where
  document := resolvedDocument bundle
  definitionDir := dir
  workspaceRoot := bundle.workspaceRoot
  definitionDir_absolute := h
  workspaceRoot_absolute := bundle.workspaceRoot_absolute

section Reloaded

variable {platform : Platform} {bundle : Bundle} {dir : PathBuf} {hdir : dir.isAbsolute = true} {devices : Devices}

/-- A path that was resolved stays as it is. -/
theorem resolvePath_resolvePath (p : PathBuf) :
    resolvePath dir (resolvePath bundle.definitionDir p) = resolvePath bundle.definitionDir p :=
  resolvePath_of_isAbsolute dir (isAbsolute_resolvePath bundle.definitionDir_absolute p)

/-! ### Repositories and sources -/

/-- The clone of a valid repository is where it was. -/
theorem repositoryPath_reloaded {name : String} {repository : Repository} {p : PathBuf}
    (h : repositoryPath bundle name repository = .ok p) :
    repositoryPath (bundle.reloaded dir hdir) name (resolvedRepository bundle name repository) = .ok p := by
  obtain ⟨url, clone⟩ := repository
  cases url with
  | some url =>
    cases clone with
    | some clone => cases h
    | none =>
      simp only [repositoryPath] at h
      split_ifs at h
      cases h
      have habs : ((cloneRoot bundle.workspaceRoot).join ⟨name⟩).isAbsolute = true :=
        PathBuf.isAbsolute_join (PathBuf.isAbsolute_join bundle.workspaceRoot_absolute _) _
      simp only [resolvedRepository, Option.isSome_some, if_true, repositoryPath, Except.ok.injEq]
      exact resolvePath_of_isAbsolute _ habs
  | none =>
    cases clone with
    | none => cases h
    | some clone =>
      simp only [repositoryPath, Except.ok.injEq] at h
      subst h
      simp only [resolvedRepository, Option.isSome_none, Bool.false_eq_true, if_false, Option.map_some,
        repositoryPath, Except.ok.injEq]
      exact resolvePath_resolvePath clone

theorem errorOf_eq_nil_iff {α : Type} {r : Except Diagnostic α} : errorOf r = [] ↔ ∃ a, r = .ok a := by
  cases r <;> simp [errorOf]

/-- The repositories of a valid bundle are valid after loading. -/
theorem repositoryErrors_reloaded {entry : String × Repository} (h : repositoryErrors bundle entry = []) :
    repositoryErrors (bundle.reloaded dir hdir) (entry.1, resolvedRepository bundle entry.1 entry.2) = [] := by
  obtain ⟨hname, hpath⟩ := List.append_eq_nil_iff.mp h
  obtain ⟨p, hp⟩ := errorOf_eq_nil_iff.mp hpath
  exact List.append_eq_nil_iff.mpr ⟨hname, errorOf_eq_nil_iff.mpr ⟨p, repositoryPath_reloaded hp⟩⟩

/-- The clones are found as before. -/
theorem repositoryClone_reloaded (h : ∀ entry ∈ bundle.document.spec.repositories.entries,
    repositoryErrors bundle entry = []) (name : String) :
    repositoryClone (bundle.reloaded dir hdir) name = repositoryClone bundle name := by
  have hget : (bundle.reloaded dir hdir).document.spec.repositories.get? name
      = (bundle.document.spec.repositories.get? name).map (resolvedRepository bundle name) :=
    SortedMap.get?_mapValues ..
  rw [repositoryClone, hget, repositoryClone]
  cases hr : bundle.document.spec.repositories.get? name with
  | none => rfl
  | some repository =>
    have hok := h (name, repository) ((SortedMap.mem_entries_iff _).mpr hr)
    obtain ⟨p, hp⟩ := errorOf_eq_nil_iff.mp (List.append_eq_nil_iff.mp hok).2
    simp only [Option.map_some, Option.bind_some]
    rw [repositoryPath_reloaded hp, hp]

/-- The path of a source stays as it is. -/
theorem sourcePath_reloaded (source : Source) :
    sourcePath (bundle.reloaded dir hdir) (resolvedSource bundle source) = sourcePath bundle source :=
  congrArg normalizePath (resolvePath_resolvePath source.path)

/-- The sources of a list, resolved. -/
def resolvedSources (bundle : Bundle) (sources : List (String × Source)) : List (String × Source) :=
  sources.map fun entry => (entry.1, resolvedSource bundle entry.2)

/-- The search for an earlier source of the same path ends as before. -/
theorem find?_resolvedSources (sources : List (String × Source)) (path : List PathBuf.Component) :
    ((resolvedSources bundle sources).reverse.find? fun other => sourcePath (bundle.reloaded dir hdir) other.2 = path)
      = (sources.reverse.find? fun other => sourcePath bundle other.2 = path).map
          fun entry => (entry.1, resolvedSource bundle entry.2) := by
  rw [resolvedSources, ← List.map_reverse, List.find?_map]
  refine congrArg (Option.map _) (congrArg (List.find? · sources.reverse) ?_)
  funext entry
  simp only [Function.comp_apply, sourcePath_reloaded]

theorem sourceGitErrors_resolved {source : Source} (h : sourceGitErrors platform source = []) :
    sourceGitErrors platform (resolvedSource bundle source) = [] := by
  have hpath : (resolvePath bundle.definitionDir source.path).text ≠ "" :=
    text_ne_of_isAbsolute (isAbsolute_resolvePath bundle.definitionDir_absolute _)
  simp only [sourceGitErrors, emptyTexts, List.filterMap_eq_nil_iff, List.mem_cons, List.not_mem_nil, or_false,
    forall_eq_or_imp, forall_eq, ite_eq_right_iff, reduceCtorEq, imp_false, resolvedSource] at h ⊢
  exact ⟨hpath, h.2⟩

theorem sourceRepositoryErrors_reloaded (hrepositories : ∀ entry ∈ bundle.document.spec.repositories.entries,
    repositoryErrors bundle entry = []) (name : String) (source : Source) :
    sourceRepositoryErrors (bundle.reloaded dir hdir) name (resolvedSource bundle source)
      = sourceRepositoryErrors bundle name source := by
  have hclone : repositoryClone (bundle.reloaded dir hdir) (resolvedSource bundle source).repository
      = repositoryClone bundle source.repository := repositoryClone_reloaded hrepositories source.repository
  simp only [sourceRepositoryErrors, hclone, sourcePath_reloaded]
  rfl

/-- A valid source is valid after loading; below `.apmpr/generated` it may be absolute. -/
theorem sourceErrors_reloaded (hgenerated : generatedDefinition dir = true)
    (hrepositories : ∀ entry ∈ bundle.document.spec.repositories.entries, repositoryErrors bundle entry = [])
    {earlier : List (String × Source)} {name : String} {source : Source}
    (h : sourceErrors platform bundle earlier name source = []) :
    sourceErrors platform (bundle.reloaded dir hdir) (resolvedSources bundle earlier) name
      (resolvedSource bundle source) = [] := by
  have hdirectory : (bundle.reloaded dir hdir).definitionDir = dir := rfl
  simp only [sourceErrors, List.append_eq_nil_iff, List.map_eq_nil_iff, reportIf_eq_nil] at h ⊢
  obtain ⟨⟨⟨⟨⟨⟨hname, hgit⟩, -⟩, -⟩, hduplicate⟩, href⟩, hrepository⟩ := h
  refine ⟨⟨⟨⟨⟨⟨hname, sourceGitErrors_resolved hgit⟩, ?_⟩, ?_⟩, ?_⟩, href⟩, ?_⟩
  · rw [hdirectory, hgenerated, Bool.not_true, Bool.and_false]
  · rw [hdirectory, hgenerated, Bool.not_true, Bool.false_and]
  · rw [find?_resolvedSources, sourcePath_reloaded]
    cases hfind : earlier.reverse.find? fun other => sourcePath bundle other.2 = sourcePath bundle source with
    | none => rfl
    | some previous =>
      rw [hfind] at hduplicate
      cases hduplicate
  · rw [sourceRepositoryErrors_reloaded hrepositories]
    exact hrepository

/-- The sources are read one after another; the resolved ones follow the ones they were
made from. -/
theorem allSourceErrors_reloaded (hgenerated : generatedDefinition dir = true)
    (hrepositories : ∀ entry ∈ bundle.document.spec.repositories.entries, repositoryErrors bundle entry = [])
    {earlier sources : List (String × Source)} (h : allSourceErrors platform bundle earlier sources = []) :
    allSourceErrors platform (bundle.reloaded dir hdir) (resolvedSources bundle earlier)
      (resolvedSources bundle sources) = [] := by
  induction sources generalizing earlier with
  | nil => rfl
  | cons entry rest ih =>
    obtain ⟨hentry, hrest⟩ := List.append_eq_nil_iff.mp h
    have hstep := ih hrest
    rw [resolvedSources, List.map_append] at hstep
    exact List.append_eq_nil_iff.mpr ⟨sourceErrors_reloaded hgenerated hrepositories hentry, hstep⟩

/-! ### Instances -/

theorem get?_sources_reloaded (name : String) :
    (bundle.reloaded dir hdir).document.spec.sources.get? name
      = (bundle.document.spec.sources.get? name).map (resolvedSource bundle) :=
  SortedMap.get?_mapValues ..

theorem sourceFileErrors_reloaded (block : Block) (inst : Instance) :
    sourceFileErrors platform (bundle.reloaded dir hdir) block inst = sourceFileErrors platform bundle block inst := by
  rw [sourceFileErrors, get?_sources_reloaded, sourceFileErrors]
  cases bundle.document.spec.sources.get? inst.source with
  | none => rfl
  | some source =>
    have hpath : resolvePath (bundle.reloaded dir hdir).definitionDir (resolvedSource bundle source).path
        = resolvePath bundle.definitionDir source.path := resolvePath_resolvePath source.path
    simp only [Option.map_some, hpath]

theorem managedInstanceErrors_reloaded (path : String) (inst : Instance) :
    managedInstanceErrors platform (bundle.reloaded dir hdir) devices path inst
      = managedInstanceErrors platform bundle devices path inst := by
  have hcontains : (bundle.reloaded dir hdir).document.spec.sources.contains inst.source
      = bundle.document.spec.sources.contains inst.source := SortedMap.contains_mapValues ..
  simp only [managedInstanceErrors, hcontains, sourceFileErrors_reloaded]
  rfl

theorem allInstanceErrors_reloaded (earlier instances : List Instance) :
    allInstanceErrors platform (bundle.reloaded dir hdir) devices earlier instances
      = allInstanceErrors platform bundle devices earlier instances := by
  induction instances generalizing earlier with
  | nil => rfl
  | cons inst rest ih =>
    simp only [allInstanceErrors, instanceErrors, managedInstanceErrors_reloaded, ih]

/-! ### Validation -/

theorem resourceErrors_reloaded (hgenerated : generatedDefinition dir = true)
    (h : resourceErrors platform bundle devices = []) :
    resourceErrors platform (bundle.reloaded dir hdir) devices = [] := by
  simp only [resourceErrors, List.append_eq_nil_iff, List.flatMap_eq_nil_iff] at h
  obtain ⟨⟨⟨⟨⟨hversion, hname⟩, hrepositories⟩, hsources⟩, hblocks⟩, hinstances⟩ := h
  simp only [resourceErrors, List.append_eq_nil_iff]
  refine ⟨⟨⟨⟨⟨hversion, hname⟩, ?_⟩, ?_⟩, ?_⟩, ?_⟩
  · rw [List.flatMap_eq_nil_iff]
    intro entry hentry
    obtain ⟨original, horiginal, rfl⟩ := List.mem_map.mp hentry
    exact repositoryErrors_reloaded (hrepositories original horiginal)
  · exact allSourceErrors_reloaded hgenerated hrepositories hsources
  · exact List.flatMap_eq_nil_iff.mpr hblocks
  · rw [allInstanceErrors_reloaded]
    exact hinstances

/-- **A valid bundle stays valid when its resolved deployment is loaded.** -/
theorem validate_reloaded (hgenerated : generatedDefinition dir = true) {groups : ResolvedGroups}
    (h : validate platform bundle devices = .ok groups) :
    validate platform (bundle.reloaded dir hdir) devices = .ok groups := by
  obtain ⟨hblock, hresources, hdocument, hgroups⟩ := validate_ok_iff.mp h
  exact validate_ok_iff.mpr ⟨hblock, resourceErrors_reloaded hgenerated hresources, hdocument, hgroups⟩

/-! ### Generation -/

theorem generateHostRouterConfig_reloaded (groups : ResolvedGroups) (profiles : List (String × ManagedProfilePlan)) :
    generateHostRouterConfig platform (bundle.reloaded dir hdir) groups profiles devices
      = generateHostRouterConfig platform bundle groups profiles devices := by
  have hproxied : ∀ config, addProxyListeners platform (bundle.reloaded dir hdir) profiles config
      = addProxyListeners platform bundle profiles config := by
    induction profiles with
    | nil => exact fun _ => rfl
    | cons entry rest ih =>
      intro config
      obtain ⟨name, profile⟩ := entry
      have hlistener : proxyListener platform (bundle.reloaded dir hdir) config profile
          = proxyListener platform bundle config profile := rfl
      simp only [addProxyListeners, hlistener, ih]
  have hrouter : (bundle.reloaded dir hdir).document.spec.hostRouter = bundle.document.spec.hostRouter := rfl
  have hplace : placeProviders (bundle.reloaded dir hdir).document.spec devices
      = placeProviders bundle.document.spec devices := rfl
  have haddresses : applyAddresses platform (bundle.reloaded dir hdir).document.spec groups
      = applyAddresses platform bundle.document.spec groups := rfl
  simp only [generateHostRouterConfig, hrouter, hplace, haddresses, hproxied]

theorem instanceOutput_reloaded (groups : ResolvedGroups) (overlay : Option OverlayResolution) (resourceHash : String)
    (inst : Instance) :
    instanceOutput platform (bundle.reloaded dir hdir) groups overlay devices resourceHash inst
      = instanceOutput platform bundle groups overlay devices resourceHash inst := by
  have hblocks : (bundle.reloaded dir hdir).document.spec.blocks = bundle.document.spec.blocks := rfl
  rw [instanceOutput, get?_sources_reloaded, hblocks, instanceOutput]
  cases bundle.document.spec.blocks.get? inst.block with
  | none => rfl
  | some block =>
    cases bundle.document.spec.sources.get? inst.source with
    | none => rfl
    | some source =>
      have hpath : resolvePath (bundle.reloaded dir hdir).definitionDir (resolvedSource bundle source).path
          = resolvePath bundle.definitionDir source.path := resolvePath_resolvePath source.path
      simp only [Option.map_some, hpath]
      rfl

/-- With the same resource hash the instances are given the same services. -/
theorem instanceOutputs_reloaded (groups : ResolvedGroups) (overlay : Option OverlayResolution) (resourceHash : String) :
    instanceOutputs platform (bundle.reloaded dir hdir) groups overlay devices resourceHash
      = instanceOutputs platform bundle groups overlay devices resourceHash := by
  have hinstances : (bundle.reloaded dir hdir).document.spec.instances = bundle.document.spec.instances := rfl
  rw [instanceOutputs, hinstances, instanceOutputs]
  exact congrArg (List.mapM · _) (funext (instanceOutput_reloaded groups overlay resourceHash))

end Reloaded

/-! ### Plans of valid bundles -/

section Generation

variable {platform : Platform} {bundle : Bundle} {groups : ResolvedGroups} {overlay : Option OverlayResolution}
  {devices : Devices}

theorem generateError_eq_ok_iff {α : Type} {r : Except String α} {a : α} : generateError r = .ok a ↔ r = .ok a := by
  cases r <;> simp [generateError]

/-- What a generation that succeeded went through. -/
theorem generate_ok_iff {plan : Plan} :
    generate platform bundle groups overlay devices = .ok plan ↔
      ∃ profiles config probes outputs remotes,
        managedProfiles platform bundle.document = .ok profiles ∧
        generateHostRouterConfig platform bundle groups profiles devices = .ok config ∧
        externalProbes bundle.document.spec = .ok probes ∧
        instanceOutputs platform bundle groups overlay devices
          (resourceHashOf platform bundle.document overlay devices) = .ok outputs ∧
        remoteProjects platform bundle.document.metadata.name
          (resourceHashOf platform bundle.document overlay devices) devices outputs = .ok remotes ∧
        assemblePlan platform bundle overlay devices profiles config probes outputs remotes = plan := by
  simp only [generate, bind_eq_ok_iff, generateError_eq_ok_iff]
  constructor
  · rintro ⟨profiles, hprofiles, config, hconfig, probes, hprobes, outputs, houtputs, remotes, hremotes, h⟩
    exact ⟨profiles, config, probes, outputs, remotes, hprofiles, hconfig, hprobes, houtputs, hremotes, Except.ok.inj h⟩
  · rintro ⟨profiles, config, probes, outputs, remotes, hprofiles, hconfig, hprobes, houtputs, hremotes, rfl⟩
    exact ⟨profiles, hprofiles, config, hconfig, probes, hprobes, outputs, houtputs, remotes, hremotes, rfl⟩

/-- Where all instances pass their checks, each of them does. -/
theorem exists_instanceErrors_eq_nil {earlier instances : List Instance}
    (h : allInstanceErrors platform bundle devices earlier instances = []) {inst : Instance} (hinst : inst ∈ instances) :
    ∃ before, instanceErrors platform bundle devices before inst = [] := by
  induction instances generalizing earlier with
  | nil => cases hinst
  | cons head rest ih =>
    obtain ⟨hhead, hrest⟩ := List.append_eq_nil_iff.mp h
    rcases List.mem_cons.mp hinst with rfl | hinst
    · exact ⟨earlier, hhead⟩
    · exact ih hrest hinst

/-- What is known of a valid instance that is run. -/
structure ManagedInstance (bundle : Bundle) (devices : Devices) (inst : Instance) : Prop where
  probe : inst.probe = none
  block : ∃ block, bundle.document.spec.blocks.get? inst.block = some block
  source : ∃ source, bundle.document.spec.sources.get? inst.source = some source
  device : ∀ device, inst.remoteDevice = some device → ∃ details, devices.get? device = some details

theorem managedInstance_of_errors {path : String} {inst : Instance}
    (h : managedInstanceErrors platform bundle devices path inst = []) : ManagedInstance bundle devices inst := by
  rw [managedInstanceErrors, List.append_eq_nil_iff, reportIf_eq_nil] at h
  obtain ⟨hprobe, hrest⟩ := h
  have hprobe : inst.probe = none := by
    simp only [Bool.or_eq_false_iff] at hprobe
    simpa using hprobe.2
  cases hblock : bundle.document.spec.blocks.get? inst.block with
  | none =>
    rw [hblock] at hrest
    cases hrest
  | some block =>
    simp only [hblock, List.append_eq_nil_iff, reportIf_eq_nil, Bool.not_eq_false'] at hrest
    obtain ⟨⟨⟨hdevice, hsource⟩, -⟩, -⟩ := hrest
    refine ⟨hprobe, ⟨block, hblock⟩, (SortedMap.contains_iff _ _).mp hsource, fun device hremote => ?_⟩
    simp only [deviceErrors, hremote, List.append_eq_nil_iff, reportIf_eq_nil, Bool.not_eq_false'] at hdevice
    exact (SortedMap.contains_iff _ _).mp hdevice.1.2

/-- A valid bundle has what its instances refer to. -/
theorem managedInstance_of_validate (h : validate platform bundle devices = .ok groups) {inst : Instance}
    (hinst : inst ∈ bundle.document.spec.instances) (hmanaged : inst.isExternal = false) :
    ManagedInstance bundle devices inst := by
  obtain ⟨-, hresources, -⟩ := validate_ok_iff.mp h
  obtain ⟨before, herrors⟩ := exists_instanceErrors_eq_nil (List.append_eq_nil_iff.mp hresources).2 hinst
  rw [instanceErrors, hmanaged, if_neg Bool.false_ne_true] at herrors
  exact managedInstance_of_errors (List.append_eq_nil_iff.mp herrors).2

theorem externalProbes_succeeds (h : validate platform bundle devices = .ok groups) :
    ∃ probes, externalProbes bundle.document.spec = .ok probes := by
  refine exists_mapM_ok fun entry hentry => ?_
  obtain ⟨inst, hinst, hprobe⟩ := List.mem_filterMap.mp hentry
  obtain ⟨probe, hprobe, rfl⟩ := Option.map_eq_some_iff.mp hprobe
  cases hexternal : inst.external with
  | some host => exact ⟨⟨inst.name, host, probe⟩, by simp only [hexternal]⟩
  | none =>
    have hmanaged := managedInstance_of_validate h hinst (by rw [Instance.isExternal, hexternal]; rfl)
    rw [hmanaged.probe] at hprobe
    cases hprobe

theorem instanceOutput_succeeds {inst : Instance} (h : ManagedInstance bundle devices inst) (resourceHash : String) :
    ∃ output, instanceOutput platform bundle groups overlay devices resourceHash inst = .ok output := by
  obtain ⟨block, hblock⟩ := h.block
  obtain ⟨source, hsource⟩ := h.source
  simp only [instanceOutput, hblock, hsource]
  exact ⟨_, rfl⟩

theorem inst_of_instanceOutput {inst : Instance} {resourceHash : String} {output : InstanceOutput}
    (h : instanceOutput platform bundle groups overlay devices resourceHash inst = .ok output) : output.inst = inst := by
  rw [instanceOutput] at h
  split at h
  · cases h
    rfl
  · cases h
  · cases h

theorem instanceOutputs_succeeds (h : validate platform bundle devices = .ok groups) (resourceHash : String) :
    ∃ outputs, instanceOutputs platform bundle groups overlay devices resourceHash = .ok outputs := by
  refine exists_mapM_ok fun inst hinst => ?_
  obtain ⟨hmem, hmanaged⟩ := List.mem_filter.mp hinst
  exact instanceOutput_succeeds (managedInstance_of_validate h hmem (by simpa using hmanaged)) resourceHash

/-- A device that is given a service is registered. -/
theorem remoteProjects_succeeds (h : validate platform bundle devices = .ok groups) {resourceHash : String}
    {outputs : List InstanceOutput}
    (houtputs : instanceOutputs platform bundle groups overlay devices resourceHash = .ok outputs) (deployment : String) :
    ∃ remotes, remoteProjects platform deployment resourceHash devices outputs = .ok remotes := by
  have hdevices : ∀ device ∈ usedDevices outputs, ∃ details, devices.get? device = some details := by
    intro device hdevice
    obtain ⟨x, hx⟩ := (SortedMap.mem_keys_iff _).mp hdevice
    rcases SortedMap.of_get?_insertAll hx with hmem | ⟨-, hnone⟩
    · obtain ⟨output, houtput, hsome⟩ := List.mem_filterMap.mp hmem
      obtain ⟨inst, hinst, hok⟩ := (mem_of_mapM_ok houtputs).mp houtput
      obtain ⟨hinst, hmanaged⟩ := List.mem_filter.mp hinst
      have hremote : inst.remoteDevice = some device := by
        rw [← inst_of_instanceOutput hok]
        split_ifs at hsome
        obtain ⟨d, hd, heq⟩ := Option.map_eq_some_iff.mp hsome
        rw [hd, (Prod.mk.inj heq).1]
      exact (managedInstance_of_validate h hinst (by simpa using hmanaged)).device device hremote
    · cases hnone
  have hprojects : ∃ projects, (usedDevices outputs).mapM
      (remoteProject platform deployment resourceHash devices outputs) = .ok projects := by
    refine exists_mapM_ok fun device hdevice => ?_
    obtain ⟨details, hdetails⟩ := hdevices device hdevice
    simp only [remoteProject, hdetails]
    exact ⟨_, rfl⟩
  obtain ⟨projects, hprojects⟩ := hprojects
  exact ⟨.ofList projects, by rw [remoteProjects, hprojects]; rfl⟩

/-- **Generation of a valid bundle succeeds** once its host router's configuration is there:
what its instances refer to was found by the validation. -/
theorem generate_succeeds (h : validate platform bundle devices = .ok groups)
    {profiles : List (String × ManagedProfilePlan)} (hprofiles : managedProfiles platform bundle.document = .ok profiles)
    {config : Option RouterConfig}
    (hconfig : generateHostRouterConfig platform bundle groups profiles devices = .ok config) :
    ∃ plan, generate platform bundle groups overlay devices = .ok plan ∧ plan.hostRouterConfig = config := by
  obtain ⟨probes, hprobes⟩ := externalProbes_succeeds h
  obtain ⟨outputs, houtputs⟩ := @instanceOutputs_succeeds platform bundle groups overlay devices h
    (resourceHashOf platform bundle.document overlay devices)
  obtain ⟨remotes, hremotes⟩ := remoteProjects_succeeds h houtputs bundle.document.metadata.name
  exact ⟨_, generate_ok_iff.mpr ⟨profiles, config, probes, outputs, remotes, hprofiles, hconfig, hprobes, houtputs,
    hremotes, rfl⟩, rfl⟩

end Generation

/-! ### Loading a resolved deployment -/

/-- A valid name does not begin with a separator. -/
theorem isAbsolute_of_validName {name : String} (h : validName name = true) : (⟨name⟩ : PathBuf).isAbsolute = false := by
  rw [Bool.eq_false_iff]
  intro habs
  obtain ⟨rest, hrest⟩ := (PathBuf.isAbsolute_iff ⟨name⟩).mp habs
  simp only [validName, Bool.and_eq_true] at h
  have hall := h.1.2
  rw [show name.toList = '/' :: rest from hrest, List.zipIdx_cons, List.all_cons, Bool.and_eq_true] at hall
  exact absurd hall.1 (by decide)

theorem artifactDir_text {name : String} (h : validName name = true) :
    (artifactDir name).text = ".apmpr/generated/" ++ name := by
  have hend : ¬(".apmpr/generated" = "" ∨ Text.endsWith ".apmpr/generated" "/" = true) := by decide
  rw [artifactDir, PathBuf.join, if_neg (by simp [isAbsolute_of_validName h]), if_neg hend]
  exact congrArg (· ++ name) (show ".apmpr/generated" ++ "/" = ".apmpr/generated/" by decide)

/-- What is loaded from the artifacts of a deployment counts as generated. -/
theorem generatedDefinition_artifactDir {root : PathBuf} (hroot : root.isAbsolute = true) {name : String}
    (h : validName name = true) : generatedDefinition (root.join (artifactDir name)) = true := by
  have hrelative : (artifactDir name).isAbsolute = false := by
    rw [PathBuf.isAbsolute, artifactDir_text h, Text.startsWith, String.toList_append]
    rfl
  obtain ⟨l, hl⟩ := PathBuf.join_toList (text_ne_of_isAbsolute hroot) hrelative
  have htext : (root.join (artifactDir name)).text.toList
      = l ++ '/' :: (".apmpr".toList ++ '/' :: ("generated".toList ++ '/' :: name.toList)) := by
    rw [hl, artifactDir_text h, String.toList_append]
    rfl
  have hsplit : Text.split '/' (root.join (artifactDir name)).text
      = (Text.splitChars '/' l).map String.ofList ++ (".apmpr" :: "generated" ::
          (Text.splitChars '/' name.toList).map String.ofList) := by
    rw [Text.split, htext, Text.splitChars_append_cons, Text.splitChars_append_cons, Text.splitChars_append_cons,
      List.map_append, List.map_append, List.map_append]
    rfl
  have hmem : ∀ part ∈ [".apmpr", "generated"], part ∈ Text.split '/' (root.join (artifactDir name)).text := by
    intro part hpart
    rw [hsplit]
    simp only [List.mem_cons, List.not_mem_nil, or_false] at hpart
    rcases hpart with rfl | rfl <;> simp
  simp only [generatedDefinition, hasComponent, Bool.and_eq_true, List.contains_iff_mem]
  exact ⟨PathBuf.normal_mem_components (hmem _ (by simp)) (by decide),
    PathBuf.normal_mem_components (hmem _ (by simp)) (by decide)⟩

/-- The artifacts of a deployment are in a Git workspace: their directory is its own
canonical form, and the nearest repository above it is the workspace's. -/
structure InGitWorkspace (host : Host) (root : PathBuf) (deployment : String) : Prop where
  canonical : ∃ h, host.canonicalize (root.join (artifactDir deployment)) = .ok ⟨root.join (artifactDir deployment), h⟩
  root : workspaceRootOf host.toPlatform (root.join (artifactDir deployment)) = root

section Loading

variable {host : Host} {platform : Platform} {bundle : Bundle} {devices : Devices} {groups : ResolvedGroups}

/-- The name and the version of a valid bundle. -/
theorem header_of_validate (h : validate platform bundle devices = .ok groups) :
    bundle.document.apiVersion = API_VERSION ∧ validName bundle.document.metadata.name = true := by
  obtain ⟨-, hresources, -⟩ := validate_ok_iff.mp h
  simp only [resourceErrors, List.append_eq_nil_iff, reportIf_eq_nil, Bool.or_eq_false_iff] at hresources
  obtain ⟨⟨⟨⟨⟨⟨hversion, -⟩, hname⟩, -⟩, -⟩, -⟩, -⟩ := hresources
  refine ⟨by simpa using hversion, ?_⟩
  rw [validateName] at hname
  split_ifs at hname with hvalid
  exact hvalid

/-- **Loading the resolved deployment** of a valid effective bundle gives that bundle with
its paths resolved. -/
theorem loadBundle_resolvedDocument (h : validate platform bundle devices = .ok groups)
    (hgit : InGitWorkspace host bundle.workspaceRoot bundle.document.metadata.name) :
    ∃ hdir, loadBundle host (resolvedDocument bundle)
      (bundle.workspaceRoot.join (artifactDir bundle.document.metadata.name))
        = .ok (bundle.reloaded (bundle.workspaceRoot.join (artifactDir bundle.document.metadata.name)) hdir) := by
  obtain ⟨hdir, hcanonical⟩ := hgit.canonical
  have hversion : (resolvedDocument bundle).apiVersion = API_VERSION := (header_of_validate h).1
  refine ⟨hdir, ?_⟩
  rw [loadBundle, hversion, if_neg (by decide), if_neg (by decide), hcanonical]
  simp only [Bundle.reloaded, hgit.root]

/-- Whether a document is not given a host router: it has one, or no addresses. -/
def Document.isSettled (document : Document) : Bool :=
  document.spec.hostRouter.isSome || !document.spec.hasAddresses

theorem withDerivedHostRouting_of_isSettled {document : Document} (h : document.isSettled = true) :
    withDerivedHostRouting platform document = .ok document :=
  if_pos h

/-- Host routing that was derived is not derived again. -/
theorem isSettled_of_withDerivedHostRouting {document effective : Document}
    (h : withDerivedHostRouting platform document = .ok effective) : effective.isSettled = true := by
  rw [withDerivedHostRouting] at h
  split_ifs at h with hsettled
  · cases h
    exact hsettled
  · dsimp only at h
    split at h
    · cases h
      rfl
    · cases h

/-- A settled bundle is planned as it is loaded. -/
theorem planWithDevices_reloaded (hoverlays : bundle.document.spec.overlays = [])
    (hsettled : bundle.document.isSettled = true) (dir : PathBuf) (hdir : dir.isAbsolute = true) :
    planWithDevices host (bundle.reloaded dir hdir) devices
      = planEffective host.toPlatform devices ⟨bundle.reloaded dir hdir, none⟩ := by
  have hoverlays' : (bundle.reloaded dir hdir).document.spec.overlays = [] := hoverlays
  have hsettled' : (bundle.reloaded dir hdir).document.isSettled = true := hsettled
  have heffective : effectivePlain host.toPlatform (bundle.reloaded dir hdir) = .ok ⟨bundle.reloaded dir hdir, none⟩ := by
    rw [effectivePlain, withDerivedHostRouting_of_isSettled hsettled']
    rfl
  rw [planWithDevices, hoverlays', List.isEmpty_nil, if_pos rfl, heffective]
  rfl

end Loading

end Apmpr.Planner
