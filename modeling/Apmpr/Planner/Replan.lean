import Apmpr.Planner.Reload

/-!
# Replanning a resolved deployment

The daemon plans a deployment, and later loads the resolved deployment of the plan from the
artifacts and plans that. It compares the resource hashes of the two plans and writes the
artifacts of the second one over those of the first, so the second plan should describe the
same resources.

## What is proved

* `replan_faithful_iff`: it does exactly for bundles that are planned without overlays,
  variations and values of the command line, and whose paths are resolved already: no
  repository has an URL, and all clones and sources are absolute.
* `replan_unfaithful`: a bundle with one source below its definition is not one of them.

The resource hash is taken of the effective document before its paths are resolved, and of
the injected files; the resolved deployment has the resolved paths, and no injected files.

## Honest scope

That two different texts have different SHA-256 hashes is assumed of the two texts that are
hashed, and of no others.
-/

namespace Apmpr.Planner

/-- The plan of the resolved deployment of a plan, loaded from its artifacts. -/
def replan (host : Host) (workspaceRoot : PathBuf) (plan : Plan) (devices : Devices) : Option Plan :=
  match loadBundle host plan.resolvedDeployment (workspaceRoot.join plan.artifactDir) with
  | .ok reloaded => (planWithDevices host reloaded devices).toOption
  | .error _ => none

/-- Two plans of the same resources: the hash, the Compose projects, the injected files and
the secrets are the same. -/
structure SameResources (plan again : Plan) : Prop where
  resourceHash : again.resourceHash = plan.resourceHash
  compose : again.compose = plan.compose
  remoteComposes : (again.remoteProjects.mapValues fun _ remote => remote.compose)
    = plan.remoteProjects.mapValues fun _ remote => remote.compose
  injectedFiles : again.injectedFiles = plan.injectedFiles
  runtimeSecrets : again.runtimeSecrets = plan.runtimeSecrets

/-- Two texts are not a collision. -/
def NoCollision (platform : Platform) (p q : List HashChunk) : Prop := platform.hash p = platform.hash q → p = q

/-- Every repository is an absolute clone, and every source is absolute. -/
structure PathsResolved (spec : DeploymentSpec) : Prop where
  repositories : ∀ entry ∈ spec.repositories.entries,
    entry.2.url = none ∧ ∀ clone, entry.2.clone = some clone → clone.isAbsolute = true
  sources : ∀ entry ∈ spec.sources.entries, entry.2.path.isAbsolute = true

/-! ### Effective bundles -/

section Effective

variable {host : Host} {bundle : Bundle} {options : OverlayOptions} {devices : Devices} {e : Effective}

/-- Deriving host routing changes only the host router and the upstreams. -/
theorem spec_of_withDerivedHostRouting {platform : Platform} {document effective : Document}
    (h : withDerivedHostRouting platform document = .ok effective) :
    ∃ hostRouter hostUpstreams, effective = document.withSpec
      { document.spec with hostRouter := hostRouter, hostUpstreams := hostUpstreams } := by
  rw [withDerivedHostRouting] at h
  split_ifs at h
  · cases h
    exact ⟨_, _, rfl⟩
  · dsimp only at h
    split at h
    · cases h
      exact ⟨_, _, rfl⟩
    · cases h

theorem overlays_of_resolve {platform : Platform} {document folded : Document} {overlays : List Overlay}
    {resolution : OverlayResolution} (h : resolve platform document overlays options = .ok (folded, resolution)) :
    folded.spec.overlays = [] := by
  rw [resolve] at h
  dsimp only at h
  split at h
  · cases h
  · split_ifs at h
    · cases h
      rfl
    · cases h
      rfl

/-- What is effective was given its host routing last, and has no overlays left. -/
structure MadeEffective (host : Host) (bundle : Bundle) (options : OverlayOptions) (e : Effective) (document : Document) :
    Prop where
  derived : withDerivedHostRouting host.toPlatform document = .ok e.bundle.document
  overlays : document.spec.overlays = []
  bundle_eq : e.bundle = bundle.withDocument e.bundle.document
  plain : isPlain bundle options = true → e.overlay = none ∧ document = bundle.document
  overlaid : isPlain bundle options = false → e.overlay.isSome = true

theorem overlays_of_isPlain (h : isPlain bundle options = true) : bundle.document.spec.overlays = [] := by
  simp only [isPlain, overlayPaths, Bool.and_eq_true, List.isEmpty_iff, List.append_eq_nil_iff] at h
  simpa using h.1.1.1

theorem madeEffective_of_plain {platform : Platform} (h : effectivePlain platform bundle = .ok e) :
    withDerivedHostRouting platform bundle.document = .ok e.bundle.document ∧
      e.bundle = bundle.withDocument e.bundle.document ∧ e.overlay = none := by
  obtain ⟨document, hdocument, h⟩ := bind_eq_ok_iff.mp h
  cases h
  exact ⟨hdocument, rfl, rfl⟩

theorem madeEffective (h : effective host bundle options = .ok e) :
    ∃ document, MadeEffective host bundle options e document := by
  rw [effective] at h
  split_ifs at h with hplain
  · obtain ⟨hderived, hbundle, hoverlay⟩ := madeEffective_of_plain h
    exact ⟨bundle.document, hderived, overlays_of_isPlain hplain, hbundle, fun _ => ⟨hoverlay, rfl⟩,
      fun hp => absurd hplain (by simp [hp])⟩
  · rw [effectiveOverlaid] at h
    split_ifs at h
    split at h
    · cases h
    · rename_i document resolution hresolve
      obtain ⟨derived, hderived, h⟩ := bind_eq_ok_iff.mp h
      cases h
      exact ⟨document, hderived, overlays_of_resolve hresolve, rfl, fun hp => absurd hp hplain, fun _ => rfl⟩

/-- The two halves of planning. -/
theorem planWithOverlaysAndDevices_ok {plan : Plan}
    (h : planWithOverlaysAndDevices host bundle options devices = .ok plan) :
    ∃ e groups, effective host bundle options = .ok e ∧ validate host.toPlatform e.bundle devices = .ok groups ∧
      generate host.toPlatform e.bundle groups e.overlay devices = .ok plan := by
  rw [planWithOverlaysAndDevices] at h
  split_ifs at h with hplain
  · rw [planWithDevices, overlays_of_isPlain hplain, List.isEmpty_nil, if_pos rfl] at h
    obtain ⟨e, he, h⟩ := bind_eq_ok_iff.mp h
    obtain ⟨groups, hgroups, h⟩ := bind_eq_ok_iff.mp h
    exact ⟨e, groups, by rw [effective, if_pos hplain]; exact he, hgroups, h⟩
  · obtain ⟨e, he, h⟩ := bind_eq_ok_iff.mp h
    obtain ⟨found, hfound, h⟩ := bind_eq_ok_iff.mp h
    obtain ⟨groups, hgroups, hgenerate⟩ := bind_eq_ok_iff.mp hfound
    obtain rfl : found = plan := by
      revert h
      generalize (if options.variation.isSome = true then
        existingVariationConflicts host bundle.workspaceRoot found else []) = conflicts
      intro h
      dsimp only at h
      split_ifs at h
      exact Except.ok.inj h
    exact ⟨e, groups, by rw [effective, if_neg hplain]; exact he, hgroups, hgenerate⟩

theorem planWithMembershipAndDevices_ok_iff {plan : Plan} {inst group : String} :
    planWithMembershipAndDevices host bundle inst group devices = .ok plan ↔
      membershipErrors bundle.document.spec inst group = [] ∧
        planWithDevices host (bundle.withDocument (moveInstanceToGroup bundle.document inst group)) devices
          = .ok plan := by
  rw [planWithMembershipAndDevices]
  cases membershipErrors bundle.document.spec inst group <;> simp

end Effective

/-! ### The resource texts -/

theorem overlay_eq_none_of_resourceChunks {bundle : Bundle} {overlay : Option OverlayResolution}
    {devices : Devices}
    (h : resourceChunks bundle.document overlay devices = resourceChunks (resolvedDocument bundle) none devices) :
    overlay = none := by
  cases overlay with
  | none => rfl
  | some resolution =>
    -- the devices are the same, and only the left side has injected files
    have hdevices : referencedDevices (resolvedDocument bundle).spec devices
        = referencedDevices bundle.document.spec devices := rfl
    have hlength := congrArg List.length h
    simp [resourceChunks, fileChunks, hdevices] at hlength

/-- The paths of a bundle are resolved where resolving changes nothing. -/
theorem pathsResolved_iff (bundle : Bundle) :
    PathsResolved bundle.document.spec ↔
      (bundle.document.spec.repositories.mapValues (resolvedRepository bundle) = bundle.document.spec.repositories ∧
        (bundle.document.spec.sources.mapValues fun _ source => resolvedSource bundle source)
          = bundle.document.spec.sources) := by
  have habs := resolvePath_eq_self_iff bundle.definitionDir_absolute
  have hrepository : ∀ name repository, resolvedRepository bundle name repository = repository ↔
      repository.url = none ∧ ∀ clone, repository.clone = some clone → clone.isAbsolute = true := by
    rintro name ⟨url, clone⟩
    cases url <;> cases clone <;> simp [resolvedRepository, habs]
  have hsource : ∀ source, resolvedSource bundle source = source ↔ source.path.isAbsolute = true := by
    rintro ⟨repository, ref, path⟩
    simp [resolvedSource, habs]
  simp only [SortedMap.mapValues_eq_self_iff, hrepository, hsource]
  exact ⟨fun h => ⟨h.repositories, h.sources⟩, fun h => ⟨h.1, h.2⟩⟩

/-- The text of the resource definition has the paths as they are written. -/
theorem paths_of_resourceChunks {bundle : Bundle} {devices : Devices}
    (h : resourceChunks bundle.document none devices = resourceChunks (resolvedDocument bundle) none devices) :
    PathsResolved bundle.document.spec := by
  obtain ⟨hdocument, -⟩ := List.cons.inj h
  have hspec := congrArg Document.spec (HashChunk.document.inj hdocument)
  exact (pathsResolved_iff bundle).mpr
    ⟨(congrArg DeploymentSpec.repositories hspec).symm, (congrArg DeploymentSpec.sources hspec).symm⟩

theorem resolvedDocument_of_pathsResolved {bundle : Bundle} (h : PathsResolved bundle.document.spec) :
    resolvedDocument bundle = bundle.document := by
  obtain ⟨hrepositories, hsources⟩ := (pathsResolved_iff bundle).mp h
  rw [resolvedDocument, hrepositories, hsources]
  rfl

/-- With the same resource hash the same resources are generated. -/
theorem generate_reloaded {platform : Platform} {bundle : Bundle} {groups : ResolvedGroups} {devices : Devices}
    {plan : Plan} {dir : PathBuf} {hdir : dir.isAbsolute = true}
    (h : generate platform bundle groups none devices = .ok plan)
    (hhash : resourceHashOf platform (resolvedDocument bundle) none devices
      = resourceHashOf platform bundle.document none devices) :
    ∃ again, generate platform (bundle.reloaded dir hdir) groups none devices = .ok again ∧ SameResources plan again := by
  obtain ⟨profiles, config, probes, outputs, remotes, hprofiles, hconfig, hprobes, houtputs, hremotes, rfl⟩ :=
    generate_ok_iff.mp h
  have houtputs' : instanceOutputs platform (bundle.reloaded dir hdir) groups none devices
      (resourceHashOf platform (resolvedDocument bundle) none devices) = .ok outputs := by
    rw [hhash, instanceOutputs_reloaded]
    exact houtputs
  have hremotes' : remoteProjects platform bundle.document.metadata.name
      (resourceHashOf platform (resolvedDocument bundle) none devices) devices outputs = .ok remotes := by
    rw [hhash]
    exact hremotes
  refine ⟨assemblePlan platform (bundle.reloaded dir hdir) none devices profiles config probes outputs remotes,
    generate_ok_iff.mpr ⟨profiles, config, probes, outputs, remotes, hprofiles,
      (generateHostRouterConfig_reloaded groups profiles).trans hconfig, hprobes, houtputs', hremotes', rfl⟩, ?_⟩
  exact {
    resourceHash := hhash
    compose := congrArg (localCompose platform bundle.document.metadata.name · outputs) hhash
    remoteComposes := rfl
    injectedFiles := rfl
    runtimeSecrets := rfl }

/-! ### Replanning -/

section Replan

variable {host : Host} {bundle : Bundle} {options : OverlayOptions} {devices : Devices} {plan : Plan}

/-- Replanning a plan is planning the effective bundle with its paths resolved. -/
theorem replan_eq {e : Effective} {document : Document} {groups : ResolvedGroups}
    (he : MadeEffective host bundle options e document) (hvalidate : validate host.toPlatform e.bundle devices = .ok groups)
    (hgenerate : generate host.toPlatform e.bundle groups e.overlay devices = .ok plan)
    (hgit : InGitWorkspace host bundle.workspaceRoot plan.deployment) :
    ∃ dir hdir, replan host bundle.workspaceRoot plan devices
      = (generate host.toPlatform (e.bundle.reloaded dir hdir) groups none devices).toOption := by
  obtain ⟨profiles, config, probes, outputs, remotes, -, -, -, -, -, rfl⟩ := generate_ok_iff.mp hgenerate
  have hroot : bundle.workspaceRoot = e.bundle.workspaceRoot := by rw [he.bundle_eq]; rfl
  have hname : (assemblePlan host.toPlatform e.bundle e.overlay devices profiles config probes outputs remotes).deployment
      = e.bundle.document.metadata.name := rfl
  rw [hroot, hname] at hgit
  obtain ⟨hdir, hload⟩ := loadBundle_resolvedDocument hvalidate hgit
  have hgenerated := generatedDefinition_artifactDir e.bundle.workspaceRoot_absolute (header_of_validate hvalidate).2
  have hvalid := @validate_reloaded _ _ _ hdir _ hgenerated _ hvalidate
  have hoverlays : e.bundle.document.spec.overlays = [] := by
    obtain ⟨hostRouter, hostUpstreams, hspec⟩ := spec_of_withDerivedHostRouting he.derived
    rw [hspec]
    exact he.overlays
  refine ⟨_, hdir, ?_⟩
  rw [replan, hroot]
  change (match loadBundle host (resolvedDocument e.bundle)
    (e.bundle.workspaceRoot.join (artifactDir e.bundle.document.metadata.name)) with
    | .ok reloaded => (planWithDevices host reloaded devices).toOption
    | .error _ => none) = _
  rw [hload]
  dsimp only
  rw [planWithDevices_reloaded hoverlays (isSettled_of_withDerivedHostRouting he.derived), planEffective, hvalid]
  rfl

theorem toOption_eq_some_iff {ε α : Type} {r : Except ε α} {a : α} : r.toOption = some a ↔ r = .ok a := by
  cases r <;> simp [Except.toOption]

/-- **Replanning the resolved deployment of a plan describes the same resources exactly if
nothing was overlaid and all paths were resolved already.** -/
theorem replan_faithful_iff (host : Host) (bundle : Bundle) (options : OverlayOptions) (devices : Devices) (plan : Plan)
    (hplan : planWithOverlaysAndDevices host bundle options devices = .ok plan)
    (hgit : InGitWorkspace host bundle.workspaceRoot plan.deployment)
    (hsha : ∀ e, effective host bundle options = .ok e → NoCollision host.toPlatform
      (resourceChunks e.bundle.document e.overlay devices) (resourceChunks plan.resolvedDeployment none devices)) :
    (∃ again, replan host bundle.workspaceRoot plan devices = some again ∧ SameResources plan again) ↔
      isPlain bundle options = true ∧ PathsResolved bundle.document.spec := by
  obtain ⟨e, groups, heffective, hvalidate, hgenerate⟩ := planWithOverlaysAndDevices_ok hplan
  obtain ⟨document, he⟩ := madeEffective heffective
  have hchunks := hsha e heffective
  obtain ⟨profiles, config, probes, outputs, remotes, hprofiles, hconfig, hprobes, houtputs, hremotes, rfl⟩ :=
    generate_ok_iff.mp hgenerate
  have hpaths : isPlain bundle options = true →
      (PathsResolved e.bundle.document.spec ↔ PathsResolved bundle.document.spec) := by
    intro hplain
    obtain ⟨hostRouter, hostUpstreams, hspec⟩ := spec_of_withDerivedHostRouting he.derived
    rw [hspec, (he.plain hplain).2]
    exact ⟨fun h => ⟨h.repositories, h.sources⟩, fun h => ⟨h.repositories, h.sources⟩⟩
  obtain ⟨dir, hdir, hreplan⟩ := replan_eq he hvalidate hgenerate hgit
  simp only [hreplan, toOption_eq_some_iff]
  constructor
  · rintro ⟨again, hagain, hsame⟩
    obtain ⟨_, _, _, _, _, -, -, -, -, -, rfl⟩ := generate_ok_iff.mp hagain
    -- equal hashes are hashes of equal texts
    have htexts := hchunks hsame.resourceHash.symm
    have hoverlay := overlay_eq_none_of_resourceChunks htexts
    have hplain : isPlain bundle options = true := by
      by_contra hplain
      have hsome := he.overlaid (by simpa using hplain)
      rw [hoverlay] at hsome
      cases hsome
    rw [hoverlay] at htexts
    exact ⟨hplain, (hpaths hplain).mp (paths_of_resourceChunks htexts)⟩
  · rintro ⟨hplain, hresolved⟩
    have hoverlay := (he.plain hplain).1
    rw [hoverlay] at hgenerate ⊢
    have hhash := congrArg (resourceHashOf host.toPlatform · none devices)
      (resolvedDocument_of_pathsResolved ((hpaths hplain).mpr hresolved))
    obtain ⟨again, hagain, hsame⟩ := @generate_reloaded _ _ _ _ _ dir hdir hgenerate hhash
    exact ⟨again, hagain, hsame⟩

end Replan

/-! ### A deployment -/

/-- The texts that are hashed differ in their paths; here they stand for the hash. -/
def pathTexts : HashChunk → List String
  | .document document =>
    document.spec.repositories.values.map (fun repository => ((repository.clone.map PathBuf.text).getD "")) ++
      document.spec.sources.values.map fun source => source.path.text
  | .devices devices => devices.keys
  | .files files => files.map fun file => file.contentHash

/-- A machine with one workspace, `/srv/shop`. The digest is that of `shop`, the only text
without a separator that is hashed there. -/
def shopHost : Host where
  sha256 _ := #v[141, 144, 1, 211, 44, 106, 112, 61, 149, 146, 26, 119, 17, 80, 80, 243, 61, 216, 35, 211, 241, 115,
    11, 211, 82, 21, 220, 190, 202, 214, 220, 32]
  hash chunks := "|".intercalate (chunks.flatMap pathTexts)
  pathExists path := path.text = "/srv/shop/.git"
  readFile _ := .error "No such file or directory (os error 2)"
  inspect _ path _ := ⟨path.text, none, none, none, none⟩
  parseUri _ := none
  schemaMessage field := field
  canonicalize path := if h : path.isAbsolute = true then .ok ⟨path, h⟩ else .error "No such file or directory (os error 2)"
  loadOverlay _ := .error "No such file or directory (os error 2)"
  generatedRouters _ := []

/-- A web server with an HTTP probe on its published port. -/
def webBlock : Block where
  parameters := ∅
  services := .ofList [("ui", {
    execution := .container (some "nginx:1.27") none [] ⟨none, ⟨"/workspace"⟩, false, ∅⟩
    publish := [3000]
    volumes := []
    dependsOn := ∅
    probe := some (.http "/" 3000 false) })]

/-- An instance of the web server. -/
def webInstance (name : String) (address : Option String) : Instance where
  name := name
  block := "web"
  source := "app"
  external := none
  ports := []
  probe := none
  device := none
  address := address
  parameters := ∅
  labels := ∅
  environment := ∅
  environmentUnset := []

/-- Two web servers in groups of their own, the first one with an address, and a group
without members. -/
def shopDocument (repository : Repository) (source : PathBuf) : Document where
  apiVersion := API_VERSION
  kind := KIND
  metadata := ⟨"shop", ∅⟩
  spec := {
    overlays := []
    resolvedOverlayFiles := ∅
    repositories := .ofList [("app", repository)]
    sources := .ofList [("app", ⟨"app", "main", source⟩)]
    blocks := .ofList [("web", webBlock)]
    instances := [webInstance "front" (some "front.localhost"), webInstance "back" none]
    groups := .ofList [("one", ⟨["front"], [], none⟩), ("three", ⟨["back"], [], none⟩), ("two", ⟨[], [], none⟩)]
    managedProfiles := ∅
    hostRouter := none
    hostUpstreams := ∅
    routerImage := "apmpr-router:local" }

/-- The deployment as it is written: an URL, and a source below the definition. -/
def shopBundle : Bundle where
  document := shopDocument ⟨some "https://git.localhost/app.git", none⟩ ⟨"worktrees/app"⟩
  definitionDir := ⟨"/srv/shop"⟩
  workspaceRoot := ⟨"/srv/shop"⟩
  definitionDir_absolute := by decide
  workspaceRoot_absolute := by decide

/-- The same deployment as the planner resolves it. -/
def resolvedShopBundle : Bundle where
  document := shopDocument ⟨none, some ⟨"/srv/shop/.apmpr/clones/app"⟩⟩ ⟨"/srv/shop/worktrees/app"⟩
  definitionDir := ⟨"/srv/shop/.apmpr/generated/shop"⟩
  workspaceRoot := ⟨"/srv/shop"⟩
  definitionDir_absolute := by decide
  workspaceRoot_absolute := by decide

theorem shop_inGitWorkspace : InGitWorkspace shopHost ⟨"/srv/shop"⟩ "shop" where
  canonical := ⟨by decide, rfl⟩
  root := by decide

/-- What a result that was evaluated shows. -/
theorem exists_ok_of_toOption {ε α β : Type} {r : Except ε α} {f : α → β} {b : β} (h : r.toOption.map f = some b) :
    ∃ a, r = .ok a ∧ f a = b := by
  obtain ⟨a, ha, hb⟩ := Option.map_eq_some_iff.mp h
  exact ⟨a, toOption_eq_some_iff.mp ha, hb⟩

/-- The resource hash of the deployment is taken of `worktrees/app`, that of its resolved
deployment of `/srv/shop/worktrees/app`. -/
theorem replan_unfaithful :
    ∃ plan, planWithOverlaysAndDevices shopHost shopBundle OverlayOptions.none ∅ = .ok plan ∧
      InGitWorkspace shopHost shopBundle.workspaceRoot plan.deployment ∧
      ¬∃ again, replan shopHost shopBundle.workspaceRoot plan ∅ = some again ∧ SameResources plan again := by
  have hrun : (planWithOverlaysAndDevices shopHost shopBundle OverlayOptions.none ∅).toOption.map
      (fun plan => (plan.deployment, plan.resourceHash,
        (replan shopHost shopBundle.workspaceRoot plan ∅).map (·.resourceHash)))
      = some ("shop", "|worktrees/app", some "/srv/shop/.apmpr/clones/app|/srv/shop/worktrees/app") := by
    decide +kernel
  obtain ⟨plan, hplan, hvalues⟩ := exists_ok_of_toOption hrun
  obtain ⟨hname, hhash, hagain⟩ : plan.deployment = "shop" ∧ plan.resourceHash = "|worktrees/app" ∧ _ := by
    simpa only [Prod.mk.injEq] using hvalues
  refine ⟨plan, hplan, by rw [hname]; exact shop_inGitWorkspace, ?_⟩
  rintro ⟨again, hreplan, hsame⟩
  rw [hreplan, Option.map_some, hsame.resourceHash, hhash] at hagain
  exact absurd hagain (by decide)

/-- The resolved deployment itself is planned again as it was. -/
theorem replan_faithful_resolved :
    ∃ plan, planWithOverlaysAndDevices shopHost resolvedShopBundle OverlayOptions.none ∅ = .ok plan ∧
      ∃ again, replan shopHost resolvedShopBundle.workspaceRoot plan ∅ = some again ∧ SameResources plan again := by
  have hrun : (planWithOverlaysAndDevices shopHost resolvedShopBundle OverlayOptions.none ∅).toOption.map
      (fun plan => (plan.deployment,
        (effective shopHost resolvedShopBundle OverlayOptions.none).toOption.all fun e =>
          decide (resourceChunks e.bundle.document e.overlay ∅ = resourceChunks plan.resolvedDeployment none ∅)))
      = some ("shop", true) := by
    decide +kernel
  obtain ⟨plan, hplan, hvalues⟩ := exists_ok_of_toOption hrun
  obtain ⟨hname, hchunks⟩ := Prod.mk.inj hvalues
  refine ⟨plan, hplan, (replan_faithful_iff shopHost resolvedShopBundle OverlayOptions.none ∅ plan hplan
    (by rw [hname]; exact shop_inGitWorkspace) ?_).mpr ⟨by decide, ?_, by decide⟩⟩
  · intro e he _
    rw [he] at hchunks
    exact of_decide_eq_true hchunks
  · intro entry hentry
    have hrepository : entry = ("app", ⟨none, some ⟨"/srv/shop/.apmpr/clones/app"⟩⟩) := List.mem_singleton.mp hentry
    rw [hrepository]
    exact ⟨rfl, fun clone hclone => by cases hclone; decide⟩

end Apmpr.Planner
