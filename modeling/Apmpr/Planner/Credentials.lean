import Apmpr.Planner.Portable

/-!
# Credentials in portable bundles

What an export says of values that may be credentials: literal texts under keys that look
like one. Two deployments differ only in such values if they are the same once the values
are blanked (`blankDocument`, `blankOverlay`). Sanitising replaces the values it visits by
the names of inputs, so an export does not depend on them; it does not visit the defaults
of block parameters, nor the variables of overlays.

## What is proved

`sanitizedDeployment_eq_iff`, `sanitizedOverlay_eq_iff` — of two documents, or overlays,
that differ only in such values, which are sanitised to the same.
`export_identical_iff` — of two such deployments with their overlays, which are exported to
the same bundle.
-/

namespace Apmpr.Planner

/-! ### What may be a credential -/

/-- The text of a key, blanked if it may be a credential. -/
def blankText (key value : String) : String := if credentialLikeKey key then "" else value

/-- A map of texts without what may be a credential. -/
def blankMap (values : SortedMap String String) : SortedMap String String := values.mapValues blankText

/-- A parameter of a block, its default blanked if it may be a credential. -/
def blankParameter (key : String) (parameter : Parameter) : Parameter :=
  { parameter with default := parameter.default.map (blankText key) }

/-- A service without the credentials of its environment. -/
def blankService (service : Service) : Service :=
  { service with execution := service.execution.withEnvironment blankMap }

/-- A block without credentials. -/
def blankBlock (block : Block) : Block where
  parameters := block.parameters.mapValues blankParameter
  services := block.services.mapValues fun _ => blankService

/-- An instance without credentials. -/
def blankInstance (inst : Instance) : Instance :=
  { inst with environment := blankMap inst.environment, parameters := blankMap inst.parameters }

/-- A deployment without credentials. -/
def blankDocument (document : Document) : Document :=
  document.withSpec { document.spec with
    blocks := document.spec.blocks.mapValues fun _ => blankBlock
    instances := document.spec.instances.map blankInstance }

/-- A value of an overlay's environment; a reference to a secret is not a literal. -/
def blankValue (key : String) : OverlayValue → OverlayValue
  | .literal value => .literal (blankText key value)
  | .secret reference => .secret reference

/-- An overlay without credentials, wherever it was loaded from. -/
def blankOverlay (overlay : Overlay) : Overlay :=
  { overlay with
    environment := { overlay.environment with set := overlay.environment.set.mapValues blankValue }
    parameters := blankMap overlay.parameters
    vars := blankMap overlay.vars
    sourcePath := ⟨""⟩ }

/-- Two deployments with their overlays differ only in literal values under keys that look
like credentials. -/
structure DifferInCredentials (document document' : Document) (loaded loaded' : List Overlay) : Prop where
  documents : blankDocument document = blankDocument document'
  overlays : loaded.map blankOverlay = loaded'.map blankOverlay

/-- Two blocks have the same defaults under keys that look like credentials. -/
def SameDefaults (block block' : Block) : Prop :=
  ∀ key, credentialLikeKey key = true → block.parameters.get? key = block'.parameters.get? key

/-- Two overlays have the same variables of names that look like credentials. -/
def SameVariables (overlay overlay' : Overlay) : Prop :=
  ∀ key, credentialLikeKey key = true → overlay.vars.get? key = overlay'.vars.get? key

/-- The deployments agree on what sanitising does not visit: in every block, and in every
overlay that is the last of its name. -/
structure SameUnvisited (document document' : Document) (loaded loaded' : List Overlay) : Prop where
  defaults : ∀ name block block', document.spec.blocks.get? name = some block →
    document'.spec.blocks.get? name = some block' → SameDefaults block block'
  lastVariables : ∀ before overlays later, loaded.zip loaded' = before ++ overlays :: later →
    (∀ other ∈ later, other.1.name ≠ overlays.1.name) → SameVariables overlays.1 overlays.2

/-! ### Blanked maps -/

section
variable {ν : Type} {m m' : SortedMap String ν} {f : String → ν → ν}

/-- Maps that are the same where a key is blanked, and where it is not, are the same. -/
theorem eq_of_blanked (hf : ∀ key x, credentialLikeKey key = false → f key x = x) (h : m.mapValues f = m'.mapValues f)
    (hkeys : ∀ key, credentialLikeKey key = true → m.get? key = m'.get? key) : m = m' := by
  refine SortedMap.ext_get? fun key => ?_
  cases hkey : credentialLikeKey key with
  | true => exact hkeys key hkey
  | false =>
    have hget := congrArg (SortedMap.get? · key) h
    simp only [SortedMap.get?_mapValues] at hget
    have hid : f key = id := funext fun x => hf key x hkey
    simpa only [hid, Option.map_id_fun, id] using hget
end

theorem blankText_of_not {key : String} (h : credentialLikeKey key = false) (value : String) :
    blankText key value = value := by
  rw [blankText, h]
  rfl

theorem blankParameter_of_not {key : String} (h : credentialLikeKey key = false) (parameter : Parameter) :
    blankParameter key parameter = parameter := by
  have hid : blankText key = id := funext (blankText_of_not h)
  rw [blankParameter, hid, Option.map_id_fun]
  rfl

theorem blankMap_keys (values : SortedMap String String) : (blankMap values).keys = values.keys := SortedMap.keys_mapValues ..

section
variable (platform : Platform)

/-- A map is sanitised to the same whatever its credentials are. -/
theorem sanitizedMap_blank (kind : RequiredLocalInputKind) (values : SortedMap String String) :
    sanitizedMap platform kind (blankMap values) = sanitizedMap platform kind values := by
  rw [sanitizedMap, blankMap, SortedMap.mapValues_mapValues]
  refine congrArg (SortedMap.mapValues · values) (funext fun key => funext fun value => ?_)
  cases hkey : credentialLikeKey key with
  | true => rfl
  | false => exact blankText_of_not hkey value

theorem mapFindings_blank (path : String) (kind : RequiredLocalInputKind) (values : SortedMap String String) :
    mapFindings platform path kind (blankMap values) = mapFindings platform path kind values := by
  rw [mapFindings, mapFindings, blankMap_keys]

theorem sanitizedValue_blank (key : String) (value : OverlayValue) :
    sanitizedValue platform key (blankValue key value) = sanitizedValue platform key value := by
  cases value with
  | secret reference => rfl
  | literal value =>
    cases hkey : credentialLikeKey key with
    | true => simp [blankValue, sanitizedValue, hkey]
    | false => rw [blankValue, blankText_of_not hkey]

end

theorem withEnvironment_withEnvironment (f g : SortedMap String String → SortedMap String String)
    (execution : Execution) :
    (execution.withEnvironment f).withEnvironment g = execution.withEnvironment fun values => g (f values) := by
  cases execution <;> rfl

theorem neededPath_withEnvironment (f : SortedMap String String → SortedMap String String) (execution : Execution) :
    neededPath (execution.withEnvironment f) = neededPath execution := by
  cases execution with
  | container image build command runtime => cases build <;> rfl
  | script image command lifecycle runtime => rfl
  | processCompose image file runtime => rfl

theorem environment_withEnvironment (f : SortedMap String String → SortedMap String String) (execution : Execution) :
    (execution.withEnvironment f).runtime.environment = f execution.runtime.environment := by
  cases execution <;> rfl

/-! ### Deployments -/

/-- A deployment with the credentials of its blocks' defaults blanked. -/
def blankDefaults (document : Document) : Document :=
  document.withSpec { document.spec with
    blocks := document.spec.blocks.mapValues fun _ block =>
      { block with parameters := block.parameters.mapValues blankParameter } }

section
variable (platform : Platform)

/-- A block as it is exported. -/
def sanitizedBlock (block : Block) : Block :=
  { block with
    services := block.services.mapValues fun _ service =>
      { service with execution := service.execution.withEnvironment (sanitizedMap platform .environmentValue) } }

/-- An instance as it is exported. -/
def sanitizedInstance (inst : Instance) : Instance :=
  { inst with
    environment := sanitizedMap platform .environmentValue inst.environment
    parameters := sanitizedMap platform .parameterValue inst.parameters }

theorem sanitizedDeployment_eq (document : Document) :
    sanitizedDeployment platform document = document.withSpec { document.spec with
      sources := document.spec.sources.mapValues fun name source => { source with path := sourceInput name }
      blocks := document.spec.blocks.mapValues fun _ => sanitizedBlock platform
      instances := document.spec.instances.map (sanitizedInstance platform) } := rfl

theorem sanitizedBlock_blank (block : Block) :
    sanitizedBlock platform (blankBlock block) =
      { sanitizedBlock platform block with parameters := block.parameters.mapValues blankParameter } := by
  simp only [sanitizedBlock, blankBlock, blankService, SortedMap.mapValues_mapValues, withEnvironment_withEnvironment,
    sanitizedMap_blank]

theorem sanitizedInstance_blank (inst : Instance) :
    sanitizedInstance platform (blankInstance inst) = sanitizedInstance platform inst := by
  simp only [sanitizedInstance, blankInstance, sanitizedMap_blank]

/-- Of a blanked deployment sanitising gives what it gives of the deployment, with blanked
defaults. -/
theorem sanitizedDeployment_blank (document : Document) :
    sanitizedDeployment platform (blankDocument document) = blankDefaults (sanitizedDeployment platform document) := by
  have hinstances : sanitizedInstance platform ∘ blankInstance = sanitizedInstance platform :=
    funext (sanitizedInstance_blank platform)
  simp only [sanitizedDeployment_eq, blankDocument, blankDefaults, Document.withSpec, SortedMap.mapValues_mapValues,
    sanitizedBlock_blank, List.map_map, hinstances]
  rfl

end

/-- Blocks that are the same but for blanked defaults. -/
theorem block_eq_of_blanked {block block' : Block} (hsame : SameDefaults block block')
    (h : ({ block with parameters := block.parameters.mapValues blankParameter } : Block) =
      { block' with parameters := block'.parameters.mapValues blankParameter }) : block = block' := by
  obtain ⟨parameters, services⟩ := block
  obtain ⟨parameters', services'⟩ := block'
  obtain ⟨hparameters, rfl⟩ := Block.mk.inj h
  obtain rfl : parameters = parameters' := eq_of_blanked (fun key x hkey => blankParameter_of_not hkey x) hparameters hsame
  rfl

/-- Deployments that are the same but for blanked defaults are the same where the defaults
are. -/
theorem document_eq_of_blankDefaults {document document' : Document}
    (h : blankDefaults document = blankDefaults document')
    (hsame : ∀ name block block', document.spec.blocks.get? name = some block →
      document'.spec.blocks.get? name = some block' → SameDefaults block block') : document = document' := by
  have hblocks : document.spec.blocks = document'.spec.blocks := by
    refine SortedMap.ext_get? fun name => ?_
    have hget := congrArg (fun d : Document => d.spec.blocks.get? name) h
    simp only [blankDefaults, Document.withSpec, SortedMap.get?_mapValues] at hget
    cases hblock : document.spec.blocks.get? name with
    | none =>
      rw [hblock, Option.map_none, eq_comm, Option.map_eq_none_iff] at hget
      exact hget.symm
    | some block =>
      rw [hblock, Option.map_some, eq_comm, Option.map_eq_some_iff] at hget
      obtain ⟨block', hblock', heq⟩ := hget
      rw [hblock', block_eq_of_blanked (hsame name block block' hblock hblock') heq.symm]
  obtain ⟨apiVersion, kind, metadata, spec⟩ := document
  obtain ⟨apiVersion', kind', metadata', spec'⟩ := document'
  obtain ⟨rfl, rfl, rfl, hspec⟩ := Document.mk.inj h
  obtain ⟨overlays, files, repositories, sources, blocks, instances, groups, profiles, router, upstreams, image⟩ := spec
  obtain ⟨overlays', files', repositories', sources', blocks', instances', groups', profiles', router', upstreams', image'⟩ := spec'
  obtain rfl : blocks = blocks' := hblocks
  obtain ⟨rfl, rfl, rfl, rfl, -, rfl, rfl, rfl, rfl, rfl, rfl⟩ := DeploymentSpec.mk.inj hspec
  rfl

/-- **Deployments.** Of two that differ only in credentials the same is exported exactly if
the defaults of their blocks are the same. -/
theorem sanitizedDeployment_eq_iff (platform : Platform) {document document' : Document}
    (h : blankDocument document = blankDocument document') :
    sanitizedDeployment platform document = sanitizedDeployment platform document' ↔
      ∀ name block block', document.spec.blocks.get? name = some block →
        document'.spec.blocks.get? name = some block' → SameDefaults block block' := by
  constructor
  · intro heq name block block' hblock hblock' key _
    have hget := congrArg (fun d : Document => d.spec.blocks.get? name) heq
    simp only [sanitizedDeployment_eq, Document.withSpec, SortedMap.get?_mapValues, hblock, hblock', Option.map_some,
      Option.some.injEq] at hget
    have hparameters := congrArg Block.parameters hget
    exact congrArg (SortedMap.get? · key) hparameters
  · intro hsame
    have hblank := congrArg (sanitizedDeployment platform) h
    rw [sanitizedDeployment_blank, sanitizedDeployment_blank] at hblank
    refine document_eq_of_blankDefaults hblank ?_
    intro name exported exported' hexported hexported'
    simp only [sanitizedDeployment_eq, Document.withSpec, SortedMap.get?_mapValues, Option.map_eq_some_iff] at hexported hexported'
    obtain ⟨block, hblock, rfl⟩ := hexported
    obtain ⟨block', hblock', rfl⟩ := hexported'
    exact hsame name block block' hblock hblock'

theorem scaffoldPaths_blank (document : Document) (source : String) :
    scaffoldPaths (blankDocument document).spec source = scaffoldPaths document.spec source := by
  have hneeded : ∀ block : Block,
      (blankBlock block).services.values.filterMap (fun service => (neededPath service.execution).map Prod.fst) =
        block.services.values.filterMap fun service => (neededPath service.execution).map Prod.fst := by
    intro block
    simp only [blankBlock, SortedMap.values, SortedMap.mapValues, List.map_map, List.filterMap_map]
    refine List.filterMap_congr fun entry _ => ?_
    simp only [Function.comp, blankService, neededPath_withEnvironment]
  have hinstances : ((document.spec.instances.map blankInstance).filter fun inst => inst.source = source).map
        (fun inst => (inst.block, ())) =
      (document.spec.instances.filter fun inst => inst.source = source).map fun inst => (inst.block, ()) := by
    rw [List.filter_map, List.map_map]
    rfl
  simp only [scaffoldPaths, blankDocument, Document.withSpec, hinstances]
  refine List.flatMap_congr fun name _ => ?_
  rw [SortedMap.get?_mapValues]
  cases document.spec.blocks.get? name with
  | none => rfl
  | some block => exact congrArg (· ++ []) (hneeded block)

/-- What sanitising finds in a deployment is no credential. -/
theorem deploymentFindings_blank (platform : Platform) (document : Document) :
    deploymentFindings platform (blankDocument document).spec = deploymentFindings platform document.spec := by
  have hsources : sourceFindings (blankDocument document).spec = sourceFindings document.spec := by
    funext name
    rw [sourceFindings, sourceFindings, scaffoldPaths_blank]
  have hinstances : (blankDocument document).spec.instances.zipIdx =
      document.spec.instances.zipIdx.map (Prod.map blankInstance id) := List.zipIdx_map ..
  have hblocks : (blankDocument document).spec.blocks.entries =
      document.spec.blocks.entries.map fun entry => (entry.1, blankBlock entry.2) := rfl
  have hkeys : (blankDocument document).spec.sources.keys = document.spec.sources.keys := rfl
  have hservices : ∀ block : Block, (blankBlock block).services.entries =
      block.services.entries.map fun entry => (entry.1, blankService entry.2) := fun _ => rfl
  simp only [deploymentFindings, hsources, hinstances, hblocks, hkeys, hservices, List.flatMap_map, List.map_map,
    Function.comp_def, Prod.map, blankService, environment_withEnvironment, mapFindings_blank, blankInstance, id]

/-! ### Overlays -/

section
variable (platform : Platform)

/-- Of a blanked overlay sanitising gives what it gives of the overlay, with blanked
variables. -/
theorem sanitizedOverlay_blank (overlay : Overlay) :
    (sanitizedOverlay platform (blankOverlay overlay)).1 =
      { (sanitizedOverlay platform overlay).1 with vars := blankMap overlay.vars } := by
  have hset : (overlay.environment.set.mapValues blankValue).mapValues (sanitizedValue platform) =
      overlay.environment.set.mapValues (sanitizedValue platform) := by
    rw [SortedMap.mapValues_mapValues]
    exact congrArg (SortedMap.mapValues · _) (funext fun key => funext (sanitizedValue_blank platform key))
  simp only [sanitizedOverlay, blankOverlay, hset, sanitizedMap_blank]

/-- What sanitising finds in an overlay is no credential. -/
theorem overlayFindings_blank (overlay : Overlay) :
    overlayFindings platform (blankOverlay overlay) = overlayFindings platform overlay := by
  have hset : (overlay.environment.set.mapValues blankValue).entries.filter (fun entry => credentialLikeKey entry.1) =
      (overlay.environment.set.entries.filter fun entry => credentialLikeKey entry.1).map
        fun entry => (entry.1, blankValue entry.1 entry.2) := List.filter_map ..
  simp only [overlayFindings, blankOverlay, mapFindings_blank, hset, List.map_map]
  refine congrArg (fun l => Findings.join [_, Findings.join l, _, _]) (List.map_congr_left ?_)
  rintro ⟨key, value⟩ -
  cases value <;> rfl

/-- **Overlays.** Of two that differ only in credentials the same is exported exactly if their
variables are the same. -/
theorem sanitizedOverlay_eq_iff {overlay overlay' : Overlay} (h : blankOverlay overlay = blankOverlay overlay') :
    sanitizedOverlay platform overlay = sanitizedOverlay platform overlay' ↔ SameVariables overlay overlay' := by
  constructor
  · intro heq key _
    have hvars : overlay.vars = overlay'.vars := congrArg (fun o : Encoding.UnplacedOverlay => o.1.vars) heq
    rw [hvars]
  · intro hsame
    have hblank := congrArg (fun o => (sanitizedOverlay platform o).1) h
    simp only [sanitizedOverlay_blank] at hblank
    have hvars : overlay.vars = overlay'.vars :=
      eq_of_blanked (fun key x hkey => blankText_of_not hkey x) (congrArg Overlay.vars hblank) hsame
    refine Subtype.ext ?_
    have hcopy : ∀ o : Overlay, (sanitizedOverlay platform o).1 =
        { ({ (sanitizedOverlay platform o).1 with vars := blankMap o.vars } : Overlay) with vars := o.vars } := fun _ => rfl
    rw [hcopy, hblank, hvars, ← hcopy]

end

/-! ### Exports -/

/-- The bundle that is exported of a deployment and its loaded overlays. -/
def exportedBundle (platform : Platform) (document : Document) (loaded : List Overlay) : PortableBundle :=
  let findings := Findings.join (deploymentFindings platform document.spec :: loaded.map (overlayFindings platform))
  let deployment := sanitizedDeployment platform document
  let exported : PortableBundle := {
    apiVersion := PORTABLE_BUNDLE_API_VERSION
    metadata := ⟨deployment.metadata.name, "1970-01-01T00:00:00Z", "0.1.0"⟩
    deployment := deployment.withSpec { deployment.spec with
      overlays := keepFirst (· == ·) (loaded.map importedPath) }
    overlays := .ofList (loaded.map fun overlay => (overlay.name, sanitizedOverlay platform overlay))
    requiredLocalInputs := (findings.inputs.foldl requireInput ∅).values.map sortedInput
    contentHash := "" }
  { exported with contentHash := contentHash platform exported }

theorem exportPortableBundle_of_loaded {host : Host} {bundle : Bundle} {overlays : List PathBuf} {loaded : List Overlay}
    (h : exportedOverlays host bundle overlays = .ok loaded) :
    ∃ result, exportPortableBundle host bundle overlays = .ok result ∧
      result.bundle = exportedBundle host.toPlatform bundle.document loaded := by
  unfold exportPortableBundle
  rw [h]
  exact ⟨_, rfl, rfl⟩

/-- An export asks of the machine for nothing but digests. -/
theorem exportedBundle_congr {platform platform' : Platform} (h : platform.sha256 = platform'.sha256) :
    exportedBundle platform = exportedBundle platform' := by
  cases platform
  cases platform'
  cases h
  rfl

section
variable {platform : Platform} {document document' : Document} {loaded loaded' : List Overlay}

/-- What the export of blanked overlays has apart from the overlays themselves. -/
theorem importedPaths_blank (h : loaded.map blankOverlay = loaded'.map blankOverlay) :
    loaded.map importedPath = loaded'.map importedPath := by
  have hpath : importedPath ∘ blankOverlay = importedPath := rfl
  have hpaths := congrArg (List.map importedPath) h
  rwa [List.map_map, List.map_map, hpath] at hpaths

theorem findings_blank (hdocument : blankDocument document = blankDocument document')
    (h : loaded.map blankOverlay = loaded'.map blankOverlay) :
    deploymentFindings platform document.spec :: loaded.map (overlayFindings platform) =
      deploymentFindings platform document'.spec :: loaded'.map (overlayFindings platform) := by
  have hoverlay : overlayFindings platform ∘ blankOverlay = overlayFindings platform :=
    funext (overlayFindings_blank platform)
  have hfindings := congrArg (List.map (overlayFindings platform)) h
  rw [List.map_map, List.map_map, hoverlay] at hfindings
  rw [← deploymentFindings_blank, hdocument, deploymentFindings_blank, hfindings]

variable (platform) in
/-- Of overlays that differ only in credentials the same are exported exactly if the variables
of those that are the last of their names are the same. -/
theorem exportedOverlays_eq_iff (h : loaded.map blankOverlay = loaded'.map blankOverlay) :
    SortedMap.ofList (loaded.map fun overlay => (overlay.name, sanitizedOverlay platform overlay)) =
        SortedMap.ofList (loaded'.map fun overlay => (overlay.name, sanitizedOverlay platform overlay)) ↔
      ∀ before overlays later, loaded.zip loaded' = before ++ overlays :: later →
        (∀ other ∈ later, other.1.name ≠ overlays.1.name) → SameVariables overlays.1 overlays.2 := by
  have hlength : loaded.length = loaded'.length := by
    simpa only [List.length_map] using congrArg List.length h
  have hleft : (loaded.zip loaded').map Prod.fst = loaded := List.map_fst_zip hlength.le
  have hright : (loaded.zip loaded').map Prod.snd = loaded' := List.map_snd_zip hlength.ge
  have hblank : ∀ overlays ∈ loaded.zip loaded', blankOverlay overlays.1 = blankOverlay overlays.2 := by
    rw [← List.forall₂_eq_eq_eq, List.forall₂_map_left_iff, List.forall₂_map_right_iff, List.forall₂_iff_zip] at h
    rintro ⟨overlay, overlay'⟩ hoverlays
    exact h.2 hoverlays
  have hfst : loaded.map (fun overlay => (overlay.name, sanitizedOverlay platform overlay)) =
      (loaded.zip loaded').map fun overlays => (overlays.1.name, sanitizedOverlay platform overlays.1) := by
    conv_lhs => rw [← hleft]
    rw [List.map_map]
    rfl
  have hsnd : loaded'.map (fun overlay => (overlay.name, sanitizedOverlay platform overlay)) =
      (loaded.zip loaded').map fun overlays => (overlays.1.name, sanitizedOverlay platform overlays.2) := by
    conv_lhs => rw [← hright]
    rw [List.map_map]
    refine List.map_congr_left fun overlays hoverlays => ?_
    have hname := congrArg Overlay.name (hblank overlays hoverlays)
    exact congrArg (·, sanitizedOverlay platform overlays.2) hname.symm
  rw [hfst, hsnd, SortedMap.ofList_map_eq_iff]
  refine forall_congr' fun before => forall_congr' fun overlays => forall_congr' fun later =>
    forall_congr' fun hsplit => forall_congr' fun _ => ?_
  exact sanitizedOverlay_eq_iff platform (hblank overlays (by rw [hsplit]; simp))

end

/-- **Exports.** Two deployments with overlays that differ only in literal values of keys that
look like credentials are exported to the same bundle, exactly where the defaults of their
blocks, and the variables of the overlays that are the last of their names, are the same. -/
theorem export_identical_iff {host host' : Host} {bundle bundle' : Bundle} {overlays overlays' : List PathBuf}
    {loaded loaded' : List Overlay} (hdigest : host.sha256 = host'.sha256)
    (hloaded : exportedOverlays host bundle overlays = .ok loaded)
    (hloaded' : exportedOverlays host' bundle' overlays' = .ok loaded')
    (h : DifferInCredentials bundle.document bundle'.document loaded loaded') :
    ∃ result result', exportPortableBundle host bundle overlays = .ok result ∧
      exportPortableBundle host' bundle' overlays' = .ok result' ∧
      (result.bundle = result'.bundle ↔ SameUnvisited bundle.document bundle'.document loaded loaded') := by
  obtain ⟨result, hresult, hbundle⟩ := exportPortableBundle_of_loaded hloaded
  obtain ⟨result', hresult', hbundle'⟩ := exportPortableBundle_of_loaded hloaded'
  refine ⟨result, result', hresult, hresult', ?_⟩
  rw [hbundle, hbundle', ← exportedBundle_congr hdigest]
  constructor
  · intro heq
    refine ⟨?_, ?_⟩
    · refine (sanitizedDeployment_eq_iff host.toPlatform h.documents).mp ?_
      have hpaths := congrArg (fun document : Document => document.spec.overlays) h.documents
      have hdeployment := congrArg (fun exported => exported.deployment.withSpec
        { exported.deployment.spec with overlays := bundle.document.spec.overlays }) heq
      refine hdeployment.trans ?_
      rw [show bundle.document.spec.overlays = bundle'.document.spec.overlays from hpaths]
      rfl
    · exact (exportedOverlays_eq_iff host.toPlatform h.overlays).mp (congrArg PortableBundle.overlays heq)
  · rintro ⟨hdefaults, hvariables⟩
    have hdeployment := (sanitizedDeployment_eq_iff host.toPlatform h.documents).mpr hdefaults
    have hoverlays := (exportedOverlays_eq_iff host.toPlatform h.overlays).mpr hvariables
    simp only [exportedBundle, hdeployment, hoverlays, importedPaths_blank h.overlays,
      findings_blank h.documents h.overlays]

/-- A shop whose web server has a password by default, and whose instances get a token. -/
def guardedShop (password token : String) : Bundle :=
  let document := shopBundle.document
  shopBundle.withDocument (document.withSpec { document.spec with
    blocks := document.spec.blocks.mapValues fun _ block =>
      { block with parameters := block.parameters.insert "db_password" ⟨false, some password⟩ }
    instances := document.spec.instances.map fun inst =>
      { inst with environment := inst.environment.insert "API_TOKEN" token } })

/-- A machine without overlays, with the digests of the exports of two of these shops. -/
def guardedHost : Host :=
  { cloneHost with
    sha256 := fun text =>
      if Text.contains text "hunter2" then
        #v[231, 116, 7, 21, 159, 31, 248, 212, 149, 72, 127, 87, 80, 181, 172, 55, 87, 94, 164, 171,
          220, 8, 150, 133, 45, 21, 27, 98, 41, 72, 92, 87]
      else
        #v[26, 226, 196, 212, 79, 228, 98, 117, 15, 200, 46, 136, 118, 14, 231, 205, 205, 149, 181, 204,
          120, 62, 106, 172, 251, 126, 201, 224, 196, 201, 5, 216] }

/-- Another token is exported to the same bundle. -/
theorem export_identical_token :
    ∃ result result', exportPortableBundle guardedHost (guardedShop "hunter2" "a1") [] = .ok result ∧
      exportPortableBundle guardedHost (guardedShop "hunter2" "b2") [] = .ok result' ∧ result.bundle = result'.bundle := by
  have hdiffer : DifferInCredentials (guardedShop "hunter2" "a1").document (guardedShop "hunter2" "b2").document [] [] :=
    ⟨by decide +kernel, rfl⟩
  have hloaded : ∀ token, exportedOverlays guardedHost (guardedShop "hunter2" token) [] = .ok [] := fun _ => rfl
  obtain ⟨result, result', hresult, hresult', hiff⟩ := export_identical_iff rfl (hloaded "a1") (hloaded "b2") hdiffer
  refine ⟨result, result', hresult, hresult', hiff.mpr ⟨?_, ?_⟩⟩
  · intro name block block' hblock hblock' key _
    obtain rfl : block = block' := Option.some.inj (hblock.symm.trans hblock')
    rfl
  · rintro before overlays later hsplit
    cases before <;> cases hsplit

/-- Another default of a block's password is in the bundle. -/
theorem default_exported :
    DifferInCredentials (guardedShop "hunter2" "a1").document (guardedShop "swordfish" "a1").document [] [] ∧
      ∃ result result', exportPortableBundle guardedHost (guardedShop "hunter2" "a1") [] = .ok result ∧
        exportPortableBundle guardedHost (guardedShop "swordfish" "a1") [] = .ok result' ∧ result.bundle ≠ result'.bundle := by
  have hloaded : ∀ password, exportedOverlays guardedHost (guardedShop password "a1") [] = .ok [] := fun _ => rfl
  refine ⟨⟨by decide +kernel, rfl⟩, ?_⟩
  obtain ⟨result, hresult, hbundle⟩ :=
    exportPortableBundle_of_loaded (hloaded "hunter2")
  obtain ⟨result', hresult', hbundle'⟩ :=
    exportPortableBundle_of_loaded (hloaded "swordfish")
  refine ⟨result, result', hresult, hresult', ?_⟩
  rw [hbundle, hbundle']
  intro heq
  have hblocks := congrArg (fun exported => exported.deployment.spec.blocks) heq
  revert hblocks
  decide +kernel

end Apmpr.Planner
