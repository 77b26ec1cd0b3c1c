import Apmpr.Planner.Generate

/-!
# Planning a deployment

The entry points of the crate `apmpr-planner`: loading a bundle (`load_bundle_from_str`),
planning it without overlays and with them (`plan_with_devices`,
`plan_with_overlays_and_devices`), and planning it with an instance moved to another group
(`plan_with_membership_and_devices`).

Every way of planning has the same two halves. The first makes the bundle effective: its
overlays are folded in and its host routing is derived. The second validates the effective
bundle and generates the plan.
-/

namespace Apmpr.Planner

open Router (RouterConfig)

/-- What the entry points ask of their surroundings beside the platform: the canonical form
of a path, which is absolute, the overlay in a file, and the host routers among the
generated artifacts of a workspace, with the deployments they are of. -/
structure Host extends Platform where
  canonicalize : PathBuf → Except String { p : PathBuf // p.isAbsolute = true }
  loadOverlay : PathBuf → Except String Overlay
  generatedRouters : PathBuf → List (String × RouterConfig)

/-! ### Loading -/

/-- `PlannerError`, as far as a document that can be read is refused. -/
inductive PlannerError where
  | io (message : String)
  | migrationRequired (version : String)
  | renamedApiGroup (version : String)
  deriving DecidableEq

/-- The workspace a directory is in: the nearest one above it with a repository, or itself. -/
def workspaceRootOf (platform : Platform) (dir : PathBuf) : PathBuf :=
  ((dir.ancestors.find? fun ancestor => platform.pathExists (ancestor.join ⟨".git"⟩))).getD dir

theorem isAbsolute_workspaceRootOf (platform : Platform) {dir : PathBuf} (h : dir.isAbsolute = true) :
    (workspaceRootOf platform dir).isAbsolute = true := by
  rw [workspaceRootOf]
  cases hfind : dir.ancestors.find? fun ancestor => platform.pathExists (ancestor.join ⟨".git"⟩) with
  | none => exact h
  | some ancestor => exact PathBuf.isAbsolute_of_mem_ancestorsFrom h (List.mem_of_find?_eq_some hfind)

/-- `load_bundle_from_str`, from the document in the text and the directory of the file. -/
def loadBundle (host : Host) (document : Document) (directory : PathBuf) : Except PlannerError Bundle :=
  if Text.startsWith document.apiVersion "switchyard.dev/" then .error (.renamedApiGroup document.apiVersion)
  else if document.apiVersion = "apmpr.dev/v1alpha1" then .error (.migrationRequired document.apiVersion)
  else
    match host.canonicalize directory with
    | .error message => .error (.io message)
    | .ok dir => .ok {
        document := document
        definitionDir := dir
        workspaceRoot := workspaceRootOf host.toPlatform dir
        definitionDir_absolute := dir.2
        workspaceRoot_absolute := isAbsolute_workspaceRootOf host.toPlatform dir.2 }

/-! ### Effective bundles -/

/-- The bundle of another document. -/
def Bundle.withDocument (bundle : Bundle) (document : Document) : Bundle := { bundle with document := document }

/-- An effective bundle, and what its overlays resolved to. -/
structure Effective where
  bundle : Bundle
  overlay : Option OverlayResolution

/-- A bundle without overlays made effective. -/
def effectivePlain (platform : Platform) (bundle : Bundle) : Except Failure Effective := do
  let document ← withDerivedHostRouting platform bundle.document
  return ⟨bundle.withDocument document, none⟩

/-- The overlays of a bundle and of the options, with whether they are seen from the definition. -/
def overlayPaths (bundle : Bundle) (options : OverlayOptions) : List (PathBuf × Bool) :=
  bundle.document.spec.overlays.map (·, true) ++ options.overlays.map (·, false)

/-- The file of an overlay. -/
def overlayFile (platform : Platform) (bundle : Bundle) (entry : PathBuf × Bool) : PathBuf :=
  if entry.1.isAbsolute || (!entry.2 && platform.pathExists entry.1) then entry.1
  else bundle.definitionDir.join entry.1

/-- The overlays that can be loaded, and what is wrong with the others. -/
def loadOverlays (host : Host) (bundle : Bundle) (options : OverlayOptions) : List Overlay × List Diagnostic :=
  let loaded := (overlayPaths bundle options).map fun entry =>
    let path := overlayFile host.toPlatform bundle entry
    (path, host.loadOverlay path)
  (loaded.filterMap fun entry => entry.2.toOption,
    loaded.filterMap fun entry =>
      match entry.2 with
      | .ok _ => none
      | .error message => some ⟨.invalidOverlay, entry.1.text, message⟩)

/-- The order the origins are listed in. -/
def originBefore (left right : OriginTrace) : Bool :=
  decide (toLex (left.inst, toLex (left.category, left.key)) ≤ toLex (right.inst, toLex (right.category, right.key)))

/-- A bundle with overlays, a variation or values of the command line made effective. -/
def effectiveOverlaid (host : Host) (bundle : Bundle) (options : OverlayOptions) : Except Failure Effective :=
  let loaded := loadOverlays host bundle options
  if !loaded.2.isEmpty then .error (.diagnostics loaded.2)
  else
    match resolve host.toPlatform bundle.document loaded.1 options with
    | .error errors => .error (.diagnostics errors)
    | .ok (document, resolution) => do
      let document ← withDerivedHostRouting host.toPlatform document
      return ⟨bundle.withDocument document,
        some { resolution with origins := resolution.origins.mergeSort originBefore }⟩

/-- Whether planning has no overlay, variation or value to fold in. -/
def isPlain (bundle : Bundle) (options : OverlayOptions) : Bool :=
  (overlayPaths bundle options).isEmpty && options.variation.isNone && options.set.entries.isEmpty

/-- A bundle made effective. -/
def effective (host : Host) (bundle : Bundle) (options : OverlayOptions) : Except Failure Effective :=
  if isPlain bundle options then effectivePlain host.toPlatform bundle else effectiveOverlaid host bundle options

/-! ### Plans -/

/-- The plan of an effective bundle. -/
def planEffective (platform : Platform) (devices : Devices) (e : Effective) : Except Failure Plan := do
  let groups ← validate platform e.bundle devices
  generate platform e.bundle groups e.overlay devices

/-- `existing_variation_conflicts`. -/
def existingVariationConflicts (host : Host) (workspaceRoot : PathBuf) (plan : Plan) : List Diagnostic :=
  let claims := plan.hostRouterConfig.toList.flatMap fun config => config.spec.listeners.map (·.bind)
  (host.generatedRouters (workspaceRoot.join ⟨".apmpr/generated"⟩)).flatMap fun (deployment, config) =>
    if deployment = plan.deployment then []
    else
      (config.spec.listeners.filter fun listener => claims.contains listener.bind).map fun listener =>
        ⟨.listenerConflict, "variation.hostListeners",
          s!"variation `{plan.deployment}` conflicts with generated deployment `{deployment}` at {listener.bind.host.display}:{listener.bind.port}"⟩

/-- The plan of a bundle with overlays, a variation or values of the command line. -/
def planOverlaid (host : Host) (bundle : Bundle) (options : OverlayOptions) (devices : Devices) :
    Except Failure Plan := do
  let e ← effectiveOverlaid host bundle options
  let plan ← planEffective host.toPlatform devices e
  let conflicts := if options.variation.isSome then existingVariationConflicts host bundle.workspaceRoot plan else []
  if conflicts.isEmpty then .ok plan else .error (.diagnostics conflicts)

/-- `plan_with_devices`. -/
def planWithDevices (host : Host) (bundle : Bundle) (devices : Devices) : Except Failure Plan :=
  if bundle.document.spec.overlays.isEmpty then do
    let e ← effectivePlain host.toPlatform bundle
    planEffective host.toPlatform devices e
  else planOverlaid host bundle OverlayOptions.none devices

/-- `plan_with_overlays_and_devices`. -/
def planWithOverlaysAndDevices (host : Host) (bundle : Bundle) (options : OverlayOptions) (devices : Devices) :
    Except Failure Plan :=
  if isPlain bundle options then planWithDevices host bundle devices
  else planOverlaid host bundle options devices

/-! ### Moving an instance -/

/-- The members of a group that an instance is taken out of. -/
def ServiceGroup.without (inst : String) (group : ServiceGroup) : ServiceGroup :=
  { group with
    instances := group.instances.filter fun member => memberInstance member ≠ inst
    disabled := group.disabled.filter fun member => member ≠ inst }

/-- The member that is moved: the first one of the instance, or its name. -/
def movedMember (spec : DeploymentSpec) (inst : String) : String :=
  ((spec.groups.values.flatMap (·.instances)).find? fun member => memberInstance member = inst).getD inst

/-- `move_instance_to_group`. -/
def moveInstanceToGroup (document : Document) (inst targetGroup : String) : Document :=
  let member := movedMember document.spec inst
  document.withSpec { document.spec with
    groups := document.spec.groups.mapValues fun name group =>
      let group := group.without inst
      if name = targetGroup then { group with instances := group.instances ++ [member] } else group }

/-- What is wrong with a move. -/
def membershipErrors (spec : DeploymentSpec) (inst group : String) : List Diagnostic :=
  reportIf (!spec.instances.any fun candidate => candidate.name = inst)
      ⟨.missingReference, "spec.instances", s!"instance `{inst}` does not exist"⟩ ++
    reportIf (!spec.groups.contains group) ⟨.missingReference, "spec.groups", s!"group `{group}` does not exist"⟩

/-- `plan_with_membership_and_devices`. -/
def planWithMembershipAndDevices (host : Host) (bundle : Bundle) (inst group : String) (devices : Devices) :
    Except Failure Plan :=
  let errors := membershipErrors bundle.document.spec inst group
  if !errors.isEmpty then .error (.diagnostics errors)
  else planWithDevices host (bundle.withDocument (moveInstanceToGroup bundle.document inst group)) devices

end Apmpr.Planner
