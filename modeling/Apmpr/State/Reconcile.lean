import Apmpr.Lib.Registry
import Apmpr.Lib.Run
import Apmpr.State.Context
import Mathlib.Data.Prod.Lex
import Mathlib.Data.List.Perm.Basic

/-!
# Reconciliation

`reconcile` of the crate `apmpr-state`: in one transaction, the resources Docker shows are
recorded for every deployment that is known, those recorded before are no longer active, and
the ones of devices that cannot be reached are recorded again. The device a resource was
observed on is not a column: `active_resources` reads it off a label.

Beside the store stands what it is meant to keep, `Observed`: for each deployment the
resources observed, each with the device it was observed on.

The column `labels_json` is kept as the map it encodes. A call is its input, its time, and
whether SQLite fails in its transaction.

## What is proved

`reconcile_cases` — a call changes nothing, or records what `recordAll` says.
`reconcile_keeps_observations` — in every run all of whose observations carry their device
as their label says it, the store keeps what was observed; `unreachable_resource_lost` — a
resource without the label is lost when its device cannot be reached.
-/

namespace Apmpr.State

def MANAGED_LABEL : String := "dev.apmpr.managed"
def DEPLOYMENT_LABEL : String := "dev.apmpr.deployment"
def RESOURCE_HASH_LABEL : String := "dev.apmpr.resource-hash"
def INSTANCE_LABEL : String := "dev.apmpr.instance"
def SERVICE_LABEL : String := "dev.apmpr.service"
def DEVICE_LABEL : String := "dev.apmpr.device"

/-- `ResourceKind`. -/
inductive ResourceKind where
  | container
  | image
  | network
  | volume
  deriving DecidableEq

/-- `as_str`. -/
def ResourceKind.asStr : ResourceKind → String
  | .container => "container"
  | .image => "image"
  | .network => "network"
  | .volume => "volume"

/-- `OwnedResourceObservation`. -/
structure OwnedResourceObservation where
  kind : ResourceKind
  id : String
  name : String
  labels : SortedMap String String
  state : Option String
  device : String
  deriving DecidableEq

/-- `GeneratedManifest`; of the remote projects only their devices are read. -/
structure GeneratedManifest where
  deployment : String
  definitionHash : String
  resourceHash : String
  remoteDevices : List String

/-- `ReconciliationInput`. -/
structure ReconciliationInput where
  manifests : List GeneratedManifest
  resources : List OwnedResourceObservation
  unreachableDevices : List String

/-- `local_device`. -/
def localDevice : String := "local"

/-- What was applied to a deployment. -/
structure Applied where
  definitionHash : String
  snapshot : Json
  appliedAt : I64

/-- A row of `deployments`, without its key. -/
structure DeploymentRow where
  applied : Option Applied
  lastObservedAt : Option I64

/-- A row of `resources`. -/
structure ResourceRow where
  deployment : String
  kind : ResourceKind
  runtimeId : String
  name : String
  resourceHash : Option String
  state : Option String
  labels : SortedMap String String
  observedAt : I64
  active : Bool

/-- A row of `deployment_history`. -/
structure HistoryRow where
  deployment : String
  event : String
  definitionHash : Option String
  recordedAt : I64
  context : Option Json

/-- The tables; a resource is one of a deployment that has a row
(`deployment_id REFERENCES deployments(id)`). -/
structure Store where
  deployments : SortedMap String DeploymentRow
  resources : List ResourceRow
  history : List HistoryRow
  references : ∀ row ∈ resources, deployments.contains row.deployment = true

/-- The tables of a new store. -/
def Store.empty : Store := ⟨∅, [], [], by simp⟩

/-! ### Reading resources -/

/-- Whether a label is kept: `ownership_labels_json`. -/
def isOwnershipLabel (key : String) : Bool :=
  [MANAGED_LABEL, DEPLOYMENT_LABEL, RESOURCE_HASH_LABEL, INSTANCE_LABEL, SERVICE_LABEL, DEVICE_LABEL].contains key

/-- The labels that are kept. -/
def ownershipLabels (labels : SortedMap String String) : SortedMap String String :=
  ⟨labels.entries.filter fun entry => isOwnershipLabel entry.1, labels.sorted.filter _⟩

/-- The device the labels of a resource name. -/
def labelledDevice (labels : SortedMap String String) : String := (labels.get? DEVICE_LABEL).getD localDevice

/-- The observation a row is read as. -/
def ResourceRow.observation (row : ResourceRow) : OwnedResourceObservation where
  kind := row.kind
  id := row.runtimeId
  name := row.name
  labels := row.labels
  state := row.state
  device := labelledDevice row.labels

/-- The order rows are read in: by kind, name and identifier. -/
def rowBefore (a b : ResourceRow) : Bool :=
  decide (toLex (a.kind.asStr, toLex (a.name, a.runtimeId)) ≤ toLex (b.kind.asStr, toLex (b.name, b.runtimeId)))

/-- Whether a row is an active one of a deployment. -/
def ResourceRow.activeIn (deployment : String) (row : ResourceRow) : Bool := row.active && row.deployment = deployment

/-- `active_resources`. -/
def Store.activeResources (store : Store) (deployment : String) : List OwnedResourceObservation :=
  ((store.resources.filter (ResourceRow.activeIn deployment)).mergeSort rowBefore).map ResourceRow.observation

/-! ### Reports -/

/-- `DriftCode`. -/
inductive DriftCode where
  | appliedStateMissing
  | generatedManifestMissing
  | desiredAppliedHashMismatch
  | observedResourcesMissing
  | ownershipInvalid
  | observedResourceHashMissing
  | observedResourceHashMismatch
  | multipleObservedResourceHashes
  | deviceUnreachable
  deriving DecidableEq

/-- `DriftDiagnostic`. -/
structure DriftDiagnostic where
  code : DriftCode
  path : String
  message : String
  deriving DecidableEq

/-- `DeploymentReconciliation`. -/
structure DeploymentReconciliation where
  deployment : String
  diagnostics : List DriftDiagnostic
  deriving DecidableEq

/-- The comparison of the manifest with what was applied. -/
def appliedDrift : Option GeneratedManifest → Option String → List DriftDiagnostic
  | some _, none => [⟨.appliedStateMissing, "applied",
      "generated state exists but no successful apply is recorded; desired state was not invented"⟩]
  | none, some _ => [⟨.generatedManifestMissing, "desired.manifest",
      "applied state exists but the generated manifest is missing"⟩]
  | some manifest, some applied =>
    if manifest.definitionHash ≠ applied then [⟨.desiredAppliedHashMismatch, "desired.definitionHash",
      s!"generated definition hash {manifest.definitionHash} differs from applied hash {applied}"⟩] else []
  | none, none => []

/-- Whether the labels of a resource say that it is the deployment's. -/
def ownedBy (deployment : String) (resource : OwnedResourceObservation) : Bool :=
  resource.labels.get? MANAGED_LABEL = some "true" && resource.labels.get? DEPLOYMENT_LABEL = some deployment

/-- The names of resources, for a message. -/
def resourceNames (resources : List OwnedResourceObservation) : String := ", ".intercalate (resources.map (·.name))

/-- The drift of the resources that were observed. -/
def observedDrift (deployment : String) (manifest : Option GeneratedManifest)
    (resources : List OwnedResourceObservation) : List DriftDiagnostic :=
  let foreign := resources.filter fun resource => !ownedBy deployment resource
  let topology := resources.filter fun resource => resource.kind ≠ .volume
  let sources := if topology.isEmpty then resources else topology
  let missing := sources.filter fun resource => !resource.labels.contains RESOURCE_HASH_LABEL
  let hashes := (SortedMap.ofList ((sources.filterMap fun resource => resource.labels.get? RESOURCE_HASH_LABEL).map
    fun hash => (hash, ()))).keys
  let shown := ", ".intercalate hashes
  let foreignNames := resourceNames foreign
  let missingNames := resourceNames missing
  (if foreign.isEmpty then [] else [⟨.ownershipInvalid, "observed.resources",
      s!"resources have invalid ownership labels: {foreignNames}"⟩]) ++
    (if missing.isEmpty then [] else [⟨.observedResourceHashMissing, "observed.resources",
      s!"resources lack resource-hash labels: {missingNames}"⟩]) ++
    (if hashes.length ≤ 1 then [] else [⟨.multipleObservedResourceHashes, "observed.resourceHash",
      s!"runtime has multiple resource hashes: {shown}"⟩]) ++
    match manifest with
    | none => []
    | some manifest =>
      if hashes.isEmpty || hashes.contains manifest.resourceHash then []
      else [⟨.observedResourceHashMismatch, "observed.resourceHash",
        s!"generated resource hash {manifest.resourceHash} differs from observed hash(es): {shown}"⟩]

/-- `reconcile_deployment`. -/
def reconcileDeployment (deployment : String) (applied : Option String) (manifest : Option GeneratedManifest)
    (resources : List OwnedResourceObservation) : List DriftDiagnostic :=
  appliedDrift manifest applied ++
    if resources.isEmpty then
      if manifest.isSome || applied.isSome then
        [⟨.observedResourcesMissing, "observed.resources", "no labeled Docker resources were observed"⟩]
      else []
    else observedDrift deployment manifest resources

/-- The devices of a manifest that cannot be reached. -/
def unreachableDrift (input : ReconciliationInput) (manifest : GeneratedManifest) : List DriftDiagnostic :=
  (manifest.remoteDevices.filter input.unreachableDevices.contains).map fun device =>
    ⟨.deviceUnreachable, s!"observed.devices.{device}",
      s!"device `{device}` unreachable; previous resource observations were retained"⟩

/-! ### Reconciliation -/

/-- Whether a deployment may have a row: SQLite's `length` ends a text at a null character. -/
def idAllowed (id : String) : Bool := id.toList.head?.any (· ≠ Char.ofNat 0)

/-- The row a resource is recorded in. -/
def resourceRow (deployment : String) (observedAt : I64) (resource : OwnedResourceObservation) : ResourceRow where
  deployment := deployment
  kind := resource.kind
  runtimeId := resource.id
  name := resource.name
  resourceHash := resource.labels.get? RESOURCE_HASH_LABEL
  state := resource.state
  labels := ownershipLabels resource.labels
  observedAt := observedAt
  active := true

/-- The row of a deployment that is observed. -/
def observedDeployment (row : Option DeploymentRow) (observedAt : I64) : DeploymentRow :=
  ⟨row.bind (·.applied), some observedAt⟩

/-- `UPDATE resources SET active=0` for one deployment. -/
def deactivate (deployment : String) (row : ResourceRow) : ResourceRow :=
  if row.activeIn deployment then { row with active := false } else row

@[simp] theorem deployment_deactivate (deployment : String) (row : ResourceRow) :
    (deactivate deployment row).deployment = row.deployment := by
  unfold deactivate
  split <;> rfl

/-- The statements for one deployment. -/
def Store.record (store : Store) (deployment : String) (definitionHash : Option String) (observedAt : I64)
    (resources : List OwnedResourceObservation) : Store where
  deployments := store.deployments.insert deployment (observedDeployment (store.deployments.get? deployment) observedAt)
  resources := store.resources.map (deactivate deployment) ++ resources.map (resourceRow deployment observedAt)
  history := store.history ++ [⟨deployment, "reconciled", definitionHash, observedAt, none⟩]
  references row hrow := by
    rw [SortedMap.contains_iff]
    rcases List.mem_append.mp hrow with hrow | hrow
    · obtain ⟨old, hold, rfl⟩ := List.mem_map.mp hrow
      obtain ⟨found, hfound⟩ := (SortedMap.contains_iff _ _).mp (store.references old hold)
      rw [SortedMap.get?_insert, deployment_deactivate]
      split
      · exact ⟨_, rfl⟩
      · exact ⟨found, hfound⟩
    · obtain ⟨resource, -, rfl⟩ := List.mem_map.mp hrow
      exact ⟨_, by rw [SortedMap.get?_insert]; exact if_pos rfl⟩

/-- The deployments a call is about. -/
def knownDeployments (store : Store) (input : ReconciliationInput) : List String :=
  (SortedMap.ofList ((input.manifests.map (·.deployment) ++
    (input.resources.filterMap fun resource => resource.labels.get? DEPLOYMENT_LABEL) ++
    store.deployments.keys).map fun deployment => (deployment, ()))).keys

/-- The observations of a call that are a deployment's. -/
def labelledResources (input : ReconciliationInput) (deployment : String) : List OwnedResourceObservation :=
  input.resources.filter fun resource => resource.labels.get? DEPLOYMENT_LABEL = some deployment

/-- The active resources of devices that cannot be reached. -/
def preservedResources (store : Store) (input : ReconciliationInput) (deployment : String) :
    List OwnedResourceObservation :=
  if input.unreachableDevices.isEmpty then []
  else (store.activeResources deployment).filter fun resource => input.unreachableDevices.contains resource.device

/-- What a call records for a deployment. -/
def recordedResources (store : Store) (input : ReconciliationInput) (deployment : String) :
    List OwnedResourceObservation :=
  labelledResources input deployment ++ preservedResources store input deployment

/-- The manifest of a deployment. -/
def manifestOf (input : ReconciliationInput) (deployment : String) : Option GeneratedManifest :=
  input.manifests.find? fun manifest => manifest.deployment = deployment

/-- What a call reports of a deployment. -/
def deploymentReport (store tx : Store) (input : ReconciliationInput) (deployment : String) :
    DeploymentReconciliation where
  deployment := deployment
  diagnostics :=
    let applied := ((tx.deployments.get? deployment).bind (·.applied)).map (·.definitionHash)
    let manifest := manifestOf input deployment
    reconcileDeployment deployment applied manifest (recordedResources store input deployment) ++
      manifest.toList.flatMap (unreachableDrift input)

/-- The loop of the transaction; what is preserved was read from the store before it. -/
def recordAll (store : Store) (input : ReconciliationInput) (observedAt : I64) :
    List String → Store → Except String (Store × List DeploymentReconciliation)
  | [], tx => .ok (tx, [])
  | deployment :: rest, tx =>
    if idAllowed deployment then do
      let tx := tx.record deployment ((manifestOf input deployment).map (·.definitionHash)) observedAt
        (recordedResources store input deployment)
      let (done, reports) ← recordAll store input observedAt rest tx
      return (done, deploymentReport store tx input deployment :: reports)
    else .error "CHECK constraint failed: length(id) > 0"

/-- `reconcile`. -/
def reconcile (store : Store) (input : ReconciliationInput) (observedAt : I64) (fails : Bool) :
    Store × Except String (List DeploymentReconciliation) :=
  if fails then (store, .error "database error")
  else
    match recordAll store input observedAt (knownDeployments store input) store with
    | .ok (tx, reports) => (tx, .ok reports)
    | .error message => (store, .error message)

/-! ### What is read back -/

/-- An observation as it is read back. -/
def stored (resource : OwnedResourceObservation) : OwnedResourceObservation :=
  { resource with labels := ownershipLabels resource.labels, device := labelledDevice resource.labels }

/-- An observation with the labels that are kept. -/
def recorded (resource : OwnedResourceObservation) : OwnedResourceObservation :=
  { resource with labels := ownershipLabels resource.labels }

theorem lookup_filter {labels : List (String × String)} {p : String → Bool} {key : String} (h : p key = true) :
    SortedMap.lookup key (labels.filter fun entry => p entry.1) = SortedMap.lookup key labels := by
  induction labels with
  | nil => rfl
  | cons entry rest ih =>
    rw [List.filter_cons]
    by_cases hkey : key = entry.1
    · subst hkey
      rw [if_pos h]
      simp [SortedMap.lookup]
    · split
      · rw [SortedMap.lookup, SortedMap.lookup, if_neg hkey, if_neg hkey, ih]
      · rw [SortedMap.lookup, if_neg hkey, ih]

@[simp] theorem labelledDevice_ownershipLabels (labels : SortedMap String String) :
    labelledDevice (ownershipLabels labels) = labelledDevice labels := by
  have hkept : isOwnershipLabel DEVICE_LABEL = true := by decide
  unfold labelledDevice ownershipLabels SortedMap.get?
  rw [lookup_filter hkept]

@[simp] theorem ownershipLabels_idem (labels : SortedMap String String) :
    ownershipLabels (ownershipLabels labels) = ownershipLabels labels := by
  simp [ownershipLabels, List.filter_filter]

theorem observation_resourceRow (deployment : String) (observedAt : I64) (resource : OwnedResourceObservation) :
    (resourceRow deployment observedAt resource).observation = stored resource := by
  simp [resourceRow, ResourceRow.observation, stored]

theorem recorded_stored (resource : OwnedResourceObservation) : recorded (stored resource) = stored resource := by
  simp [recorded, stored]

theorem recorded_recorded (resource : OwnedResourceObservation) : recorded (recorded resource) = recorded resource := by
  simp [recorded]

theorem stored_of_device {resource : OwnedResourceObservation} (h : resource.device = labelledDevice resource.labels) :
    stored resource = recorded resource := by
  simp [stored, recorded, h]

/-- The device of an active resource is the one its label names. -/
theorem device_of_mem_activeResources {store : Store} {deployment : String} {resource : OwnedResourceObservation}
    (h : resource ∈ store.activeResources deployment) : resource.device = labelledDevice resource.labels := by
  obtain ⟨row, -, rfl⟩ := List.mem_map.mp h
  rfl

/-! ### One deployment -/

theorem activeIn_deactivate_self (deployment : String) (row : ResourceRow) :
    (deactivate deployment row).activeIn deployment = false := by
  unfold deactivate
  split
  · rfl
  · simp_all

theorem deactivate_of_activeIn {deployment other : String} {row : ResourceRow} (hne : other ≠ deployment)
    (h : row.activeIn other = true) : deactivate deployment row = row := by
  have hother : row.deployment = other := by
    simp only [ResourceRow.activeIn, Bool.and_eq_true, decide_eq_true_eq] at h
    exact h.2
  have : row.activeIn deployment = false := by simp [ResourceRow.activeIn, hother, hne]
  rw [deactivate, this, if_neg Bool.false_ne_true]

theorem activeIn_deactivate_of_ne {deployment other : String} (hne : other ≠ deployment) (row : ResourceRow) :
    (deactivate deployment row).activeIn other = row.activeIn other := by
  unfold deactivate
  split
  · rename_i hactive
    simp only [ResourceRow.activeIn, Bool.and_eq_true, decide_eq_true_eq] at hactive
    simp [ResourceRow.activeIn, hactive.2, hne.symm]
  · rfl

/-- The rows of another deployment are left as they are. -/
theorem filter_map_deactivate {deployment other : String} (hne : other ≠ deployment) (rows : List ResourceRow) :
    (rows.map (deactivate deployment)).filter (ResourceRow.activeIn other) =
      rows.filter (ResourceRow.activeIn other) := by
  induction rows with
  | nil => rfl
  | cons row rest ih =>
    rw [List.map_cons, List.filter_cons, List.filter_cons, activeIn_deactivate_of_ne hne, ih]
    split
    · rename_i hactive
      rw [deactivate_of_activeIn hne hactive]
    · rfl

section Record

variable (tx : Store) (deployment : String) (definitionHash : Option String) (observedAt : I64)
  (resources : List OwnedResourceObservation)

theorem activeResources_record_self :
    ((tx.record deployment definitionHash observedAt resources).activeResources deployment).Perm
      (resources.map stored) := by
  have hold : (tx.resources.map (deactivate deployment)).filter (ResourceRow.activeIn deployment) = [] := by
    refine List.filter_eq_nil_iff.mpr fun row hrow => ?_
    obtain ⟨old, -, rfl⟩ := List.mem_map.mp hrow
    rw [activeIn_deactivate_self]
    exact Bool.false_ne_true
  have hnew : (resources.map (resourceRow deployment observedAt)).filter (ResourceRow.activeIn deployment) =
      resources.map (resourceRow deployment observedAt) := by
    refine List.filter_eq_self.mpr fun row hrow => ?_
    obtain ⟨resource, -, rfl⟩ := List.mem_map.mp hrow
    simp [ResourceRow.activeIn, resourceRow]
  have hread : ResourceRow.observation ∘ resourceRow deployment observedAt = stored :=
    funext (observation_resourceRow deployment observedAt)
  have hperm := (List.mergeSort_perm (resources.map (resourceRow deployment observedAt)) rowBefore).map
    ResourceRow.observation
  rw [Store.activeResources, Store.record, List.filter_append, hold, hnew, List.nil_append]
  rwa [List.map_map, hread] at hperm

theorem activeResources_record_of_ne {other : String} (hne : other ≠ deployment) :
    (tx.record deployment definitionHash observedAt resources).activeResources other = tx.activeResources other := by
  have hnew : (resources.map (resourceRow deployment observedAt)).filter (ResourceRow.activeIn other) = [] := by
    refine List.filter_eq_nil_iff.mpr fun row hrow => ?_
    obtain ⟨resource, -, rfl⟩ := List.mem_map.mp hrow
    simp [ResourceRow.activeIn, resourceRow, hne.symm]
  rw [Store.activeResources, Store.record, List.filter_append, hnew, List.append_nil, filter_map_deactivate hne]
  rfl

/-- What was applied to a deployment. -/
def Store.applied (store : Store) (deployment : String) : Option Applied :=
  (store.deployments.get? deployment).bind (·.applied)

theorem applied_record (other : String) :
    (tx.record deployment definitionHash observedAt resources).applied other = tx.applied other := by
  rw [Store.applied, Store.record, SortedMap.get?_insert]
  split
  · rename_i hsame
    rw [hsame]
    rfl
  · rfl

end Record

/-! ### One call -/

section Call

variable {store : Store} {input : ReconciliationInput} {observedAt : I64}

theorem recordAll_ok {deployments : List String} {tx done : Store} {reports : List DeploymentReconciliation}
    (hnodup : deployments.Nodup) (h : recordAll store input observedAt deployments tx = .ok (done, reports)) :
    (∀ d ∈ deployments, (done.activeResources d).Perm ((recordedResources store input d).map stored)) ∧
      (∀ d ∉ deployments, done.activeResources d = tx.activeResources d) ∧ ∀ d, done.applied d = tx.applied d := by
  induction deployments generalizing tx reports with
  | nil =>
    obtain ⟨rfl, rfl⟩ := Prod.mk.inj (Except.ok.inj h)
    exact ⟨nofun, fun _ _ => rfl, fun _ => rfl⟩
  | cons deployment rest ih =>
    rw [recordAll] at h
    split at h
    · obtain ⟨⟨done', reports'⟩, hrest, hdone⟩ := bind_eq_ok_iff.mp h
      obtain ⟨rfl, -⟩ := Prod.mk.inj (Except.ok.inj hdone)
      obtain ⟨hfresh, hnodup'⟩ := List.nodup_cons.mp hnodup
      obtain ⟨hin, hout, happlied⟩ := ih hnodup' hrest
      refine ⟨fun d hd => ?_, fun d hd => ?_, fun d => ?_⟩
      · rcases List.mem_cons.mp hd with rfl | hd
        · rw [hout d hfresh]
          exact activeResources_record_self ..
        · exact hin d hd
      · obtain ⟨hne, hd⟩ := not_or.mp (mt List.mem_cons.mpr hd)
        rw [hout d hd, activeResources_record_of_ne _ _ _ _ _ hne]
      · rw [happlied, applied_record]
    · cases h

theorem nodup_knownDeployments : (knownDeployments store input).Nodup :=
  List.pairwise_map.mpr (SortedMap.sorted _ |>.imp fun hlt => hlt.ne)

/-- A deployment that a call is not about has no resources, before or after. -/
theorem of_not_mem_knownDeployments {d : String} (h : d ∉ knownDeployments store input) :
    labelledResources input d = [] ∧ store.activeResources d = [] := by
  have hlist : ∀ l : List String, d ∈ l → d ∈ (SortedMap.ofList (l.map fun x => (x, ()))).keys := by
    intro l hd
    refine (SortedMap.mem_keys_iff _).mpr ⟨(), ?_⟩
    exact SortedMap.get?_insertAll_of_mem (List.mem_map.mpr ⟨d, hd, rfl⟩) fun _ _ => rfl
  have hnot := mt (hlist _) h
  rw [List.mem_append, List.mem_append, not_or, not_or] at hnot
  obtain ⟨⟨-, hlabels⟩, hrows⟩ := hnot
  constructor
  · refine List.filter_eq_nil_iff.mpr fun resource hresource hlabel => hlabels ?_
    exact List.mem_filterMap.mpr ⟨resource, hresource, of_decide_eq_true hlabel⟩
  · have hnone : store.resources.filter (ResourceRow.activeIn d) = [] := by
      refine List.filter_eq_nil_iff.mpr fun row hrow hactive => hrows ?_
      simp only [ResourceRow.activeIn, Bool.and_eq_true, decide_eq_true_eq] at hactive
      obtain ⟨found, hfound⟩ := (SortedMap.contains_iff _ _).mp (store.references row hrow)
      exact (SortedMap.mem_keys_iff _).mpr ⟨found, hactive.2 ▸ hfound⟩
    rw [Store.activeResources, hnone]
    simp

/-- **What a call does**: it fails and changes nothing, or for every deployment the active
resources are what it records, and what was applied is left. -/
theorem reconcile_cases (store : Store) (input : ReconciliationInput) (observedAt : I64) (fails : Bool) :
    (∃ message, reconcile store input observedAt fails = (store, .error message)) ∨
      ∃ done reports, reconcile store input observedAt fails = (done, .ok reports) ∧
        (∀ d, (done.activeResources d).Perm ((recordedResources store input d).map stored)) ∧
        ∀ d, done.applied d = store.applied d := by
  unfold reconcile
  by_cases hfails : fails = true
  · exact .inl ⟨_, if_pos hfails⟩
  · rw [if_neg hfails]
    cases hall : recordAll store input observedAt (knownDeployments store input) store with
    | error message => exact .inl ⟨message, rfl⟩
    | ok result =>
      obtain ⟨done, reports⟩ := result
      obtain ⟨hin, hout, happlied⟩ := recordAll_ok nodup_knownDeployments hall
      refine .inr ⟨done, reports, rfl, fun d => ?_, happlied⟩
      by_cases hd : d ∈ knownDeployments store input
      · exact hin d hd
      · obtain ⟨hlabelled, hactive⟩ := of_not_mem_knownDeployments hd
        rw [hout d hd, hactive, recordedResources, hlabelled, preservedResources, hactive]
        simp

end Call

/-! ### Runs -/

/-- What is observed of each deployment. -/
abbrev Observed := String → List OwnedResourceObservation

/-- What a call observes: what it is given, and what was observed before on the devices that
cannot be reached. -/
def Observed.next (observed : Observed) (input : ReconciliationInput) : Observed := fun d =>
  labelledResources input d ++ (observed d).filter fun resource => input.unreachableDevices.contains resource.device

/-- A call of `reconcile`. -/
structure ReconcileCall where
  input : ReconciliationInput
  observedAt : I64
  fails : Bool

/-- The machine of the calls. -/
def reconcileStep (store : Store) (call : ReconcileCall) : Store × Except String (List DeploymentReconciliation) :=
  reconcile store call.input call.observedAt call.fails

/-- What has been observed after a run: a call that fails observes nothing. -/
def observedAfter : Store → Observed → List ReconcileCall → Observed
  | _, observed, [] => observed
  | store, observed, call :: rest =>
    match (reconcileStep store call).2 with
    | .ok _ => observedAfter (reconcileStep store call).1 (observed.next call.input) rest
    | .error _ => observedAfter (reconcileStep store call).1 observed rest

/-- The store keeps what was observed, up to the labels it does not keep. -/
def Keeps (store : Store) (observed : Observed) : Prop :=
  ∀ d, ((store.activeResources d).map recorded).Perm ((observed d).map recorded)

/-- Every observation of a deployment was made on the device its labels name. -/
def DevicesLabelled (input : ReconciliationInput) : Prop :=
  ∀ resource ∈ input.resources, (resource.labels.get? DEPLOYMENT_LABEL).isSome = true →
    resource.device = labelledDevice resource.labels

theorem Keeps.next {store done : Store} {observed : Observed} {input : ReconciliationInput} (h : Keeps store observed)
    (hdevices : DevicesLabelled input)
    (hdone : ∀ d, (done.activeResources d).Perm ((recordedResources store input d).map stored)) :
    Keeps done (observed.next input) := by
  intro d
  have hstored : ∀ resource ∈ recordedResources store input d,
      resource.device = labelledDevice resource.labels := by
    intro resource hresource
    rcases List.mem_append.mp hresource with hlabelled | hpreserved
    · obtain ⟨hmem, hlabel⟩ := List.mem_filter.mp hlabelled
      exact hdevices resource hmem (by rw [of_decide_eq_true hlabel]; rfl)
    · unfold preservedResources at hpreserved
      split at hpreserved
      · cases hpreserved
      · exact device_of_mem_activeResources (List.mem_of_mem_filter hpreserved)
  have hread : ((recordedResources store input d).map stored).map recorded =
      (recordedResources store input d).map recorded := by
    rw [List.map_map]
    refine List.map_congr_left fun resource hresource => ?_
    rw [Function.comp_apply, recorded_stored, stored_of_device (hstored resource hresource)]
  have hpreserved : preservedResources store input d =
      (store.activeResources d).filter fun resource => input.unreachableDevices.contains resource.device := by
    unfold preservedResources
    split
    · rename_i hempty
      rw [List.isEmpty_iff.mp hempty]
      simp
    · rfl
  -- the labels that are dropped do not change the device, so they may be dropped first
  have hfilter : ∀ resources : List OwnedResourceObservation,
      (resources.filter fun resource => input.unreachableDevices.contains resource.device).map recorded =
        (resources.map recorded).filter fun resource => input.unreachableDevices.contains resource.device := by
    intro resources
    rw [List.filter_map]
    rfl
  have hactive := (hdone d).map recorded
  rw [hread, recordedResources, List.map_append, hpreserved, hfilter] at hactive
  refine hactive.trans ?_
  rw [Observed.next, List.map_append, hfilter]
  exact ((h d).filter _).append_left _

/-- **Unreachable devices lose nothing where devices are labelled.** In every run of calls
whose observations were made on the devices their labels name, the active resources of every
deployment are the observations of the last call that succeeded and those before it of the
devices it could not reach; what was applied never changes; and a call that fails changes
nothing. -/
theorem reconcile_keeps_observations (store : Store) {calls : List ReconcileCall}
    (h : ∀ call ∈ calls, DevicesLabelled call.input) :
    Keeps (after reconcileStep store calls) (observedAfter store store.activeResources calls) ∧
      (∀ d, (after reconcileStep store calls).applied d = store.applied d) ∧
      ∀ call message, (reconcileStep (after reconcileStep store calls) call).2 = .error message →
        (reconcileStep (after reconcileStep store calls) call).1 = after reconcileStep store calls := by
  have hrun : ∀ (s : Store) (observed : Observed), Keeps s observed →
      Keeps (after reconcileStep s calls) (observedAfter s observed calls) ∧
        ∀ d, (after reconcileStep s calls).applied d = s.applied d := by
    induction calls with
    | nil => exact fun s observed hkeeps => ⟨hkeeps, fun _ => rfl⟩
    | cons call rest ih =>
      intro s observed hkeeps
      obtain ⟨hcall, hrest⟩ := List.forall_mem_cons.mp h
      rw [after_cons, observedAfter]
      rcases reconcile_cases s call.input call.observedAt call.fails with
        ⟨message, hstep⟩ | ⟨done, reports, hstep, hdone, happlied⟩
      · have hstep' : reconcileStep s call = (s, .error message) := hstep
        rw [hstep']
        exact ih hrest s observed hkeeps
      · have hstep' : reconcileStep s call = (done, .ok reports) := hstep
        rw [hstep']
        obtain ⟨hkeeps', happlied'⟩ := ih hrest done (observed.next call.input) (hkeeps.next hcall hdone)
        exact ⟨hkeeps', fun d => (happlied' d).trans (happlied d)⟩
  obtain ⟨hkeeps, happlied⟩ := hrun store store.activeResources fun _ => .refl _
  refine ⟨hkeeps, happlied, fun call message herror => ?_⟩
  rcases reconcile_cases (after reconcileStep store calls) call.input call.observedAt call.fails with
    ⟨message', hstep⟩ | ⟨done, reports, hstep, -, -⟩
  · exact congrArg Prod.fst hstep
  · rw [show reconcileStep (after reconcileStep store calls) call = _ from hstep] at herror
    cases herror

/-- A container of the deployment `demo` on the device `builder`, with these labels. -/
def builderContainer (labels : List (String × String)) : OwnedResourceObservation :=
  ⟨.container, "id", "demo--api", .ofList ((DEPLOYMENT_LABEL, "demo") :: labels), some "running", "builder"⟩

/-- The container is observed; then its device cannot be reached. -/
def builderCalls (labels : List (String × String)) : List ReconcileCall :=
  [⟨⟨[], [builderContainer labels], []⟩, 0, false⟩, ⟨⟨[], [], ["builder"]⟩, 0, false⟩]

theorem reconcile_keeps_labelled_container :
    Keeps (after reconcileStep .empty (builderCalls [(DEVICE_LABEL, "builder")]))
      (observedAfter .empty Store.empty.activeResources (builderCalls [(DEVICE_LABEL, "builder")])) := by
  refine (reconcile_keeps_observations .empty fun call hcall => ?_).1
  rcases List.mem_cons.mp hcall with rfl | hcall
  · intro resource hresource _
    obtain rfl := List.mem_singleton.mp hresource
    decide +kernel
  · obtain rfl := List.mem_singleton.mp hcall
    exact nofun

/-- **A resource is lost**: without the label, the container is taken for a local one, and
is no longer active when its device cannot be reached. -/
theorem unreachable_resource_lost :
    ¬ Keeps (after reconcileStep .empty (builderCalls [])) (observedAfter .empty Store.empty.activeResources (builderCalls [])) := by
  intro h
  have hlength := (h "demo").length_eq
  revert hlength
  decide +kernel

end Apmpr.State
