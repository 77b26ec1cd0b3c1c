import Apmpr.State.Reconcile

/-!
# Rows of services

`resource_rows` of the crate `apmpr-ops`: what is shown of the services of a deployment. Each
service of the generated manifest has a row, whose status is that of the first container whose
name contains the service's generated name; a container that no service has taken has a row of
its own.

Which container runs which service is not in what is observed. It stands beside it here
(`Running`), with what the generated names promise: the name of a container contains the one of
the service it runs (`NamesContain`). Generated names may contain one another, so the converse
(`NamesApart`) may fail.

**`rows_right`** says that where the converse holds the rows are right: a service whose device
cannot be reached shows that, every other one has the status of a container of its own, and each
container that runs no service is shown once. `rows_wrong` says that nothing less will do: where
names are not apart, there are an order and states of the same containers with a wrong row.
-/

namespace Apmpr.Ops

open State (OwnedResourceObservation DriftDiagnostic DriftCode ResourceKind)

/-- `ManifestService`. -/
structure ManifestService where
  inst : String
  component : String
  service : String
  device : String
  deriving DecidableEq

/-- `ServiceRow`. -/
structure ServiceRow where
  inst : String
  service : String
  device : String
  status : String
  health : String
  deriving DecidableEq

/-- `unreachable_detail`. -/
def unreachableDetail (diagnostics : List DriftDiagnostic) (device : String) : Option String :=
  (diagnostics.find? fun diagnostic =>
    diagnostic.code = .deviceUnreachable && diagnostic.path = s!"observed.devices.{device}").map fun diagnostic =>
      s!"device unreachable: {diagnostic.message}"

/-- `health_label`. -/
def healthLabel (status : String) : String :=
  if Text.contains (Text.toAsciiLowercase status) "unhealthy" then "unhealthy"
  else if Text.contains (Text.toAsciiLowercase status) "healthy" then "healthy"
  else "-"

/-- Whether a container's name contains the generated name of a service. -/
def named (service : ManifestService) (resource : OwnedResourceObservation) : Bool :=
  Text.contains resource.name service.service

/-- The row of a service. -/
def manifestRow (diagnostics : List DriftDiagnostic) (containers : List OwnedResourceObservation)
    (service : ManifestService) : ServiceRow :=
  let status := (unreachableDetail diagnostics service.device).getD
    (((containers.find? (named service)).bind (·.state)).getD "stopped")
  ⟨service.inst, service.component, service.device, status, healthLabel status⟩

/-- The row of a container that no service has taken. -/
def extraRow (deployment : String) (resource : OwnedResourceObservation) : ServiceRow :=
  let trimmed := String.ofList (resource.name.toList.dropWhile (· = '/'))
  let logical := (Text.afterStart s!"apmpr-{deployment}-" trimmed).getD resource.name
  let parts := (Text.splitOnce '-' logical).getD (logical, "container")
  let status := resource.state.getD "observed"
  ⟨parts.1, parts.2, resource.device, status, healthLabel status⟩

/-- The containers among resources. -/
def containersOf (resources : List OwnedResourceObservation) : List OwnedResourceObservation :=
  resources.filter fun resource => resource.kind = .container

/-- The indices of the containers that services have taken. -/
def matched (containers : List OwnedResourceObservation) (manifest : List ManifestService) : List ℕ :=
  manifest.filterMap fun service => containers.findIdx? (named service)

/-- `resource_rows`. -/
def resourceRows (deployment : String) (resources : List OwnedResourceObservation) (manifest : List ManifestService)
    (diagnostics : List DriftDiagnostic) : List ServiceRow :=
  let containers := containersOf resources
  manifest.map (manifestRow diagnostics containers) ++
    (containers.zipIdx.filter fun entry => !(matched containers manifest).contains entry.2).map fun entry =>
      extraRow deployment entry.1

/-! ### What runs what -/

/-- A resource that is observed, and the index of the service it runs if it is a container of
one. -/
structure Running where
  resource : OwnedResourceObservation
  runs : Option ℕ
  deriving DecidableEq

/-- Whether a container runs no service of the manifest. -/
def Running.unowned (running : Running) : Bool := running.runs.isNone

/-- The containers. -/
def containers (observed : List Running) : List Running :=
  observed.filter fun running => running.resource.kind = .container

/-- A container's name contains the generated name of the service it runs. -/
def NamesContain (manifest : List ManifestService) (observed : List Running) : Prop :=
  ∀ running ∈ containers observed, ∀ j ∈ running.runs, ∃ service, manifest[j]? = some service ∧
    named service running.resource = true

/-- A container's name contains no generated name of another service. -/
def NamesApart (manifest : List ManifestService) (observed : List Running) : Prop :=
  ∀ running ∈ containers observed, ∀ j service, manifest[j]? = some service →
    named service running.resource = true → running.runs = some j

/-- The status of a service: its device cannot be reached, or it is that of a container of the
service, or there is none. -/
def StatusRight (observed : List Running) (diagnostics : List DriftDiagnostic) (j : ℕ) (service : ManifestService)
    (status : String) : Prop :=
  match unreachableDetail diagnostics service.device with
  | some detail => status = detail
  | none =>
    (∃ running ∈ containers observed, running.runs = some j ∧ status = running.resource.state.getD "stopped") ∨
      (∀ running ∈ containers observed, running.runs ≠ some j) ∧ status = "stopped"

/-- The rows are those of the services, each with a right status, and those of other containers,
among which each one that runs no service is exactly once. -/
structure RowsRight (deployment : String) (manifest : List ManifestService) (observed : List Running)
    (diagnostics : List DriftDiagnostic) (rows : List ServiceRow) : Prop where
  services : ∀ j service, manifest[j]? = some service → ∃ row, rows[j]? = some row ∧ row.inst = service.inst ∧
    row.service = service.component ∧ row.device = service.device ∧ StatusRight observed diagnostics j service row.status
  others : ∃ extra : List Running, rows.drop manifest.length = extra.map (fun running => extraRow deployment running.resource) ∧
    extra.Sublist (containers observed) ∧
    extra.filter Running.unowned = (containers observed).filter Running.unowned

section Rows

variable {deployment : String} {manifest : List ManifestService} {observed : List Running}
  {diagnostics : List DriftDiagnostic}

theorem containersOf_map (observed : List Running) :
    containersOf (observed.map (·.resource)) = (containers observed).map (·.resource) := by
  rw [containersOf, containers, List.filter_map]
  rfl

/-- Where names are apart, a name says exactly what a container runs. -/
theorem named_iff (hcontain : NamesContain manifest observed) (hapart : NamesApart manifest observed) {running : Running}
    (hrunning : running ∈ containers observed) {j : ℕ} {service : ManifestService} (hservice : manifest[j]? = some service) :
    named service running.resource = true ↔ running.runs = some j := by
  refine ⟨hapart running hrunning j service hservice, fun hruns => ?_⟩
  obtain ⟨own, hown, hnamed⟩ := hcontain running hrunning j hruns
  rw [hservice] at hown
  rwa [Option.some.inj hown]

theorem statusRight_manifestRow (hcontain : NamesContain manifest observed) (hapart : NamesApart manifest observed)
    {j : ℕ} {service : ManifestService} (hservice : manifest[j]? = some service) :
    StatusRight observed diagnostics j service
      (manifestRow diagnostics (containersOf (observed.map (·.resource))) service).status := by
  rw [StatusRight, manifestRow, containersOf_map]
  cases unreachableDetail diagnostics service.device with
  | some detail => rfl
  | none =>
    dsimp only
    rw [Option.getD_none, List.find?_map]
    cases hfound : (containers observed).find? (named service ∘ (·.resource)) with
    | some running =>
      have hmem := List.mem_of_find?_eq_some hfound
      have hnamed := List.find?_some hfound
      refine .inl ⟨running, hmem, (named_iff hcontain hapart hmem hservice).mp hnamed, ?_⟩
      rfl
    | none =>
      refine .inr ⟨fun running hrunning hruns => ?_, rfl⟩
      have hnot := List.find?_eq_none.mp hfound running hrunning
      exact hnot ((named_iff hcontain hapart hrunning hservice).mpr hruns)

/-- What a service has taken is the first container with its name. -/
theorem mem_matched_iff {resources : List OwnedResourceObservation} {i : ℕ} :
    i ∈ matched resources manifest ↔ ∃ service ∈ manifest, resources.findIdx? (named service) = some i := by
  rw [matched, List.mem_filterMap]

/-- A container that runs no service is taken by none. -/
theorem not_mem_matched (hapart : NamesApart manifest observed) {running : Running} {i : ℕ}
    (hrunning : (containers observed)[i]? = some running) (hunowned : running.unowned = true) :
    i ∉ matched ((containers observed).map (·.resource)) manifest := by
  intro hmem
  obtain ⟨service, hservice, hfound⟩ := mem_matched_iff.mp hmem
  obtain ⟨j, hj⟩ := List.mem_iff_getElem?.mp hservice
  obtain ⟨hlt, hnamed, -⟩ := List.findIdx?_eq_some_iff_getElem.mp hfound
  rw [List.getElem_map] at hnamed
  obtain ⟨hlt', hget⟩ := List.getElem?_eq_some_iff.mp hrunning
  rw [hget] at hnamed
  rw [Running.unowned, hapart running (List.mem_of_getElem? hrunning) j service hj hnamed] at hunowned
  cases hunowned

/-- **Where names are apart, the rows are right**, in every order of observation and whatever the
diagnostics are. -/
theorem rows_right (hcontain : NamesContain manifest observed) (hapart : NamesApart manifest observed) :
    RowsRight deployment manifest observed diagnostics
      (resourceRows deployment (observed.map (·.resource)) manifest diagnostics) where
  services j service hservice := by
    refine ⟨_, ?_, rfl, rfl, rfl, statusRight_manifestRow hcontain hapart hservice⟩
    have hlt := (List.getElem?_eq_some_iff.mp hservice).1
    rw [resourceRows, List.getElem?_append_left (by simpa using hlt), List.getElem?_map, hservice]
    rfl
  others := by
    -- the containers that no service has taken, each with what it runs
    let keep : Running × ℕ → Bool := fun entry =>
      !(matched ((containers observed).map (·.resource)) manifest).contains entry.2
    refine ⟨((containers observed).zipIdx.filter keep).map Prod.fst, ?_, ?_, ?_⟩
    · have hlength : manifest.length = (manifest.map (manifestRow diagnostics
          (containersOf (observed.map (·.resource))))).length := (List.length_map _).symm
      rw [resourceRows, hlength, List.drop_left, containersOf_map, List.zipIdx_map, List.filter_map, List.map_map,
        List.map_map]
      rfl
    · have hsublist := (@List.filter_sublist _ keep (containers observed).zipIdx).map Prod.fst
      rwa [List.zipIdx_map_fst] at hsublist
    · have hkept : ∀ entry ∈ (containers observed).zipIdx,
          ((Running.unowned ∘ Prod.fst) entry && keep entry) = (Running.unowned ∘ Prod.fst) entry := by
        intro entry hentry
        cases hunowned : (Running.unowned ∘ Prod.fst) entry with
        | false => rfl
        | true =>
          have hget : (containers observed)[entry.2]? = some entry.1 := List.mk_mem_zipIdx_iff_getElem?.mp hentry
          have hfree := not_mem_matched hapart hget hunowned
          simpa [keep] using hfree
      rw [List.filter_map, List.filter_filter, List.filter_congr hkept, ← List.filter_map, List.zipIdx_map_fst]

/-! ### Names that are not apart -/

/-- What is observed of a container but for its state. -/
def Running.stateless (running : Running) : Running := { running with resource := { running.resource with state := none } }

/-- A container in a state. -/
def Running.inState (state : String) (running : Running) : Running :=
  { running with resource := { running.resource with state := some state } }

/-- **Where names are not apart**, the same containers may be observed in an order and in states
that make a row wrong. -/
theorem rows_wrong (hcontain : NamesContain manifest observed) (hnot : ¬ NamesApart manifest observed) :
    ∃ observed' : List Running, (observed'.map Running.stateless).Perm (observed.map Running.stateless) ∧
      NamesContain manifest observed' ∧
      ¬ RowsRight deployment manifest observed' [] (resourceRows deployment (observed'.map (·.resource)) manifest []) := by
  unfold NamesApart at hnot
  push Not at hnot
  obtain ⟨running, hrunning, j, service, hservice, hnamed, hother⟩ := hnot
  obtain ⟨hmem, hkind⟩ := List.mem_filter.mp hrunning
  refine ⟨running.inState "up" :: (observed.erase running).map (Running.inState "down"), ?_, ?_, ?_⟩
  · rw [List.map_cons, List.map_map]
    exact ((List.perm_cons_erase hmem).map Running.stateless).symm
  · intro other hother
    obtain ⟨hother, hcontainer⟩ := List.mem_filter.mp hother
    rcases List.mem_cons.mp hother with rfl | hother
    · exact hcontain running hrunning
    · obtain ⟨original, horiginal, rfl⟩ := List.mem_map.mp hother
      exact hcontain original (List.mem_filter.mpr ⟨List.mem_of_mem_erase horiginal, hcontainer⟩)
  · intro hright
    obtain ⟨row, hrow, -, -, -, hstatus⟩ := hright.services j service hservice
    have hcontainers : containers (running.inState "up" :: (observed.erase running).map (Running.inState "down")) =
        running.inState "up" :: containers ((observed.erase running).map (Running.inState "down")) :=
      List.filter_cons_of_pos hkind
    have hnamed' : named service (running.inState "up").resource = true := hnamed
    -- the service takes the container that is not its own, which is observed first
    have hup : row.status = "up" := by
      rw [resourceRows, List.getElem?_append_left (by
        have hlt := (List.getElem?_eq_some_iff.mp hservice).1
        simpa using hlt), List.getElem?_map, hservice, Option.map_some, Option.some.injEq] at hrow
      rw [← hrow, manifestRow, containersOf_map, hcontainers, List.map_cons, List.find?_cons_of_pos hnamed']
      rfl
    change _ ∨ _ at hstatus
    rw [hup, hcontainers] at hstatus
    rcases hstatus with ⟨own, hown, hruns, hstate⟩ | ⟨-, hstopped⟩
    · rcases List.mem_cons.mp hown with rfl | hown
      · exact hother hruns
      · obtain ⟨original, -, rfl⟩ := List.mem_map.mp (List.mem_filter.mp hown).1
        change "up" = "down" at hstate
        exact absurd hstate (by decide)
    · exact absurd hstopped (by decide)

end Rows

/-! ### Two services -/

/-- A container of a service, by its generated name. -/
def composeContainer (runs : Option ℕ) (service state : String) : Running :=
  ⟨⟨.container, service, s!"apmpr-demo-{service}-1", ∅, some state, "local"⟩, runs⟩

/-- Two services, one of them on a device. -/
def apartManifest : List ManifestService :=
  [⟨"api", "web", "demo--api--web", "local"⟩, ⟨"web", "ui", "demo--web--ui", "board"⟩]

/-- Containers of both, and a router. -/
def apartContainers : List Running :=
  [composeContainer (some 1) "demo--web--ui" "running", composeContainer none "router" "running",
    composeContainer (some 0) "demo--api--web" "exited"]

/-- The device cannot be reached. -/
def boardUnreachable : List DriftDiagnostic :=
  [⟨.deviceUnreachable, "observed.devices.board", "Docker SSH transport timed out"⟩]

/-- The names of a manifest and of containers, checked one against the other. -/
theorem names_of_checked {manifest : List ManifestService} {observed : List Running}
    (hcontain : ∀ running ∈ containers observed, ∀ j ∈ running.runs.toList,
      ∃ entry ∈ manifest.zipIdx, entry.2 = j ∧ named entry.1 running.resource = true) :
    NamesContain manifest observed := by
  intro running hrunning j hj
  obtain ⟨entry, hentry, rfl, hnamed⟩ := hcontain running hrunning j (Option.mem_toList.mpr hj)
  exact ⟨entry.1, List.mk_mem_zipIdx_iff_getElem?.mp hentry, hnamed⟩

/-- Two services whose names are apart. -/
theorem rows_right_apart : RowsRight "demo" apartManifest apartContainers boardUnreachable
    (resourceRows "demo" (apartContainers.map (·.resource)) apartManifest boardUnreachable) := by
  have hcontain : NamesContain apartManifest apartContainers := names_of_checked (by decide +kernel)
  have hapart : ∀ running ∈ containers apartContainers, ∀ entry ∈ apartManifest.zipIdx,
      named entry.1 running.resource = true → running.runs = some entry.2 := by decide +kernel
  exact rows_right hcontain fun running hrunning j service hservice =>
    hapart running hrunning (service, j) (List.mk_mem_zipIdx_iff_getElem?.mpr hservice)

/-- Two services the generated name of one of which starts with that of the other. -/
def prefixManifest : List ManifestService :=
  [⟨"web", "ui", "demo--web--ui", "local"⟩, ⟨"web", "ui-2", "demo--web--ui-2", "board"⟩]

/-- A container of each. -/
def prefixContainers : List Running :=
  [composeContainer (some 1) "demo--web--ui-2" "running", composeContainer (some 0) "demo--web--ui" "exited"]

/-- The first service has the status of a container of the second one, whose own row shows that its
device cannot be reached. -/
theorem rows_taken : NamesContain prefixManifest prefixContainers ∧
    ((resourceRows "demo" (prefixContainers.map (·.resource)) prefixManifest boardUnreachable).map (·.status)).take 2 =
      ["running", "device unreachable: Docker SSH transport timed out"] ∧
    (∀ running ∈ containers prefixContainers, running.runs = some 0 → running.resource.state = some "exited") ∧
    ∀ running ∈ containers prefixContainers, running.runs = some 1 → running.resource.state = some "running" := by
  refine ⟨names_of_checked ?_, ?_, ?_, ?_⟩
  all_goals decide +kernel

end Apmpr.Ops
