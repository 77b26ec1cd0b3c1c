import Apmpr.Planner.Resources
import Apmpr.Planner.ServiceForm

/-!
# Previews of changes

`classify_changes` compares the Compose project that was written with the one that is planned,
service by service. Two hashes are looked at first: with the same definition hash nothing is
said to change, and with the same resource hash every service that stays is said to change live.

## What is proved

* `safePreview_of_hashes_differ`: without the hashes a preview is safe if no service is gone.
* `preview_safe_iff`: when a preview is safe. A removed service is not reported; behind an equal
  hash, neither is a key that is taken from a secret instead of a text.
-/

namespace Apmpr.Planner

/-! ### The classification -/

/-- `ChangeImpact`. -/
inductive ChangeImpact where
  | live
  | restart
  | rebuild
  deriving DecidableEq

/-- `ServiceChange`. -/
structure ServiceChange where
  service : String
  impact : ChangeImpact
  deriving DecidableEq

/-- What the artifacts of a deployment say: the Compose project, and the hashes in the manifest. -/
structure CurrentArtifacts where
  compose : Option Json
  definitionHash : Option String
  resourceHash : Option String

/-- The artifacts that `write_plan` writes of a plan. -/
def writtenArtifacts (plan : Plan) : CurrentArtifacts := ⟨some plan.compose, some plan.definitionHash, some plan.resourceHash⟩

/-- The label that `normalized_service` removes. -/
def RESOURCE_HASH_LABEL : String := "dev.apmpr.resource-hash"

/-- `normalized_service`. -/
def normalizedService (service : Json) : Json :=
  match service with
  | .object fields =>
    let value := SortedMap.ofList fields
    match value.get? "labels" with
    | some (.object labels) => .ofMap (value.insert "labels" (.ofMap ((SortedMap.ofList labels).erase RESOURCE_HASH_LABEL)))
    | _ => .object fields
  | _ => service

/-- `build_identity`. -/
def buildIdentity (service : Json) : Option Json × Option Json := (service.field "image", service.field "build")

/-- The services of a Compose project by name. -/
def servicesOf (compose : Json) : SortedMap String Json := .ofList (composeServices compose)

/-- What a service that is planned changes. -/
def changeImpact (current : CurrentArtifacts) (plan : Plan) (name : String) (next : Json) : ChangeImpact :=
  match (current.compose.map servicesOf).bind (·.get? name) with
  | none => .rebuild
  | some service =>
    if current.resourceHash = some plan.resourceHash then .live
    else if normalizedService service = normalizedService next then .live
    else if buildIdentity service ≠ buildIdentity next then .rebuild
    else .restart

/-- `classify_changes`. -/
def classifyChanges (current : CurrentArtifacts) (plan : Plan) : List ServiceChange :=
  if current.definitionHash = some plan.definitionHash then []
  else (servicesOf plan.compose).entries.map fun entry => ⟨entry.1, changeImpact current plan entry.1 entry.2⟩

/-- The services of a plan, without the labels of their hash. -/
def shownServices (plan : Plan) : SortedMap String Json :=
  (servicesOf plan.compose).mapValues fun _ service => normalizedService service

/-- A preview is safe: where it reports only live changes the services are the same, and every
service that differs is reported with more. -/
structure SafePreview (plan next : Plan) (changes : List ServiceChange) : Prop where
  live : (∀ change ∈ changes, change.impact = .live) → shownServices next = shownServices plan
  reported : ∀ name, (shownServices next).get? name ≠ (shownServices plan).get? name →
    ∃ change ∈ changes, change.service = name ∧ change.impact ≠ .live

theorem safePreview_iff {plan next : Plan} {changes : List ServiceChange} : SafePreview plan next changes ↔
    ∀ name, (shownServices next).get? name ≠ (shownServices plan).get? name →
      ∃ change ∈ changes, change.service = name ∧ change.impact ≠ .live := by
  refine ⟨SafePreview.reported, fun h => ⟨fun hlive => ?_, h⟩⟩
  refine SortedMap.ext_get? fun name => ?_
  by_contra hne
  obtain ⟨change, hchange, -, himpact⟩ := h name hne
  exact himpact (hlive change hchange)

section Classification

variable {plan next : Plan}

theorem shownServices_get? (plan : Plan) (name : String) :
    (shownServices plan).get? name = ((servicesOf plan.compose).get? name).map normalizedService :=
  SortedMap.get?_mapValues ..

/-- What is reported of a service. -/
theorem mem_classifyChanges_iff (hdefinition : plan.definitionHash ≠ next.definitionHash) {change : ServiceChange} :
    change ∈ classifyChanges (writtenArtifacts plan) next ↔ ∃ service, (servicesOf next.compose).get? change.service = some service ∧
      change.impact = changeImpact (writtenArtifacts plan) next change.service service := by
  have hdiffer : ¬(writtenArtifacts plan).definitionHash = some next.definitionHash := fun h => hdefinition (Option.some.inj h)
  rw [classifyChanges, if_neg hdiffer, List.mem_map]
  constructor
  · rintro ⟨⟨name, service⟩, hmem, rfl⟩
    exact ⟨service, (SortedMap.mem_entries_iff _).mp hmem, rfl⟩
  · rintro ⟨service, hget, himpact⟩
    refine ⟨(change.service, service), (SortedMap.mem_entries_iff _).mpr hget, ?_⟩
    rw [← himpact]

/-- Where the resources differ, a service is live exactly if it is the same. -/
theorem changeImpact_ne_live_iff (hresource : plan.resourceHash ≠ next.resourceHash) {name : String} {service : Json} :
    changeImpact (writtenArtifacts plan) next name service ≠ .live ↔
      ((servicesOf plan.compose).get? name).map normalizedService ≠ some (normalizedService service) := by
  rw [changeImpact, writtenArtifacts]
  dsimp only
  rw [Option.map_some, Option.bind_some]
  cases (servicesOf plan.compose).get? name with
  | none => simp
  | some current =>
    dsimp only
    rw [if_neg fun h => hresource (Option.some.inj h), Option.map_some]
    split_ifs with hsame hbuild
    · simp [hsame]
    · simpa using hsame
    · simpa using hsame

/-- **Without the hashes every service that is planned is reported as it is**; one that is gone
is not. -/
theorem safePreview_of_hashes_differ (hdefinition : plan.definitionHash ≠ next.definitionHash)
    (hresource : plan.resourceHash ≠ next.resourceHash) :
    SafePreview plan next (classifyChanges (writtenArtifacts plan) next) ↔
      ∀ name, (servicesOf plan.compose).contains name = true → (servicesOf next.compose).contains name = true := by
  rw [safePreview_iff]
  constructor
  · intro h name hplan
    by_contra hnext
    obtain ⟨service, hservice⟩ := (SortedMap.contains_iff _ _).mp hplan
    have hgone : (servicesOf next.compose).get? name = none := by simpa [SortedMap.contains] using hnext
    obtain ⟨change, hchange, rfl, -⟩ := h name (by rw [shownServices_get?, shownServices_get?, hgone, hservice]; simp)
    obtain ⟨service', hservice', -⟩ := (mem_classifyChanges_iff hdefinition).mp hchange
    exact absurd (hgone.symm.trans hservice') (by simp)
  · intro h name hne
    rw [shownServices_get?, shownServices_get?] at hne
    cases hnext : (servicesOf next.compose).get? name with
    | none =>
      -- then it was not there before either
      cases hplan : (servicesOf plan.compose).get? name with
      | none => simp [hnext, hplan] at hne
      | some service =>
        have hcontains := h name ((SortedMap.contains_iff _ _).mpr ⟨service, hplan⟩)
        simp [SortedMap.contains, hnext] at hcontains
    | some service =>
      refine ⟨⟨name, changeImpact (writtenArtifacts plan) next name service⟩, (mem_classifyChanges_iff hdefinition).mpr ⟨service, hnext, rfl⟩, rfl, ?_⟩
      rw [hnext] at hne
      exact (changeImpact_ne_live_iff hresource).mpr hne.symm

/-- Behind an equal hash nothing that stays is reported. -/
theorem safePreview_of_same_hash (hhash : plan.definitionHash = next.definitionHash ∨ plan.resourceHash = next.resourceHash)
    (hnames : ∀ name, (servicesOf next.compose).contains name = (servicesOf plan.compose).contains name) :
    SafePreview plan next (classifyChanges (writtenArtifacts plan) next) ↔ shownServices next = shownServices plan := by
  rw [safePreview_iff]
  constructor
  · intro h
    refine SortedMap.ext_get? fun name => ?_
    by_contra hne
    obtain ⟨change, hchange, rfl, himpact⟩ := h name hne
    by_cases hdefinition : plan.definitionHash = next.definitionHash
    · rw [classifyChanges, writtenArtifacts, if_pos (congrArg some hdefinition)] at hchange
      exact absurd hchange List.not_mem_nil
    · obtain ⟨service, hservice, heq⟩ := (mem_classifyChanges_iff hdefinition).mp hchange
      have hcontains := hnames change.service
      rw [(SortedMap.contains_iff _ _).mpr ⟨service, hservice⟩] at hcontains
      obtain ⟨current, hcurrent⟩ := (SortedMap.contains_iff _ _).mp hcontains.symm
      apply himpact
      rw [heq, changeImpact, writtenArtifacts]
      dsimp only
      rw [Option.map_some, Option.bind_some, hcurrent]
      dsimp only
      rw [if_pos (congrArg some (hhash.resolve_left hdefinition))]
  · intro h name hne
    rw [h] at hne
    exact absurd rfl hne

end Classification

/-! ### Services without the label of their hash -/

/-- The labels of a service without the one of its hash. -/
theorem normalizedService_ofMap {value : SortedMap String Json} {labels : SortedMap String String}
    (h : value.get? "labels" = some (.ofTexts labels)) :
    normalizedService (.ofMap value) = .ofMap (value.insert "labels" (.ofTexts (labels.erase RESOURCE_HASH_LABEL))) := by
  have htexts : ∀ labels : SortedMap String String, Json.ofTexts labels = .ofMap (labels.mapValues fun _ text => .string text) :=
    fun _ => rfl
  have herase : (labels.mapValues fun _ text => Json.string text).erase RESOURCE_HASH_LABEL =
      (labels.erase RESOURCE_HASH_LABEL).mapValues fun _ text => .string text := by
    refine SortedMap.ext_get? fun key => ?_
    rw [SortedMap.get?_erase, SortedMap.get?_mapValues, SortedMap.get?_mapValues, SortedMap.get?_erase]
    by_cases hkey : key = RESOURCE_HASH_LABEL <;> simp [hkey]
  unfold normalizedService
  rw [Json.ofMap]
  dsimp only
  rw [ofList_entries, h, htexts, Json.ofMap]
  dsimp only
  rw [ofList_entries, herase, ← htexts]

/-- The hash is one label. -/
theorem erase_serviceLabels (resourceHash resourceHash' deployment : String) (inst : Instance) (service : String) :
    (serviceLabels resourceHash' deployment inst service).erase RESOURCE_HASH_LABEL =
      (serviceLabels resourceHash deployment inst service).erase RESOURCE_HASH_LABEL := by
  have hown : ∀ hash, (ownershipLabels deployment hash).erase RESOURCE_HASH_LABEL =
      (SortedMap.ofList [("dev.apmpr.deployment", deployment), ("dev.apmpr.managed", "true")]).erase RESOURCE_HASH_LABEL := by
    intro hash
    refine SortedMap.ext_get? fun key => ?_
    by_cases hkey : key = RESOURCE_HASH_LABEL
    · simp [hkey]
    · have hkey' : key ≠ "dev.apmpr.resource-hash" := hkey
      simp [ownershipLabels, SortedMap.ofList, hkey, hkey']
  unfold serviceLabels instanceLabels
  dsimp only
  cases inst.remoteDevice with
  | none =>
    rw [erase_insert_of_ne _ (by decide), erase_insert_of_ne _ (by decide), hown, erase_insert_of_ne _ (by decide),
      erase_insert_of_ne _ (by decide), hown]
  | some device =>
    dsimp only
    rw [erase_insert_of_ne _ (by decide), erase_insert_of_ne _ (by decide), erase_insert_of_ne _ (by decide), hown,
      erase_insert_of_ne _ (by decide), erase_insert_of_ne _ (by decide), erase_insert_of_ne _ (by decide), hown]

theorem get?_labels (value : SortedMap String Json) (labels : SortedMap String String) (environment : Json) :
    ((value.insert "labels" (.ofTexts labels)).insert "environment" environment).get? "labels" = some (.ofTexts labels) := by
  simp

/-- Services with the same fields are shown the same exactly if their environments are. -/
theorem normalizedService_eq_iff {value : SortedMap String Json} {labels labels' : SortedMap String String}
    {environment environment' : SortedMap String Json}
    (hlabels : labels'.erase RESOURCE_HASH_LABEL = labels.erase RESOURCE_HASH_LABEL) :
    normalizedService (.ofMap ((value.insert "labels" (.ofTexts labels')).insert "environment" (.ofMap environment'))) =
        normalizedService (.ofMap ((value.insert "labels" (.ofTexts labels)).insert "environment" (.ofMap environment))) ↔
      environment' = environment := by
  rw [normalizedService_ofMap (get?_labels ..), normalizedService_ofMap (get?_labels ..), hlabels]
  constructor
  · intro h
    have hfield := congrArg (Json.field "environment") h
    rw [Json.field_ofMap, Json.field_ofMap] at hfield
    simp only [SortedMap.get?_insert, if_neg (show "environment" ≠ "labels" by decide), if_true] at hfield
    have hentries : environment'.entries = environment.entries := Json.object.inj (Option.some.inj hfield)
    rw [← ofList_entries environment', hentries, ofList_entries]
  · rintro rfl
    rw [insert_comm_of_ne (value.insert "labels" (.ofTexts labels')) (by decide), insert_insert,
      insert_comm_of_ne (value.insert "labels" (.ofTexts labels)) (by decide), insert_insert]

theorem normalizedService_labels {value : SortedMap String Json} {labels labels' : SortedMap String String}
    (hlabels : labels'.erase RESOURCE_HASH_LABEL = labels.erase RESOURCE_HASH_LABEL) :
    normalizedService (.ofMap (value.insert "labels" (.ofTexts labels'))) =
      normalizedService (.ofMap (value.insert "labels" (.ofTexts labels))) := by
  have hget : ∀ labels : SortedMap String String, (value.insert "labels" (.ofTexts labels)).get? "labels" = some (.ofTexts labels) := by
    intro labels
    simp
  rw [normalizedService_ofMap (hget _), normalizedService_ofMap (hget _), hlabels, insert_insert, insert_insert]

/-! ### Environments with other secrets -/

/-- **A generated environment shows which keys are secrets**, where no key that is one has a
placeholder for its text. -/
theorem generatedEnvironment_eq_iff (document : Document) (block : Block) (inst : Instance) (platform : Platform)
    {overlay overlay' : Option OverlayResolution} (service : Service)
    (htext : ∀ key, isSecret overlay inst.name key = true ∨ isSecret overlay' inst.name key = true →
      ((serviceEnvironment document block inst service.execution.runtime.environment).get? key).map .string ≠
        some (secretPlaceholder platform inst.name key)) :
    generatedEnvironment document block inst platform overlay' service =
        generatedEnvironment document block inst platform overlay service ↔
      ∀ key, isSecret overlay' inst.name key = isSecret overlay inst.name key := by
  constructor
  · intro h key
    by_contra hne
    have hget := congrArg (SortedMap.get? · key) h
    rw [get?_generatedEnvironment, get?_generatedEnvironment] at hget
    cases hold : isSecret overlay inst.name key with
    | true =>
      have hnew : isSecret overlay' inst.name key = false := by simpa [hold] using hne
      rw [hold, hnew, if_pos rfl, if_neg Bool.false_ne_true] at hget
      split_ifs at hget
      exact htext key (Or.inl hold) hget
    | false =>
      have hnew : isSecret overlay' inst.name key = true := by simpa [hold] using hne
      rw [hold, hnew, if_pos rfl, if_neg Bool.false_ne_true] at hget
      split_ifs at hget
      exact htext key (Or.inr hnew) hget.symm
  · intro h
    refine SortedMap.ext_get? fun key => ?_
    rw [get?_generatedEnvironment, get?_generatedEnvironment, h]

/-! ### Two runs of a bundle -/

section Alike

variable {platform platform' : Platform} {bundle bundle' : Bundle} {groups groups' : ResolvedGroups}
  {overlay overlay' : Option OverlayResolution} (resourceHash resourceHash' : String) (block : Block) {inst inst' : Instance}
  {source : PathBuf}

/-- Two bundles are run in the same way, but for their secrets and the devices. -/
structure Alike (platform platform' : Platform) (bundle bundle' : Bundle) (groups groups' : ResolvedGroups)
    (overlay overlay' : Option OverlayResolution) : Prop where
  sha256 : platform'.sha256 = platform.sha256
  name : bundle'.document.metadata.name = bundle.document.metadata.name
  routerImage : bundle'.document.spec.routerImage = bundle.document.spec.routerImage
  workspaceRoot : bundle'.workspaceRoot = bundle.workspaceRoot
  routed : routedInstances bundle'.document.spec groups' = routedInstances bundle.document.spec groups
  files : fileChunks overlay' = fileChunks overlay

/-- Only SHA-256 of the platform shows in the services. -/
theorem services_of_sha256 (h : platform'.sha256 = platform.sha256) :
    namespaceEntry platform' = namespaceEntry platform ∧ sidecarEntry platform' = sidecarEntry platform ∧
      localService platform' = localService platform := by
  obtain ⟨_, _, _, _, _, _, _⟩ := platform
  obtain ⟨_, _, _, _, _, _, _⟩ := platform'
  cases h
  exact ⟨rfl, rfl, rfl⟩

/-- The namespaces are shown the same. -/
theorem normalized_namespaceEntry (h : Alike platform platform' bundle bundle' groups groups' overlay overlay')
    (hinst : withoutAddress inst' = withoutAddress inst) :
    (namespaceEntry platform' bundle' resourceHash' block inst').1 = (namespaceEntry platform bundle resourceHash block inst).1 ∧
      normalizedService (namespaceEntry platform' bundle' resourceHash' block inst').2 =
        normalizedService (namespaceEntry platform bundle resourceHash block inst).2 := by
  have hname : namespaceEntry platform' bundle' resourceHash' block inst' = namespaceEntry platform bundle resourceHash' block inst := by
    rw [(services_of_sha256 h.sha256).1, show namespaceEntry platform bundle' resourceHash' block inst' =
      namespaceEntry platform bundle' resourceHash' block (withoutAddress inst') from rfl, hinst]
    unfold namespaceEntry
    dsimp only
    rw [h.name]
    rfl
  rw [hname]
  refine ⟨rfl, ?_⟩
  unfold namespaceEntry
  dsimp only
  obtain ⟨value, hvalue⟩ := composeNamespace_eq (networkName platform bundle.document.metadata.name)
    (SortedMap.ofList ((block.services.values.flatMap (·.publish)).map fun port => (port, ()))).keys
    (block.services.keys.map (serviceNameFor platform bundle.document.metadata.name inst.name))
  rw [hvalue, hvalue]
  exact normalizedService_labels (erase_serviceLabels ..)

/-- The sidecars are shown the same. -/
theorem normalized_sidecarEntry (h : Alike platform platform' bundle bundle' groups groups' overlay overlay')
    (hinst : withoutAddress inst' = withoutAddress inst) (htransparent : isTransparent groups' inst.name = isTransparent groups inst.name) :
    (sidecarEntry platform' bundle' groups' resourceHash' inst').1 = (sidecarEntry platform bundle groups resourceHash inst).1 ∧
      normalizedService (sidecarEntry platform' bundle' groups' resourceHash' inst').2 =
        normalizedService (sidecarEntry platform bundle groups resourceHash inst).2 := by
  have hname : sidecarEntry platform' bundle' groups' resourceHash' inst' = sidecarEntry platform bundle groups resourceHash' inst := by
    rw [(services_of_sha256 h.sha256).2.1, show sidecarEntry platform bundle' groups' resourceHash' inst' =
      sidecarEntry platform bundle' groups' resourceHash' (withoutAddress inst') from rfl, hinst]
    unfold sidecarEntry
    dsimp only
    rw [h.name, h.workspaceRoot, h.routerImage, show (withoutAddress inst).name = inst.name from rfl, htransparent]
    rfl
  rw [hname]
  refine ⟨rfl, ?_⟩
  unfold sidecarEntry
  dsimp only
  obtain ⟨value, hvalue⟩ := composeSidecar_eq bundle.document.spec.routerImage
    (resourceName platform [bundle.document.metadata.name, inst.name, "namespace"])
    (resourceName platform [bundle.document.metadata.name, inst.name, "router"])
    (((bundle.workspaceRoot.join (artifactDir bundle.document.metadata.name)).join ⟨"routes"⟩).join ⟨s!"{inst.name}.json"⟩)
    (isTransparent groups inst.name)
  rw [hvalue, hvalue]
  exact normalizedService_labels (erase_serviceLabels ..)

/-- Mounts of different sources are different. -/
theorem mountText_inj {source source' target : PathBuf} {writable : Bool}
    (h : mountText source' target writable = mountText source target writable) : source' = source := by
  have hchars := congrArg String.toList h
  simp only [mountText, String.toList_append, List.append_assoc, List.append_cancel_right_eq] at hchars
  cases source'
  cases source
  exact congrArg PathBuf.mk (String.toList_inj.mp hchars)

theorem firstMount_normalizedService {value : SortedMap String Json} {labels : SortedMap String String}
    (h : value.get? "labels" = some (.ofTexts labels)) : firstMount (normalizedService (.ofMap value)) = firstMount (.ofMap value) := by
  rw [normalizedService_ofMap h, firstMount, firstMount, Json.field_ofMap, Json.field_ofMap, SortedMap.get?_insert,
    if_neg (by decide)]

/-- **A service is shown the same exactly if it has the same source, and the same keys are
secrets.** -/
theorem normalized_localService_iff (h : Alike platform platform' bundle bundle' groups groups' overlay overlay')
    (hinst : withoutAddress inst' = withoutAddress inst) (hlocal : inst.remoteDevice = none) (source' : PathBuf)
    (entry : String × Service)
    (htext : ∀ key, isSecret overlay inst.name key = true ∨ isSecret overlay' inst.name key = true →
      ((serviceEnvironment bundle.document block inst entry.2.execution.runtime.environment).get? key).map .string ≠
        some (secretPlaceholder platform inst.name key)) :
    (localService platform' bundle' groups' overlay' resourceHash' block inst' source' entry).1 =
        (localService platform bundle groups overlay resourceHash block inst source entry).1 ∧
      (normalizedService (localService platform' bundle' groups' overlay' resourceHash' block inst' source' entry).2 =
          normalizedService (localService platform bundle groups overlay resourceHash block inst source entry).2 ↔
        source' = source ∧ ∀ key, isSecret overlay' inst.name key = isSecret overlay inst.name key) := by
  have happlication : ∀ (document document' : Document), document'.metadata.name = document.metadata.name →
      (∀ network, composeApplication platform document' block inst entry.2 source' network ∅ =
        composeApplication platform document block inst entry.2 source' network ∅) ∧
      generatedEnvironment document' block inst platform overlay' entry.2 =
        generatedEnvironment document block inst platform overlay' entry.2 ∧
      ∀ routed value, addComposeDependencies platform document' routed inst entry.2 value =
        addComposeDependencies platform document routed inst entry.2 value := by
    rintro ⟨_, _, ⟨_, _⟩, _⟩ ⟨_, _, ⟨_, _⟩, _⟩ hname
    cases hname
    exact ⟨fun _ => rfl, rfl, fun _ _ => rfl⟩
  obtain ⟨hcompose, henvironment, hdependencies⟩ := happlication _ _ h.name
  have hform : localService platform' bundle' groups' overlay' resourceHash' block inst' source' entry =
      (localName platform bundle groups inst entry, .ofMap
        (((placeLocal platform bundle groups inst entry (bareApplication platform bundle overlay block inst source' entry)).insert
          "labels" (.ofTexts (serviceLabels resourceHash' bundle.document.metadata.name inst entry.1))).insert
          "environment" (.ofMap (generatedEnvironment bundle.document block inst platform overlay' entry.2)))) := by
    rw [(services_of_sha256 h.sha256).2.2, show localService platform bundle' groups' overlay' resourceHash' block inst' source' entry =
      localService platform bundle' groups' overlay' resourceHash' block (withoutAddress inst') source' entry from rfl, hinst,
      show localService platform bundle' groups' overlay' resourceHash' block (withoutAddress inst) source' entry =
      localService platform bundle' groups' overlay' resourceHash' block inst source' entry from rfl, localService_eq, henvironment]
    have hnames : localName platform bundle' groups' inst entry = localName platform bundle groups inst entry := by
      unfold localName
      rw [h.name, h.routed]
    have hplaced : placeLocal platform bundle' groups' inst entry = placeLocal platform bundle groups inst entry := by
      funext value
      unfold placeLocal
      dsimp only
      rw [h.name, h.routed, hdependencies]
    have hbares : bareApplication platform bundle' overlay' block inst source' entry =
        bareApplication platform bundle overlay block inst source' entry := by
      unfold bareApplication
      rw [h.name, h.workspaceRoot, hcompose, addInjectedMounts_of_fileChunks h.files]
    rw [hnames, hplaced, hbares, h.name]
  rw [hform, localService_eq]
  refine ⟨rfl, ?_⟩
  dsimp only
  by_cases hsource : source' = source
  · subst hsource
    rw [normalizedService_eq_iff (erase_serviceLabels ..),
      generatedEnvironment_eq_iff bundle.document block inst platform entry.2 htext]
    simp
  · refine iff_of_false (fun heq => hsource ?_) fun hagree => hsource hagree.1
    have hmounts := congrArg firstMount heq
    rw [firstMount_normalizedService (get?_labels ..), firstMount_normalizedService (get?_labels ..),
      firstMount_placeLocal _ _ _ _ _ _ _ _ hlocal, firstMount_placeLocal _ _ _ _ _ _ _ _ hlocal] at hmounts
    exact mountText_inj (Json.string.inj (Option.some.inj hmounts))

end Alike

/-! ### Texts of secrets -/

section Texts

variable {host : Host} {bundle : Bundle} {options : OverlayOptions} {e : Effective} {devices : Devices} {groups : ResolvedGroups}

theorem isSecret_iff {overlay : Option OverlayResolution} {name key : String} :
    isSecret overlay name key = ((secretsOf overlay).get? (toLex (name, key))).isSome := by
  cases overlay with
  | none => rfl
  | some resolution => rfl

/-- In an effective document a secret is shown as one. -/
theorem exists_overlayValue (he : effective host bundle options = .ok e)
    (hvalid : validate host.toPlatform e.bundle devices = .ok groups) {inst : Instance}
    (hinst : inst ∈ e.bundle.document.spec.instances) {key : String} (hsecret : isSecret e.overlay inst.name key = true) :
    ∃ reference, inst.environment.get? key = some (overlayValue (.secret reference)) := by
  cases hplain : isPlain bundle options with
  | true =>
    rw [effective, if_pos hplain] at he
    rw [(madeEffective_of_plain he).2.2] at hsecret
    cases hsecret
  | false =>
    have hnodup : (instanceNames bundle.document.spec.instances).Nodup := by
      rw [← instanceNames_of_stripped (keepsSpec he).instances]
      exact nodup_of_validate hvalid
    obtain ⟨resolved, resolution, hoverlaid⟩ := exists_overlaid hplain he
    obtain ⟨_, _, hspec⟩ := spec_of_withDerivedHostRouting hoverlaid.derived
    have hsame : e.bundle.document.spec.instances = resolved.spec.instances := by
      rw [hspec]
      rfl
    obtain ⟨index, hindex⟩ := List.mem_iff_getElem?.mp hinst
    have hauthored : ∃ authored, bundle.document.spec.instances[index]? = some authored ∧
        strippedInstance authored = strippedInstance inst := by
      have hstripped := congrArg (·[index]?) (keepsSpec he).instances
      simp only [List.getElem?_map, hindex, Option.map_some] at hstripped
      exact Option.map_eq_some_iff.mp hstripped.symm
    rw [hsame] at hindex
    obtain ⟨authored, hget, hstripped⟩ := hauthored
    have hname : authored.name = inst.name := congrArg (·.name) hstripped
    obtain ⟨hvalue, -, hkey, -⟩ := resolve_at_key hnodup hoverlaid.resolves hget hindex key
    rw [isSecret_iff, hoverlaid.overlay, show (secretsOf (some { resolution with
      origins := resolution.origins.mergeSort originBefore })) = resolution.secretEnvironment from rfl, ← hname, hkey] at hsecret
    cases hlast : lastLayer host.toPlatform bundle.document (loadOverlays host bundle options).1 options authored key with
    | none =>
      rw [hlast] at hsecret
      cases hsecret
    | some touch =>
      rw [hlast] at hsecret hvalue
      cases touch with
      | unset layer => cases hsecret
      | set value layer =>
        cases value with
        | literal text => cases hsecret
        | secret reference => exact ⟨reference, hvalue⟩

theorem head?_secretPlaceholder (platform : Platform) (name key : String) :
    ∃ text : String, secretPlaceholder platform name key = .string text ∧ text.toList.head? = some '$' := by
  refine ⟨_, rfl, ?_⟩
  simp

theorem head?_ne_of_validName {name : String} (h : validName name = true) : name.toList.head? ≠ some '$' := by
  intro hhead
  exact absurd (isNameChar_of_validName h (List.mem_of_head? hhead)) (by decide)

theorem head?_overlayValue (reference : OverlaySecretReference) : (overlayValue (.secret reference)).toList.head? ≠ some '$' := by
  unfold overlayValue
  dsimp only
  split <;> simp [toString]

/-- No text that a service is given for a secret is its placeholder. -/
theorem text_ne_placeholder (he : effective host bundle options = .ok e)
    (hvalid : validate host.toPlatform e.bundle devices = .ok groups) {inst : Instance}
    (hinst : inst ∈ e.bundle.document.spec.instances) {block : Block}
    (hblock : e.bundle.document.spec.blocks.get? inst.block = some block) {key : String}
    (hsecret : isSecret e.overlay inst.name key = true) (platform : Platform) (environment : SortedMap String String) :
    ((serviceEnvironment e.bundle.document block inst environment).get? key).map .string ≠
      some (secretPlaceholder platform inst.name key) := by
  obtain ⟨reference, hreference⟩ := exists_overlayValue he hvalid hinst hsecret
  have hnames := validNames_of_validate hvalid hinst hblock
  obtain ⟨text, htext, hhead⟩ := head?_secretPlaceholder platform inst.name key
  intro heq
  rw [htext] at heq
  obtain ⟨value, hvalue, hsame⟩ := Option.map_eq_some_iff.mp heq
  obtain rfl := Json.string.inj hsame
  unfold serviceEnvironment at hvalue
  dsimp only at hvalue
  rw [SortedMap.get?_insert, SortedMap.get?_insert, get?_insertAll_entries, hreference, Option.some_or] at hvalue
  split_ifs at hvalue
  · exact head?_ne_of_validName hnames.inst (Option.some.inj hvalue ▸ hhead)
  · exact head?_ne_of_validName hnames.deployment (Option.some.inj hvalue ▸ hhead)
  · exact head?_overlayValue reference (Option.some.inj hvalue ▸ hhead)

end Texts

/-! ### Two projects side by side -/

section Rows

/-- The services of two projects, row by row, and what is placed there. -/
def Rows (related : PlacedService → String × Json → String × Json → Prop) (placed : List PlacedService)
    (services services' : List (String × Json)) : Prop :=
  ∃ rows : List (PlacedService × (String × Json) × (String × Json)), rows.map (·.1) = placed ∧ rows.map (·.2.1) = services ∧
    rows.map (·.2.2) = services' ∧ ∀ row ∈ rows, related row.1 row.2.1 row.2.2

variable {related : PlacedService → String × Json → String × Json → Prop} {placed placed₂ : List PlacedService}
  {services services' services₂ services₂' : List (String × Json)}

theorem Rows.nil : Rows related [] [] [] := ⟨[], rfl, rfl, rfl, fun _ h => absurd h List.not_mem_nil⟩

theorem Rows.append (h : Rows related placed services services') (h₂ : Rows related placed₂ services₂ services₂') :
    Rows related (placed ++ placed₂) (services ++ services₂) (services' ++ services₂') := by
  obtain ⟨rows, rfl, rfl, rfl, hrows⟩ := h
  obtain ⟨rows₂, rfl, rfl, rfl, hrows₂⟩ := h₂
  refine ⟨rows ++ rows₂, List.map_append, List.map_append, List.map_append, fun row hrow => ?_⟩
  rcases List.mem_append.mp hrow with hrow | hrow
  · exact hrows row hrow
  · exact hrows₂ row hrow

theorem Rows.single {p : PlacedService} {a b : String × Json} (h : related p a b) : Rows related [p] [a] [b] :=
  ⟨[(p, a, b)], rfl, rfl, rfl, fun row hrow => by rw [List.mem_singleton.mp hrow]; exact h⟩

theorem Rows.map {α : Type} {l : List α} {p : α → PlacedService} {f g : α → String × Json} (h : ∀ a ∈ l, related (p a) (f a) (g a)) :
    Rows related (l.map p) (l.map f) (l.map g) := by
  refine ⟨l.map fun a => (p a, f a, g a), by simp, by simp, by simp, fun row hrow => ?_⟩
  obtain ⟨a, ha, rfl⟩ := List.mem_map.mp hrow
  exact h a ha

theorem Rows.flatMap {α β : Type} {ran ran' : α → β → Prop} {same : α → α → Prop} {f : α → List PlacedService}
    {g : β → List (String × Json)} {l l' : List α} {outputs outputs' : List β} (h : List.Forall₂ ran l outputs)
    (h' : List.Forall₂ ran' l' outputs') (hsame : List.Forall₂ same l' l)
    (hrow : ∀ a b a' b', ran a b → ran' a' b' → same a' a → Rows related (f a) (g b) (g b')) :
    Rows related (l.flatMap f) (outputs.flatMap g) (outputs'.flatMap g) := by
  induction hsame generalizing outputs outputs' with
  | nil =>
    cases h
    cases h'
    exact Rows.nil
  | cons hfirst _ ih =>
    cases h with
    | cons hran hrest =>
      cases h' with
      | cons hran' hrest' => exact (hrow _ _ _ _ hran hran' hfirst).append (ih hrest hrest')

variable {name : PlacedService → String} {agree : PlacedService → Prop}

/-- A row has the name of what is placed there, and its services are shown the same as far as
they agree. -/
def Shown (name : PlacedService → String) (agree : PlacedService → Prop) (p : PlacedService) (a b : String × Json) : Prop :=
  a.1 = name p ∧ b.1 = name p ∧ (normalizedService b.2 = normalizedService a.2 ↔ agree p)

theorem mapValues_ofList (f : Json → Json) (l : List (String × Json)) :
    (SortedMap.ofList l).mapValues (fun _ => f) = .ofList (l.map fun e => (e.1, f e.2)) := by
  refine SortedMap.ext_get? fun k => ?_
  rw [SortedMap.get?_mapValues, SortedMap.ofList, SortedMap.ofList, get?_insertAll, get?_insertAll, atKey_map,
    SortedMap.get?_empty, Option.or_none, Option.or_none, List.getLast?_map]

/-- **Projects are shown the same exactly if what they keep agrees.** -/
theorem Rows.shown_iff (h : Rows (Shown name agree) placed services services') :
    (SortedMap.ofList services').mapValues (fun _ => normalizedService) =
        (SortedMap.ofList services).mapValues (fun _ => normalizedService) ↔
      ∀ before p after, placed = before ++ p :: after → (∀ later ∈ after, name later ≠ name p) → agree p := by
  obtain ⟨rows, rfl, rfl, rfl, hrows⟩ := h
  have hlist : ∀ f : PlacedService × (String × Json) × (String × Json) → String × Json, (∀ row ∈ rows, (f row).1 = name row.1) →
      (SortedMap.ofList (rows.map f)).mapValues (fun _ => normalizedService) =
        .ofList (rows.map fun row => (name row.1, normalizedService (f row).2)) := by
    intro f hf
    rw [mapValues_ofList, List.map_map]
    exact congrArg _ (List.map_congr_left fun row hrow => by rw [Function.comp_apply, hf row hrow])
  rw [hlist _ fun row hrow => (hrows row hrow).2.1, hlist _ fun row hrow => (hrows row hrow).1, SortedMap.ofList_map_eq_iff]
  constructor
  · intro hsame before p after hsplit hafter
    obtain ⟨rows₁, rest, rfl, rfl, hrest⟩ := List.map_eq_append_iff.mp hsplit
    obtain ⟨row, rows₂, rfl, rfl, rfl⟩ := List.map_eq_cons_iff.mp hrest
    refine (hrows row (by simp)).2.2.mp (hsame rows₁ row rows₂ rfl fun other hother => ?_)
    exact hafter _ (List.mem_map.mpr ⟨other, hother, rfl⟩)
  · rintro hagree before row later rfl hlater
    refine (hrows row (by simp)).2.2.mpr (hagree (before.map (·.1)) row.1 (later.map (·.1)) (by simp) fun other hother => ?_)
    obtain ⟨row', hrow', rfl⟩ := List.mem_map.mp hother
    exact hlater row' hrow'

/-- Projects side by side have services of the same names. -/
theorem Rows.contains (h : Rows (Shown name agree) placed services services') (k : String) :
    (SortedMap.ofList services').contains k = (SortedMap.ofList services).contains k := by
  obtain ⟨rows, rfl, rfl, rfl, hrows⟩ := h
  have hkeys : (rows.map (·.2.2)).map Prod.fst = (rows.map (·.2.1)).map Prod.fst := by
    rw [List.map_map, List.map_map]
    exact List.map_congr_left fun row hrow => (hrows row hrow).2.1.trans (hrows row hrow).1.symm
  rw [Bool.eq_iff_iff, SortedMap.contains_iff, SortedMap.contains_iff, ← SortedMap.mem_keys_iff, ← SortedMap.mem_keys_iff,
    mem_keys_ofList, mem_keys_ofList, hkeys]

end Rows

/-! ### The services of two plans -/

/-- What is said of the instance of an application; of what is generated beside it nothing is. -/
def agreesAt (agree : String → Prop) : PlacedService → Prop
  | .application inst _ _ _ => agree inst
  | .namespaceService _ => True
  | .sidecar _ => True

/-- The directory of the source of an instance. -/
def sourceDirectory (spec : DeploymentSpec) (name : String) : Option PathBuf :=
  (instanceNamed spec.instances name).bind fun inst => (spec.sources.get? inst.source).map (·.path)

section Instances

variable {platform platform' : Platform} {bundle bundle' : Bundle} {groups groups' : ResolvedGroups}
  {overlay overlay' : Option OverlayResolution} {resourceHash resourceHash' : String} {block : Block} {inst inst' : Instance}
  {source source' : PathBuf} {agree : String → Prop}

theorem rows_instanceServices (h : Alike platform platform' bundle bundle' groups groups' overlay overlay')
    (hgroups : groups = (resolveGroups bundle.document.spec).1) (hinst : withoutAddress inst' = withoutAddress inst)
    (hlocal : inst.remoteDevice = none) (hblock : bundle.document.spec.blocks.get? inst.block = some block)
    (htransparent : isTransparent groups' inst.name = isTransparent groups inst.name)
    (htext : ∀ environment key, isSecret overlay inst.name key = true ∨ isSecret overlay' inst.name key = true →
      ((serviceEnvironment bundle.document block inst environment).get? key).map .string ≠
        some (secretPlaceholder platform inst.name key))
    (hagree : agree inst.name ↔ source' = source ∧ ∀ key, isSecret overlay' inst.name key = isSecret overlay inst.name key) :
    Rows (Shown (PlacedService.composeName platform bundle.document) (agreesAt agree)) (instancePlaced bundle.document.spec inst)
      (instanceServices platform bundle groups overlay resourceHash block inst source)
      (instanceServices platform' bundle' groups' overlay' resourceHash' block inst' source') := by
  obtain ⟨hname, -, -, hdevice⟩ := fields_of_withoutAddress hinst
  have hrouted : routedInstances bundle.document.spec groups = routedOf bundle.document.spec := by
    rw [hgroups, routedOf]
  have happlications : ∀ routed, (routedInstances bundle.document.spec groups).contains inst.name = routed →
      Rows (Shown (PlacedService.composeName platform bundle.document) (agreesAt agree))
        (block.services.entries.map fun entry => PlacedService.application inst.name routed entry.1 entry.2)
        (block.services.entries.map (localService platform bundle groups overlay resourceHash block inst source))
        (block.services.entries.map (localService platform' bundle' groups' overlay' resourceHash' block inst' source')) := by
    intro routed hcontains
    refine Rows.map fun entry _ => ?_
    obtain ⟨hsame, hiff⟩ := normalized_localService_iff resourceHash resourceHash' block h hinst hlocal source' entry
      (htext entry.2.execution.runtime.environment)
    have hfirst : (localService platform bundle groups overlay resourceHash block inst source entry).1 =
        (PlacedService.application inst.name routed entry.1 entry.2).composeName platform bundle.document := by
      rw [localService_eq, localName, hcontains]
      rfl
    exact ⟨hfirst, hsame.trans hfirst, hiff.trans hagree.symm⟩
  unfold instancePlaced instanceServices
  rw [hblock, hdevice, hlocal]
  simp only [Option.toList_some, List.flatMap_cons, List.flatMap_nil, List.append_nil, Option.isNone_none, Bool.true_and]
  rw [h.routed, hname, ← hrouted]
  cases hcontains : (routedInstances bundle.document.spec groups).contains inst.name with
  | false => exact happlications false hcontains
  | true =>
    have hnamespace := normalized_namespaceEntry resourceHash resourceHash' block h hinst
    have hsidecar := normalized_sidecarEntry resourceHash resourceHash' h hinst htransparent
    refine Rows.append (Rows.append (Rows.single ?_) (happlications true hcontains)) (Rows.single ?_)
    · exact ⟨rfl, hnamespace.1, iff_of_true hnamespace.2 trivial⟩
    · exact ⟨rfl, hsidecar.1, iff_of_true hsidecar.2 trivial⟩

end Instances

section Plans

variable {host host' : Host} {bundle bundle' : Bundle} {options options' : OverlayOptions} {e e' : Effective}
  {devices devices' : Devices} {groups groups' : ResolvedGroups} {outputs outputs' : List InstanceOutput}
  {resourceHash resourceHash' : String}

/-- The instances that are run here. -/
def localInstances (spec : DeploymentSpec) : List Instance :=
  spec.instances.filter fun inst => !inst.isExternal && inst.remoteDevice = none

theorem localInstances_of_definition (h : resourceDefinition e'.bundle.document = resourceDefinition e.bundle.document) :
    (localInstances e'.bundle.document.spec).map withoutAddress = (localInstances e.bundle.document.spec).map withoutAddress := by
  have hform : ∀ document : Document, (localInstances document.spec).map withoutAddress =
      (resourceDefinition document).spec.instances.filter fun inst => inst.remoteDevice = none := by
    intro document
    rw [instances_resourceDefinition, List.filter_map, managedInstances, List.filter_filter, localInstances]
    exact congrArg _ (List.filter_congr fun inst _ => Bool.and_comm ..)
  rw [hform, hform, h]

theorem alike_of_definition (h : resourceDefinition e'.bundle.document = resourceDefinition e.bundle.document)
    (hsha : host'.sha256 = host.sha256) (hfiles : fileChunks e'.overlay = fileChunks e.overlay)
    (hroot : e'.bundle.workspaceRoot = e.bundle.workspaceRoot)
    (hvalid : validate host.toPlatform e.bundle devices = .ok groups)
    (hvalid' : validate host'.toPlatform e'.bundle devices' = .ok groups') :
    Alike host.toPlatform host'.toPlatform e.bundle e'.bundle groups groups' e.overlay e'.overlay where
  sha256 := hsha
  name := congrArg (·.metadata.name) h
  routerImage := congrArg (·.spec.routerImage) h
  workspaceRoot := hroot
  files := hfiles
  routed := by
    rw [routedInstances_of_validate hvalid, routedInstances_of_validate hvalid', ← instances_resourceDefinition,
      ← instances_resourceDefinition, h, routedNames_of_resourceDefinition h]

theorem isTransparent_of_definition (h : resourceDefinition e'.bundle.document = resourceDefinition e.bundle.document)
    (hvalid : validate host.toPlatform e.bundle devices = .ok groups)
    (hvalid' : validate host'.toPlatform e'.bundle devices' = .ok groups') {inst inst' : Instance}
    (hinst : inst ∈ localInstances e.bundle.document.spec) (hinst' : inst' ∈ localInstances e'.bundle.document.spec)
    (hname : inst'.name = inst.name) : isTransparent groups' inst.name = isTransparent groups inst.name := by
  obtain ⟨hmem, hmanaged⟩ := List.mem_filter.mp hinst
  obtain ⟨hmem', hmanaged'⟩ := List.mem_filter.mp hinst'
  rw [Bool.and_eq_true, Bool.not_eq_true'] at hmanaged hmanaged'
  rw [isTransparent_of_validate hvalid, contains_memberNames hmem hmanaged.1, ← hname, isTransparent_of_validate hvalid',
    contains_memberNames hmem' hmanaged'.1, routedNames_of_resourceDefinition h]

/-- The directory of the source of an instance that is run. -/
theorem sourceDirectory_resolvedDocument {platform : Platform} {bundle : Bundle}
    (hvalid : validate platform bundle devices = .ok groups) {inst : Instance} (hinst : inst ∈ bundle.document.spec.instances)
    {source : Source} (hsource : bundle.document.spec.sources.get? inst.source = some source) :
    sourceDirectory (resolvedDocument bundle).spec inst.name = some (resolvePath bundle.definitionDir source.path) := by
  obtain ⟨index, hindex⟩ := List.mem_iff_getElem?.mp hinst
  have hnamed : instanceNamed (resolvedDocument bundle).spec.instances inst.name = some inst :=
    instanceNamed_of_getElem? (nodup_of_validate hvalid) hindex
  rw [sourceDirectory, hnamed, Option.bind_some, show (resolvedDocument bundle).spec.sources =
    bundle.document.spec.sources.mapValues fun _ source => resolvedSource bundle source from rfl, SortedMap.get?_mapValues, hsource]
  rfl

/-- **The local projects of two plans, side by side.** -/
theorem rows_localOutputs (h : resourceDefinition e'.bundle.document = resourceDefinition e.bundle.document)
    (hsha : host'.sha256 = host.sha256) (hfiles : fileChunks e'.overlay = fileChunks e.overlay)
    (hroot : e'.bundle.workspaceRoot = e.bundle.workspaceRoot)
    (he : effective host bundle options = .ok e) (he' : effective host' bundle' options' = .ok e')
    (hvalid : validate host.toPlatform e.bundle devices = .ok groups)
    (hvalid' : validate host'.toPlatform e'.bundle devices' = .ok groups')
    (houtputs : instanceOutputs host.toPlatform e.bundle groups e.overlay devices resourceHash = .ok outputs)
    (houtputs' : instanceOutputs host'.toPlatform e'.bundle groups' e'.overlay devices' resourceHash' = .ok outputs') :
    Rows (Shown (PlacedService.composeName host.toPlatform e.bundle.document) (agreesAt fun name =>
        sourceDirectory (resolvedDocument e'.bundle).spec name = sourceDirectory (resolvedDocument e.bundle).spec name ∧
          ∀ key, isSecret e'.overlay name key = isSecret e.overlay name key))
      (placedServices e.bundle.document.spec none) ((localOutputs outputs).flatMap (·.services))
      ((localOutputs outputs').flatMap (·.services)) := by
  have hlocal : ∀ outputs : List InstanceOutput, localOutputs outputs = outputs.filter fun output => output.inst.remoteDevice = none := by
    intro outputs
    exact List.filter_congr fun output _ => by cases output.inst.remoteDevice <;> rfl
  have hpairs : List.Forall₂ (fun inst' inst => withoutAddress inst' = withoutAddress inst)
      (localInstances e'.bundle.document.spec) (localInstances e.bundle.document.spec) := by
    have heq := localInstances_of_definition h
    rw [← List.forall₂_eq_eq_eq, List.forall₂_map_left_iff, List.forall₂_map_right_iff] at heq
    exact heq
  rw [hlocal, hlocal]
  refine Rows.flatMap (forall₂_run_on houtputs none) (forall₂_run_on houtputs' none) hpairs ?_
  rintro inst output inst' output' ⟨hinst, hrun⟩ ⟨hinst', hrun'⟩ hsame
  obtain ⟨hname, hinstBlock, hinstSource, -⟩ := fields_of_withoutAddress hsame
  obtain ⟨hmem, hplace⟩ := List.mem_filter.mp hinst
  obtain ⟨hmem', -⟩ := List.mem_filter.mp hinst'
  rw [Bool.and_eq_true, Bool.not_eq_true', decide_eq_true_eq] at hplace
  obtain ⟨block, source, hblock, hsource, hview⟩ := view_instanceOutput hrun
  obtain ⟨block', source', hblock', hsource', hview'⟩ := view_instanceOutput hrun'
  have hdirectory := sourceDirectory_resolvedDocument hvalid hmem hsource
  have hdirectory' := sourceDirectory_resolvedDocument hvalid' hmem' hsource'
  rw [hname] at hdirectory'
  have hsameBlock : block' = block := by
    rw [hinstBlock, show e'.bundle.document.spec.blocks = e.bundle.document.spec.blocks from congrArg (·.spec.blocks) h,
      hblock] at hblock'
    exact (Option.some.inj hblock').symm
  rw [show output.services = _ from congrArg OutputView.services hview,
    show output'.services = _ from congrArg OutputView.services hview']
  subst hsameBlock
  refine rows_instanceServices (alike_of_definition h hsha hfiles hroot hvalid hvalid')
    (validate_ok_iff.mp hvalid).2.2.2.symm hsame hplace.2 hblock
    (isTransparent_of_definition h hvalid hvalid' hinst hinst' hname) ?_ ?_
  · rintro environment key (hsecret | hsecret)
    · exact text_ne_placeholder he hvalid hmem hblock hsecret host.toPlatform environment
    · -- the other bundle has the same texts
      have htexts : serviceEnvironment e.bundle.document block' inst environment =
          serviceEnvironment e'.bundle.document block' (withoutAddress inst') environment := by
        rw [hsame]
        unfold serviceEnvironment
        dsimp only
        rw [show e'.bundle.document.metadata.name = e.bundle.document.metadata.name from congrArg (·.metadata.name) h]
        rfl
      rw [htexts]
      rw [← hname] at hsecret ⊢
      exact text_ne_placeholder he' hvalid' hmem' hblock' hsecret host.toPlatform environment
  · rw [hdirectory, hdirectory', Option.some.injEq]

end Plans

/-! ### When a preview is safe -/

/-- The applications that the local project keeps have the same sources in both plans, and the
same keys of theirs are taken from secrets. -/
def SameInputs (host host' : Host) (bundle bundle' : Bundle) (options options' : OverlayOptions) (plan next : Plan) : Prop :=
  ∀ (before after : List PlacedService) (inst : String) (routed : Bool) (service : String) (definition : Service),
    placedServices plan.resolvedDeployment.spec none = before ++ .application inst routed service definition :: after →
    (∀ later ∈ after, later.composeName host.toPlatform plan.resolvedDeployment ≠
      (PlacedService.application inst routed service definition).composeName host.toPlatform plan.resolvedDeployment) →
    sourceDirectory next.resolvedDeployment.spec inst = sourceDirectory plan.resolvedDeployment.spec inst ∧
      ∀ key, (secretAt host' bundle' options' inst key).isSome = (secretAt host bundle options inst key).isSome

/-- The services of the plan that was written are planned again. -/
def KeepsServices (plan next : Plan) : Prop :=
  ∀ name, (servicesOf plan.compose).contains name = true → (servicesOf next.compose).contains name = true

/-- One of the hashes that are looked at first is the same. -/
def SameHash (plan next : Plan) : Prop := plan.definitionHash = next.definitionHash ∨ plan.resourceHash = next.resourceHash

/-- The texts that two plans hash are not a collision of SHA-256. -/
structure HashesTell (host host' : Host) (bundle bundle' : Bundle) (options options' : OverlayOptions)
    (devices devices' : Devices) : Prop where
  definition : ∀ e e', effective host bundle options = .ok e → effective host' bundle' options' = .ok e' →
    NoCollision host.toPlatform (definitionChunks e'.bundle.document e'.overlay) (definitionChunks e.bundle.document e.overlay)
  resource : ∀ e e', effective host bundle options = .ok e → effective host' bundle' options' = .ok e' →
    NoCollision host.toPlatform (resourceChunks e'.bundle.document e'.overlay devices')
      (resourceChunks e.bundle.document e.overlay devices)

theorem servicesOf_localCompose (platform : Platform) (deployment resourceHash : String) (outputs : List InstanceOutput) :
    servicesOf (localCompose platform deployment resourceHash outputs) = .ofList ((localOutputs outputs).flatMap (·.services)) := by
  rw [servicesOf, composeServices, localCompose, (field_composeFile _ _ _ _).1]
  exact ofList_entries _

/-- What a preview looks at of a plan. -/
structure Previewed (host : Host) (bundle : Bundle) (options : OverlayOptions) (devices : Devices) (plan : Plan) (e : Effective)
    (groups : ResolvedGroups) (outputs : List InstanceOutput) : Prop where
  effective : effective host bundle options = .ok e
  valid : validate host.toPlatform e.bundle devices = .ok groups
  run : instanceOutputs host.toPlatform e.bundle groups e.overlay devices
    (resourceHashOf host.toPlatform e.bundle.document e.overlay devices) = .ok outputs
  services : servicesOf plan.compose = .ofList ((localOutputs outputs).flatMap (·.services))
  resolved : plan.resolvedDeployment = resolvedDocument e.bundle
  definitionHash : plan.definitionHash = host.hash (definitionChunks e.bundle.document e.overlay)
  resourceHash : plan.resourceHash = host.hash (resourceChunks e.bundle.document e.overlay devices)

theorem exists_previewed {host : Host} {bundle : Bundle} {options : OverlayOptions} {devices : Devices} {plan : Plan}
    (h : planWithOverlaysAndDevices host bundle options devices = .ok plan) :
    ∃ e groups outputs, Previewed host bundle options devices plan e groups outputs := by
  obtain ⟨e, groups, he, hvalid, hgenerate⟩ := planWithOverlaysAndDevices_ok h
  obtain ⟨_, _, _, outputs, _, -, -, -, houtputs, -, rfl⟩ := generate_ok_iff.mp hgenerate
  exact ⟨e, groups, outputs, he, hvalid, houtputs, servicesOf_localCompose .., rfl, rfl, rfl⟩

/-- What is placed is said of the resolved deployment, and what secrets are there of the bundles. -/
theorem sameInputs_iff {host host' : Host} {bundle bundle' : Bundle} {options options' : OverlayOptions} {devices devices' : Devices}
    {plan next : Plan} {e e' : Effective} {groups groups' : ResolvedGroups} {outputs outputs' : List InstanceOutput}
    (h : Previewed host bundle options devices plan e groups outputs)
    (h' : Previewed host' bundle' options' devices' next e' groups' outputs') :
    SameInputs host host' bundle bundle' options options' plan next ↔
      ∀ before p after, placedServices e.bundle.document.spec none = before ++ p :: after →
        (∀ later ∈ after, later.composeName host.toPlatform e.bundle.document ≠ p.composeName host.toPlatform e.bundle.document) →
        agreesAt (fun name => sourceDirectory (resolvedDocument e'.bundle).spec name = sourceDirectory (resolvedDocument e.bundle).spec name ∧
          ∀ key, isSecret e'.overlay name key = isSecret e.overlay name key) p := by
  have hplaced : placedServices plan.resolvedDeployment.spec none = placedServices e.bundle.document.spec none := by
    rw [h.resolved]
    rfl
  have hnames : PlacedService.composeName host.toPlatform plan.resolvedDeployment = PlacedService.composeName host.toPlatform e.bundle.document := by
    rw [h.resolved]
    exact composeName_congr host.toPlatform rfl
  have hkeys : ∀ name key, isSecret e'.overlay name key = isSecret e.overlay name key ↔
      (secretAt host' bundle' options' name key).isSome = (secretAt host bundle options name key).isSome := by
    intro name key
    rw [isSecret_iff, isSecret_iff, get?_secretsOf h.effective h.valid, get?_secretsOf h'.effective h'.valid]
  unfold SameInputs
  rw [hplaced, hnames, h.resolved, h'.resolved]
  simp only [← hkeys]
  constructor
  · intro hsame before p after hsplit hafter
    cases p with
    | namespaceService inst => trivial
    | sidecar inst => trivial
    | application inst routed service definition => exact hsame before after inst routed service definition hsplit hafter
  · intro hagree before after inst routed service definition hsplit hafter
    exact hagree before _ after hsplit hafter

/-- **When a preview is safe.** The plans may be made at different times, with other files,
overlays and devices; only the workspace and SHA-256 are the same. -/
theorem preview_safe_iff (host host' : Host) (bundle bundle' : Bundle) (options options' : OverlayOptions)
    (devices devices' : Devices) (plan next : Plan) (hsha : host'.sha256 = host.sha256) (hash : host'.hash = host.hash)
    (hplan : planWithOverlaysAndDevices host bundle options devices = .ok plan)
    (hnext : planWithOverlaysAndDevices host' bundle' options' devices' = .ok next)
    (hroot : bundle'.workspaceRoot = bundle.workspaceRoot)
    (htell : HashesTell host host' bundle bundle' options options' devices devices') :
    SafePreview plan next (classifyChanges (writtenArtifacts plan) next) ↔
      (SameHash plan next → SameInputs host host' bundle bundle' options options' plan next) ∧
        (¬SameHash plan next → KeepsServices plan next) := by
  by_cases hhash : SameHash plan next
  · rw [iff_true_intro fun hnot => absurd hhash hnot, and_true, forall_prop_of_true hhash]
    obtain ⟨e, groups, outputs, h⟩ := exists_previewed hplan
    obtain ⟨e', groups', outputs', h'⟩ := exists_previewed hnext
    -- an equal hash shows that the bundles are run in the same way
    obtain ⟨hdefinition, hfiles⟩ : resourceDefinition e'.bundle.document = resourceDefinition e.bundle.document ∧
        fileChunks e'.overlay = fileChunks e.overlay := by
      rcases hhash with hhash | hhash
      · rw [h.definitionHash, h'.definitionHash, hash] at hhash
        obtain ⟨hdocument, hfiles⟩ := List.cons.inj (htell.definition e e' h.effective h'.effective hhash.symm)
        exact ⟨congrArg resourceDefinition (HashChunk.document.inj hdocument), hfiles⟩
      · rw [h.resourceHash, h'.resourceHash, hash] at hhash
        obtain ⟨hdocument, hrest⟩ := List.cons.inj (htell.resource e e' h.effective h'.effective hhash.symm)
        exact ⟨HashChunk.document.inj hdocument, (devices_of_chunks hrest).2⟩
    have hsameRoot : e'.bundle.workspaceRoot = e.bundle.workspaceRoot :=
      (workspaceRoot_effective h'.effective).1.trans (hroot.trans (workspaceRoot_effective h.effective).1.symm)
    have hrows := rows_localOutputs hdefinition hsha hfiles hsameRoot h.effective h'.effective h.valid h'.valid h.run h'.run
    have hnames : ∀ name, (servicesOf next.compose).contains name = (servicesOf plan.compose).contains name := by
      rw [h.services, h'.services]
      exact hrows.contains
    rw [safePreview_of_same_hash hhash hnames, shownServices, shownServices, h.services, h'.services, hrows.shown_iff]
    exact (sameInputs_iff h h').symm
  · rw [iff_true_intro fun h => absurd h hhash, true_and, forall_prop_of_true hhash]
    obtain ⟨hdefinition, hresource⟩ := not_or.mp hhash
    exact safePreview_of_hashes_differ hdefinition hresource

/-! ### Previews of the shop -/

/-- The machine of the shop, with a hash of the instances of a document. -/
def namesHost : Host :=
  { shopHost with hash := fun chunks => "|".intercalate (chunks.flatMap fun chunk =>
      match chunk with
      | .document document => instanceNames document.spec.instances
      | .devices devices => devices.keys
      | .files files => files.map fun file => file.contentHash) }

/-- The shop without its second server. -/
def smallerBundle : Bundle :=
  shopBundle.withDocument (shopBundle.document.withSpec { shopBundle.document.spec with
    instances := [webInstance "front" (some "front.localhost")], groups := .ofList [("one", ⟨["front"], [], none⟩)] })

/-- A preview that reports only live changes is not safe where services differ. -/
theorem not_safePreview {plan next : Plan} {changes : List ServiceChange}
    (hlive : (changes.all fun change => change.impact = .live) = true) (hdiffer : shownServices next ≠ shownServices plan) :
    ¬SafePreview plan next changes :=
  fun h => hdiffer (h.live fun change hchange => by simpa using List.all_eq_true.mp hlive change hchange)

/-- Two plans that were evaluated. -/
theorem exists_plans {β : Type} {first second : Except Failure Plan} {f : Plan → Plan → β} {b : β}
    (h : (first.toOption.bind fun plan => second.toOption.map (f plan)) = some b) :
    ∃ plan next, first = .ok plan ∧ second = .ok next ∧ f plan next = b := by
  obtain ⟨plan, hplan, h⟩ := Option.bind_eq_some_iff.mp h
  obtain ⟨next, hnext, hb⟩ := Option.map_eq_some_iff.mp h
  exact ⟨plan, next, toOption_eq_some_iff.mp hplan, toOption_eq_some_iff.mp hnext, hb⟩

/-- Texts that were evaluated are not a collision. -/
theorem noCollision_of_evaluated {platform : Platform} {first second : Except Failure Effective} {f g : Effective → List HashChunk}
    (h : (first.toOption.bind fun e => second.toOption.map fun e' =>
      decide (platform.hash (g e') = platform.hash (f e) → g e' = f e)) = some true) :
    ∀ e e', first = .ok e → second = .ok e' → NoCollision platform (g e') (f e) := by
  rintro e e' rfl rfl
  have hsome : decide (platform.hash (g e') = platform.hash (f e) → g e' = f e) = true := Option.some.inj h
  rw [decide_eq_true_eq] at hsome
  exact hsome

theorem tokens_tell : HashesTell (overlaidHost literalOverlay) (overlaidHost tokenOverlay) listedBundle listedBundle
    OverlayOptions.none OverlayOptions.none ∅ ∅ :=
  ⟨noCollision_of_evaluated (by decide +kernel), noCollision_of_evaluated (by decide +kernel)⟩

theorem removed_tell : HashesTell namesHost namesHost shopBundle smallerBundle OverlayOptions.none OverlayOptions.none ∅ ∅ :=
  ⟨noCollision_of_evaluated (by decide +kernel), noCollision_of_evaluated (by decide +kernel)⟩

theorem added_tell : HashesTell namesHost namesHost smallerBundle shopBundle OverlayOptions.none OverlayOptions.none ∅ ∅ :=
  ⟨noCollision_of_evaluated (by decide +kernel), noCollision_of_evaluated (by decide +kernel)⟩

/-- The shop with one server and with two. -/
theorem exists_shops : ∃ smaller shop, planWithOverlaysAndDevices namesHost smallerBundle OverlayOptions.none ∅ = .ok smaller ∧
    planWithOverlaysAndDevices namesHost shopBundle OverlayOptions.none ∅ = .ok shop ∧
    smaller.definitionHash ≠ shop.definitionHash ∧ smaller.resourceHash ≠ shop.resourceHash ∧
    (∀ name ∈ (servicesOf smaller.compose).keys, (servicesOf shop.compose).contains name = true) ∧
    (shownServices smaller).get? "shop--back--ui--app" ≠ (shownServices shop).get? "shop--back--ui--app" ∧
    (servicesOf shop.compose).contains "shop--back--ui--app" = true ∧
    (servicesOf smaller.compose).contains "shop--back--ui--app" = false := by
  obtain ⟨smaller, shop, hsmaller, hshop, hshows⟩ := @exists_plans _
    (planWithOverlaysAndDevices namesHost smallerBundle OverlayOptions.none ∅)
    (planWithOverlaysAndDevices namesHost shopBundle OverlayOptions.none ∅)
    (fun smaller shop => decide (smaller.definitionHash ≠ shop.definitionHash ∧ smaller.resourceHash ≠ shop.resourceHash ∧
      (∀ name ∈ (servicesOf smaller.compose).keys, (servicesOf shop.compose).contains name = true) ∧
      (shownServices smaller).get? "shop--back--ui--app" ≠ (shownServices shop).get? "shop--back--ui--app" ∧
      (servicesOf shop.compose).contains "shop--back--ui--app" = true ∧
      (servicesOf smaller.compose).contains "shop--back--ui--app" = false)) true (by decide +kernel)
  exact ⟨smaller, shop, hsmaller, hshop, of_decide_eq_true hshows⟩

/-- A second server is added to the shop: the preview is safe, and reports the server. -/
theorem preview_safe_added :
    ∃ plan next, planWithOverlaysAndDevices namesHost smallerBundle OverlayOptions.none ∅ = .ok plan ∧
      planWithOverlaysAndDevices namesHost shopBundle OverlayOptions.none ∅ = .ok next ∧
      shownServices next ≠ shownServices plan ∧ SafePreview plan next (classifyChanges (writtenArtifacts plan) next) ∧
      ∃ change ∈ classifyChanges (writtenArtifacts plan) next, change.service = "shop--back--ui--app" ∧ change.impact ≠ .live := by
  obtain ⟨plan, next, hplan, hnext, hdefinition, hresource, hkept, hadded, -⟩ := exists_shops
  have hkeeps : KeepsServices plan next := fun name hname => hkept name (((SortedMap.mem_keys_iff _).mpr ((SortedMap.contains_iff _ _).mp hname)))
  have hsafe := (preview_safe_iff namesHost namesHost smallerBundle shopBundle OverlayOptions.none OverlayOptions.none ∅ ∅
    plan next rfl rfl hplan hnext rfl added_tell).mpr
      ⟨fun hsame => absurd hsame (not_or.mpr ⟨hdefinition, hresource⟩), fun _ => hkeeps⟩
  exact ⟨plan, next, hplan, hnext, fun heq => hadded (by rw [heq]), hsafe, hsafe.reported _ hadded.symm⟩

/-- The token of the first server. -/
def shownToken (plan : Plan) : Option Json :=
  (((shownServices plan).get? "shop--front--ui--app").bind (Json.field "environment")).bind (Json.field "TOKEN")

/-- The text of a key becomes a secret, or a server is taken away: nothing is reported, or only
live changes, and the services differ. -/
theorem preview_not_safe :
    (∃ plan next, planWithOverlaysAndDevices (overlaidHost literalOverlay) listedBundle OverlayOptions.none ∅ = .ok plan ∧
      planWithOverlaysAndDevices (overlaidHost tokenOverlay) listedBundle OverlayOptions.none ∅ = .ok next ∧
      HashesTell (overlaidHost literalOverlay) (overlaidHost tokenOverlay) listedBundle listedBundle OverlayOptions.none
        OverlayOptions.none ∅ ∅ ∧
      ¬SafePreview plan next (classifyChanges (writtenArtifacts plan) next)) ∧
    ∃ plan next, planWithOverlaysAndDevices namesHost shopBundle OverlayOptions.none ∅ = .ok plan ∧
      planWithOverlaysAndDevices namesHost smallerBundle OverlayOptions.none ∅ = .ok next ∧
      HashesTell namesHost namesHost shopBundle smallerBundle OverlayOptions.none OverlayOptions.none ∅ ∅ ∧
      ¬SafePreview plan next (classifyChanges (writtenArtifacts plan) next) := by
  constructor
  · obtain ⟨plan, next, hplan, hnext, hshows⟩ := @exists_plans _
      (planWithOverlaysAndDevices (overlaidHost literalOverlay) listedBundle OverlayOptions.none ∅)
      (planWithOverlaysAndDevices (overlaidHost tokenOverlay) listedBundle OverlayOptions.none ∅)
      (fun plan next => decide (plan.definitionHash = next.definitionHash) && decide (shownToken plan ≠ shownToken next)) true
      (by decide +kernel)
    obtain ⟨hhash, hdiffer⟩ := (Bool.and_eq_true _ _).mp hshows
    refine ⟨plan, next, hplan, hnext, tokens_tell, not_safePreview ?_ fun heq => of_decide_eq_true hdiffer ?_⟩
    · have hsame : (writtenArtifacts plan).definitionHash = some next.definitionHash := congrArg some (of_decide_eq_true hhash)
      rw [classifyChanges, if_pos hsame]
      rfl
    · rw [shownToken, shownToken, heq]
  · obtain ⟨next, plan, hnext, hplan, hdefinition, hresource, -, -, hplanned, hgone⟩ := exists_shops
    refine ⟨plan, next, hplan, hnext, removed_tell, fun hsafe => ?_⟩
    have hkept := (safePreview_of_hashes_differ hdefinition.symm hresource.symm).mp hsafe _ hplanned
    rw [hgone] at hkept
    cases hkept

end Apmpr.Planner
