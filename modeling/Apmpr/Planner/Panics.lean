import Mathlib.Order.Interval.Finset.Fin
import Apmpr.Planner.Names
import Apmpr.Planner.Resources

/-!
# Planning that does not answer

Planning is to return a plan or diagnostics. Three things keep it from that. `resource_name`
cuts a long text after 54 bytes and panics where these end inside a character; host routing is
derived, and the addresses of groups are applied, with names no check has passed yet. The
dependencies between instances are checked by looking up the block of every instance, also of
one whose block an earlier check did not find. And the search for a free port for a managed
profile goes on for ever once its 8000 ports are taken.

## What is proved

`plan_answers_iff` — planning answers exactly where none of the three happens; generation,
which has only names that were checked, adds nothing to them but the ports.
-/

namespace Apmpr.Planner

open Router (RouterConfig)

/-! ### Cut texts -/

/-- Whether the first `n` bytes of a text end inside a character. -/
def endsInside : ℕ → List Char → Bool
  | 0, _ => false
  | _ + 1, [] => false
  | n + 1, c :: rest => if c.utf8Size ≤ n + 1 then endsInside (n + 1 - c.utf8Size) rest else true

/-- Whether `resource_name` panics: it cuts the text of its parts inside a character. -/
def cutsCharacter (parts : List String) : Bool :=
  63 < byteLength (joinedText parts) && endsInside 54 (joinedText parts).toList

/-- A text of ASCII characters. -/
def IsAscii (s : String) : Prop := ∀ c ∈ s.toList, c.utf8Size = 1

theorem endsInside_of_ascii {l : List Char} (h : ∀ c ∈ l, c.utf8Size = 1) (n : ℕ) : endsInside n l = false := by
  induction l generalizing n with
  | nil => cases n <;> rfl
  | cons c rest ih =>
    cases n with
    | zero => rfl
    | succ n =>
      rw [endsInside, h c (List.mem_cons_self ..), if_pos (Nat.le_add_left 1 n)]
      exact ih (fun c hc => h c (List.mem_cons_of_mem _ hc)) _

theorem isAscii_append {s t : String} (hs : IsAscii s) (ht : IsAscii t) : IsAscii (s ++ t) := by
  intro c hc
  rw [String.toList_append, List.mem_append] at hc
  exact hc.elim (hs c) (ht c)

theorem isAscii_of_all {s : String} (h : s.toList.all (fun c => c.utf8Size = 1) = true) : IsAscii s :=
  fun c hc => of_decide_eq_true (List.all_eq_true.mp h c hc)

theorem isAscii_joinedText {parts : List String} (h : ∀ part ∈ parts, IsAscii part) : IsAscii (joinedText parts) := by
  have hdash : IsAscii "--" := isAscii_of_all (by decide)
  induction parts with
  | nil => exact fun c hc => by simp [joinedText] at hc
  | cons part rest ih =>
    rw [List.forall_mem_cons] at h
    cases rest with
    | nil => exact fun c hc => h.1 c (by simpa [joinedText] using hc)
    | cons next rest =>
      rw [joinedText, String.intercalate_cons_cons]
      exact isAscii_append (isAscii_append h.1 hdash) (ih h.2)

theorem cutsCharacter_of_ascii {parts : List String} (h : ∀ part ∈ parts, IsAscii part) :
    cutsCharacter parts = false := by
  rw [cutsCharacter, endsInside_of_ascii (isAscii_joinedText h), Bool.and_false]

theorem utf8Size_of_isNameChar {c : Char} (h : isNameChar c = true) : c.utf8Size = 1 := by
  rw [Char.utf8Size_eq_one_iff]
  simp only [isNameChar, Text.isAsciiLower, Text.isAsciiDigit, Bool.or_eq_true, Bool.and_eq_true,
    decide_eq_true_eq] at h
  rcases h with (⟨-, h⟩ | ⟨-, h⟩) | rfl
  · exact UInt32.le_trans h (by decide)
  · exact UInt32.le_trans h (by decide)
  · decide

theorem isAscii_of_validName {name : String} (h : validName name = true) : IsAscii name :=
  fun _ hc => utf8Size_of_isNameChar (isNameChar_of_validName h hc)

/-- A name generated of ASCII texts is an ASCII text. -/
theorem isAscii_resourceName (platform : Platform) {parts : List String} (h : ∀ part ∈ parts, IsAscii part) :
    IsAscii (resourceName platform parts) := by
  have hjoined := isAscii_joinedText h
  have hdash : IsAscii "-" := isAscii_of_all (by decide)
  rw [resourceName_eq, nameOfText]
  split_ifs
  · exact hjoined
  · refine isAscii_append (isAscii_append (fun c hc => ?_) hdash) fun c hc => ?_
    · rw [String.toList_ofList] at hc
      exact hjoined c (mem_takeBytes hc)
    · rw [digestText, String.toList_ofList] at hc
      exact utf8Size_of_isNameChar (isNameChar_hexDigest (List.mem_of_mem_take hc))

/-! ### The texts that are cut -/

section Texts

variable (platform : Platform)

/-- What the steps of a loop ask for, one after the other. -/
def collect {α β γ : Type} (step : β → α → β) (asks : β → α → List γ) : List α → β → List γ
  | [], _ => []
  | x :: rest, state => asks state x ++ collect step asks rest (step state x)

/-- The names `with_derived_host_routing` asks for when it publishes a service of an instance. -/
def publishServiceTexts (inst : Instance) (block : Block) (upstreams : SortedMap String PublishedUpstream)
    (candidate : String × U16) : List (List String) :=
  if upstreams.values.any fun upstream => upstream.inst = inst.name && upstream.service = candidate.1 then []
  else if (block.services.values.filter Service.hasHttpProbe).length = 1 then []
  else [[inst.name, candidate.1]]

/-- The names it asks for when it publishes an instance. -/
def publishInstanceTexts (blocks : SortedMap String Block) (upstreams : SortedMap String PublishedUpstream)
    (inst : Instance) : List (List String) :=
  match blocks.get? inst.block with
  | none => []
  | some block =>
    collect (publishService platform inst block) (publishServiceTexts inst block) (browserServices block) upstreams

/-- The names it asks for when it publishes the instances of a deployment. -/
def publishTexts (spec : DeploymentSpec) : List (List String) :=
  collect (publishInstance platform spec.blocks) (publishInstanceTexts platform spec.blocks)
    (spec.instances.filter fun inst => !inst.isExternal && (browserMembers spec).contains inst.name)
    spec.hostUpstreams

/-- The names `derived_host_router` asks for: the slots of the gateway, and the snapshot once
the gateway has a port. -/
def hostRouterTexts (document : Document) : List (List String) :=
  let spec := document.spec
  ((spec.hostUpstreams.entries.filter fun entry => (browserTargets spec).contains entry.2.inst).map
      fun entry => ["host", entry.1]) ++
    match gatewayPort platform document.metadata.name (browserPorts spec) with
    | .ok _ => [[document.metadata.name, "host", "initial"]]
    | .error _ => []

/-- The names `with_derived_host_routing` asks for. -/
def derivationTexts (document : Document) : List (List String) :=
  if document.spec.hostRouter.isSome || !document.spec.hasAddresses then []
  else publishTexts platform document.spec ++ hostRouterTexts platform (published platform document)

variable (spec : DeploymentSpec)

/-- The name `add_group_member_target` asks for: the slot of a member that has no domain yet. -/
def targetTexts (group address member provider : String) (base : AddressRoute) (pass : Pass) : List (List String) :=
  let inst := memberInstance member
  let subdomain := s!"{inst}.{address}"
  match pass.1.spec.providers.find? (fun candidate => candidate.id = provider), pass.1.spec.listeners[base.1]? with
  | some definition, some listener =>
    if browserProtocolsCompatible listener.protocol definition.endpoint.protocol && listener.consumer.isSome &&
        plausibleHostname subdomain && (existingDomains pass.1 (normalizedHostname subdomain)).isEmpty then
      [["group", group, inst]]
    else []
  | _, _ => []

/-- The names asked for when a member of an addressed group is applied. -/
def memberTexts (group address : String) (base : AddressRoute) (pass : Pass) (member : String) : List (List String) :=
  match addressedMemberProvider spec member with
  | .ok (_, provider) => targetTexts group address member provider base pass
  | .error _ => []

/-- The names asked for when the address of a group is applied. -/
def groupTexts (groups : ResolvedGroups) (pass : Pass) (entry : String × ServiceGroup) : List (List String) :=
  match entry.2.address with
  | none => []
  | some address =>
    let path := s!"spec.groups.{entry.1}.address"
    let active := (groups.members.get? entry.1).getD []
    match active.filter fun member => ((instanceMap spec).get? (memberInstance member)).any (·.address.isSome) with
    | [member] =>
      match addressedMemberProvider spec member with
      | .error _ => []
      | .ok (inst, provider) =>
        match addAddressRoute spec address inst provider path pass with
        | (_, none) => []
        | (pass, some base) =>
          collect (applyMember platform spec entry.1 address path base) (memberTexts spec entry.1 address base) active pass
    | _ => []

/-- The names `apply_addresses` asks for. -/
def slotTexts (groups : ResolvedGroups) (config : RouterConfig) : List (List String) :=
  collect (applyGroupAddress platform spec groups) (groupTexts platform spec groups) spec.groups.entries
    (spec.instances.zipIdx.foldl (applyInstanceAddress spec) (config, []))

/-- The names `generate` may ask for about one service of an instance. -/
def serviceTexts (deployment : String) (inst : Instance) (entry : String × Service) : List (List String) :=
  [[deployment, inst.name, entry.1], [serviceNameFor platform deployment inst.name entry.1, "app"]] ++
    (entry.2.volumes.flatMap fun volume =>
      [[deployment, inst.name, volume.name], ["apmpr", deployment, inst.name, volume.name]]) ++
    entry.2.dependsOn.keys.flatMap fun reference =>
      let target := (Text.splitOnce '/' reference).getD (inst.name, reference)
      [[deployment, target.1, target.2], [serviceNameFor platform deployment target.1 target.2, "app"]]

/-- The names `generate` may ask for about one instance; those of the members of its group are
among the names of their services. -/
def instanceTexts (deployment : String) (inst : Instance) : List (List String) :=
  [[deployment, inst.name, "namespace"], [deployment, inst.name, "router"], [deployment, inst.name, "initial"]] ++
    (inst.remoteDevice.toList.map fun device => ["apmpr", s!"{deployment}-{device}", "private"]) ++
    (spec.blocks.get? inst.block).toList.flatMap fun block =>
      block.services.entries.flatMap (serviceTexts platform deployment inst)

/-- The names `generate` may ask for about one published upstream. -/
def upstreamTexts (deployment : String) (upstream : PublishedUpstream) : List (List String) :=
  [[deployment, upstream.inst, "namespace"], [deployment, upstream.inst, upstream.service]]

/-- The names `generate` may ask for. -/
def generationTexts (document : Document) (groups : ResolvedGroups) (devices : Devices) : List (List String) :=
  let deployment := document.metadata.name
  [["apmpr", deployment], ["apmpr", deployment, "private"]] ++
    (runInstances document.spec).flatMap (instanceTexts platform document.spec deployment) ++
    document.spec.hostUpstreams.values.flatMap (upstreamTexts deployment) ++
    document.spec.hostRouter.toList.flatMap fun config =>
      slotTexts platform document.spec groups (placeProviders document.spec devices config)

end Texts

/-! ### Outcomes -/

/-- The document of a bundle with its overlays folded in, and what they resolved to. -/
def layered (host : Host) (bundle : Bundle) (options : OverlayOptions) :
    Except (List Diagnostic) (Document × Option OverlayResolution) :=
  if isPlain bundle options then .ok (bundle.document, none)
  else
    let loaded := loadOverlays host bundle options
    if !loaded.2.isEmpty then .error loaded.2
    else (resolve host.toPlatform bundle.document loaded.1 options).map fun r => (r.1, some r.2)

/-- The names planning asks for, as far as it gets. -/
def planTexts (host : Host) (bundle : Bundle) (options : OverlayOptions) (devices : Devices) : List (List String) :=
  match layered host bundle options with
  | .error _ => []
  | .ok (document, _) =>
    derivationTexts host.toPlatform document ++
      match withDerivedHostRouting host.toPlatform document with
      | .error _ => []
      | .ok derived =>
        (derived.spec.hostRouter.toList.flatMap
            (slotTexts host.toPlatform derived.spec (resolveGroups derived.spec).1)) ++
          match validate host.toPlatform (bundle.withDocument derived) devices with
          | .error _ => []
          | .ok groups => generationTexts host.toPlatform derived groups devices

/-- A result, or a panic where one of the names that are asked for cuts a character. -/
def sliced {α : Type} (texts : List (List String)) (r : Except Failure α) : Except Failure α :=
  if texts.any cutsCharacter then .error (.panicked "byte index 54 is not a char boundary") else r

/-- What `plan_with_overlays_and_devices` comes to. -/
def planOutcome (host : Host) (bundle : Bundle) (options : OverlayOptions) (devices : Devices) :
    Except Failure Plan :=
  sliced (planTexts host bundle options devices) (planWithOverlaysAndDevices host bundle options devices)

/-- What `plan_with_devices` comes to. -/
def planPlainOutcome (host : Host) (bundle : Bundle) (devices : Devices) : Except Failure Plan :=
  sliced (planTexts host bundle OverlayOptions.none devices) (planWithDevices host bundle devices)

/-- A result or a nonempty list of diagnostics is returned. -/
def Answers {α : Type} (r : Except Failure α) : Prop :=
  (∃ a, r = .ok a) ∨ ∃ errors, errors ≠ [] ∧ r = .error (.diagnostics errors)

/-! ### Stages that answer -/

section Answers

variable {α β : Type}

theorem answers_ok (a : α) : Answers (.ok a) := .inl ⟨a, rfl⟩

theorem answers_diagnostics_iff {errors : List Diagnostic} :
    Answers (.error (.diagnostics errors) : Except Failure α) ↔ errors ≠ [] := by
  constructor
  · rintro (⟨a, h⟩ | ⟨others, hne, h⟩)
    · cases h
    · cases h
      exact hne
  · exact fun h => .inr ⟨errors, h, rfl⟩

theorem not_answers_panicked (what : String) : ¬Answers (.error (.panicked what) : Except Failure α) := by
  rintro (⟨a, h⟩ | ⟨errors, -, h⟩) <;> cases h

theorem not_answers_diverged (what : String) : ¬Answers (.error (.diverged what) : Except Failure α) := by
  rintro (⟨a, h⟩ | ⟨errors, -, h⟩) <;> cases h

/-- Two stages answer where the first one does, and the second one on its result. -/
theorem answers_bind_iff {r : Except Failure α} {f : α → Except Failure β} :
    Answers (r >>= f) ↔ Answers r ∧ ∀ a, r = .ok a → Answers (f a) := by
  cases r with
  | ok a =>
    constructor
    · intro h
      refine ⟨answers_ok a, fun b hb => ?_⟩
      cases hb
      exact h
    · exact fun h => h.2 a rfl
  | error failure =>
    constructor
    · rintro (⟨b, h⟩ | ⟨errors, hne, h⟩)
      · cases h
      · obtain rfl : failure = .diagnostics errors := Except.error.inj h
        exact ⟨answers_diagnostics_iff.mpr hne, fun a ha => by cases ha⟩
    · rintro ⟨⟨a, h⟩ | ⟨errors, hne, h⟩, -⟩
      · cases h
      · cases h
        exact answers_diagnostics_iff.mpr hne

theorem answers_sliced_iff {texts : List (List String)} {r : Except Failure α} :
    Answers (sliced texts r) ↔ (∀ parts ∈ texts, cutsCharacter parts = false) ∧ Answers r := by
  rw [sliced]
  split_ifs with hcut
  · refine iff_of_false (not_answers_panicked _) fun h => ?_
    obtain ⟨parts, hparts, hcuts⟩ := List.any_eq_true.mp hcut
    rw [h.1 parts hparts] at hcuts
    cases hcuts
  · have hnone : ∀ parts ∈ texts, cutsCharacter parts = false := by simpa using hcut
    exact ⟨fun h => ⟨hnone, h⟩, And.right⟩

/-- Where the value is an error, it is a reported one. -/
theorem answers_generateError (r : Except String α) : Answers (generateError r) := by
  cases r with
  | ok a => exact answers_ok a
  | error message => exact answers_diagnostics_iff.mpr (List.cons_ne_nil _ _)

end Answers

section Stages

variable {host : Host} {bundle : Bundle} {options : OverlayOptions} {devices : Devices}

theorem errors_resolve {platform : Platform} {document : Document} {overlays : List Overlay} {errors : List Diagnostic}
    (h : resolve platform document overlays options = .error errors) : errors ≠ [] := by
  unfold resolve at h
  dsimp only at h
  cases hname : variationName document.metadata.name options.variation with
  | error d =>
    rw [hname] at h
    obtain rfl := Except.error.inj h
    simp
  | ok name =>
    rw [hname] at h
    dsimp only at h
    split_ifs at h with hempty
    all_goals
      obtain rfl := Except.error.inj h
      simpa using hempty

theorem errors_layered {errors : List Diagnostic} (h : layered host bundle options = .error errors) : errors ≠ [] := by
  unfold layered at h
  dsimp only at h
  split_ifs at h with hplain hloaded
  · obtain rfl := Except.error.inj h
    simpa using hloaded
  · cases hresolve : resolve host.toPlatform bundle.document (loadOverlays host bundle options).1 options with
    | ok r =>
      rw [hresolve] at h
      cases h
    | error found =>
      rw [hresolve] at h
      obtain rfl : found = errors := Except.error.inj h
      exact errors_resolve hresolve

/-- A bundle is made effective by folding its overlays in and deriving its host routing. -/
theorem effective_eq_layered : effective host bundle options =
    match layered host bundle options with
    | .error errors => .error (.diagnostics errors)
    | .ok (document, overlay) => do
      let derived ← withDerivedHostRouting host.toPlatform document
      return ⟨bundle.withDocument derived, overlay.map fun r => { r with origins := r.origins.mergeSort originBefore }⟩ := by
  unfold effective layered
  split_ifs with hplain
  · rfl
  · rw [effectiveOverlaid]
    dsimp only
    split_ifs
    · rfl
    · cases resolve host.toPlatform bundle.document (loadOverlays host bundle options).1 options with
      | error errors => rfl
      | ok r => rfl

theorem answers_withDerivedHostRouting (platform : Platform) (document : Document) :
    Answers (withDerivedHostRouting platform document) := by
  rw [withDerivedHostRouting]
  split_ifs
  · exact answers_ok _
  · dsimp only
    cases derivedHostRouter platform (published platform document) with
    | ok config => exact answers_ok _
    | error message => exact answers_diagnostics_iff.mpr (List.cons_ne_nil _ _)

theorem answers_effective : Answers (effective host bundle options) := by
  rw [effective_eq_layered]
  cases hlayered : layered host bundle options with
  | error errors => exact answers_diagnostics_iff.mpr (errors_layered hlayered)
  | ok r =>
    exact answers_bind_iff.mpr ⟨answers_withDerivedHostRouting _ _, fun derived _ => answers_ok _⟩

theorem answers_validate_iff {platform : Platform} :
    Answers (validate platform bundle devices) ↔ missingBlock bundle.document.spec = none := by
  rw [validate]
  cases missingBlock bundle.document.spec with
  | some inst => exact iff_of_false (not_answers_panicked _) (by simp)
  | none =>
    refine iff_of_true ?_ rfl
    dsimp only
    split_ifs with hempty
    · exact answers_ok _
    · exact answers_diagnostics_iff.mpr (by simpa using hempty)

end Stages

/-! ### Ports of managed profiles -/

section Ports

/-- The ports of managed profiles. -/
def profilePorts : Finset U16 := Finset.Ico 24000 32000

theorem card_profilePorts : profilePorts.card = 8000 := by
  rw [profilePorts, Fin.card_Ico]
  rfl

/-- The ports in the order they are searched. -/
def searchedPorts (offset : ℕ) : List U16 :=
  (List.range 8000).map fun k => Fin.ofNat 65536 (24000 + (offset + k) % 8000)

theorem profilePort_eq_find? (used : List U16) (offset : ℕ) :
    profilePort used offset =
      match (searchedPorts offset).find? fun port => !used.contains port with
      | some port => .ok port
      | none => .error (.diverged "managed profile ports") := by
  unfold profilePort searchedPorts
  generalize List.find? _ _ = found
  cases found <;> rfl

/-- The search comes by every port of managed profiles, and by no other. -/
theorem mem_searchedPorts_iff (offset : ℕ) (port : U16) : port ∈ searchedPorts offset ↔ port ∈ profilePorts := by
  rw [profilePorts, Finset.mem_Ico, Fin.le_def, Fin.lt_def, searchedPorts, List.mem_map]
  constructor
  · rintro ⟨k, -, rfl⟩
    simp only [Fin.ofNat]
    omega
  · rintro ⟨hlow, hhigh⟩
    have hlow' : 24000 ≤ port.val := hlow
    have hhigh' : port.val < 32000 := hhigh
    refine ⟨(port.val - 24000 + 8000 - offset % 8000) % 8000, List.mem_range.mpr (Nat.mod_lt _ (Nat.succ_pos _)), ?_⟩
    apply Fin.ext
    simp only [Fin.ofNat]
    omega

theorem profilePort_ok {used : List U16} {offset : ℕ} {port : U16} (h : profilePort used offset = .ok port) :
    port ∈ profilePorts ∧ port ∉ used := by
  rw [profilePort_eq_find?] at h
  split at h
  · rename_i found hfound
    obtain rfl := Except.ok.inj h
    have hfree := List.find?_some hfound
    exact ⟨(mem_searchedPorts_iff offset found).mp (List.mem_of_find?_eq_some hfound), by simpa using hfree⟩
  · cases h

/-- There is a port as long as not all of them are used. -/
theorem profilePort_eq {used : List U16} (hnodup : used.Nodup) (hused : ∀ port ∈ used, port ∈ profilePorts)
    (offset : ℕ) :
    (used.length < 8000 ∧ ∃ port, profilePort used offset = .ok port) ∨
      (used.length = 8000 ∧ profilePort used offset = .error (.diverged "managed profile ports")) := by
  have hcard : used.toFinset.card = used.length := List.toFinset_card_of_nodup hnodup
  have hsubset : used.toFinset ⊆ profilePorts := fun port hport => hused port (List.mem_toFinset.mp hport)
  have hle := Finset.card_le_card hsubset
  rw [hcard, card_profilePorts] at hle
  rw [profilePort_eq_find?]
  split
  · rename_i port hfound
    refine .inl ⟨lt_of_le_of_ne hle fun hlength => ?_, port, rfl⟩
    have heq := Finset.eq_of_subset_of_card_le hsubset (by rw [hcard, card_profilePorts, hlength])
    have hmem := (mem_searchedPorts_iff offset port).mp (List.mem_of_find?_eq_some hfound)
    rw [← heq, List.mem_toFinset] at hmem
    exact absurd hmem (by simpa using List.find?_some hfound)
  · rename_i hnone
    refine .inr ⟨le_antisymm hle ?_, rfl⟩
    rw [← card_profilePorts, ← hcard]
    refine Finset.card_le_card fun port hport => ?_
    have htaken := List.find?_eq_none.mp hnone port ((mem_searchedPorts_iff offset port).mpr hport)
    simpa using htaken

/-- Profiles are given ports as long as there are ports for all of them, and their search
diverges otherwise. -/
theorem assignProfiles_eq (platform : Platform) (deployment : String) (entries : List (String × ManagedProfile))
    {used : List U16} (hnodup : used.Nodup) (hused : ∀ port ∈ used, port ∈ profilePorts) :
    (used.length + entries.length ≤ 8000 ∨ entries = []) ∧
        (∃ plans, assignProfiles platform deployment entries used = .ok plans) ∨
      (8000 < used.length + entries.length ∧ entries ≠ []) ∧
        assignProfiles platform deployment entries used = .error (.diverged "managed profile ports") := by
  induction entries generalizing used with
  | nil => exact .inl ⟨.inr rfl, [], rfl⟩
  | cons entry rest ih =>
    obtain ⟨inst, profile⟩ := entry
    rw [assignProfiles]
    rcases profilePort_eq hnodup hused (digestPrefix (platform.sha256 s!"{deployment}\x00{inst}") % 8000) with
      ⟨hlength, port, hport⟩ | ⟨hlength, hport⟩
    · rw [hport]
      obtain ⟨hmem, hfree⟩ := profilePort_ok hport
      have hused' : ∀ other ∈ port :: used, other ∈ profilePorts := List.forall_mem_cons.mpr ⟨hmem, hused⟩
      rcases ih (List.nodup_cons.mpr ⟨hfree, hnodup⟩) hused' with ⟨hcount, plans, hplans⟩ | ⟨hcount, hdiverged⟩
      · refine .inl ⟨.inl ?_, (inst, ⟨deployment, inst, profile.route, port, profile.startUrl⟩) :: plans, ?_⟩
        · rcases hcount with hcount | rfl
          · rw [List.length_cons] at hcount ⊢
            omega
          · exact Nat.succ_le_of_lt hlength
        · change (assignProfiles platform deployment rest (port :: used) >>= _) = _
          rw [hplans]
          rfl
      · refine .inr ⟨⟨?_, List.cons_ne_nil _ _⟩, ?_⟩
        · have hcount := hcount.1
          rw [List.length_cons] at hcount ⊢
          omega
        · change (assignProfiles platform deployment rest (port :: used) >>= _) = _
          rw [hdiverged]
          rfl
    · rw [hport]
      refine .inr ⟨⟨?_, List.cons_ne_nil _ _⟩, rfl⟩
      rw [hlength, List.length_cons]
      omega

/-- Managed profiles have ports where there are at most 8000 of them. -/
theorem answers_managedProfiles_iff (platform : Platform) (document : Document) :
    Answers (managedProfiles platform document) ↔ document.spec.managedProfiles.entries.length ≤ 8000 := by
  rw [managedProfiles]
  rcases assignProfiles_eq platform document.metadata.name document.spec.managedProfiles.entries List.nodup_nil
    (fun port hport => absurd hport List.not_mem_nil) with ⟨hcount, plans, hplans⟩ | ⟨hcount, hdiverged⟩
  · refine iff_of_true (hplans ▸ answers_ok plans) ?_
    rcases hcount with hcount | hcount
    · simpa using hcount
    · simp [hcount]
  · rw [hdiverged]
    refine iff_of_false (not_answers_diverged _) ?_
    simpa using hcount.1

end Ports

/-! ### Generation -/

section Generation

variable {platform : Platform} {bundle : Bundle} {devices : Devices} {groups : ResolvedGroups}
  {overlay : Option OverlayResolution}

/-- Of a valid bundle, only the ports of managed profiles can keep generation from answering. -/
theorem answers_generate_iff (h : validate platform bundle devices = .ok groups) :
    Answers (generate platform bundle groups overlay devices) ↔
      bundle.document.spec.managedProfiles.entries.length ≤ 8000 := by
  rw [← answers_managedProfiles_iff platform, generate, answers_bind_iff]
  refine ⟨And.left, fun hprofiles => ⟨hprofiles, fun profiles hprofiles => ?_⟩⟩
  rw [answers_bind_iff]
  refine ⟨answers_generateError _, fun config hconfig => ?_⟩
  obtain ⟨plan, hplan, -⟩ := @generate_succeeds platform bundle groups overlay devices h profiles hprofiles config
    (generateError_eq_ok_iff.mp hconfig)
  rw [generate, hprofiles] at hplan
  obtain ⟨config', hconfig', hplan⟩ := bind_eq_ok_iff.mp (show (generateError _ >>= _) = _ from hplan)
  obtain rfl := Except.ok.inj (hconfig.symm.trans hconfig')
  exact .inl ⟨plan, hplan⟩

theorem mem_collect {α β γ : Type} {step : β → α → β} {asks : β → α → List γ} {l : List α} {state : β} {x : γ}
    (h : x ∈ collect step asks l state) : ∃ a ∈ l, ∃ state, x ∈ asks state a := by
  induction l generalizing state with
  | nil => cases h
  | cons a rest ih =>
    rcases List.mem_append.mp h with h | h
    · exact ⟨a, List.mem_cons_self .., state, h⟩
    · obtain ⟨b, hb, found⟩ := ih h
      exact ⟨b, List.mem_cons_of_mem _ hb, found⟩

/-- The slots of members are named after a group and a member that is an instance. -/
theorem mem_slotTexts {spec : DeploymentSpec} {config : RouterConfig} {parts : List String}
    (h : parts ∈ slotTexts platform spec groups config) :
    ∃ entry ∈ spec.groups.entries, ∃ inst ∈ (instanceMap spec).entries, parts = ["group", entry.1, inst.1] := by
  obtain ⟨entry, hentry, pass, h⟩ := mem_collect h
  refine ⟨entry, hentry, ?_⟩
  unfold groupTexts at h
  dsimp only at h
  split at h
  · cases h
  split at h
  · split at h
    · cases h
    split at h
    · cases h
    obtain ⟨member, -, pass, h⟩ := mem_collect h
    unfold memberTexts at h
    split at h
    · rename_i hprovider
      have hinst : ∃ inst, (instanceMap spec).get? (memberInstance member) = some inst := by
        unfold addressedMemberProvider at hprovider
        split at hprovider
        · cases hprovider
        · exact ⟨_, by assumption⟩
      obtain ⟨inst, hinst⟩ := hinst
      refine ⟨_, (SortedMap.mem_entries_iff _).mpr hinst, ?_⟩
      unfold targetTexts at h
      dsimp only at h
      split at h
      · split_ifs at h
        · exact List.mem_singleton.mp h
        · cases h
      · cases h
    · cases h
  · cases h

theorem validName_of_foldl_scanGroup {spec : DeploymentSpec} (hblocks : missingBlock spec = none)
    {entries : List (String × ServiceGroup)} {state : GroupsScan}
    (h : (entries.foldl (scanGroup spec) state).errors = []) {entry : String × ServiceGroup} (hentry : entry ∈ entries) :
    validName entry.1 = true := by
  induction entries generalizing state with
  | nil => cases hentry
  | cons head rest ih =>
    rw [List.foldl_cons] at h
    rcases List.mem_cons.mp hentry with rfl | hentry
    · have hstep := (foldl_scanGroup_of_errors_eq_nil hblocks h).1
      unfold scanGroup at hstep
      have hscan := (List.append_eq_nil_iff.mp (List.append_eq_nil_iff.mp hstep).1).2
      exact validName_of_validateName (foldl_scanMember_of_errors_eq_nil hblocks hscan).1
    · exact ih h hentry

/-- The names of a valid bundle: of the groups, the instances, their services and volumes, and
their devices. -/
structure NamesChecked (document : Document) : Prop where
  deployment : validName document.metadata.name = true
  groups : ∀ entry ∈ document.spec.groups.entries, validName entry.1 = true
  instances : ∀ inst ∈ document.spec.instances, validName inst.name = true
  devices : ∀ inst ∈ runInstances document.spec, ∀ device ∈ inst.remoteDevice, validName device = true
  services : ∀ name block, document.spec.blocks.get? name = some block → ∀ entry ∈ block.services.entries,
    validName entry.1 = true ∧ ∀ volume ∈ entry.2.volumes, validName volume.name = true

theorem namesChecked_of_validate (h : validate platform bundle devices = .ok groups) :
    NamesChecked bundle.document where
  deployment := (header_of_validate h).2
  groups entry hentry := by
    obtain ⟨hblocks, -, hdocument, -⟩ := validate_ok_iff.mp h
    simp only [documentErrors, List.append_eq_nil_iff] at hdocument
    obtain ⟨⟨⟨⟨⟨hgroups, -⟩, -⟩, -⟩, -⟩, -⟩ := hdocument
    exact validName_of_foldl_scanGroup hblocks hgroups hentry
  instances inst hinst := by
    obtain ⟨-, hresources, -⟩ := validate_ok_iff.mp h
    obtain ⟨before, herrors⟩ := exists_instanceErrors_eq_nil (List.append_eq_nil_iff.mp hresources).2 hinst
    rw [instanceErrors, List.append_eq_nil_iff, List.append_eq_nil_iff] at herrors
    exact validName_of_validateName herrors.1.1
  devices inst hinst device hdevice := by
    obtain ⟨hinst, hmanaged⟩ := List.mem_filter.mp hinst
    obtain ⟨block, hblock⟩ := (managedInstance_of_validate h hinst (by simpa using hmanaged)).block
    obtain ⟨-, hresources, -⟩ := validate_ok_iff.mp h
    obtain ⟨before, herrors⟩ := exists_instanceErrors_eq_nil (List.append_eq_nil_iff.mp hresources).2 hinst
    rw [instanceErrors, if_neg (by simpa using hmanaged), List.append_eq_nil_iff, managedInstanceErrors] at herrors
    have herrors := (List.append_eq_nil_iff.mp herrors.2).2
    simp only [hblock, List.append_eq_nil_iff] at herrors
    have hdevices := herrors.1.1.1
    rw [deviceErrors, Option.mem_def.mp hdevice] at hdevices
    simp only [List.append_eq_nil_iff] at hdevices
    exact validName_of_validateName hdevices.1.1
  services name block hblock entry hentry := by
    have herrors := blockErrors_of_validate h hblock
    rw [blockErrors, List.append_eq_nil_iff, List.append_eq_nil_iff] at herrors
    have hservice := List.flatMap_eq_nil_iff.mp herrors.1.2 entry hentry
    simp only [serviceErrors, List.append_eq_nil_iff] at hservice
    refine ⟨validName_of_validateName hservice.1.1.1, fun volume hvolume => ?_⟩
    have hvolumes := List.flatMap_eq_nil_iff.mp hservice.2 volume hvolume
    rw [volumeErrors, List.append_eq_nil_iff] at hvolumes
    exact validName_of_validateName hvolumes.1

/-- A text of three ASCII parts is not cut inside a character. -/
theorem cutsCharacter_three {a b c : String} (ha : IsAscii a) (hb : IsAscii b) (hc : IsAscii c) :
    cutsCharacter [a, b, c] = false :=
  cutsCharacter_of_ascii (by simp [ha, hb, hc])

/-- Neither the name of a service nor the one of its application behind a router is cut. -/
theorem cutsCharacter_service {deployment inst service : String} (hdeployment : IsAscii deployment)
    (hinst : IsAscii inst) (hservice : IsAscii service) {parts : List String}
    (h : parts ∈ [[deployment, inst, service], [serviceNameFor platform deployment inst service, "app"]]) :
    cutsCharacter parts = false := by
  have happ : IsAscii "app" := isAscii_of_all (by decide)
  have hname : IsAscii (serviceNameFor platform deployment inst service) :=
    isAscii_resourceName platform (by simp [hdeployment, hinst, hservice])
  rcases List.mem_cons.mp h with rfl | h
  · exact cutsCharacter_three hdeployment hinst hservice
  · rw [List.mem_singleton.mp h]
    exact cutsCharacter_of_ascii (by simp [hname, happ])

theorem isAscii_literals : IsAscii "apmpr" ∧ IsAscii "private" ∧ IsAscii "namespace" ∧ IsAscii "router" ∧
    IsAscii "initial" ∧ IsAscii "group" ∧ IsAscii "-" := by
  refine ⟨?_, ?_, ?_, ?_, ?_, ?_, ?_⟩
  all_goals exact isAscii_of_all (by decide)

/-- A node that is a service of an instance is made of checked names. -/
theorem isAscii_of_isServiceNode (h : validate platform bundle devices = .ok groups) {target service : String}
    (hslash : '/' ∉ target.toList) (hnode : isServiceNode bundle.document.spec (target ++ "/" ++ service) = true) :
    IsAscii target ∧ IsAscii service := by
  have hnames := namesChecked_of_validate h
  rw [isServiceNode, Text.splitOnce_slash hslash] at hnode
  obtain ⟨candidate, hfound, hrun⟩ := Option.any_eq_true _ _ |>.mp hnode
  obtain ⟨hcandidate, rfl⟩ := (get?_instanceMap_iff (nodup_of_validate h)).mp hfound
  obtain ⟨block, hblock, hservice⟩ := Option.any_eq_true _ _ |>.mp (Bool.and_eq_true_iff.mp hrun).2
  obtain ⟨definition, hdefinition⟩ := (SortedMap.contains_iff _ _).mp hservice
  have hservice := hnames.services _ block hblock _ ((SortedMap.mem_entries_iff _).mpr hdefinition)
  exact ⟨isAscii_of_validName (hnames.instances candidate hcandidate), isAscii_of_validName hservice.1⟩

theorem serviceTexts_uncut (h : validate platform bundle devices = .ok groups) {inst : Instance}
    (hinst : inst ∈ runInstances bundle.document.spec) {block : Block}
    (hblock : bundle.document.spec.blocks.get? inst.block = some block) {entry : String × Service}
    (hentry : entry ∈ block.services.entries) {parts : List String}
    (hparts : parts ∈ serviceTexts platform bundle.document.metadata.name inst entry) : cutsCharacter parts = false := by
  have hnames := namesChecked_of_validate h
  obtain ⟨hinst, hmanaged⟩ := List.mem_filter.mp hinst
  have hdeployment := isAscii_of_validName hnames.deployment
  have hname := isAscii_of_validName (hnames.instances inst hinst)
  obtain ⟨hservice, hvolumes⟩ := hnames.services _ block hblock entry hentry
  rw [serviceTexts, List.mem_append, List.mem_append] at hparts
  rcases hparts with (hparts | hparts) | hparts
  · exact cutsCharacter_service hdeployment hname (isAscii_of_validName hservice) hparts
  · obtain ⟨volume, hvolume, hparts⟩ := List.mem_flatMap.mp hparts
    have hvolume := isAscii_of_validName (hvolumes volume hvolume)
    rcases List.mem_cons.mp hparts with rfl | hparts
    · exact cutsCharacter_three hdeployment hname hvolume
    · rw [List.mem_singleton.mp hparts]
      exact cutsCharacter_of_ascii (by simp [isAscii_literals.1, hdeployment, hname, hvolume])
  · obtain ⟨reference, hreference, hparts⟩ := List.mem_flatMap.mp hparts
    have hnode := isServiceNode_of_validate h hinst (by simpa using hmanaged) hblock hentry hreference
    rw [dependencyTarget_eq] at hnode
    have hslash : '/' ∉ ((Text.splitOnce '/' reference).getD (inst.name, reference)).1.toList := by
      cases hsplit : Text.splitOnce '/' reference with
      | none => exact slash_not_mem_of_validName (hnames.instances inst hinst)
      | some parts => exact Text.not_mem_of_splitOnce hsplit
    obtain ⟨htarget, hservice⟩ := isAscii_of_isServiceNode h hslash hnode
    exact cutsCharacter_service hdeployment htarget hservice hparts

theorem instanceTexts_uncut (h : validate platform bundle devices = .ok groups) {inst : Instance}
    (hinst : inst ∈ runInstances bundle.document.spec) {parts : List String}
    (hparts : parts ∈ instanceTexts platform bundle.document.spec bundle.document.metadata.name inst) :
    cutsCharacter parts = false := by
  have hnames := namesChecked_of_validate h
  have hdeployment := isAscii_of_validName hnames.deployment
  have hname := isAscii_of_validName (hnames.instances inst (List.mem_filter.mp hinst).1)
  obtain ⟨hapmpr, hprivate, hnamespace, hrouter, hinitial, -, hdash⟩ := isAscii_literals
  rw [instanceTexts, List.mem_append, List.mem_append] at hparts
  rcases hparts with (hparts | hparts) | hparts
  · simp only [List.mem_cons, List.not_mem_nil, or_false] at hparts
    rcases hparts with rfl | rfl | rfl
    · exact cutsCharacter_three hdeployment hname hnamespace
    · exact cutsCharacter_three hdeployment hname hrouter
    · exact cutsCharacter_three hdeployment hname hinitial
  · obtain ⟨device, hdevice, rfl⟩ := List.mem_map.mp hparts
    have hdevice := isAscii_of_validName (hnames.devices inst hinst device (by simpa using hdevice))
    exact cutsCharacter_three hapmpr (isAscii_append (isAscii_append hdeployment hdash) hdevice) hprivate
  · obtain ⟨block, hblock, hparts⟩ := List.mem_flatMap.mp hparts
    obtain ⟨entry, hentry, hparts⟩ := List.mem_flatMap.mp hparts
    exact serviceTexts_uncut h hinst (by simpa using hblock) hentry hparts

theorem upstreamTexts_uncut (h : validate platform bundle devices = .ok groups) {upstream : PublishedUpstream}
    (hupstream : upstream ∈ bundle.document.spec.hostUpstreams.values) {parts : List String}
    (hparts : parts ∈ upstreamTexts bundle.document.metadata.name upstream) : cutsCharacter parts = false := by
  have hnames := namesChecked_of_validate h
  have hdeployment := isAscii_of_validName hnames.deployment
  obtain ⟨hinst, hservice⟩ : IsAscii upstream.inst ∧ IsAscii upstream.service := by
    obtain ⟨entry, hentry, rfl⟩ := List.mem_map.mp hupstream
    obtain ⟨-, -, hdocument, -⟩ := validate_ok_iff.mp h
    simp only [documentErrors, List.append_eq_nil_iff] at hdocument
    have hrouter := hdocument.2
    unfold hostRouterErrors at hrouter
    split at hrouter
    · rename_i config _
      simp only [hostUpstreamErrors, List.append_eq_nil_iff] at hrouter
      have herrors := List.flatMap_eq_nil_iff.mp hrouter.2.2 entry hentry
      simp only [upstreamErrors, List.append_eq_nil_iff] at herrors
      have htarget := herrors.2
      unfold upstreamTargetErrors at htarget
      split at htarget
      · cases htarget
      · rename_i inst hinst
        obtain ⟨hinst, hname⟩ := (get?_instanceMap_iff (nodup_of_validate h)).mp hinst
        split_ifs at htarget
        split at htarget
        · cases htarget
        · rename_i service hservice
          obtain ⟨block, hblock, hservice⟩ := Option.bind_eq_some_iff.mp hservice
          have hchecked := hnames.services _ block hblock _ ((SortedMap.mem_entries_iff _).mpr hservice)
          exact ⟨hname ▸ isAscii_of_validName (hnames.instances inst hinst), isAscii_of_validName hchecked.1⟩
    · rw [reportIf_eq_nil] at hrouter
      have hempty : bundle.document.spec.hostUpstreams.entries = [] := by simpa using hrouter
      rw [hempty] at hentry
      cases hentry
  simp only [upstreamTexts, List.mem_cons, List.not_mem_nil, or_false] at hparts
  rcases hparts with rfl | rfl
  · exact cutsCharacter_three hdeployment hinst isAscii_literals.2.2.1
  · exact cutsCharacter_three hdeployment hinst hservice

theorem slotTexts_uncut (h : validate platform bundle devices = .ok groups) {config : RouterConfig} {parts : List String}
    (hparts : parts ∈ slotTexts platform bundle.document.spec groups config) : cutsCharacter parts = false := by
  have hnames := namesChecked_of_validate h
  obtain ⟨entry, hentry, inst, hinst, rfl⟩ := mem_slotTexts hparts
  obtain ⟨hinst, hname⟩ := (get?_instanceMap_iff (nodup_of_validate h)).mp ((SortedMap.mem_entries_iff _).mp hinst)
  exact cutsCharacter_three isAscii_literals.2.2.2.2.2.1 (isAscii_of_validName (hnames.groups entry hentry))
    (hname ▸ isAscii_of_validName (hnames.instances _ hinst))

/-- **Generation of a valid bundle cuts no character.** -/
theorem generationTexts_uncut (h : validate platform bundle devices = .ok groups) {parts : List String}
    (hparts : parts ∈ generationTexts platform bundle.document groups devices) : cutsCharacter parts = false := by
  have hdeployment := isAscii_of_validName (namesChecked_of_validate h).deployment
  obtain ⟨hapmpr, hprivate, -⟩ := isAscii_literals
  simp only [generationTexts, List.mem_append, List.mem_flatMap] at hparts
  rcases hparts with ((hparts | ⟨inst, hinst, hparts⟩) | ⟨upstream, hupstream, hparts⟩) | ⟨config, -, hparts⟩
  · simp only [List.mem_cons, List.not_mem_nil, or_false] at hparts
    rcases hparts with rfl | rfl
    · exact cutsCharacter_of_ascii (by simp [hapmpr, hdeployment])
    · exact cutsCharacter_three hapmpr hdeployment hprivate
  · exact instanceTexts_uncut h hinst hparts
  · exact upstreamTexts_uncut h hupstream hparts
  · exact slotTexts_uncut h hparts

end Generation

/-! ### Plans -/

section Plans

variable {host : Host} {bundle : Bundle} {options : OverlayOptions} {devices : Devices}

/-- What keeps planning from its answer is absent: before host routing is derived, no name it
asks for cuts a character; a bundle that has become effective has the blocks of its instances,
and no slot of a group's member cuts a character; and one that is valid has at most 8000
managed profiles. -/
structure Answerable (host : Host) (bundle : Bundle) (options : OverlayOptions) (devices : Devices) : Prop where
  derivation : ∀ document overlay, layered host bundle options = .ok (document, overlay) →
    ∀ parts ∈ derivationTexts host.toPlatform document, cutsCharacter parts = false
  blocks : ∀ e, effective host bundle options = .ok e → missingBlock bundle.document.spec = none
  slots : ∀ e, effective host bundle options = .ok e → ∀ config ∈ e.bundle.document.spec.hostRouter,
    ∀ parts ∈ slotTexts host.toPlatform e.bundle.document.spec (resolveGroups e.bundle.document.spec).1 config,
      cutsCharacter parts = false
  profiles : ∀ e groups, effective host bundle options = .ok e → validate host.toPlatform e.bundle devices = .ok groups →
    bundle.document.spec.managedProfiles.entries.length ≤ 8000

theorem missingBlock_eq_none_iff (spec : DeploymentSpec) : missingBlock spec = none ↔
    ∀ name inst, (instanceMap spec).get? name = some inst → inst.isExternal = true ∨ spec.blocks.contains inst.block = true := by
  rw [missingBlock, List.find?_eq_none]
  constructor
  · intro h name inst hinst
    have hvalue : inst ∈ (instanceMap spec).values :=
      List.mem_map.mpr ⟨_, (SortedMap.mem_entries_iff _).mpr hinst, rfl⟩
    have hpresent := h inst hvalue
    cases hexternal : inst.isExternal <;> simp_all
  · intro h inst hinst
    obtain ⟨entry, hentry, rfl⟩ := List.mem_map.mp hinst
    have hpresent := h entry.1 entry.2 ((SortedMap.mem_entries_iff _).mp hentry)
    cases hexternal : entry.2.isExternal <;> simp_all

theorem missingBlock_of_keepsSpec {document derived : Document} (h : KeepsSpec document derived) :
    missingBlock derived.spec = none ↔ missingBlock document.spec = none := by
  have hstripped : ∀ spec : DeploymentSpec, (∀ name inst, (instanceMap spec).get? name = some inst →
      inst.isExternal = true ∨ document.spec.blocks.contains inst.block = true) ↔
      ∀ name inst, ((instanceMap spec).get? name).map strippedInstance = some inst →
        inst.isExternal = true ∨ document.spec.blocks.contains inst.block = true := by
    intro spec
    constructor
    · intro hall name inst hinst
      obtain ⟨authored, hauthored, rfl⟩ := Option.map_eq_some_iff.mp hinst
      exact hall name authored hauthored
    · intro hall name inst hinst
      exact hall name (strippedInstance inst) (Option.map_eq_some_iff.mpr ⟨inst, hinst, rfl⟩)
  rw [missingBlock_eq_none_iff, missingBlock_eq_none_iff, h.blocks, hstripped, hstripped]
  simp only [get?_instanceMap_of_keepsSpec h]

theorem managedProfiles_effective {e : Effective} (h : effective host bundle options = .ok e) :
    e.bundle.document.spec.managedProfiles = bundle.document.spec.managedProfiles := by
  cases hplain : isPlain bundle options with
  | true =>
    rw [effective, if_pos hplain] at h
    obtain ⟨_, _, hspec⟩ := spec_of_withDerivedHostRouting (madeEffective_of_plain h).1
    rw [hspec]
    rfl
  | false =>
    obtain ⟨resolved, resolution, hoverlaid⟩ := exists_overlaid hplain h
    obtain ⟨_, _, hspec⟩ := spec_of_withDerivedHostRouting hoverlaid.derived
    obtain ⟨_, _, -, -, hresolved⟩ := resolve_document hoverlaid.resolves
    rw [hspec, hresolved]
    rfl

/-- A plan that no other deployment's listeners conflict with. -/
def withoutConflicts (host : Host) (bundle : Bundle) (options : OverlayOptions) (plan : Plan) : Except Failure Plan :=
  let conflicts := if options.variation.isSome then existingVariationConflicts host bundle.workspaceRoot plan else []
  if isPlain bundle options || conflicts.isEmpty then .ok plan else .error (.diagnostics conflicts)

/-- Planning makes the bundle effective, validates it, generates the plan and looks for
conflicts. -/
theorem planWithOverlaysAndDevices_eq : planWithOverlaysAndDevices host bundle options devices =
    (effective host bundle options >>= fun e => validate host.toPlatform e.bundle devices >>= fun groups =>
      generate host.toPlatform e.bundle groups e.overlay devices >>= withoutConflicts host bundle options) := by
  have hassoc : ∀ (e : Effective) (f : Plan → Except Failure Plan),
      (planEffective host.toPlatform devices e >>= f) = (validate host.toPlatform e.bundle devices >>= fun groups =>
        generate host.toPlatform e.bundle groups e.overlay devices >>= f) := by
    intro e f
    rw [planEffective]
    cases validate host.toPlatform e.bundle devices <;> rfl
  simp only [← hassoc]
  rw [planWithOverlaysAndDevices, effective]
  split_ifs with hplain
  · have hok : withoutConflicts host bundle options = Except.ok := by
      funext plan
      simp [withoutConflicts, hplain]
    rw [planWithDevices, overlays_of_isPlain hplain, List.isEmpty_nil, if_pos rfl, hok]
    cases effectivePlain host.toPlatform bundle with
    | error failure => rfl
    | ok e => cases hplan : planEffective host.toPlatform devices e <;> simp [bind, Except.bind, hplan]
  · rw [planOverlaid]
    have hconflicts : withoutConflicts host bundle options = fun plan =>
        (let conflicts := if options.variation.isSome then existingVariationConflicts host bundle.workspaceRoot plan else []
         if conflicts.isEmpty then .ok plan else .error (.diagnostics conflicts)) := by
      funext plan
      simp [withoutConflicts, hplain]
    rw [hconflicts]

theorem answers_withoutConflicts (plan : Plan) : Answers (withoutConflicts host bundle options plan) := by
  unfold withoutConflicts
  generalize (if options.variation.isSome then existingVariationConflicts host bundle.workspaceRoot plan else []) =
    conflicts
  dsimp only
  split_ifs with hnone
  · exact answers_ok plan
  · exact answers_diagnostics_iff.mpr fun hempty => hnone (by simp [hempty])

/-- The two halves answer where the blocks are there and the profiles have ports. -/
theorem answers_planWithOverlaysAndDevices_iff : Answers (planWithOverlaysAndDevices host bundle options devices) ↔
    ∀ e, effective host bundle options = .ok e → missingBlock bundle.document.spec = none ∧
      ∀ groups, validate host.toPlatform e.bundle devices = .ok groups →
        bundle.document.spec.managedProfiles.entries.length ≤ 8000 := by
  rw [planWithOverlaysAndDevices_eq, answers_bind_iff, and_iff_right answers_effective]
  refine forall_congr' fun e => forall_congr' fun he => ?_
  rw [answers_bind_iff, answers_validate_iff, missingBlock_of_keepsSpec (keepsSpec he)]
  refine and_congr_right fun _ => forall_congr' fun groups => forall_congr' fun hgroups => ?_
  rw [answers_bind_iff, answers_generate_iff hgroups, managedProfiles_effective he]
  exact ⟨And.left, fun h => ⟨h, fun plan _ => answers_withoutConflicts plan⟩⟩

/-- No name is cut inside a character where neither derivation nor the slots do it. -/
theorem planTexts_uncut_iff : (∀ parts ∈ planTexts host bundle options devices, cutsCharacter parts = false) ↔
    (∀ document overlay, layered host bundle options = .ok (document, overlay) →
      ∀ parts ∈ derivationTexts host.toPlatform document, cutsCharacter parts = false) ∧
    ∀ e, effective host bundle options = .ok e → ∀ config ∈ e.bundle.document.spec.hostRouter,
      ∀ parts ∈ slotTexts host.toPlatform e.bundle.document.spec (resolveGroups e.bundle.document.spec).1 config,
        cutsCharacter parts = false := by
  rw [effective_eq_layered, planTexts]
  cases layered host bundle options with
  | error errors => simp
  | ok r =>
    obtain ⟨document, overlay⟩ := r
    dsimp only
    rw [List.forall_mem_append]
    refine and_congr ⟨?_, fun h => h document overlay rfl⟩ ?_
    · intro h found other hfound
      obtain ⟨rfl, rfl⟩ := Prod.mk.inj (Except.ok.inj hfound)
      exact h
    · cases withDerivedHostRouting host.toPlatform document with
      | error failure => exact iff_of_true (fun parts hparts => by cases hparts) fun e he => by cases he
      | ok derived =>
        rw [List.forall_mem_append]
        constructor
        · rintro ⟨hslots, -⟩ e he config hconfig parts hparts
          cases he
          exact hslots parts (List.mem_flatMap.mpr ⟨config, Option.mem_toList.mpr hconfig, hparts⟩)
        · intro h
          refine ⟨fun parts hparts => ?_, fun parts hparts => ?_⟩
          · obtain ⟨config, hconfig, hparts⟩ := List.mem_flatMap.mp hparts
            exact h _ rfl config (Option.mem_toList.mp hconfig) parts hparts
          · split at hparts
            · cases hparts
            · rename_i groups hgroups
              exact generationTexts_uncut hgroups hparts

/-- **Planning answers exactly where nothing keeps it from that**: with a plan or a nonempty
list of diagnostics, whether it is asked with overlays or without. -/
theorem plan_answers_iff (host : Host) (bundle : Bundle) (options : OverlayOptions) (devices : Devices) :
    (Answers (planOutcome host bundle options devices) ↔ Answerable host bundle options devices) ∧
      (Answers (planPlainOutcome host bundle devices) ↔ Answerable host bundle OverlayOptions.none devices) := by
  have hiff : ∀ options, Answers (planOutcome host bundle options devices) ↔ Answerable host bundle options devices := by
    intro options
    rw [planOutcome, answers_sliced_iff, planTexts_uncut_iff, answers_planWithOverlaysAndDevices_iff]
    constructor
    · rintro ⟨⟨hderivation, hslots⟩, hplan⟩
      exact ⟨hderivation, fun e he => (hplan e he).1, hslots, fun e groups he hgroups => (hplan e he).2 groups hgroups⟩
    · rintro ⟨hderivation, hblocks, hslots, hprofiles⟩
      exact ⟨⟨hderivation, hslots⟩, fun e he => ⟨hblocks e he, fun groups hgroups => hprofiles e groups he hgroups⟩⟩
  refine ⟨hiff options, ?_⟩
  rw [planPlainOutcome, planWithDevices_eq]
  exact hiff OverlayOptions.none

/-- The web server's deployment with another block for the instance `back`. -/
def blockBundle (block : String) : Bundle :=
  shopBundle.withDocument (shopBundle.document.withSpec { shopBundle.document.spec with
    instances := [webInstance "front" none, { webInstance "back" none with block := block }] })

/-- A deployment whose group has a name that is cut inside a character. -/
def cutBundle : Bundle :=
  shopBundle.withDocument (shopBundle.document.withSpec { shopBundle.document.spec with
    groups := .ofList [(String.ofList (List.replicate 46 'a' ++ 'é' :: List.replicate 20 'a'),
      ⟨["front", "back"], [], some "shop.localhost"⟩)] })

/-- The failure planning ends in. -/
def failureOf {α : Type} : Except Failure α → Option Failure
  | .ok _ => none
  | .error failure => some failure

theorem not_answers_of_failureOf {α : Type} {r : Except Failure α} {what : String}
    (h : failureOf r = some (.panicked what)) : ¬Answers r := by
  cases r with
  | ok a => cases h
  | error failure =>
    obtain rfl : failure = .panicked what := Option.some.inj h
    exact not_answers_panicked what

/-- An instance whose block is not declared ends planning in a panic, though its block was
found to be unknown before; so does the name of a group that is cut inside a character. -/
theorem unknown_block_panics :
    failureOf (planOutcome shopHost (blockBundle "worker") OverlayOptions.none ∅) = some (.panicked "no block worker") ∧
      ¬Answers (planOutcome shopHost (blockBundle "worker") OverlayOptions.none ∅) ∧
      ⟨.missingReference, "spec.instances[1].block", "unknown block worker"⟩ ∈
        resourceErrors shopHost.toPlatform (blockBundle "worker") ∅ ∧
      failureOf (planOutcome shopHost cutBundle OverlayOptions.none ∅) =
        some (.panicked "byte index 54 is not a char boundary") ∧
      ¬Answers (planOutcome shopHost cutBundle OverlayOptions.none ∅) := by
  have hblock : failureOf (planOutcome shopHost (blockBundle "worker") OverlayOptions.none ∅) =
      some (.panicked "no block worker") := by decide +kernel
  have hcut : failureOf (planOutcome shopHost cutBundle OverlayOptions.none ∅) =
      some (.panicked "byte index 54 is not a char boundary") := by decide +kernel
  exact ⟨hblock, not_answers_of_failureOf hblock, by decide +kernel, hcut, not_answers_of_failureOf hcut⟩

end Plans

end Apmpr.Planner
