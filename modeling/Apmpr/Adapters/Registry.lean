import Apmpr.Adapters.Versions
import Apmpr.Lib.SortedMap

/-!
# The registry of adapters

`AdapterRegistry` of the crate `apmpr-adapter-sdk`: adapters are registered under their kind,
identifier and version (`register`), and `lookup` returns the one of a kind and identifier with
the greatest version, by `max_by` over the comparison of versions. An `AdapterRegistry` carries
that its keys are those of its adapters and that their versions were accepted.

**`lookup_newest`** says for which registries lookup is right, over every run of registrations:
those whose versions are read right by the comparison (`RightVersion`). There lookup does not
panic and finds an adapter of greatest precedence, and the comparison is a total preorder. Every
other version that is accepted breaks the lookup of a registry that has it next to one that is
read right; `lookup_breaks` has two examples.
-/

namespace Apmpr.Adapters

/-- `SDK_CONTRACT_VERSION`. -/
def SDK_CONTRACT_VERSION : String := "apmpr.dev/adapter-sdk/v1alpha1"

/-- `AdapterKind`. -/
inductive AdapterKind where
  | source
  | execution
  | supervisor
  | route
  | probe
  | publication
  deriving DecidableEq

namespace AdapterKind

/-- The place of a kind in their order. -/
def index : AdapterKind → ℕ
  | source => 0
  | execution => 1
  | supervisor => 2
  | route => 3
  | probe => 4
  | publication => 5

theorem index_injective : Function.Injective index := by
  intro a b h
  cases a <;> cases b <;> first | rfl | cases h

instance : LinearOrder AdapterKind := LinearOrder.lift' index index_injective

/-- The name of a kind in a message. -/
def debug : AdapterKind → String
  | source => "Source"
  | execution => "Execution"
  | supervisor => "Supervisor"
  | route => "Route"
  | probe => "Probe"
  | publication => "Publication"

end AdapterKind

/-- What registration reads of `AdapterDeclaration`. -/
structure AdapterDeclaration where
  id : String
  version : String
  sdkContracts : List String
  deriving DecidableEq

/-- `supports_current_sdk`. -/
def AdapterDeclaration.supportsCurrentSdk (declaration : AdapterDeclaration) : Bool :=
  declaration.sdkContracts.any (· = SDK_CONTRACT_VERSION)

/-- `RegisteredAdapter`: its kind and what it declares. -/
structure RegisteredAdapter where
  kind : AdapterKind
  declaration : AdapterDeclaration
  deriving DecidableEq

/-- `RegistryErrorCode`. -/
inductive RegistryErrorCode where
  | invalidAdapterId
  | invalidAdapterVersion
  | incompatibleSdkContract
  | duplicateAdapter
  deriving DecidableEq

/-- `RegistryError`. -/
structure RegistryError where
  code : RegistryErrorCode
  message : String
  deriving DecidableEq

/-- Kind, identifier and version of an entry. -/
abbrev Key := AdapterKind ×ₗ String ×ₗ String

namespace Key

/-- The kind of an entry. -/
def kind (key : Key) : AdapterKind := (ofLex key).1

/-- The identifier of an entry. -/
def id (key : Key) : String := (ofLex (ofLex key).2).1

/-- The version of an entry. -/
def version (key : Key) : String := (ofLex (ofLex key).2).2

end Key

/-- The key an adapter is registered under. -/
def RegisteredAdapter.key (adapter : RegisteredAdapter) : Key :=
  toLex (adapter.kind, toLex (adapter.declaration.id, adapter.declaration.version))

/-- `validate_declaration`. -/
def validateDeclaration (declaration : AdapterDeclaration) : Except RegistryError Unit :=
  if declaration.id.isEmpty ||
      !declaration.id.toList.all fun c => Text.isAsciiLower c || Text.isAsciiDigit c || c = '-' then
    .error ⟨.invalidAdapterId, s!"invalid adapter id `{declaration.id}`"⟩
  else if !isSemanticVersion declaration.version then
    .error ⟨.invalidAdapterVersion, s!"invalid semantic version `{declaration.version}`"⟩
  else if !declaration.supportsCurrentSdk then
    .error ⟨.incompatibleSdkContract, s!"adapter does not support {SDK_CONTRACT_VERSION}"⟩
  else .ok ()

theorem isSemanticVersion_of_validateDeclaration {declaration : AdapterDeclaration}
    (h : validateDeclaration declaration = .ok ()) : isSemanticVersion declaration.version = true := by
  rw [validateDeclaration] at h
  split_ifs at h with hid hversion
  simpa using hversion

/-- `AdapterRegistry`: its entries are under their keys, and their versions were accepted. -/
structure AdapterRegistry where
  entries : SortedMap Key RegisteredAdapter
  keyed : ∀ key adapter, entries.get? key = some adapter →
    adapter.key = key ∧ isSemanticVersion adapter.declaration.version = true

namespace AdapterRegistry

/-- A registry without adapters. -/
def new : AdapterRegistry := ⟨∅, fun _ _ h => by cases h⟩

/-- `register`. -/
def register (registry : AdapterRegistry) (adapter : RegisteredAdapter) : Except RegistryError AdapterRegistry :=
  match hvalid : validateDeclaration adapter.declaration with
  | .error error => .error error
  | .ok () =>
    if registry.entries.contains adapter.key then
      .error ⟨.duplicateAdapter,
        s!"{adapter.declaration.id} {adapter.declaration.version} is already registered as {adapter.kind.debug}"⟩
    else
      .ok ⟨registry.entries.insert adapter.key adapter, fun key other hget => by
        rw [SortedMap.get?_insert] at hget
        split_ifs at hget with hkey
        · obtain rfl := Option.some.inj hget
          exact ⟨hkey.symm, isSemanticVersion_of_validateDeclaration hvalid⟩
        · exact registry.keyed key other hget⟩

/-- The entries of a kind and identifier. -/
def candidates (registry : AdapterRegistry) (kind : AdapterKind) (id : String) : List (Key × RegisteredAdapter) :=
  registry.entries.entries.filter fun entry => entry.1.kind = kind && entry.1.id = id

/-- `lookup`; there is nothing where it panics. -/
def lookup (registry : AdapterRegistry) (kind : AdapterKind) (id : String) : Option (Option RegisteredAdapter) :=
  (maxBy (fun left right => compareSemanticVersions left.1.version right.1.version) (registry.candidates kind id)).map
    fun found => found.map Prod.snd

/-- The registry after a run of registrations; a rejected one leaves it as it is. -/
def registered (calls : List RegisteredAdapter) : AdapterRegistry :=
  calls.foldl (fun registry adapter => (registry.register adapter).toOption.getD registry) new

/-- The adapter of a lookup: there is one if there are any of the kind and identifier, and its
version is a greatest one by the precedence of semantic versions. -/
structure Newest (registry : AdapterRegistry) (kind : AdapterKind) (id : String) (found : Option RegisteredAdapter) :
    Prop where
  none_iff : found = none ↔ ∀ adapter ∈ registry.entries.values, ¬ (adapter.kind = kind ∧ adapter.declaration.id = id)
  named : ∀ adapter ∈ found, adapter ∈ registry.entries.values ∧ adapter.kind = kind ∧ adapter.declaration.id = id
  greatest : ∀ adapter ∈ found, ∀ other ∈ registry.entries.values, other.kind = kind → other.declaration.id = id →
    ∀ v w : SemVer, v.text = adapter.declaration.version.toList → w.text = other.declaration.version.toList →
      w.precedence ≤ v.precedence

/-- No lookup panics, and each one returns a newest adapter. -/
def LooksUpNewest (registry : AdapterRegistry) : Prop :=
  ∀ kind id, ∃ found, registry.lookup kind id = some found ∧ registry.Newest kind id found

end AdapterRegistry

/-- A version that the comparison reads as what it is. -/
def RightVersion (version : String) : Prop := ∀ v : SemVer, v.text = version.toList → ReadRight v

/-- Comparing versions of a kind does not panic and is a total preorder: it has an answer, which
is the opposite one the other way round, and "not greater" is transitive. -/
structure OrdersVersions (accepted : String → Prop) : Prop where
  answers : ∀ v w, accepted v → accepted w → ∃ o, compareSemanticVersions v w = some o
  refl : ∀ v, accepted v → compareSemanticVersions v v = some .eq
  swap : ∀ v w, accepted v → accepted w → ∀ o, compareSemanticVersions v w = some o →
    compareSemanticVersions w v = some o.swap
  trans : ∀ u v w, accepted u → accepted v → accepted w → compareSemanticVersions u v ≠ some .gt →
    compareSemanticVersions v w ≠ some .gt → compareSemanticVersions u w ≠ some .gt

/-! ### Registries whose versions are read right -/

section Right

variable {version : String}

theorem readKey_of_right (haccepted : isSemanticVersion version = true) (hright : RightVersion version) :
    ∃ v : SemVer, v.text = version.toList ∧ readKey version = some v.precedence := by
  obtain ⟨v, hv⟩ := isSemanticVersion_iff.mp haccepted
  exact ⟨v, hv, readKey_eq_precedence hv (hright v hv)⟩

theorem compare_of_readKey {v w : String} {x y : Precedence} (hv : readKey v = some x) (hw : readKey w = some y) :
    compareSemanticVersions v w = some (compare x y) := by
  rw [compareSemanticVersions_eq, compareBy, hv, hw]
  rfl

/-- Versions that are read right are ordered by their precedence. -/
theorem ordersVersions : OrdersVersions fun version => isSemanticVersion version = true ∧ RightVersion version where
  answers v w hv hw := by
    obtain ⟨_, -, hv⟩ := readKey_of_right hv.1 hv.2
    obtain ⟨_, -, hw⟩ := readKey_of_right hw.1 hw.2
    exact ⟨_, compare_of_readKey hv hw⟩
  refl v hv := by
    obtain ⟨_, -, hv⟩ := readKey_of_right hv.1 hv.2
    rw [compare_of_readKey hv hv, compare_eq_iff_eq.mpr rfl]
  swap v w hv hw o ho := by
    obtain ⟨_, -, hv⟩ := readKey_of_right hv.1 hv.2
    obtain ⟨_, -, hw⟩ := readKey_of_right hw.1 hw.2
    rw [compare_of_readKey hv hw] at ho
    rw [compare_of_readKey hw hv, ← Option.some.inj ho, ← Std.OrientedCmp.eq_swap]
  trans u v w hu hv hw huv hvw := by
    obtain ⟨_, -, hu⟩ := readKey_of_right hu.1 hu.2
    obtain ⟨_, -, hv⟩ := readKey_of_right hv.1 hv.2
    obtain ⟨_, -, hw⟩ := readKey_of_right hw.1 hw.2
    rw [compare_of_readKey hu hv, Ne, Option.some.injEq, ← Ne, compare_le_iff_le] at huv
    rw [compare_of_readKey hv hw, Ne, Option.some.injEq, ← Ne, compare_le_iff_le] at hvw
    rw [compare_of_readKey hu hw, Ne, Option.some.injEq, ← Ne, compare_le_iff_le]
    exact huv.trans hvw

variable {registry : AdapterRegistry}

theorem mem_values_iff {adapter : RegisteredAdapter} :
    adapter ∈ registry.entries.values ↔ registry.entries.get? adapter.key = some adapter := by
  rw [SortedMap.values, List.mem_map]
  constructor
  · rintro ⟨⟨key, other⟩, hmem, rfl⟩
    have hget := (SortedMap.mem_entries_iff _).mp hmem
    rwa [(registry.keyed key other hget).1]
  · exact fun hget => ⟨_, (SortedMap.mem_entries_iff _).mpr hget, rfl⟩

/-- The entries of a lookup are the adapters of its kind and identifier. -/
theorem mem_candidates_iff {kind : AdapterKind} {id : String} {key : Key} {adapter : RegisteredAdapter} :
    (key, adapter) ∈ registry.candidates kind id ↔ key = adapter.key ∧ adapter ∈ registry.entries.values ∧
      adapter.kind = kind ∧ adapter.declaration.id = id := by
  rw [AdapterRegistry.candidates, List.mem_filter, SortedMap.mem_entries_iff, mem_values_iff, Bool.and_eq_true,
    decide_eq_true_eq, decide_eq_true_eq]
  constructor
  · rintro ⟨hget, hkind, hid⟩
    obtain rfl := (registry.keyed key adapter hget).1
    exact ⟨rfl, hget, hkind, hid⟩
  · rintro ⟨rfl, hget, hkind, hid⟩
    exact ⟨hget, hkind, hid⟩

theorem accepted_of_mem_values {adapter : RegisteredAdapter} (h : adapter ∈ registry.entries.values) :
    isSemanticVersion adapter.declaration.version = true :=
  (registry.keyed _ _ (mem_values_iff.mp h)).2

/-- Lookup takes the last of the greatest by what the comparison reads of versions. -/
theorem lookup_eq (registry : AdapterRegistry) (kind : AdapterKind) (id : String) : registry.lookup kind id =
    (maxBy (compareBy fun entry => readKey entry.1.version) (registry.candidates kind id)).map fun found =>
      found.map Prod.snd := by
  rw [AdapterRegistry.lookup, compareSemanticVersions_eq]
  rfl

/-- **Lookup is right where all versions are read right.** -/
theorem looksUpNewest (hright : ∀ adapter ∈ registry.entries.values, RightVersion adapter.declaration.version) :
    registry.LooksUpNewest := by
  intro kind id
  have hkeys : ∀ entry ∈ registry.candidates kind id, (readKey entry.1.version).isSome := by
    rintro ⟨key, adapter⟩ hmem
    obtain ⟨rfl, hadapter, -⟩ := mem_candidates_iff.mp hmem
    obtain ⟨v, -, hkey⟩ := readKey_of_right (accepted_of_mem_values hadapter) (hright adapter hadapter)
    exact Option.isSome_iff_exists.mpr ⟨_, hkey⟩
  obtain ⟨found, hfound, hnone, hbest⟩ := maxBy_of_keys hkeys
  refine ⟨found.map Prod.snd, by rw [lookup_eq, hfound, Option.map_some], ?_, ?_, ?_⟩
  · rw [Option.map_eq_none_iff]
    constructor
    · intro hfound adapter hadapter hnamed
      have hmem := mem_candidates_iff.mpr ⟨rfl, hadapter, hnamed⟩
      rw [hnone hfound] at hmem
      cases hmem
    · intro hall
      cases hcase : found with
      | none => rfl
      | some best =>
        obtain ⟨hmem, -⟩ := hbest best hcase
        obtain ⟨-, hadapter, hnamed⟩ := mem_candidates_iff.mp hmem
        exact absurd hnamed (hall _ hadapter)
  · intro adapter hadapter
    obtain ⟨⟨key, _⟩, hcase, rfl⟩ := Option.map_eq_some_iff.mp hadapter
    exact (mem_candidates_iff.mp (hbest _ hcase).1).2
  · intro adapter hadapter other hother hkind hid v w hv hw
    obtain ⟨⟨key, _⟩, hcase, rfl⟩ := Option.map_eq_some_iff.mp hadapter
    obtain ⟨hmem, z, hz, hgreatest⟩ := hbest _ hcase
    obtain ⟨rfl, hadapter, -⟩ := mem_candidates_iff.mp hmem
    have hother' := hgreatest _ (mem_candidates_iff.mpr ⟨rfl, hother, hkind, hid⟩) w.precedence
      (readKey_eq_precedence hw (hright _ hother w hw))
    have hz' := readKey_eq_precedence hv (hright _ hadapter v hv)
    obtain rfl := Option.some.inj (hz.symm.trans hz')
    exact hother'

end Right

/-! ### Runs of registrations -/

section Runs

variable {registry : AdapterRegistry} {adapter : RegisteredAdapter}

/-- A registration is rejected, or puts its adapter under a new key. -/
theorem register_cases (registry : AdapterRegistry) (adapter : RegisteredAdapter) :
    (∃ error, registry.register adapter = .error error ∧
        (validateDeclaration adapter.declaration = .error error ∨ registry.entries.contains adapter.key = true)) ∨
      ∃ after, registry.register adapter = .ok after ∧ after.entries = registry.entries.insert adapter.key adapter := by
  unfold AdapterRegistry.register
  split
  · rename_i error herror
    exact .inl ⟨error, rfl, .inl herror⟩
  · split_ifs with hcontains
    · exact .inl ⟨_, rfl, .inr hcontains⟩
    · exact .inr ⟨_, rfl, rfl⟩

theorem mem_values_of_register {after : AdapterRegistry} (h : registry.register adapter = .ok after)
    {other : RegisteredAdapter} (hother : other ∈ after.entries.values) :
    other = adapter ∨ other ∈ registry.entries.values := by
  rcases register_cases registry adapter with ⟨error, herror, -⟩ | ⟨_, hafter, hentries⟩
  · rw [h] at herror
    cases herror
  · obtain rfl := Except.ok.inj (h.symm.trans hafter)
    rw [mem_values_iff, hentries, SortedMap.get?_insert] at hother
    split_ifs at hother
    · exact .inl (Option.some.inj hother).symm
    · exact .inr (mem_values_iff.mpr hother)

/-- What is in a registry was registered. -/
theorem mem_of_mem_registered {calls : List RegisteredAdapter}
    (h : adapter ∈ (AdapterRegistry.registered calls).entries.values) : adapter ∈ calls := by
  induction calls using List.reverseRecOn with
  | nil => cases h
  | append_singleton calls call ih =>
    rw [AdapterRegistry.registered, List.foldl_append, List.foldl_cons, List.foldl_nil] at h
    change adapter ∈ (((AdapterRegistry.registered calls).register call).toOption.getD _).entries.values at h
    cases hregister : (AdapterRegistry.registered calls).register call with
    | error error =>
      rw [hregister] at h
      exact List.mem_append_left _ (ih h)
    | ok after =>
      rw [hregister] at h
      rcases mem_values_of_register hregister h with rfl | h
      · exact List.mem_append_right _ List.mem_cons_self
      · exact List.mem_append_left _ (ih h)

/-- A source adapter of the current contract. -/
def sourceAdapter (version : String) : RegisteredAdapter := ⟨.source, ⟨"files", version, [SDK_CONTRACT_VERSION]⟩⟩

theorem validateDeclaration_sourceAdapter {version : String} (h : isSemanticVersion version = true) :
    validateDeclaration (sourceAdapter version).declaration = .ok () := by
  have hcontract : (sourceAdapter version).declaration.supportsCurrentSdk = true := by
    simp [sourceAdapter, AdapterDeclaration.supportsCurrentSdk]
  rw [validateDeclaration, if_neg (by simp [sourceAdapter, Text.isAsciiLower]), if_neg (by simpa [sourceAdapter] using h),
    if_neg (by simp [hcontract])]

/-- Two versions of a source adapter make up a registry. -/
theorem registered_two {version other : String} (h : isSemanticVersion version = true)
    (hother : isSemanticVersion other = true) (hne : version ≠ other) :
    sourceAdapter version ∈ (AdapterRegistry.registered [sourceAdapter version, sourceAdapter other]).entries.values ∧
      sourceAdapter other ∈ (AdapterRegistry.registered [sourceAdapter version, sourceAdapter other]).entries.values := by
  have hkey : (sourceAdapter version).key ≠ (sourceAdapter other).key := by
    intro heq
    exact hne (congrArg Key.version heq)
  have hempty : ∀ key, AdapterRegistry.new.entries.get? key = none := SortedMap.get?_empty
  rcases register_cases .new (sourceAdapter version) with ⟨error, -, hinvalid | hcontains⟩ | ⟨first, hfirst, hentries⟩
  · rw [validateDeclaration_sourceAdapter h] at hinvalid
    cases hinvalid
  · rw [SortedMap.contains, hempty] at hcontains
    cases hcontains
  · rcases register_cases first (sourceAdapter other) with ⟨error, -, hinvalid | hcontains⟩ | ⟨second, hsecond, hentries'⟩
    · rw [validateDeclaration_sourceAdapter hother] at hinvalid
      cases hinvalid
    · rw [SortedMap.contains, hentries, SortedMap.get?_insert, if_neg hkey.symm, hempty] at hcontains
      cases hcontains
    · have hregistered : AdapterRegistry.registered [sourceAdapter version, sourceAdapter other] = second := by
        rw [AdapterRegistry.registered, List.foldl_cons, List.foldl_cons, List.foldl_nil, hfirst]
        change (first.register (sourceAdapter other)).toOption.getD first = second
        rw [hsecond]
        rfl
      rw [hregistered, mem_values_iff, mem_values_iff, hentries', hentries]
      simp [SortedMap.get?_insert, hkey]

theorem two_le_length {α : Type*} {a b : α} {l : List α} (ha : a ∈ l) (hb : b ∈ l) (hne : a ≠ b) : 2 ≤ l.length := by
  cases l with
  | nil => cases ha
  | cons x rest =>
    cases rest with
    | nil => exact absurd ((List.mem_singleton.mp ha).trans (List.mem_singleton.mp hb).symm) hne
    | cons y rest => simp

/-- A version that is read wrong breaks the lookup next to its rival. -/
theorem not_looksUpNewest {version : String} {v w : SemVer} (hv : v.text = version.toList) (hright : ReadRight w)
    (hmisread : Misread version v w) (hne : version ≠ String.ofList w.text) :
    ¬ (AdapterRegistry.registered [sourceAdapter version, sourceAdapter (String.ofList w.text)]).LooksUpNewest := by
  intro h
  have hw : w.text = (String.ofList w.text).toList := String.toList_ofList.symm
  obtain ⟨hfirst, hsecond⟩ := registered_two (isSemanticVersion_iff.mpr ⟨v, hv⟩) (isSemanticVersion_iff.mpr ⟨w, hw⟩) hne
  have hcalls := fun adapter => @mem_of_mem_registered adapter [sourceAdapter version, sourceAdapter (String.ofList w.text)]
  revert h hfirst hsecond hcalls
  generalize AdapterRegistry.registered [sourceAdapter version, sourceAdapter (String.ofList w.text)] = registry
  intro h hfirst hsecond hcalls
  obtain ⟨found, hlookup, hnewest⟩ := h .source "files"
  rw [lookup_eq] at hlookup
  have hmem : (_, sourceAdapter version) ∈ registry.candidates .source "files" :=
    mem_candidates_iff.mpr ⟨rfl, hfirst, rfl, rfl⟩
  have hmem' : (_, sourceAdapter (String.ofList w.text)) ∈ registry.candidates .source "files" :=
    mem_candidates_iff.mpr ⟨rfl, hsecond, rfl, rfl⟩
  have hrival : readKey (String.ofList w.text) = some w.precedence := readKey_eq_precedence hw hright
  cases hkey : readKey version with
  | none =>
    -- the comparison of the two panics
    have hdiffer : ((sourceAdapter version).key, sourceAdapter version) ≠
        ((sourceAdapter (String.ofList w.text)).key, sourceAdapter (String.ofList w.text)) :=
      fun heq => hne (congrArg (fun entry => entry.1.version) heq)
    have hnone : ∃ entry ∈ registry.candidates .source "files", readKey entry.1.version = none := ⟨_, hmem, hkey⟩
    rw [maxBy_eq_none (two_le_length hmem hmem' hdiffer) hnone] at hlookup
    cases hlookup
  | some key =>
    have hkeys : ∀ entry ∈ registry.candidates .source "files", (readKey entry.1.version).isSome := by
      rintro ⟨entryKey, adapter⟩ hentry
      obtain ⟨rfl, hadapter, -⟩ := mem_candidates_iff.mp hentry
      simp only [List.mem_cons, List.not_mem_nil, or_false] at hcalls
      rcases hcalls adapter hadapter with rfl | rfl
      · exact Option.isSome_iff_exists.mpr ⟨key, hkey⟩
      · exact Option.isSome_iff_exists.mpr ⟨_, hrival⟩
    obtain ⟨best, hbest, hnone, hgreatest⟩ := maxBy_of_keys hkeys
    rw [hbest, Option.map_some, Option.some.injEq] at hlookup
    cases hcase : best with
    | none =>
      rw [hnone hcase] at hmem
      cases hmem
    | some entry =>
      obtain ⟨entryKey, adapter⟩ := entry
      rw [hcase, Option.map_some] at hlookup
      obtain ⟨hentry, z, hz, hz'⟩ := hgreatest _ hcase
      obtain ⟨rfl, hadapter, -⟩ := mem_candidates_iff.mp hentry
      have hfound := hnewest.greatest adapter hlookup.symm
      simp only [List.mem_cons, List.not_mem_nil, or_false] at hcalls
      rcases hcalls adapter hadapter with rfl | rfl
      · -- the version itself is found, so it is on the greater side both as it is and as it is read
        have hle := hfound _ hsecond rfl rfl v w hv hw
        have hread := hz' _ hmem' w.precedence hrival
        obtain rfl := Option.some.inj (hz.symm.trans hkey)
        rcases hmisread z hkey with ⟨hlt, -⟩ | ⟨-, hlt⟩
        · exact absurd hread (not_le_of_gt hlt)
        · exact absurd hle (not_le_of_gt hlt)
      · have hle := hfound _ hfirst rfl rfl w v hw hv
        have hread := hz' _ hmem key hkey
        obtain rfl := Option.some.inj (hz.symm.trans hrival)
        rcases hmisread key hkey with ⟨-, hlt⟩ | ⟨hlt, -⟩
        · exact absurd hle (not_le_of_gt hlt)
        · exact absurd hread (not_le_of_gt hlt)

/-- **Lookup and comparison of versions.** Where every accepted version is read right, each lookup
of every run is right, and the versions are ordered; and a version that is accepted and not
read right breaks the lookup next to one that is. -/
theorem lookup_newest (calls : List RegisteredAdapter) :
    ((∀ call ∈ calls, isSemanticVersion call.declaration.version = true →
        RightVersion call.declaration.version) → (AdapterRegistry.registered calls).LooksUpNewest) ∧
      OrdersVersions (fun version => isSemanticVersion version = true ∧ RightVersion version) ∧
      ∀ version, isSemanticVersion version = true → ¬ RightVersion version →
        ∃ other, isSemanticVersion other = true ∧ RightVersion other ∧
          ¬ (AdapterRegistry.registered [sourceAdapter version, sourceAdapter other]).LooksUpNewest := by
  refine ⟨fun hcalls => looksUpNewest fun adapter hadapter => ?_, ordersVersions, fun version haccepted hwrong => ?_⟩
  · exact hcalls adapter (mem_of_mem_registered hadapter) (accepted_of_mem_values hadapter)
  · obtain ⟨v, hv⟩ := isSemanticVersion_iff.mp haccepted
    have hwrong' : ¬ ReadRight v := by
      intro hright
      refine hwrong fun u hu => ?_
      rwa [text_injective (hu.trans hv.symm)]
    obtain ⟨w, hright, hmisread⟩ := exists_rival hv hwrong'
    have hw : w.text = (String.ofList w.text).toList := String.toList_ofList.symm
    refine ⟨String.ofList w.text, isSemanticVersion_iff.mpr ⟨w, hw⟩, fun u hu => ?_,
      not_looksUpNewest hv hright hmisread fun heq => hwrong' ?_⟩
    · rwa [text_injective (hu.trans hw.symm)]
    · rw [heq, ← hw] at hv
      rwa [text_injective hv]

end Runs

theorem isNumber_one : IsNumber ['1'] := ⟨by decide, List.all_eq_true.mp (by decide), .inr (by decide)⟩

theorem isNumber_nine : IsNumber ['9'] := ⟨by decide, List.all_eq_true.mp (by decide), .inr (by decide)⟩

theorem isNumber_zero : IsNumber ['0'] := ⟨by decide, List.all_eq_true.mp (by decide), .inl rfl⟩

theorem no_identifiers : ∀ id ∈ ([] : List (List Char)), IsIdentifier id := List.forall_mem_nil _

/-- The version 1.9.0. -/
def release : SemVer where
  major := ['1']
  minor := ['9']
  patch := ['0']
  prerelease := []
  build := []
  major_number := isNumber_one
  minor_number := isNumber_nine
  patch_number := isNumber_zero
  prerelease_ids := no_identifiers
  build_ids := no_identifiers

/-- The version 1.9.0-rc.10. -/
def candidate : SemVer :=
  withPrerelease release ["rc".toList, "10".toList] fun id hid => by
    simp only [List.mem_cons, List.not_mem_nil, or_false] at hid
    rcases hid with rfl | rfl
    · exact ⟨by decide, by simp; decide⟩
    · exact ⟨by decide, by simp; decide⟩

/-- A release and one of its candidates are looked up right. -/
theorem lookup_newest_release :
    (AdapterRegistry.registered [sourceAdapter "1.9.0", sourceAdapter "1.9.0-rc.10"]).LooksUpNewest := by
  have hrelease : RightVersion "1.9.0" := by
    intro v hv
    rw [text_injective (hv.trans (show "1.9.0".toList = release.text by decide))]
    exact ⟨by decide, by decide, by decide⟩
  have hcandidate : RightVersion "1.9.0-rc.10" := by
    intro v hv
    rw [text_injective (hv.trans (show "1.9.0-rc.10".toList = candidate.text by decide))]
    exact ⟨by decide, by decide, by decide⟩
  refine (lookup_newest _).1 fun call hcall _ => ?_
  simp only [List.mem_cons, List.not_mem_nil, or_false] at hcall
  rcases hcall with rfl | rfl
  · exact hrelease
  · exact hcandidate

/-- A hyphen in the build of a release puts it before its candidate, and a number that does not
fit into 64 bits makes the lookup panic. -/
theorem lookup_breaks :
    ((AdapterRegistry.registered [sourceAdapter "1.0.0+linux-arm", sourceAdapter "1.0.0-rc.1"]).lookup .source "files" =
        some (some (sourceAdapter "1.0.0-rc.1")) ∧
      (AdapterRegistry.registered [sourceAdapter "18446744073709551616.0.0", sourceAdapter "1.0.0"]).lookup .source
        "files" = none) ∧
      ¬ (AdapterRegistry.registered
          [sourceAdapter "18446744073709551616.0.0", sourceAdapter "1.0.0"]).LooksUpNewest := by
  have hpanics : (AdapterRegistry.registered [sourceAdapter "18446744073709551616.0.0", sourceAdapter "1.0.0"]).lookup
      .source "files" = none := by decide +kernel
  refine ⟨⟨by decide +kernel, hpanics⟩, fun h => ?_⟩
  obtain ⟨found, hfound, -⟩ := h .source "files"
  rw [hpanics] at hfound
  cases hfound

end Apmpr.Adapters
