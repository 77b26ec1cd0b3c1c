import Apmpr.Planner.Dependencies
import Apmpr.Planner.Groups
import Apmpr.Planner.Moves
import Apmpr.Planner.Panics
import Apmpr.Planner.Resources
import Apmpr.Router.Encoding
import Apmpr.Router.Validate

/-!
# The configurations of sidecars

A routed instance runs behind a router of its own, which reads its configuration from a
file the planner writes. The planner builds that file as JSON, by its own rules for names and
ports; the router reads it as a `RouterConfig` and checks it by others. Here is the
configuration the planner means (`sidecarConfig`), and that the router reads it and accepts it.

## What is proved

* `decode_routerConfig`: what the planner writes is read as what it means.
* `sidecarConfig_valid`: what it means is accepted, in a valid bundle.
* `sidecars_route_active`: the members of a sidecar are the active members of the group of
  its instance, one for every service they are to serve; a sidecar of an instance that is
  disabled in its group has none.
* `sidecar_of_disabled`: a disabled instance of a group with an active member.
-/

namespace Apmpr.Planner

open Router (RouterConfig RouterSpec TransparentMember TransparentProxy validSegment validIdentifier)

/-! ### Names -/

theorem utf8ByteSize_eq_byteLength (s : String) : s.utf8ByteSize = byteLength s := by
  have hlist : ∀ l : List Char, (String.ofList l).utf8ByteSize = (l.map Char.utf8Size).sum := by
    intro l
    induction l with
    | nil => rfl
    | cons c rest ih =>
      rw [← List.singleton_append, String.ofList_append, String.utf8ByteSize_append, ih, ← String.singleton_eq_ofList,
        String.utf8ByteSize_singleton, List.map_append, List.sum_append]
      rfl
  rw [byteLength, ← hlist, String.ofList_toList]

theorem byteLength_of_ascii {s : String} (h : IsAscii s) : byteLength s = s.toList.length := by
  rw [byteLength, List.map_congr_left h, List.map_const', List.sum_replicate_nat, Nat.mul_one]

/-- What makes a text a segment the router accepts. -/
theorem validSegment_of {s : String} (hchars : ∀ c ∈ s.toList, isNameChar c = true) (hlength : s.toList.length ≤ 63)
    (hhead : ∃ c, s.toList.head? = some c ∧ Text.isAsciiAlphanumeric c = true)
    (hlast : ∃ c, s.toList.getLast? = some c ∧ Text.isAsciiAlphanumeric c = true) : validSegment s = true := by
  obtain ⟨first, hfirst, hfirstChar⟩ := hhead
  obtain ⟨last, hlast, hlastChar⟩ := hlast
  have hne : s ≠ "" := by
    rintro rfl
    cases hfirst
  have hascii : IsAscii s := fun c hc => utf8Size_of_isNameChar (hchars c hc)
  have hall : s.toList.all (fun c => Text.isAsciiLower c || Text.isAsciiDigit c || c = '-') = true :=
    List.all_eq_true.mpr hchars
  simp [validSegment, hne, utf8ByteSize_eq_byteLength, byteLength_of_ascii hascii, hlength, hall, hfirst, hfirstChar,
    hlast, hlastChar]

/-- The parts of a valid name. -/
structure NameParts (name : String) : Prop where
  chars : ∀ c ∈ name.toList, isNameChar c = true
  length : name.toList.length ≤ 63
  head : ∃ c, name.toList.head? = some c ∧ Text.isAsciiLower c = true
  last : ∃ c, name.toList.getLast? = some c ∧ Text.isAsciiAlphanumeric c = true

theorem nameParts_of_validName {name : String} (h : validName name = true) : NameParts name := by
  have hchars : ∀ c ∈ name.toList, isNameChar c = true := fun c hc => isNameChar_of_validName h hc
  simp only [validName, Bool.and_eq_true, decide_eq_true_eq, List.all_eq_true, Bool.not_eq_true'] at h
  obtain ⟨⟨⟨hne, hlength⟩, hall⟩, hdash⟩ := h
  have hlist : name.toList ≠ [] := fun hnil => hne (String.toList_eq_nil_iff.mp hnil)
  obtain ⟨init, last, hsplit⟩ := (List.eq_nil_or_concat name.toList).resolve_left hlist
  refine ⟨hchars, hlength, ?_, last, ?_, ?_⟩
  · cases htext : name.toList with
    | nil => exact absurd htext hlist
    | cons c rest =>
      have hfirst := hall (c, 0) (by rw [htext]; exact List.mem_cons_self)
      exact ⟨c, rfl, by simpa using hfirst⟩
  · rw [hsplit]
    simp
  · have hmem : last ∈ name.toList := by
      rw [hsplit]
      simp
    have hlast := hchars last hmem
    have hnot : last ≠ '-' := by
      rintro rfl
      have hends : Text.endsWith name "-" = true := by
        rw [Text.endsWith, hsplit, List.concat_eq_append]
        exact List.isSuffixOf_iff_suffix.mpr ⟨init, rfl⟩
      rw [hends] at hdash
      cases hdash
    rw [isNameChar, decide_eq_false hnot, Bool.or_false, Bool.or_eq_true] at hlast
    rcases hlast with hlast | hlast <;> simp [Text.isAsciiAlphanumeric, hlast]

theorem isAsciiAlphanumeric_of_lower {c : Char} (h : Text.isAsciiLower c = true) : Text.isAsciiAlphanumeric c = true := by
  simp [Text.isAsciiAlphanumeric, h]

/-- A name the planner accepts is a segment the router accepts. -/
theorem validSegment_of_validName {name : String} (h : validName name = true) : validSegment name = true := by
  obtain ⟨hchars, hlength, ⟨c, hc, hlower⟩, hlast⟩ := nameParts_of_validName h
  exact validSegment_of hchars hlength ⟨c, hc, isAsciiAlphanumeric_of_lower hlower⟩ hlast

theorem exists_last_hexDigest (digest : Vector (Fin 256) 32) :
    ∃ c, ((hexDigest digest).toList.take 8).getLast? = some c ∧ Text.isAsciiAlphanumeric c = true := by
  have hall : ∀ b : Fin 256, (hexByte b).all Text.isAsciiAlphanumeric = true := by decide +kernel
  have hlength : (hexDigest digest).toList.length = 64 := by
    have htwo : digest.toList.map (fun b => (hexByte b).length) = digest.toList.map fun _ => 2 :=
      List.map_congr_left fun _ _ => rfl
    rw [hexDigest, String.toList_ofList, List.length_flatMap, htwo]
    simp
  have hne : (hexDigest digest).toList.take 8 ≠ [] := by
    intro hnil
    have := congrArg List.length hnil
    rw [List.length_take, hlength] at this
    cases this
  refine ⟨_, List.getLast?_eq_some_getLast hne, ?_⟩
  have hmem := List.mem_of_mem_take (List.getLast_mem hne)
  generalize ((hexDigest digest).toList.take 8).getLast hne = digit at hmem ⊢
  rw [show (hexDigest digest).toList = digest.toList.flatMap hexByte from String.toList_ofList] at hmem
  obtain ⟨b, -, hb⟩ := List.mem_flatMap.mp hmem
  exact List.all_eq_true.mp (hall b) _ hb

theorem length_takeBytes {l : List Char} (h : ∀ c ∈ l, c.utf8Size = 1) (n : ℕ) : (takeBytes n l).length ≤ n := by
  induction l generalizing n with
  | nil => exact Nat.zero_le n
  | cons c rest ih =>
    rw [takeBytes, h c List.mem_cons_self]
    split_ifs with hn
    · have := ih (fun c hc => h c (List.mem_cons_of_mem _ hc)) (n - 1)
      rw [List.length_cons]
      omega
    · exact Nat.zero_le n

/-- A name generated of names the planner accepts is a segment the router accepts. -/
theorem validSegment_resourceName (platform : Platform) {a b d : String} (ha : validName a = true)
    (hb : validName b = true) (hd : validName d = true) : validSegment (resourceName platform [a, b, d]) = true := by
  obtain ⟨hchars, -, ⟨c, hc, hlower⟩, -⟩ := nameParts_of_validName ha
  obtain ⟨last, hlast, hlastChar⟩ := (nameParts_of_validName hd).last
  have hascii : IsAscii ("--".intercalate [a, b, d]) := isAscii_joinedText fun part hpart => by
    simp only [List.mem_cons, List.not_mem_nil, or_false] at hpart
    rcases hpart with rfl | rfl | rfl
    · exact isAscii_of_validName ha
    · exact isAscii_of_validName hb
    · exact isAscii_of_validName hd
  have hjoined : ("--".intercalate [a, b, d]).toList = a.toList ++ ("--" ++ b ++ "--").toList ++ d.toList := by
    rw [show "--".intercalate [a, b, d] = a ++ "--" ++ b ++ "--" ++ d from rfl]
    simp
  obtain ⟨rest, hrest⟩ := List.head?_eq_some_iff.mp hc
  have hhead : (resourceName platform [a, b, d]).toList.head? = some c := by
    refine @head?_resourceName platform c ?_ _ (rest ++ ("--" ++ b ++ "--").toList ++ d.toList) ?_
    · rw [utf8Size_of_isNameChar (hchars c (List.mem_of_mem_head? hc))]
      omega
    · rw [hjoined, hrest]
      simp
  refine validSegment_of (fun c hc => isNameChar_resourceName platform ha hb hd hc) ?_
    ⟨c, hhead, isAsciiAlphanumeric_of_lower hlower⟩ ?_
  · rw [resourceName]
    split_ifs with hshort
    · rwa [byteLength_of_ascii hascii] at hshort
    · have htaken := length_takeBytes hascii 54
      have hdigest := List.length_take_le 8 (hexDigest (platform.sha256 ("--".intercalate [a, b, d]))).toList
      have hdash : ['-'].length = 1 := rfl
      rw [String.toList_append, String.toList_append, List.length_append, List.length_append, String.toList_ofList,
        String.toList_ofList, String.toList_ofList, hdash]
      omega
  · rw [resourceName]
    split_ifs with hshort
    · exact ⟨last, by rw [hjoined, List.getLast?_append, hlast]; rfl, hlastChar⟩
    · obtain ⟨digit, hdigit, hdigitChar⟩ := exists_last_hexDigest (platform.sha256 ("--".intercalate [a, b, d]))
      refine ⟨digit, ?_, hdigitChar⟩
      rw [String.toList_append, List.getLast?_append, String.toList_ofList, hdigit]
      rfl

/-- A name and a service of it make a path the router accepts. -/
theorem validIdentifier_of_validName {name : String} (h : validName name = true) : validIdentifier true name = true := by
  have hslash := slash_not_mem_of_validName h
  rw [validIdentifier, if_pos rfl, Text.split, Text.splitChars_of_not_mem hslash, List.count_eq_zero_of_not_mem hslash]
  simp [validSegment_of_validName h]

theorem validIdentifier_slash {name service : String} (hname : validName name = true) (hservice : validName service = true) :
    validIdentifier true s!"{name}/{service}" = true := by
  have hslash := slash_not_mem_of_validName hname
  have hslash' := slash_not_mem_of_validName hservice
  have htext : s!"{name}/{service}".toList = name.toList ++ '/' :: service.toList := by simp [toString]
  rw [validIdentifier, if_pos rfl, Text.split, htext, Text.splitChars_append_cons, Text.splitChars_of_not_mem hslash,
    Text.splitChars_of_not_mem hslash', List.count_append, List.count_cons_self, List.count_eq_zero_of_not_mem hslash,
    List.count_eq_zero_of_not_mem hslash']
  simp [validSegment_of_validName hname, validSegment_of_validName hservice]

/-! ### Ports of external instances -/

theorem mem_portsBetween {start stop port : U16} : port ∈ portsBetween start stop ↔ start ≤ port ∧ port ≤ stop := by
  rw [portsBetween, List.mem_map]
  constructor
  · rintro ⟨n, hn, rfl⟩
    rw [List.mem_range'_1] at hn
    have hlt : n < 65536 := by omega
    simp only [Fin.le_def, Fin.ofNat_eq_cast, Fin.val_natCast, Nat.mod_eq_of_lt hlt]
    omega
  · rintro ⟨hstart, hstop⟩
    rw [Fin.le_def] at hstart hstop
    refine ⟨port.val, List.mem_range'_1.mpr ?_, ?_⟩
    · omega
    · simp

/-- One port passes if it is not zero, its range is not empty, and its numbers are new. -/
theorem externalPortStep_spec (path : String) (state : List U16 × List Diagnostic) (entry : ExternalPort × ℕ)
    (h : (externalPortStep path state entry).2 = []) :
    state.2 = [] ∧ entry.1.expanded ≠ [] ∧ 0 ∉ entry.1.expanded ∧
      (externalPortStep path state entry).1 = entry.1.expanded.reverse ++ state.1 ∧
      (state.1.Nodup → (entry.1.expanded.reverse ++ state.1).Nodup) := by
  unfold externalPortStep at h ⊢
  dsimp only at h ⊢
  split_ifs at h ⊢ with hzero horder hcount
  · simp at h
  · simp at h
  · simp at h
  · have hfold := foldl_distinctStep
      (fun value => (⟨.duplicateName, s!"{path}.ports[{entry.2}]", s!"external port {value} is declared more than once"⟩ : Diagnostic))
      entry.1.expanded state h
    obtain ⟨hstate, hseen, hnodup⟩ := hfold
    rw [Bool.or_eq_true, decide_eq_true_eq, decide_eq_true_eq, not_or] at hzero
    refine ⟨hstate, ?_, ?_, hseen, hnodup⟩
    · exact List.ne_nil_of_mem (mem_portsBetween.mpr ⟨le_refl _, not_lt.mp horder⟩)
    · intro hmem
      have hle := (mem_portsBetween.mp hmem).1
      exact hzero.1 (Fin.le_zero_iff.mp hle)

theorem foldl_externalPortStep_spec (path : String) (entries : List (ExternalPort × ℕ)) (state : List U16 × List Diagnostic)
    (hstate : state.1.Nodup) (h : (entries.foldl (externalPortStep path) state).2 = []) :
    (∀ entry ∈ entries, entry.1.expanded ≠ [] ∧ 0 ∉ entry.1.expanded) ∧
      ((entries.flatMap fun entry => entry.1.expanded).reverse ++ state.1).Nodup := by
  have herrors : ∀ (entries : List (ExternalPort × ℕ)) state, (entries.foldl (externalPortStep path) state).2 = [] →
      state.2 = [] := by
    intro entries
    induction entries with
    | nil => exact fun _ h => h
    | cons entry rest ih => exact fun state h => (externalPortStep_spec path state entry (ih _ h)).1
  induction entries generalizing state with
  | nil => exact ⟨nofun, hstate⟩
  | cons entry rest ih =>
    rw [List.foldl_cons] at h
    obtain ⟨-, hne, hzero, hseen, hnodup⟩ := externalPortStep_spec path state entry (herrors rest _ h)
    have hnodup' := hnodup hstate
    rw [← hseen] at hnodup'
    obtain ⟨hall, hrest⟩ := ih _ hnodup' h
    refine ⟨List.forall_mem_cons.mpr ⟨⟨hne, hzero⟩, hall⟩, ?_⟩
    rw [hseen] at hrest
    simpa using hrest

/-- The ports of a valid external instance: there are some, none is zero, and they differ. -/
theorem externalPorts_of_errors {platform : Platform} {path : String} {inst : Instance}
    (h : externalInstanceErrors platform path inst = []) :
    inst.expandedExternalPorts ≠ [] ∧ 0 ∉ inst.expandedExternalPorts ∧ inst.expandedExternalPorts.Nodup := by
  simp only [externalInstanceErrors, List.append_eq_nil_iff, reportIf_eq_nil] at h
  obtain ⟨⟨⟨⟨-, hports⟩, hfold⟩, -⟩, -⟩ := h
  obtain ⟨hall, hnodup⟩ := foldl_externalPortStep_spec path inst.ports.zipIdx ([], []) List.nodup_nil hfold
  have hports' : ∀ port ∈ inst.ports, port.expanded ≠ [] ∧ 0 ∉ port.expanded := by
    intro port hport
    obtain ⟨index, hindex⟩ := List.getElem?_of_mem hport
    exact hall (port, index) (List.mk_mem_zipIdx_iff_getElem?.mpr hindex)
  have hexpanded : (inst.ports.zipIdx.flatMap fun entry => entry.1.expanded) = inst.expandedExternalPorts := by
    rw [Instance.expandedExternalPorts, ← List.flatMap_map Prod.fst, List.zipIdx_map_fst]
  rw [hexpanded, List.append_nil, List.nodup_reverse] at hnodup
  refine ⟨?_, ?_, hnodup⟩
  · cases hlist : inst.ports with
    | nil => simp [hlist] at hports
    | cons port rest =>
      obtain ⟨number, hnumber⟩ := List.exists_mem_of_ne_nil _ (hports' port (by rw [hlist]; exact List.mem_cons_self)).1
      refine List.ne_nil_of_mem (a := number) ?_
      rw [Instance.expandedExternalPorts, hlist, List.flatMap_cons]
      exact List.mem_append_left _ hnumber
  · intro hmem
    obtain ⟨port, hport, hzero⟩ := List.mem_flatMap.mp hmem
    exact (hports' port hport).2 hzero

/-! ### What a sidecar is to be told -/

section Meaning

variable (platform : Platform) (document : Document) (devices : Devices)

/-- The services a member is to serve: the one it names, or all of its instance's. -/
def memberServices (member : String) (inst : Instance) : List String :=
  match (providerReference member).2 with
  | some service => [service]
  | none => (document.spec.blocks.get? inst.block).elim [] fun block => block.services.keys

/-- Where a service of an instance is reached: on the instance's device, or under its name. -/
def serviceHost (inst : Instance) (service : String) : String :=
  match inst.remoteDevice.bind devices.get? with
  | some device => device.host
  | none => serviceNameFor platform document.metadata.name inst.name service

/-- What a sidecar is to be told of a member of a group: where its services are, or the host
and the ports of an external one. -/
def memberTargets (member : String) : List TransparentMember :=
  match (instanceMap document.spec).get? (memberInstance member) with
  | none => []
  | some inst =>
    match inst.external with
    | some host => [⟨inst.name, host, some inst.expandedExternalPorts⟩]
    | none => (memberServices document member inst).map fun service =>
        ⟨s!"{inst.name}/{service}", serviceHost platform document devices inst service, none⟩

/-- The configuration of a sidecar that intercepts the connections of an instance. -/
def sidecarConfig (consumer : String) (members : List TransparentMember) : RouterConfig where
  apiVersion := Router.API_VERSION
  kind := Router.KIND
  metadata := ⟨document.metadata.name⟩
  spec :=
    { snapshot := ⟨resourceName platform [document.metadata.name, consumer, "initial"], 1, ⟨.close, .close, .close, .close, .close⟩⟩
      exposure := none
      listeners := []
      providers := []
      groups := []
      bindings := []
      routes := []
      browserRoutes := []
      transparentProxy := some ⟨consumer, 65535, members, 250⟩
      identity := .default }

end Meaning

/-! ### The configuration is read -/

section Read

variable {platform : Platform} {document : Document} {devices : Devices}

open Router.Encoding in
theorem decode_member (component host : String) :
    transparentMember.decode (.obj [("component", .string component), ("host", .string host)])
      = some ⟨component, host, none⟩ := by
  rw [transparentMember, Fields.decode_obj _ _ _ rfl]
  simp [Fields.optional, SortedMap.ofList, SortedMap.get?_insert]

open Router.Encoding in
theorem decode_externalMember (component host : String) (ports : List U16) :
    transparentMember.decode (.obj [("component", .string component), ("host", .string host),
        ("ports", .array (ports.map fun port => Json.nat port.val))])
      = some ⟨component, host, some ports⟩ := by
  have hports : (Codec.bounded 65536).list.decode (.array (ports.map fun port => Json.nat port.val)) = some ports :=
    (Codec.bounded 65536).list.decode_encode ports
  rw [transparentMember, Fields.decode_obj _ _ _ rfl]
  simp [Fields.optional, SortedMap.ofList, SortedMap.get?_insert, Codec.option, hports]

open Router.Encoding in
theorem decode_transparentProxy {items : List Json} {members : List TransparentMember}
    (h : items.mapM transparentMember.decode = some members) (consumer : String) :
    transparentProxy.decode (.obj [("consumer", .string consumer), ("port", .nat 65535), ("members", .array items),
        ("connectTimeoutMs", .nat 250)])
      = some ⟨consumer, 65535, members, 250⟩ := by
  have hport : (Codec.bounded 65536).decode (.nat 65535) = some 65535 := (Codec.bounded 65536).decode_encode 65535
  have htimeout : (Codec.bounded (2 ^ 64)).decode (.nat 250) = some 250 := (Codec.bounded (2 ^ 64)).decode_encode 250
  have hmembers : transparentMember.list.decode (.array items) = some members := h
  rw [transparentProxy, Fields.decode_obj _ _ _ rfl]
  simp [Fields.withDefault, SortedMap.ofList, SortedMap.get?_insert, hport, htimeout, hmembers, -Nat.reducePow]

open Router.Encoding in
theorem decode_transitions : transitionPolicies.decode (.obj [("http", .obj [("strategy", .string "close")]),
      ("https", .obj [("strategy", .string "close")]), ("websocket", .obj [("strategy", .string "close")]),
      ("grpc", .obj [("strategy", .string "close")]), ("tcp", .obj [("strategy", .string "close")])])
    = some ⟨.close, .close, .close, .close, .close⟩ := by
  have hclose : transitionPolicy.decode (.obj [("strategy", .string "close")]) = some .close :=
    transitionPolicy.decode_encode .close
  rw [transitionPolicies, Fields.decode_obj _ _ _ rfl]
  simp [SortedMap.ofList, SortedMap.get?_insert, hclose]

open Router.Encoding in
theorem decode_snapshot (id : String) :
    routeSnapshot.decode (.obj [("id", .string id), ("version", .nat 1),
        ("transitions", .obj [("http", .obj [("strategy", .string "close")]), ("https", .obj [("strategy", .string "close")]),
          ("websocket", .obj [("strategy", .string "close")]), ("grpc", .obj [("strategy", .string "close")]),
          ("tcp", .obj [("strategy", .string "close")])])])
      = some ⟨id, 1, ⟨.close, .close, .close, .close, .close⟩⟩ := by
  have hversion : (Codec.bounded (2 ^ 64)).decode (.nat 1) = some 1 := (Codec.bounded (2 ^ 64)).decode_encode 1
  rw [routeSnapshot, Fields.decode_obj _ _ _ rfl]
  simp [SortedMap.ofList, SortedMap.get?_insert, hversion, decode_transitions, -Nat.reducePow]

open Router.Encoding in
/-- **The router reads what the planner means.** -/
theorem decode_routerConfig {platform : Platform} {document : Document} {groups : ResolvedGroups} {devices : Devices}
    {group : Option String} {members : List TransparentMember}
    (h : (group.toList.flatMap fun group => transparentMembers platform document groups group devices).mapM
      transparentMember.decode = some members) (consumer : Instance) :
    Router.Encoding.routerConfig.decode (routerConfig platform document groups devices consumer true group)
      = some (sidecarConfig platform document consumer.name members) := by
  have hproxy := decode_transparentProxy h consumer.name
  have hsnapshot := decode_snapshot (resourceName platform [document.metadata.name, consumer.name, "initial"])
  have hmetadata : (Fields.object ((Fields.required "deployment" Codec.string).imap Router.ConfigMetadata.mk (·.deployment)
      fun _ => rfl) (by decide)).decode (.obj [("deployment", .string document.metadata.name)])
      = some ⟨document.metadata.name⟩ := by
    rw [Fields.decode_obj _ _ _ rfl]
    simp [SortedMap.ofList, SortedMap.get?_insert]
  rw [Planner.routerConfig, if_pos rfl]
  have hne : Json.obj [("consumer", .string consumer.name), ("port", .nat 65535), ("members", .array (group.toList.flatMap
      fun group => transparentMembers platform document groups group devices)), ("connectTimeoutMs", .nat 250)] ≠ .null := by
    intro hnull
    cases hnull
  generalize Json.obj [("consumer", Json.string consumer.name), _, _, _] = proxy at hproxy hne ⊢
  generalize Json.obj [("id", Json.string _), _, _] = snapshot at hsnapshot ⊢
  have hspec : routerSpec.decode (.obj ([("snapshot", snapshot), ("listeners", .array []), ("providers", .array []),
      ("routes", .array [])] ++ [("transparentProxy", proxy)]))
      = some (sidecarConfig platform document consumer.name members).spec := by
    rw [routerSpec, Fields.decode_obj _ _ _ rfl]
    simp [Fields.optional, Fields.withDefault, items, SortedMap.ofList, SortedMap.get?_insert, hsnapshot, Codec.list,
      Codec.decode_option _ _ hne, hproxy, sidecarConfig]
  rw [Router.Encoding.routerConfig, Fields.decode_obj _ _ _ rfl]
  generalize Json.obj ([("snapshot", snapshot), _, _, _] ++ _) = spec at hspec ⊢
  generalize Json.obj [("deployment", _)] = metadata at hmetadata ⊢
  simp [SortedMap.ofList, SortedMap.get?_insert, hmetadata, hspec]
  rfl

variable {platform : Platform} {document : Document} {devices : Devices}

/-- A member that can be looked up is served by the services it is to serve. -/
theorem filter_namesService {member : String} {inst : Instance} (h : MemberNamed document.spec member inst)
    (hmanaged : inst.isExternal = false) {block : Block} (hblock : document.spec.blocks.get? inst.block = some block) :
    block.services.keys.filter (namesService member) = memberServices document member inst := by
  rw [memberServices, hblock]
  cases hservice : (providerReference member).2 with
  | none =>
    have hall : ∀ service ∈ block.services.keys, namesService member service = true := fun _ _ => by
      rw [namesService, hservice]
    exact List.filter_eq_self.mpr hall
  | some requested =>
    have hcontains := h.service hmanaged block hblock requested (Option.mem_def.mpr hservice)
    have hmem : requested ∈ block.services.keys := by
      rw [SortedMap.mem_keys_iff]
      exact Option.isSome_iff_exists.mp hcontains
    have hnodup : block.services.keys.Nodup := block.services.nodup_keys
    have hnames : namesService member = fun service => service == requested := by
      funext service
      rw [namesService, hservice]
      exact (beq_eq_decide ..).symm
    rw [hnames, List.filter_beq, List.count_eq_one_of_mem hnodup hmem]
    rfl

theorem memberTargets_of_external {member : String} {inst : Instance} (h : MemberNamed document.spec member inst)
    {host : String} (hexternal : inst.external = some host) :
    memberTargets platform document devices member = [⟨inst.name, host, some inst.expandedExternalPorts⟩] := by
  rw [memberTargets, h.found]
  dsimp only
  rw [hexternal]

theorem memberTargets_of_managed {member : String} {inst : Instance} (h : MemberNamed document.spec member inst)
    (hmanaged : inst.external = none) :
    memberTargets platform document devices member = (memberServices document member inst).map fun service =>
      ⟨s!"{inst.name}/{service}", serviceHost platform document devices inst service, none⟩ := by
  rw [memberTargets, h.found]
  dsimp only
  rw [hmanaged]

open Router.Encoding in
/-- The members of a group are read as what they are to be. -/
theorem decode_transparentMembers {groups : ResolvedGroups} {group : String}
    (hmembers : ∀ member ∈ (groups.members.get? group).getD [], ∃ inst, MemberNamed document.spec member inst ∧
      (inst.isExternal = false → ∃ block, document.spec.blocks.get? inst.block = some block)) :
    (transparentMembers platform document groups group devices).mapM transparentMember.decode =
      some (((groups.members.get? group).getD []).flatMap (memberTargets platform document devices)) := by
  refine mapM_flatMap_some fun member hmember => ?_
  obtain ⟨inst, hnamed, hblock⟩ := hmembers member hmember
  dsimp only
  rw [hnamed.found]
  dsimp only
  rw [← name_of_instanceMap hnamed.found]
  cases hexternal : inst.external with
  | some host =>
    rw [memberTargets_of_external hnamed hexternal]
    have hports : (inst.expandedExternalPorts >>= fun port => pure port.val).map Json.nat =
        inst.expandedExternalPorts.map fun port => Json.nat port.val := by
      rw [List.bind_eq_flatMap, List.map_flatMap, ← List.flatMap_pure_eq_map]
      rfl
    have hread := decode_externalMember inst.name host inst.expandedExternalPorts
    rw [← hports] at hread
    show List.mapM _ [_] = _
    rw [List.mapM_cons, show transparentMember.decode _ = _ from hread]
    rfl
  | none =>
    have hmanaged : inst.isExternal = false := by
      rw [Instance.isExternal, hexternal]
      rfl
    obtain ⟨block, hblock⟩ := hblock hmanaged
    rw [memberTargets_of_managed hnamed hexternal]
    dsimp only
    rw [hblock, Option.toList_some, List.flatMap_singleton, filter_namesService hnamed hmanaged hblock]
    exact mapM_map_some fun service _ => decode_member _ _

end Read

/-! ### The configuration is accepted -/

section Accepted

variable {platform : Platform} {document : Document} {devices : Devices}

/-- The members of a valid bundle: their names are checked, their services are there, and the
ports of an external one differ. -/
structure MemberChecked (document : Document) (devices : Devices) (member : String) (inst : Instance) : Prop where
  named : MemberNamed document.spec member inst
  name : validName inst.name = true
  block : inst.isExternal = false → ∃ block, document.spec.blocks.get? inst.block = some block ∧
    ∀ service ∈ block.services.keys, validName service = true
  external : ∀ host ∈ inst.external, host ≠ "" ∧ inst.expandedExternalPorts ≠ [] ∧ 0 ∉ inst.expandedExternalPorts ∧
    inst.expandedExternalPorts.Nodup

theorem validName_of_mem_memberServices {member service : String} {inst : Instance}
    (h : MemberChecked document devices member inst) (hmanaged : inst.isExternal = false)
    (hservice : service ∈ memberServices document member inst) : validName service = true := by
  obtain ⟨block, hblock, hnames⟩ := h.block hmanaged
  rw [← filter_namesService h.named hmanaged hblock] at hservice
  exact hnames service (List.mem_filter.mp hservice).1

/-- A service is reached at a host. -/
theorem serviceHost_ne (hdevices : ∀ device details, devices.get? device = some details → details.host ≠ "")
    (hdeployment : validName document.metadata.name = true) {inst : Instance} (hname : validName inst.name = true)
    {service : String} (hservice : validName service = true) : serviceHost platform document devices inst service ≠ "" := by
  rw [serviceHost]
  cases hdevice : inst.remoteDevice.bind devices.get? with
  | some details =>
    obtain ⟨device, -, hget⟩ := Option.bind_eq_some_iff.mp hdevice
    exact hdevices device details hget
  | none =>
    have hsegment := validSegment_resourceName platform hdeployment hname hservice
    dsimp only
    intro hempty
    rw [serviceNameFor] at hempty
    rw [hempty] at hsegment
    cases hsegment

/-- What a sidecar is told of a member is accepted, and says which instance it is about. -/
theorem memberTargets_valid (hdevices : ∀ device details, devices.get? device = some details → details.host ≠ "")
    (hdeployment : validName document.metadata.name = true) {member : String} {inst : Instance}
    (h : MemberChecked document devices member inst) {target : TransparentMember}
    (htarget : target ∈ memberTargets platform document devices member) :
    target.Valid ∧ memberInstance target.component = memberInstance member := by
  have hname := name_of_instanceMap h.named.found
  have hslash := slash_not_mem_of_validName h.name
  cases hexternal : inst.external with
  | some host =>
    rw [memberTargets_of_external h.named hexternal] at htarget
    obtain rfl := List.mem_singleton.mp htarget
    obtain ⟨hhost, hports⟩ := h.external host hexternal
    refine ⟨⟨validIdentifier_of_validName h.name, hhost, fun ports hmem => ?_⟩, ?_⟩
    · obtain rfl := Option.some.inj (Option.mem_def.mp hmem)
      exact hports
    · rw [← hname, memberInstance, providerReference_of_not_mem hslash]
  | none =>
    rw [memberTargets_of_managed h.named hexternal] at htarget
    have hmanaged : inst.isExternal = false := by
      rw [Instance.isExternal, hexternal]
      rfl
    obtain ⟨service, hservice, rfl⟩ := List.mem_map.mp htarget
    have hvalid := validName_of_mem_memberServices h hmanaged hservice
    refine ⟨⟨validIdentifier_slash h.name hvalid, serviceHost_ne hdevices hdeployment h.name hvalid,
      fun _ hmem => by cases hmem⟩, ?_⟩
    have hsplit : Text.splitOnce '/' s!"{inst.name}/{service}" = some (inst.name, service) := Text.splitOnce_slash hslash
    rw [← hname, memberInstance, providerReference, hsplit]

/-- The services of a member differ. -/
theorem nodup_memberTargets {member : String} {inst : Instance} (h : MemberChecked document devices member inst) :
    ((memberTargets platform document devices member).map TransparentMember.component).Nodup := by
  cases hexternal : inst.external with
  | some host =>
    rw [memberTargets_of_external h.named hexternal]
    exact List.nodup_singleton _
  | none =>
    have hmanaged : inst.isExternal = false := by
      rw [Instance.isExternal, hexternal]
      rfl
    obtain ⟨block, hblock, -⟩ := h.block hmanaged
    rw [memberTargets_of_managed h.named hexternal, List.map_map, ← filter_namesService h.named hmanaged hblock]
    have hkeys : block.services.keys.Nodup := block.services.nodup_keys
    refine (hkeys.filter _).map fun service service' heq => ?_
    have htexts : inst.name ++ "/" ++ service = inst.name ++ "/" ++ service' := heq
    exact (String.append_right_inj _).mp htexts

/-- What sidecars are told of a group is accepted: the components differ as the instances do. -/
theorem nodup_components {members : List String} (hdistinct : (members.map memberInstance).Nodup)
    (hdevices : ∀ device details, devices.get? device = some details → details.host ≠ "")
    (hdeployment : validName document.metadata.name = true)
    (h : ∀ member ∈ members, ∃ inst, MemberChecked document devices member inst) :
    ((members.flatMap (memberTargets platform document devices)).map TransparentMember.component).Nodup := by
  rw [List.map_flatMap, List.nodup_flatMap]
  refine ⟨fun member hmember => ?_, ?_⟩
  · obtain ⟨inst, hchecked⟩ := h member hmember
    exact nodup_memberTargets hchecked
  · refine (List.pairwise_map.mp hdistinct).imp_of_mem fun hfirst hsecond hne => ?_
    obtain ⟨inst, hchecked⟩ := h _ hfirst
    obtain ⟨inst', hchecked'⟩ := h _ hsecond
    intro component hcomponent hcomponent'
    obtain ⟨target, htarget, rfl⟩ := List.mem_map.mp hcomponent
    obtain ⟨target', htarget', heq⟩ := List.mem_map.mp hcomponent'
    have hinst := (memberTargets_valid hdevices hdeployment hchecked htarget).2
    have hinst' := (memberTargets_valid hdevices hdeployment hchecked' htarget').2
    rw [heq, hinst] at hinst'
    exact hne hinst'

/-- **What the planner means is accepted.** -/
theorem sidecarConfig_valid {members : List String} (hdistinct : (members.map memberInstance).Nodup)
    (hdevices : ∀ device details, devices.get? device = some details → details.host ≠ "")
    (hdeployment : validName document.metadata.name = true) {consumer : String} (hconsumer : validName consumer = true)
    (h : ∀ member ∈ members, ∃ inst, MemberChecked document devices member inst) :
    (sidecarConfig platform document consumer (members.flatMap (memberTargets platform document devices))).Valid where
  schema := ⟨rfl, rfl⟩
  deployment := validSegment_of_validName hdeployment
  snapshotId := validSegment_resourceName platform hdeployment hconsumer (by decide)
  exposure _ hexposure := by cases hexposure
  listeners _ hmem := absurd hmem List.not_mem_nil
  listenerKeys := List.nodup_nil
  slotProtocol _ hmem := absurd hmem List.not_mem_nil
  transparentProxy proxy hproxy := by
    obtain rfl := Option.some.inj (Option.mem_def.mp hproxy)
    refine ⟨validSegment_of_validName hconsumer, show (65535 : U16) ≠ 0 by decide, show (250 : U64) ≠ 0 by decide,
      fun target htarget => ?_, ?_⟩
    · obtain ⟨member, hmember, htarget⟩ := List.mem_flatMap.mp htarget
      obtain ⟨inst, hchecked⟩ := h member hmember
      exact (memberTargets_valid hdevices hdeployment hchecked htarget).1
    · exact nodup_components hdistinct hdevices hdeployment h
  providerIds := List.nodup_nil
  providers _ hmem := absurd hmem List.not_mem_nil
  groupIds := List.nodup_nil
  groups _ hmem := absurd hmem List.not_mem_nil
  bindingConsumers := List.nodup_nil
  bindings _ hmem := absurd hmem List.not_mem_nil
  routeKeys := List.nodup_nil
  routes _ hmem := absurd hmem List.not_mem_nil
  browserRouteKeys := List.nodup_nil
  browserRoutes _ hmem := absurd hmem List.not_mem_nil

end Accepted

/-! ### Sidecars of a plan -/

section Plans

variable {platform : Platform} {bundle : Bundle} {devices : Devices} {groups : ResolvedGroups}

/-- The members of the groups of a valid bundle are checked. -/
theorem memberChecked_of_validate (h : validate platform bundle devices = .ok groups) {name : String} {group : ServiceGroup}
    (hgroup : bundle.document.spec.groups.get? name = some group) {member : String} (hmember : member ∈ group.instances) :
    ∃ inst, MemberChecked bundle.document devices member inst := by
  obtain ⟨-, hresources, hdocument, -⟩ := validate_ok_iff.mp h
  have hnames := namesChecked_of_validate h
  simp only [documentErrors, List.append_eq_nil_iff] at hdocument
  have hresolved := resolveGroups_errors_iff.mp hdocument.1.1.1.1.1
  obtain ⟨inst, hnamed⟩ := (hresolved.groups (name, group) ((SortedMap.mem_entries_iff _).mpr hgroup)).members member hmember
  have hinst := ((get?_instanceMap_iff (nodup_of_validate h)).mp hnamed.found).1
  refine ⟨inst, hnamed, hnames.instances inst hinst, fun hmanaged => ?_, fun host hexternal => ?_⟩
  · obtain ⟨block, hblock⟩ := (managedInstance_of_validate h hinst hmanaged).block
    refine ⟨block, hblock, fun service hservice => ?_⟩
    obtain ⟨entry, hentry, rfl⟩ := List.mem_map.mp hservice
    exact (hnames.services _ _ hblock entry hentry).1
  · obtain ⟨before, herrors⟩ := exists_instanceErrors_eq_nil (List.append_eq_nil_iff.mp hresources).2 hinst
    have hexternal' : inst.isExternal = true := by
      rw [Instance.isExternal, Option.mem_def.mp hexternal]
      rfl
    rw [instanceErrors, hexternal', if_pos rfl] at herrors
    have hports := (List.append_eq_nil_iff.mp herrors).2
    refine ⟨?_, externalPorts_of_errors hports⟩
    rintro rfl
    simp only [externalInstanceErrors, List.append_eq_nil_iff, reportIf_eq_nil, Option.mem_def.mp hexternal,
      Option.getD_some] at hports
    exact absurd hports.1.1.1.1.1 (by decide)

/-- The instances of the groups of a valid bundle differ. -/
theorem distinct_of_validate (h : validate platform bundle devices = .ok groups) :
    (bundle.document.spec.groups.values.flatMap fun group => group.instances.map memberInstance).Nodup := by
  obtain ⟨-, -, hdocument, -⟩ := validate_ok_iff.mp h
  simp only [documentErrors, List.append_eq_nil_iff] at hdocument
  have hresolved := resolveGroups_errors_iff.mp hdocument.1.1.1.1.1
  have hmembers : ∀ group ∈ bundle.document.spec.groups.values,
      bundle.document.spec.resolvedMembers group = group.instances := by
    intro group hgroup
    obtain ⟨entry, hentry, rfl⟩ := List.mem_map.mp hgroup
    refine List.filter_eq_self.mpr fun member hmember => ?_
    obtain ⟨inst, hchecked⟩ := memberChecked_of_validate h ((SortedMap.mem_entries_iff _).mp hentry) hmember
    rw [DeploymentSpec.known, hchecked.named.found, Option.any_some]
    cases hexternal : inst.isExternal with
    | true => rfl
    | false =>
      obtain ⟨block, hblock, -⟩ := hchecked.block hexternal
      simp [SortedMap.contains, hblock]
  have hdistinct := hresolved.distinct
  rw [resolvedInstances, List.flatMap_congr fun group hgroup => congrArg (List.map memberInstance) (hmembers group hgroup)]
    at hdistinct
  exact hdistinct

/-- The active members of a group are some of its members. -/
theorem mem_active_iff {group : ServiceGroup} {inst : String} :
    inst ∈ group.active.map memberInstance ↔ inst ∈ group.instances.map memberInstance ∧ inst ∉ group.disabled := by
  rw [ServiceGroup.active]
  simp only [List.mem_map, List.mem_filter]
  constructor
  · rintro ⟨member, ⟨hmember, hactive⟩, rfl⟩
    exact ⟨⟨member, hmember, rfl⟩, by simpa using hactive⟩
  · rintro ⟨⟨member, hmember, rfl⟩, hactive⟩
    exact ⟨member, ⟨hmember, by simpa using hactive⟩, rfl⟩

/-- An instance is in one group. -/
theorem group_unique (h : validate platform bundle devices = .ok groups) {inst : String} {entry entry' : String × ServiceGroup}
    (hentry : entry ∈ bundle.document.spec.groups.entries) (hentry' : entry' ∈ bundle.document.spec.groups.entries)
    (hinst : inst ∈ entry.2.instances.map memberInstance) (hinst' : inst ∈ entry'.2.instances.map memberInstance) :
    entry = entry' := by
  by_contra hne
  have hdistinct := (List.nodup_flatMap.mp (distinct_of_validate h)).2
  rw [SortedMap.values, List.pairwise_map] at hdistinct
  have hsymm : Std.Symm fun a b : String × ServiceGroup =>
      List.Disjoint (a.2.instances.map memberInstance) (b.2.instances.map memberInstance) := ⟨fun _ _ hab => hab.symm⟩
  have hapart : List.Disjoint (entry.2.instances.map memberInstance) (entry'.2.instances.map memberInstance) :=
    @List.Pairwise.forall _ _ _ hsymm hdistinct _ hentry _ hentry' hne
  exact hapart hinst hinst'

/-- The group of an instance is the one it is active in, if any. -/
theorem selectedGroup_of_validate (h : validate platform bundle devices = .ok groups) {name : String} {group : ServiceGroup}
    (hgroup : bundle.document.spec.groups.get? name = some group) {inst : String}
    (hinst : inst ∈ group.instances.map memberInstance) :
    selectedGroupForInstance groups inst = if inst ∈ group.disabled then none else some name := by
  have hentry := (SortedMap.mem_entries_iff _).mpr hgroup
  have hnodup : bundle.document.spec.groups.entries.Nodup := List.Nodup.of_map Prod.fst
    bundle.document.spec.groups.nodup_keys
  have hactive : ∀ group : ServiceGroup, (group.active.any fun member => decide (memberInstance member = inst)) = true ↔
      inst ∈ group.instances.map memberInstance ∧ inst ∉ group.disabled := by
    intro group
    rw [← mem_active_iff]
    simp
  have hfilter := filter_eq_of_unique (p := fun entry : String × ServiceGroup =>
    entry.2.active.any fun member => decide (memberInstance member = inst)) hnodup hentry
    fun other hother hactive' => group_unique h hother hentry ((hactive _).mp hactive').1 hinst
  have hmembers : groups.members.entries = bundle.document.spec.groups.entries.map fun entry => (entry.1, entry.2.active) := by
    rw [resolveGroups_of_validate h]
    rfl
  have hselected : (groups.members.entries.filter fun entry => entry.2.any fun member => decide (memberInstance member = inst)).map
      Prod.fst = if inst ∈ group.disabled then [] else [name] := by
    rw [hmembers, List.filter_map, List.map_map]
    refine (congrArg (List.map _) hfilter).trans ?_
    by_cases hdisabled : inst ∈ group.disabled
    · rw [if_pos hdisabled, if_neg fun hany => ((hactive group).mp hany).2 hdisabled]
      rfl
    · rw [if_neg hdisabled, if_pos ((hactive group).mpr ⟨hinst, hdisabled⟩)]
      rfl
  rw [selectedGroupForInstance, hselected]
  by_cases hdisabled : inst ∈ group.disabled
  · rw [if_pos hdisabled, if_pos hdisabled]
  · rw [if_neg hdisabled, if_neg hdisabled]

variable {host : Host} {options : OverlayOptions} {plan : Plan}

/-- An instance is one of those a group lists. -/
def ServiceGroup.Lists (group : ServiceGroup) (inst : String) : Prop := inst ∈ group.instances.map memberInstance

/-- The router of a sidecar accepts what the planner writes for it, and is told of these members. -/
def SidecarReads (json : Json) (consumer : String) (members : List TransparentMember) : Prop :=
  ∃ config, Router.Encoding.routerConfig.decode json = some config ∧ config.validate = .ok () ∧
    config.spec.transparentProxy = some ⟨consumer, 65535, members, 250⟩

/-- The configuration of a routed instance is read as what it is to be told. -/
theorem sidecarReads_of_validate (hdevices : ∀ device details, devices.get? device = some details → details.host ≠ "")
    (h : validate platform bundle devices = .ok groups) {inst : Instance} (hinst : inst ∈ bundle.document.spec.instances)
    {name : String} {group : ServiceGroup} (hgroup : bundle.document.spec.groups.get? name = some group)
    (hlists : group.Lists inst.name) :
    SidecarReads (sidecarRoute platform bundle groups devices inst).1 inst.name
      (if inst.name ∈ group.disabled then []
        else group.active.flatMap (memberTargets platform bundle.document devices)) := by
  have hnames := namesChecked_of_validate h
  have hselected := selectedGroup_of_validate h hgroup hlists
  have htransparent : isTransparent groups inst.name = true := by
    rw [isTransparent_of_validate h, List.contains_iff_mem, memberNames]
    exact List.mem_flatMap.mpr ⟨group, List.mem_map_of_mem (f := Prod.snd) ((SortedMap.mem_entries_iff _).mpr hgroup), hlists⟩
  have hmembers : groups.members.get? name = some group.active := by
    rw [resolveGroups_of_validate h, SortedMap.get?_mapValues, hgroup]
    rfl
  have hchecked : ∀ member ∈ group.active, ∃ inst, MemberChecked bundle.document devices member inst :=
    fun member hmember => memberChecked_of_validate h hgroup (List.mem_filter.mp hmember).1
  have hdistinct : (group.active.map memberInstance).Nodup := by
    have hall := (List.nodup_flatMap.mp (distinct_of_validate h)).1 group
      (List.mem_map_of_mem (f := Prod.snd) ((SortedMap.mem_entries_iff _).mpr hgroup))
    exact hall.sublist (List.filter_sublist.map _)
  rw [sidecarRoute]
  dsimp only
  rw [htransparent, hselected]
  by_cases hdisabled : inst.name ∈ group.disabled
  · rw [if_pos hdisabled, if_pos hdisabled]
    have hread := @decode_routerConfig platform bundle.document groups devices none [] rfl inst
    have hvalid := @sidecarConfig_valid platform bundle.document devices [] List.nodup_nil hdevices hnames.deployment
      inst.name (hnames.instances inst hinst) fun _ hmem => absurd hmem List.not_mem_nil
    exact ⟨_, hread, (Router.validate_ok_iff _).mpr hvalid, rfl⟩
  · rw [if_neg hdisabled, if_neg hdisabled]
    have hdecode := @decode_transparentMembers platform bundle.document devices groups name fun member hmember => by
      rw [hmembers, Option.getD_some] at hmember
      obtain ⟨inst, hchecked⟩ := hchecked member hmember
      refine ⟨inst, hchecked.named, fun hmanaged => ?_⟩
      obtain ⟨block, hblock, -⟩ := hchecked.block hmanaged
      exact ⟨block, hblock⟩
    rw [hmembers, Option.getD_some] at hdecode
    have hread := @decode_routerConfig platform bundle.document groups devices (some name) _
      (by rw [Option.toList_some, List.flatMap_singleton]; exact hdecode) inst
    have hvalid := @sidecarConfig_valid platform _ _ _ hdistinct hdevices hnames.deployment _ (hnames.instances inst hinst) hchecked
    exact ⟨_, hread, (Router.validate_ok_iff _).mpr hvalid, rfl⟩

theorem route_of_instanceOutput {overlay : Option OverlayResolution} {resourceHash : String} {inst : Instance}
    {output : InstanceOutput} (h : instanceOutput platform bundle groups overlay devices resourceHash inst = .ok output)
    {route : Json × SidecarPlan} (hroute : output.route = some route) :
    inst.name ∈ routedInstances bundle.document.spec groups ∧ route = sidecarRoute platform bundle groups devices inst := by
  unfold instanceOutput at h
  split at h
  · obtain rfl := Except.ok.inj h
    dsimp only at hroute
    split_ifs at hroute with hrouted
    exact ⟨List.contains_iff_mem.mp (Bool.and_eq_true_iff.mp hrouted).2, (Option.some.inj hroute).symm⟩
  · cases h
  · cases h

/-- **The configurations of sidecars are accepted, and route to the active members of the group
of their instance.** A sidecar of an instance that is disabled in its group is told of none. -/
theorem sidecars_route_active (hdevices : ∀ device details, devices.get? device = some details → details.host ≠ "")
    (h : planWithOverlaysAndDevices host bundle options devices = .ok plan) {name : String} {json : Json}
    (hroute : plan.routeConfigs.get? name = some json) :
    ∃ members, SidecarReads json name members ∧
      (∃ group ∈ plan.resolvedDeployment.spec.groups.values, group.Lists name) ∧
      ∀ group ∈ plan.resolvedDeployment.spec.groups.values, group.Lists name →
        members = if name ∈ group.disabled then []
          else group.active.flatMap (memberTargets host.toPlatform plan.resolvedDeployment devices) := by
  obtain ⟨e, groups, -, hvalid, hgenerate⟩ := planWithOverlaysAndDevices_ok h
  obtain ⟨profiles, config, probes, outputs, remotes, -, -, -, houtputs, -, rfl⟩ := generate_ok_iff.mp hgenerate
  obtain ⟨before, after, hsplit, -⟩ := mem_entries_ofList.mp ((SortedMap.mem_entries_iff _).mpr hroute)
  have hmem : (name, json) ∈ outputs.filterMap fun output => output.route.map fun route => (output.inst.name, route.1) := by
    rw [hsplit]
    simp
  obtain ⟨output, houtput, hwritten⟩ := List.mem_filterMap.mp hmem
  obtain ⟨route, hroute, heq⟩ := Option.map_eq_some_iff.mp hwritten
  obtain ⟨inst, hrun, -, hfrom⟩ := exists_of_mem_forall₂ (forall₂_of_mapM_ok houtputs).flip houtput
  obtain ⟨hrouted, rfl⟩ := route_of_instanceOutput hfrom hroute
  obtain rfl := inst_of_instanceOutput hfrom
  obtain ⟨rfl, rfl⟩ := Prod.mk.inj heq
  have hinst := (List.mem_filter.mp hrun).1
  have hlisted : output.inst.name ∈ memberNames e.bundle.document.spec.groups := by
    obtain ⟨other, hother, hname⟩ := List.mem_map.mp hrouted
    have htransparent := (Bool.and_eq_true_iff.mp (List.mem_filter.mp hother).2).2
    rw [isTransparent_of_validate hvalid, List.contains_iff_mem, hname] at htransparent
    exact htransparent
  obtain ⟨group, hgroup, hlists⟩ := List.mem_flatMap.mp hlisted
  obtain ⟨⟨key, group⟩, hentry, rfl⟩ := List.mem_map.mp hgroup
  refine ⟨_, sidecarReads_of_validate hdevices hvalid hinst ((SortedMap.mem_entries_iff _).mp hentry) hlists,
    ⟨group, hgroup, hlists⟩, fun other hother hlists' => ?_⟩
  obtain ⟨⟨key', other⟩, hentry', rfl⟩ := List.mem_map.mp hother
  obtain ⟨-, rfl⟩ := Prod.mk.inj (group_unique hvalid hentry hentry' hlists hlists')
  rfl

end Plans

/-- Two web servers of a group, the second of which is on some device and may be disabled. -/
def groupedBundle (device : Option String) (disabled : List String) : Bundle :=
  shopBundle.withDocument (shopBundle.document.withSpec { shopBundle.document.spec with
    instances := [webInstance "front" none, { webInstance "back" none with device := device }]
    groups := .ofList [("web", ⟨["front", "back"], disabled, none⟩)] })

/-- The first server's sidecar reaches the second one on its device. -/
theorem sidecars_route_active_front : ∃ plan json members,
    planWithOverlaysAndDevices shopHost (groupedBundle (some "board") []) OverlayOptions.none boardDevices = .ok plan ∧
      plan.routeConfigs.get? "front" = some json ∧ SidecarReads json "front" members := by
  have hrun : (planWithOverlaysAndDevices shopHost (groupedBundle (some "board") []) OverlayOptions.none
      boardDevices).toOption.map (fun plan => (plan.routeConfigs.get? "front").isSome) = some true := by decide +kernel
  obtain ⟨plan, hplan, hroute⟩ := exists_ok_of_toOption hrun
  obtain ⟨json, hjson⟩ := Option.isSome_iff_exists.mp hroute
  have hdevices : ∀ device details, boardDevices.get? device = some details → details.host ≠ "" := by
    intro device details hget
    have hmem : (device, details) ∈ [("board", (⟨"dev", "10.0.0.7", 22, none⟩ : PlanningDevice))] :=
      (SortedMap.mem_entries_iff boardDevices).mpr hget
    obtain ⟨-, rfl⟩ := Prod.mk.inj (List.mem_singleton.mp hmem)
    decide
  obtain ⟨members, hreads, -⟩ := sidecars_route_active hdevices hplan hjson
  exact ⟨plan, json, members, hplan, hjson, hreads⟩

/-- The sidecar of a disabled server is told of no member, though its group has an active one. -/
theorem sidecar_of_disabled : ∃ plan json config proxy group,
    planWithOverlaysAndDevices shopHost (groupedBundle none ["back"]) OverlayOptions.none ∅ = .ok plan ∧
      plan.routeConfigs.get? "back" = some json ∧ Router.Encoding.routerConfig.decode json = some config ∧
      config.spec.transparentProxy = some proxy ∧ plan.resolvedDeployment.spec.groups.get? "web" = some group ∧
      group.Lists "back" ∧
      proxy.members ≠ group.active.flatMap (memberTargets shopHost.toPlatform plan.resolvedDeployment ∅) := by
  have hrun : (planWithOverlaysAndDevices shopHost (groupedBundle none ["back"]) OverlayOptions.none ∅).toOption.map
      (fun plan => ((((plan.routeConfigs.get? "back").bind Router.Encoding.routerConfig.decode).bind fun config =>
        config.spec.transparentProxy).map (·.members), plan.resolvedDeployment.spec.groups.get? "web",
        memberTargets shopHost.toPlatform plan.resolvedDeployment ∅ "front")) =
      some (some [], some ⟨["front", "back"], ["back"], none⟩, [⟨"front/ui", "shop--front--ui", none⟩]) := by
    decide +kernel
  obtain ⟨plan, hplan, hvalues⟩ := exists_ok_of_toOption hrun
  obtain ⟨hread, hvalues⟩ := Prod.mk.inj hvalues
  obtain ⟨hgroup, htargets⟩ := Prod.mk.inj hvalues
  obtain ⟨proxy, hproxy, hmembers⟩ := Option.map_eq_some_iff.mp hread
  obtain ⟨config, hconfig, hproxy⟩ := Option.bind_eq_some_iff.mp hproxy
  obtain ⟨json, hjson, hconfig⟩ := Option.bind_eq_some_iff.mp hconfig
  refine ⟨plan, json, config, proxy, _, hplan, hjson, hconfig, hproxy, hgroup, by rw [ServiceGroup.Lists]; decide, ?_⟩
  rw [hmembers, show (⟨["front", "back"], ["back"], none⟩ : ServiceGroup).active = ["front"] by decide,
    List.flatMap_singleton, htargets]
  exact nofun

end Apmpr.Planner
