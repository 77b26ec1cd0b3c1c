import Apmpr.Router.HostGateway
import Apmpr.Router.HttpProxy

/-!
# Host names at the gateway

Three functions of the host gateway read host names: `preflight` compares those a listener
declares, in lower case and without trailing dots; the forward proxy compares a request's with
them in the same way; and `destination_slot`, which finds the destination of a request, compares
what stands before the first colon of its Host header with the declared text, but for letter
case. A name with other trailing dots than were declared, and an IPv6 address, which has colons
itself, are the same to the first and unknown to the last.

## What is proved

* `slot_of_claimed`: after a preflight one listener has one slot for each normalised host.
* `host_names_agree`: when a request that says the host of a destination, in a spelling
  preflight does not tell apart, is given that destination's slot.
-/

namespace Apmpr.Router.HostNames

open HttpProxy

/-! ### Spellings -/

/-- The host a destination declares. -/
def declaredHost : ListenerDestination → Option String
  | .customDomain _ domain => some domain
  | .legacyLocalhost _ host => some host
  | .loopback _ => none
  | .proxyTarget _ host _ => some host

/-- Whether a text is an IPv6 address. -/
def isV6 (text : String) : Bool :=
  match IpAddr.parse text with
  | some (.v6 ..) => true
  | _ => false

/-- How a Host header says a host: its name, in brackets if it is an IPv6 address, and a port. -/
structure Spelling where
  name : String
  bracketed : Bool
  port : Option String

/-- The text of a spelling. -/
def Spelling.text (spelling : Spelling) : String :=
  (if spelling.bracketed then "[" ++ spelling.name ++ "]" else spelling.name) ++
    (spelling.port.map fun port => ":" ++ port).getD ""

/-- A spelling of a host, to preflight. -/
structure Spelling.Says (spelling : Spelling) (host : String) : Prop where
  name : normalizeDomain spelling.name = normalizeDomain host
  brackets : spelling.bracketed = true → isV6 spelling.name = true
  port : ∀ port ∈ spelling.port, port ≠ "" ∧ port.toList.all Char.isDigit = true

/-- What stands before the first colon. -/
def hostPart (text : String) : String := (Text.split ':' text).head?.getD ""

/-- Whether a destination is declared as a host, but for letter case. -/
def declaredAs (host : String) (destination : ListenerDestination) : Bool :=
  (declaredHost destination).any fun declared => Text.toAsciiLowercase declared = Text.toAsciiLowercase host

/-- The first destination that is declared as a host has a slot. -/
def Recognised (listener : Listener) (slot : RouteSlotId) (host : String) : Prop :=
  ∃ before found after, listener.destinations = before ++ found :: after ∧ declaredAs host found = true ∧
    found.slot = slot ∧ ∀ other ∈ before, declaredAs host other = false

theorem declaredAs_iff {host : String} {destination : ListenerDestination} :
    declaredAs host destination = true ↔
      ∃ declared, declaredHost destination = some declared ∧ Text.toAsciiLowercase declared = Text.toAsciiLowercase host := by
  simp [declaredAs, Option.any_eq_true]

theorem asciiLowerChar_eq_dot (c : Char) : Text.asciiLowerChar c = '.' ↔ c = '.' := by
  rw [Text.asciiLowerChar]
  split_ifs with hupper
  · rw [Text.isAsciiUpper, Bool.and_eq_true, decide_eq_true_eq, decide_eq_true_eq] at hupper
    obtain ⟨hlow, hhigh⟩ := hupper
    have hlow' : 65 ≤ c.toNat := hlow
    have hhigh' : c.toNat ≤ 90 := hhigh
    have hdot : '.'.toNat = 46 := rfl
    have hvalid : (c.toNat + 32).isValidChar := by
      left
      omega
    have hsmall : (Char.ofNat (c.toNat + 32)).toNat = c.toNat + 32 := by
      rw [Char.ofNat, dif_pos hvalid]
      rfl
    constructor
    · intro h
      have hnat := congrArg Char.toNat h
      rw [hsmall, hdot] at hnat
      omega
    · rintro rfl
      omega
  · exact Iff.rfl

/-- Dots are taken off before or after the letters are made small. -/
theorem toAsciiLowercase_trimEndMatches (text : String) :
    Text.toAsciiLowercase (Text.trimEndMatches '.' text) = Text.trimEndMatches '.' (Text.toAsciiLowercase text) := by
  have hdots : ((· = '.') ∘ Text.asciiLowerChar : Char → Bool) = (· = '.') := by
    funext c
    simp [asciiLowerChar_eq_dot]
  simp only [Text.toAsciiLowercase, Text.trimEndMatches, String.toList_ofList, ← List.map_reverse, List.dropWhile_map]
  rw [hdots]

/-- Hosts that are the same but for letter case are the same to preflight. -/
theorem normalizeDomain_congr {a b : String} (h : Text.toAsciiLowercase a = Text.toAsciiLowercase b) :
    normalizeDomain a = normalizeDomain b := by
  rw [normalizeDomain, normalizeDomain, toAsciiLowercase_trimEndMatches, toAsciiLowercase_trimEndMatches, h]

/-- A name without a colon is what stands before the first colon of its spellings. -/
theorem hostPart_text {spelling : Spelling} (hbrackets : spelling.bracketed = false) (hcolon : ':' ∉ spelling.name.toList) :
    hostPart spelling.text = spelling.name := by
  have hname : Text.splitChars ':' spelling.name.toList = [spelling.name.toList] := Text.splitChars_of_not_mem hcolon
  rw [hostPart, Spelling.text, hbrackets, if_neg (by simp)]
  cases spelling.port with
  | none => simp [Text.split, hname]
  | some port =>
    have htext : (spelling.name ++ (":" ++ port)).toList = spelling.name.toList ++ ':' :: port.toList := by simp
    simp only [Option.map_some, Option.getD_some, Text.split, htext, Text.splitChars_append_cons, hname]
    simp

/-! ### What preflight has made sure of -/

/-- Predicates that agree on a list find the same of it. -/
theorem find?_congr {α : Type} {p q : α → Bool} {l : List α} (h : ∀ x ∈ l, p x = q x) : l.find? p = l.find? q := by
  induction l with
  | nil => rfl
  | cons x l ih =>
    rw [List.find?_cons, List.find?_cons, h x List.mem_cons_self, ih fun y hy => h y (List.mem_cons_of_mem x hy)]

theorem exists_of_foldlM {α β ε : Type} {f : β → α → Except ε β} {l : List α} {start final : β}
    (h : l.foldlM f start = .ok final) {x : α} (hx : x ∈ l) : ∃ before after, f before x = .ok after := by
  induction l generalizing start with
  | nil => cases hx
  | cons y l ih =>
    rw [List.foldlM_cons] at h
    obtain ⟨next, hnext, hrest⟩ := bind_eq_ok_iff.mp h
    rcases List.mem_cons.mp hx with rfl | hx
    · exact ⟨start, next, hnext⟩
    · exact ih hrest hx

theorem claimHost_ok {listener : Listener} {hosts hosts' : HostSlots} {destination : ListenerDestination}
    (h : claimHost listener hosts destination = .ok hosts') :
    (destination.claimedHost = none → listener.destinations.length = 1) ∧
      (∀ host, destination.claimedHost = some host → hosts'.get? host = some destination.slot) ∧
      ∀ host slot, hosts.get? host = some slot → hosts'.get? host = some slot := by
  rw [claimHost] at h
  cases hclaimed : destination.claimedHost with
  | none =>
    simp only [hclaimed] at h
    split_ifs at h with hlength
    cases h
    exact ⟨fun _ => not_not.mp hlength, nofun, fun _ _ hget => hget⟩
  | some host =>
    simp only [hclaimed] at h
    split_ifs at h with hconflict
    cases h
    refine ⟨nofun, ?_, fun other slot hget => ?_⟩
    · rintro other hother
      obtain rfl := Option.some.inj hother
      rw [SortedMap.get?_insert, if_pos rfl]
    · rw [SortedMap.get?_insert]
      split_ifs with hsame
      · subst hsame
        rw [HostSlots.conflicts, hget, Option.any_some, decide_eq_true_eq, not_not] at hconflict
        rw [hconflict]
      · exact hget

/-- What one listener's destinations claim is in the map, each host with its slot. -/
theorem claims_of_foldlM {listener : Listener} {destinations : List ListenerDestination} {seen seen' : HostSlots × HostSlots}
    (h : destinations.foldlM (preflightDestination listener) seen = .ok seen') :
    (∀ destination ∈ destinations, destination.claimedHost = none → listener.destinations.length = 1) ∧
      (∀ destination ∈ destinations, ∀ host, destination.claimedHost = some host →
        seen'.1.get? host = some destination.slot) ∧
      ∀ host slot, seen.1.get? host = some slot → seen'.1.get? host = some slot := by
  induction destinations generalizing seen with
  | nil =>
    cases h
    exact ⟨nofun, nofun, fun _ _ hget => hget⟩
  | cons first rest ih =>
    rw [List.foldlM_cons] at h
    obtain ⟨next, hnext, hrest⟩ := bind_eq_ok_iff.mp h
    obtain ⟨hosts, hhosts, hnext⟩ := bind_eq_ok_iff.mp hnext
    obtain ⟨domains, -, hnext⟩ := bind_eq_ok_iff.mp hnext
    cases hnext
    obtain ⟨hsingle, hclaims, hkeeps⟩ := ih hrest
    obtain ⟨hfirst, hclaim, hkeep⟩ := claimHost_ok hhosts
    refine ⟨?_, ?_, fun host slot hget => hkeeps host slot (hkeep host slot hget)⟩
    · intro destination hmem
      rcases List.mem_cons.mp hmem with rfl | hmem
      · exact hfirst
      · exact hsingle destination hmem
    · intro destination hmem host hhost
      rcases List.mem_cons.mp hmem with rfl | hmem
      · exact hkeeps host _ (hclaim host hhost)
      · exact hclaims destination hmem host hhost

section
variable {bind : List SocketAddress → SocketAddress → Option String} {config : RouterConfig} {listener : Listener}

theorem listener_of_preflight (h : preflight bind config = .ok ()) (hlistener : listener ∈ config.spec.listeners) :
    ∃ domains seen, listener.destinations.foldlM (preflightDestination listener) (∅, domains) = .ok seen := by
  rw [preflight] at h
  cases hvalid : config.validate with
  | error errors =>
    rw [hvalid] at h
    cases h
  | ok _ =>
    rw [hvalid] at h
    obtain ⟨final, hfold, -⟩ := bind_eq_ok_iff.mp h
    obtain ⟨domains, domains', hone⟩ := exists_of_foldlM hfold hlistener
    rw [preflightListener] at hone
    split_ifs at hone
    obtain ⟨seen, hseen, -⟩ := bind_eq_ok_iff.mp hone
    exact ⟨domains, seen, hseen⟩

theorem valid_of_preflight (h : preflight bind config = .ok ()) : config.Valid := by
  rw [preflight] at h
  cases hvalid : config.validate with
  | error errors =>
    rw [hvalid] at h
    cases h
  | ok _ => exact (validate_ok_iff config).mp hvalid

/-- **One slot for each host**: on a listener that passed, what claims the same host has the
same slot. -/
theorem slot_of_claimed (h : preflight bind config = .ok ()) (hlistener : listener ∈ config.spec.listeners)
    {first second : ListenerDestination} (hfirst : first ∈ listener.destinations) (hsecond : second ∈ listener.destinations)
    {host : String} (hclaimed : first.claimedHost = some host) (hclaimed' : second.claimedHost = some host) :
    first.slot = second.slot := by
  obtain ⟨domains, seen, hseen⟩ := listener_of_preflight h hlistener
  obtain ⟨-, hclaims, -⟩ := claims_of_foldlM hseen
  exact Option.some.inj ((hclaims first hfirst host hclaimed).symm.trans (hclaims second hsecond host hclaimed'))

/-- Beside a declared host there is no destination without one. -/
theorem declares_of_preflight (h : preflight bind config = .ok ()) (hlistener : listener ∈ config.spec.listeners)
    {destination other : ListenerDestination} (hdestination : destination ∈ listener.destinations) {host : String}
    (hhost : declaredHost destination = some host) (hother : other ∈ listener.destinations) :
    ∃ host, declaredHost other = some host := by
  cases other with
  | loopback slot =>
    obtain ⟨domains, seen, hseen⟩ := listener_of_preflight h hlistener
    have hlength := (claims_of_foldlM hseen).1 _ hother rfl
    obtain ⟨only, hlist⟩ := List.length_eq_one_iff.mp hlength
    rw [hlist] at hdestination hother
    rw [List.mem_singleton.mp hdestination, ← List.mem_singleton.mp hother] at hhost
    cases hhost
  | customDomain slot domain => exact ⟨_, rfl⟩
  | legacyLocalhost slot host => exact ⟨_, rfl⟩
  | proxyTarget slot host port => exact ⟨_, rfl⟩

/-- On a listener that is no proxy, the host a destination claims is the one it declares. -/
theorem claimedHost_of_declared (h : preflight bind config = .ok ()) (hlistener : listener ∈ config.spec.listeners)
    (hproxy : listener.proxyIdentity = none) {destination : ListenerDestination}
    (hdestination : destination ∈ listener.destinations) {host : String} (hhost : declaredHost destination = some host) :
    destination.claimedHost = some (normalizeDomain host) := by
  cases destination with
  | loopback slot => cases hhost
  | customDomain slot domain =>
    cases hhost
    rfl
  | legacyLocalhost slot host =>
    cases hhost
    rfl
  | proxyTarget slot host port =>
    have hfits := ((valid_of_preflight h).listeners listener hlistener).fits _ hdestination
    have hsome := hfits.1
    rw [hproxy] at hsome
    cases hsome

/-! ### Finding the destination -/

theorem matchesHost_eq {destination : ListenerDestination} {declared : String}
    (hdeclared : declaredHost destination = some declared) (host : String) :
    matchesHost listener host destination = declaredAs host destination := by
  cases destination with
  | loopback slot => cases hdeclared
  | customDomain slot domain => rfl
  | legacyLocalhost slot host => rfl
  | proxyTarget slot host port => rfl

/-- The slot of a request is that of the first destination declared as its host. -/
theorem destinationSlot_iff (hdeclares : ∀ other ∈ listener.destinations, ∃ host, declaredHost other = some host)
    {request : RequestHeader} {text : String} (hrequest : headerText request "host" = some text) (slot : RouteSlotId) :
    destinationSlot listener request = some slot ↔ Recognised listener slot (hostPart text) := by
  have hhost : ((headerText request "host").bind fun value => (Text.split ':' value).head?).getD "" = hostPart text := by
    rw [hrequest]
    rfl
  have hmatch : ∀ other ∈ listener.destinations,
      matchesHost listener (hostPart text) other = declaredAs (hostPart text) other := by
    intro other hother
    obtain ⟨declared, hdeclared⟩ := hdeclares other hother
    exact matchesHost_eq hdeclared _
  rw [destinationSlot, hhost, find?_congr hmatch, Option.map_eq_some_iff]
  constructor
  · rintro ⟨found, hfound, hslot⟩
    obtain ⟨hdeclared, before, after, hlist, hbefore⟩ := List.find?_eq_some_iff_append.mp hfound
    exact ⟨before, found, after, hlist, hdeclared, hslot, fun other hother => by simpa using hbefore other hother⟩
  · rintro ⟨before, found, after, hlist, hdeclared, hslot, hbefore⟩
    refine ⟨found, List.find?_eq_some_iff_append.mpr ⟨hdeclared, before, after, hlist, fun other hother => ?_⟩, hslot⟩
    rw [hbefore other hother]
    rfl

/-- On a listener that is no proxy, whatever is declared as a host has one slot. -/
theorem slot_of_declaredAs (h : preflight bind config = .ok ()) (hlistener : listener ∈ config.spec.listeners)
    (hproxy : listener.proxyIdentity = none) {first second : ListenerDestination} (hfirst : first ∈ listener.destinations)
    (hsecond : second ∈ listener.destinations) {host host' : String} (hsame : normalizeDomain host = normalizeDomain host')
    (hdeclared : declaredAs host first = true) (hdeclared' : declaredAs host' second = true) : first.slot = second.slot := by
  obtain ⟨declared, hhost, hcase⟩ := declaredAs_iff.mp hdeclared
  obtain ⟨declared', hhost', hcase'⟩ := declaredAs_iff.mp hdeclared'
  have hclaimed := claimedHost_of_declared h hlistener hproxy hfirst hhost
  have hclaimed' := claimedHost_of_declared h hlistener hproxy hsecond hhost'
  rw [normalizeDomain_congr hcase, hsame, ← normalizeDomain_congr hcase'] at hclaimed
  exact slot_of_claimed h hlistener hfirst hsecond hclaimed hclaimed'

/-- There, a slot is recognised by any destination that is declared as the host. -/
theorem recognised_iff (h : preflight bind config = .ok ()) (hlistener : listener ∈ config.spec.listeners)
    (hproxy : listener.proxyIdentity = none) (slot : RouteSlotId) (host : String) :
    Recognised listener slot host ↔ ∃ found ∈ listener.destinations, declaredAs host found = true ∧ found.slot = slot := by
  constructor
  · rintro ⟨before, found, after, hlist, hdeclared, hslot, -⟩
    refine ⟨found, ?_, hdeclared, hslot⟩
    rw [hlist]
    simp
  · rintro ⟨found, hfound, hdeclared, rfl⟩
    -- the first that is declared so has the same slot
    obtain ⟨first, hfirst⟩ : ∃ first, listener.destinations.find? (declaredAs host) = some first :=
      Option.isSome_iff_exists.mp (List.find?_isSome.mpr ⟨found, hfound, hdeclared⟩)
    obtain ⟨hfirstDeclared, before, after, hlist, hbefore⟩ := List.find?_eq_some_iff_append.mp hfirst
    have hmem : first ∈ listener.destinations := by
      rw [hlist]
      simp
    refine ⟨before, first, after, hlist, hfirstDeclared,
      slot_of_declaredAs h hlistener hproxy hmem hfound rfl hfirstDeclared hdeclared, fun other hother => ?_⟩
    simpa using hbefore other hother

/-- **Host names.** After a preflight, a request that says the host of a destination is given
that destination's slot exactly if the first destination that is declared, but for letter case,
as what stands before the first colon of its Host header has that slot. On a listener that is no
proxy any such destination will do, and for a name without a colon it is enough that the listener
declares it with the same trailing dots. -/
theorem host_names_agree (h : preflight bind config = .ok ()) (hlistener : listener ∈ config.spec.listeners)
    {destination : ListenerDestination} (hdestination : destination ∈ listener.destinations) {host : String}
    (hhost : declaredHost destination = some host) {spelling : Spelling} (hspells : spelling.Says host)
    {request : RequestHeader} (hrequest : headerText request "host" = some spelling.text) :
    (destinationSlot listener request = some destination.slot ↔
        Recognised listener destination.slot (hostPart spelling.text)) ∧
      (listener.proxyIdentity = none →
        (destinationSlot listener request = some destination.slot ↔
          ∃ found ∈ listener.destinations, declaredAs (hostPart spelling.text) found = true ∧ found.slot = destination.slot) ∧
        (spelling.bracketed = false → ':' ∉ spelling.name.toList →
          (destinationSlot listener request = some destination.slot ↔
            ∃ found ∈ listener.destinations, declaredAs spelling.name found = true))) := by
  have hdeclares := fun other hother => @declares_of_preflight bind config listener h hlistener _ other hdestination _ hhost hother
  have hiff := destinationSlot_iff hdeclares hrequest destination.slot
  refine ⟨hiff, fun hproxy => ?_⟩
  have hany := hiff.trans (recognised_iff h hlistener hproxy destination.slot (hostPart spelling.text))
  refine ⟨hany, fun hbrackets hcolon => hany.trans ?_⟩
  rw [hostPart_text hbrackets hcolon]
  constructor
  · rintro ⟨found, hfound, hdeclared, -⟩
    exact ⟨found, hfound, hdeclared⟩
  · rintro ⟨found, hfound, hdeclared⟩
    refine ⟨found, hfound, hdeclared, ?_⟩
    exact slot_of_declaredAs h hlistener hproxy hfound hdestination hspells.name hdeclared (declaredAs_iff.mpr ⟨host, hhost, rfl⟩)

end

/-- A gateway for a name and an IPv6 address. -/
def namesListener : Listener :=
  ⟨none, ⟨.localhost, 8080⟩, .http, none, [.customDomain "shop" "shop.test", .customDomain "six" "::1"], none, none⟩

/-- Its configuration. -/
def namesConfig : RouterConfig :=
  { comparisonConfig 1 with spec := { (comparisonConfig 1).spec with
      listeners := [namesListener]
      groups := []
      bindings := []
      routes := []
      browserRoutes := [] } }

/-- A request for a host. -/
def namesRequest (host : String) : RequestHeader := ⟨"GET", "/", [("host", Utf8.encode host.toList)]⟩

theorem preflight_namesConfig : preflight (fun _ _ => none) namesConfig = .ok () := by decide +kernel

/-- A spelling without the declared trailing dots has the same name to preflight. -/
theorem host_names_agree_shop :
    destinationSlot namesListener (namesRequest "SHOP.test:8080") = some "shop" ↔
      ∃ found ∈ namesListener.destinations, declaredAs "SHOP.test" found = true := by
  have hspells : (Spelling.mk "SHOP.test" false (some "8080")).Says "shop.test" := by
    refine ⟨by decide +kernel, nofun, fun port hport => ?_⟩
    obtain rfl := Option.some.inj hport
    decide +kernel
  have hrequest : headerText (namesRequest "SHOP.test:8080") "host" =
      some (Spelling.mk "SHOP.test" false (some "8080")).text := by decide +kernel
  have hshop : ListenerDestination.customDomain "shop" "shop.test" ∈ namesListener.destinations := List.mem_cons_self
  have hagree := host_names_agree preflight_namesConfig (List.mem_singleton.mpr rfl) hshop rfl hspells hrequest
  exact (hagree.2 rfl).2 rfl (by decide +kernel)

/-- A trailing dot, or the brackets of an address, and the destination is not found. -/
theorem host_names_differ :
    preflight (fun _ _ => none) namesConfig = .ok () ∧ namesListener ∈ namesConfig.spec.listeners ∧
      (.customDomain "shop" "shop.test" ∈ namesListener.destinations ∧
        (Spelling.mk "shop.test." false none).Says "shop.test" ∧
        headerText (namesRequest "shop.test.") "host" = some (Spelling.mk "shop.test." false none).text ∧
        destinationSlot namesListener (namesRequest "shop.test.") = none) ∧
      .customDomain "six" "::1" ∈ namesListener.destinations ∧
        (Spelling.mk "::1" true (some "8080")).Says "::1" ∧
        headerText (namesRequest "[::1]:8080") "host" = some (Spelling.mk "::1" true (some "8080")).text ∧
        destinationSlot namesListener (namesRequest "[::1]:8080") = none := by
  refine ⟨preflight_namesConfig, List.mem_singleton.mpr rfl, ⟨List.mem_cons_self, ⟨by decide +kernel, nofun, nofun⟩, by decide +kernel, by decide +kernel⟩,
    .tail _ (.head _), ⟨rfl, fun _ => by decide +kernel, fun port hport => ?_⟩, by decide +kernel, by decide +kernel⟩
  obtain rfl := Option.some.inj hport
  decide +kernel

end Apmpr.Router.HostNames
