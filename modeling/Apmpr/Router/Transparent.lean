import Apmpr.Lib.Utf8
import Apmpr.Router.Config
import Mathlib.Data.List.Sort
import Mathlib.Order.Bounds.Basic

/-!
# Transparent routing

`forward_transparent` of the crate `router-tcp`: where a loopback connection goes that was
intercepted in the network namespace of a group member. The members are tried in two passes:
first those that are seen to listen on the port, by the ports they declare, by the registry of
their sidecar or, for the member itself, by the tables of the kernel; then the others, but for
those that declare other ports. If none accepts, the connection goes where it wanted to go.

## What is proved

* `forwardTransparent_loopback`: where a loopback connection goes, both passes in one.
* `authored_order_iff`: when it goes to the first member, in authored order, that accepts.

## Honest scope

What is transferred over the connection is left out, and what the network answers is the same
for the whole call.
-/

namespace Apmpr.Router.Transparent

/-- `TRANSPARENT_REGISTRY_PORT`. -/
def TRANSPARENT_REGISTRY_PORT : U16 := 65534

/-- `TransparentTarget`; the declared ports are a set. -/
structure TransparentTarget where
  component : String
  host : String
  isLocal : Bool
  declaredPorts : Option (List U16)
  deriving DecidableEq

/-- `TransparentTarget::new`. -/
def TransparentTarget.new (component host : String) (isLocal : Bool) : TransparentTarget := ⟨component, host, isLocal, none⟩

/-- `TransparentTarget::with_declared_ports`. -/
def TransparentTarget.withDeclaredPorts (target : TransparentTarget) (ports : List U16) : TransparentTarget :=
  { target with declaredPorts := some ports }

/-- `TransparentTarget::declares_port`. -/
def TransparentTarget.declaresPort (target : TransparentTarget) (port : U16) : Option Bool :=
  target.declaredPorts.map fun ports => ports.contains port

/-- `transparent_targets`: the members of a configuration. -/
def transparentTargets (proxy : TransparentProxy) : List TransparentTarget :=
  proxy.members.map fun member =>
    let owner := ((Text.splitOnce '/' member.component).map Prod.fst).getD member.component
    let target := TransparentTarget.new member.component member.host (owner = proxy.consumer)
    match member.ports with
    | none => target
    | some ports => target.withDeclaredPorts ports

/-- What a sidecar finds around it while it forwards a connection. -/
structure Surroundings where
  /-- The text of a kernel table, if it can be read. -/
  table : String → Option String
  /-- What the registry of a host answers, if it does in time. -/
  registry : String → Option (List UInt8)
  /-- Whether a host accepts a connection on a port in time. -/
  connects : String → U16 → Bool
  /-- `marked_loopback_connect`: whether something on the own loopback interface accepts. -/
  loopback : SocketAddress → Bool

/-- A port in digits of a base, perhaps after a plus sign. -/
def parsePort (base : ℕ) (text : List Char) : Option U16 :=
  let text := if text.head? = some '+' then text.tail else text
  match IpAddr.takeDigits base text with
  | ([], _) => none
  | (digits, []) =>
    let value := digits.foldl (fun acc d => acc * base + d) 0
    if h : value < 65536 then some ⟨value, h⟩ else none
  | (_, _ :: _) => none

/-- The port a line of a kernel table says is listened on. -/
def listeningPort (line : String) : Option U16 :=
  let columns := (line.toList.splitOnP Text.isWhitespace).filter (· ≠ [])
  match columns with
  | _ :: address :: _ :: state :: _ =>
    if state = "0A".toList then
      (Text.rsplitOnce ':' (String.ofList address)).bind fun (_, encoded) => parsePort 16 encoded.toList
    else none
  | _ => none

/-- `listening_ports`. -/
def listeningPorts (around : Surroundings) (excluded : List U16) : Option (List U16) := do
  let tables ← ["/proc/net/tcp", "/proc/net/tcp6"].mapM around.table
  let ports := tables.flatMap fun table => ((Text.split '\n' table).drop 1).filterMap listeningPort
  return ports.filter fun port => port ≠ TRANSPARENT_REGISTRY_PORT && !excluded.contains port

/-- `observed_listeners`. -/
def observedListeners (around : Surroundings) (host : String) : Option (List U16) := do
  let encoded ← around.registry host
  let value ← Utf8.decode encoded
  ((Text.splitChars ',' value).filter (· ≠ [])).mapM (parsePort 10)

/-- Whether a target is seen to listen. -/
def observes (around : Surroundings) (excluded : List U16) (port : U16) (target : TransparentTarget) : Bool :=
  let ports :=
    match target.declaredPorts with
    | some ports => some ports
    | none => if target.isLocal then listeningPorts around excluded else observedListeners around target.host
  ports.any fun ports => ports.contains port

/-- `observe_targets`. -/
def observeTargets (around : Surroundings) (excluded : List U16) (port : U16) (targets : List TransparentTarget) :
    List Bool :=
  targets.map (observes around excluded port)

/-- `127.0.0.1` and `::1`. -/
def loopbackHosts : List IpAddr := [.localhost, .v6 ((Vector.replicate 7 0).push 1)]

/-- `connect_target`. -/
def connectTarget (around : Surroundings) (port : U16) (target : TransparentTarget) : Bool :=
  if target.isLocal then loopbackHosts.any fun host => around.loopback ⟨host, port⟩
  else around.connects target.host port

/-- Where a connection went. -/
inductive Forwarded where
  /-- To the registry, which answered. -/
  | registry (encoded : String)
  /-- To a target. -/
  | member (index : ℕ)
  /-- To the own loopback interface. -/
  | localhost (destination : SocketAddress)
  deriving DecidableEq

/-- Why a connection went nowhere. -/
inductive ForwardError where
  | unreadable
  | connectionRefused (message : String)
  | notFound (message : String)
  deriving DecidableEq

/-- What came of a connection, and the warning that was printed. -/
structure Outcome where
  warning : Option String
  result : Except ForwardError Forwarded

/-- The targets that are seen to listen. -/
def active (observed : List Bool) : List ℕ :=
  observed.zipIdx.filterMap fun (listening, index) => if listening then some index else none

/-- The warning about several targets that listen on one port. -/
def collisionWarning (targets : List TransparentTarget) (port : U16) (active : List ℕ) : Option String :=
  let name := fun index => ((targets[index]?).map TransparentTarget.component).getD ""
  match active with
  | first :: _ :: _ =>
    let components := ", ".intercalate (active.map name)
    some (s!"apmpr: port {port} has {active.length} active group members: " ++
      s!"{components}; routing to {name first}, the first listed")
  | _ => none

/-- The first pass. -/
def firstObserved (around : Surroundings) (port : U16) (targets : List TransparentTarget) (observed : List Bool) : Option ℕ :=
  (active observed).find? fun index => (targets[index]?).any (connectTarget around port)

/-- The second pass. -/
def firstOther (around : Surroundings) (port : U16) (targets : List TransparentTarget) (observed : List Bool) : Option ℕ :=
  (targets.zipIdx.find? fun (target, index) =>
    !observed.getD index false && target.declaresPort port ≠ some false && connectTarget around port target).map Prod.snd

/-- The own loopback addresses, that of the connection's kind first. -/
def localDestinations (original : SocketAddress) : List SocketAddress :=
  let hosts := match original.host with
    | .v4 .. => loopbackHosts
    | .v6 .. => loopbackHosts.reverse
  hosts.map fun host => ⟨host, original.port⟩

/-- `forward_transparent`. -/
def forwardTransparent (around : Surroundings) (original : SocketAddress) (targets : List TransparentTarget)
    (excluded : List U16) : Outcome :=
  let port := original.port
  if !original.host.isLoopback && port = TRANSPARENT_REGISTRY_PORT then
    match listeningPorts around excluded with
    | none => ⟨none, .error .unreadable⟩
    | some ports =>
      ⟨none, .ok (.registry (",".intercalate ((ports.dedup.mergeSort (· ≤ ·)).map fun port => toString port.val)))⟩
  else if !original.host.isLoopback then
    match (localDestinations original).find? around.loopback with
    | some destination => ⟨none, .ok (.localhost destination)⟩
    | none => ⟨none, .error (.connectionRefused s!"this group member does not listen on port {port}")⟩
  else
    let observed := observeTargets around excluded port targets
    let warning := collisionWarning targets port (active observed)
    match firstObserved around port targets observed with
    | some index => ⟨warning, .ok (.member index)⟩
    | none =>
      match firstOther around port targets observed with
      | some index => ⟨warning, .ok (.member index)⟩
      | none =>
        match (localDestinations original).find? around.loopback with
        | some destination => ⟨warning, .ok (.localhost destination)⟩
        | none => ⟨warning, .error (.notFound s!"no active group member listens on port {port}")⟩

/-! ### Which index a search finds -/

/-- What is first in a numbered list. -/
theorem find?_zipIdx {α : Type} {l : List α} {p : α × ℕ → Bool} {found : α × ℕ} :
    l.zipIdx.find? p = some found ↔
      l[found.2]? = some found.1 ∧ p found = true ∧ ∀ j < found.2, ∀ x, l[j]? = some x → p (x, j) = false := by
  obtain ⟨y, i⟩ := found
  rw [List.find?_eq_some_iff_getElem]
  constructor
  · rintro ⟨hp, index, hindex, hget, hbefore⟩
    rw [List.getElem_zipIdx, Nat.zero_add, Prod.mk.injEq] at hget
    obtain ⟨rfl, rfl⟩ := hget
    rw [List.length_zipIdx] at hindex
    refine ⟨List.getElem?_eq_getElem hindex, hp, fun j hj x hx => ?_⟩
    obtain ⟨hlength, rfl⟩ := List.getElem?_eq_some_iff.mp hx
    simpa using hbefore j hj
  · rintro ⟨hget, hp, hbefore⟩
    dsimp only at hget
    obtain ⟨hlength, rfl⟩ := List.getElem?_eq_some_iff.mp hget
    refine ⟨hp, i, by simpa using hlength, by simp, fun j hj => ?_⟩
    have hj' : j < l.length := by omega
    simpa using hbefore j hj _ (List.getElem?_eq_getElem hj')

section
variable (around : Surroundings) (excluded : List U16) (port : U16) (targets : List TransparentTarget)

/-- The target at an index accepts connections on the port, and declares no other ports. -/
def Accepts (index : ℕ) : Prop :=
  ∃ target, targets[index]? = some target ∧ target.declaresPort port ≠ some false ∧ connectTarget around port target = true

/-- The target at an index is seen to listen on the port. -/
def Observed (index : ℕ) : Prop :=
  ∃ target, targets[index]? = some target ∧ observes around excluded port target = true

end

section
variable {around : Surroundings} {excluded : List U16} {port : U16} {targets : List TransparentTarget}

/-- What is seen to listen does not declare other ports. -/
theorem declaresPort_of_observes {target : TransparentTarget} (h : observes around excluded port target = true) :
    target.declaresPort port ≠ some false := by
  rw [TransparentTarget.declaresPort]
  cases hports : target.declaredPorts with
  | none => simp
  | some ports => simpa [observes, hports] using h

theorem observeTargets_getElem? (index : ℕ) :
    (observeTargets around excluded port targets)[index]? = (targets[index]?).map (observes around excluded port) := by
  rw [observeTargets, List.getElem?_map]

theorem firstObserved_iff {index : ℕ} :
    firstObserved around port targets (observeTargets around excluded port targets) = some index ↔
      IsLeast {i | Accepts around port targets i ∧ Observed around excluded port targets i} index := by
  have hconnects : ∀ j, (Observed around excluded port targets j ∧ (targets[j]?).any (connectTarget around port) = true) ↔
      Accepts around port targets j ∧ Observed around excluded port targets j := by
    intro j
    constructor
    · rintro ⟨⟨target, htarget, hobserved⟩, hconnect⟩
      rw [htarget] at hconnect
      exact ⟨⟨target, htarget, declaresPort_of_observes hobserved, hconnect⟩, target, htarget, hobserved⟩
    · rintro ⟨⟨target, htarget, -, hconnect⟩, hobserved⟩
      rw [htarget]
      exact ⟨hobserved, hconnect⟩
  have hobserved : ∀ j, (observeTargets around excluded port targets)[j]? = some true ↔
      Observed around excluded port targets j := by
    intro j
    rw [observeTargets_getElem?, Option.map_eq_some_iff]
    rfl
  rw [firstObserved, active, List.find?_filterMap, Option.bind_eq_some_iff]
  constructor
  · rintro ⟨⟨listening, i⟩, hfind, hindex⟩
    obtain ⟨hget, hp, hbefore⟩ := find?_zipIdx.mp hfind
    cases listening with
    | false => simp at hp
    | true =>
      obtain rfl : i = index := by simpa using hindex
      have hp' : (targets[i]?).any (connectTarget around port) = true := by simpa using hp
      refine ⟨(hconnects i).mp ⟨(hobserved i).mp hget, hp'⟩, fun j hj => ?_⟩
      by_contra hlt
      obtain ⟨hj, hjconnect⟩ := (hconnects j).mpr hj
      have hfalse := hbefore j (by simpa using hlt) true ((hobserved j).mpr hj)
      simp [hjconnect] at hfalse
  · rintro ⟨hmem, hleast⟩
    obtain ⟨hseen, hconnect⟩ := (hconnects index).mpr hmem
    refine ⟨(true, index), find?_zipIdx.mpr ⟨(hobserved index).mpr hseen, by simpa using hconnect, ?_⟩, by simp⟩
    intro j hj listening hget
    cases listening with
    | false => rfl
    | true =>
      by_contra hp
      have hp' : (targets[j]?).any (connectTarget around port) = true := by simpa using hp
      have hle := hleast ((hconnects j).mp ⟨(hobserved j).mp hget, hp'⟩)
      dsimp only at hj
      omega

theorem firstOther_iff {index : ℕ} :
    firstOther around port targets (observeTargets around excluded port targets) = some index ↔
      IsLeast {i | Accepts around port targets i ∧ ¬ Observed around excluded port targets i} index := by
  have hcandidate : ∀ j target, targets[j]? = some target →
      ((!(observeTargets around excluded port targets).getD j false && target.declaresPort port ≠ some false &&
        connectTarget around port target) = true ↔
        Accepts around port targets j ∧ ¬ Observed around excluded port targets j) := by
    intro j target htarget
    have hobserved : (observeTargets around excluded port targets).getD j false = observes around excluded port target := by
      rw [List.getD_eq_getElem?_getD, observeTargets_getElem?, htarget]
      rfl
    rw [hobserved]
    simp [Accepts, Observed, htarget]
    tauto
  rw [firstOther, Option.map_eq_some_iff]
  constructor
  · rintro ⟨⟨target, i⟩, hfind, rfl⟩
    obtain ⟨hget, hp, hbefore⟩ := find?_zipIdx.mp hfind
    refine ⟨(hcandidate i target hget).mp hp, fun j hj => ?_⟩
    by_contra hlt
    obtain ⟨other, hother, -⟩ := hj.1
    have hfalse := hbefore j (by simpa using hlt) other hother
    dsimp only at hfalse
    rw [(hcandidate j other hother).mpr hj] at hfalse
    cases hfalse
  · rintro ⟨hmem, hleast⟩
    obtain ⟨target, htarget, -⟩ := hmem.1
    refine ⟨(target, index), find?_zipIdx.mpr ⟨htarget, (hcandidate index target htarget).mpr hmem, ?_⟩, rfl⟩
    intro j hj other hother
    by_contra hp
    have hle := hleast ((hcandidate j other hother).mp (eq_true_of_ne_false hp))
    dsimp only at hj
    omega

/-- The least of a set that is not empty. -/
theorem exists_isLeast {s : Set ℕ} {i : ℕ} (h : i ∈ s) : ∃ least, IsLeast s least := by
  classical
  exact ⟨Nat.find ⟨i, h⟩, Nat.find_spec ⟨i, h⟩, fun j hj => Nat.find_min' ⟨i, h⟩ hj⟩

/-- **Both passes**: a loopback connection goes to the first target that accepts and is seen to
listen; if there is none, to the first that accepts; and if there is none, where it wanted to. -/
theorem forwardTransparent_loopback {original : SocketAddress} (hlocal : original.host.isLoopback = true) :
    (∀ index, (forwardTransparent around original targets excluded).result = .ok (.member index) ↔
      IsLeast {i | Accepts around original.port targets i ∧ Observed around excluded original.port targets i} index ∨
        (∀ i, Accepts around original.port targets i → ¬ Observed around excluded original.port targets i) ∧
          IsLeast {i | Accepts around original.port targets i} index) ∧
      ∀ destination, (forwardTransparent around original targets excluded).result = .ok (.localhost destination) →
        ∀ i, ¬ Accepts around original.port targets i := by
  have hnone : ∀ {s : Set ℕ} {found : Option ℕ}, (∀ i, found = some i ↔ IsLeast s i) → found = none → ∀ i, i ∉ s := by
    intro s found hfound hnone i hi
    obtain ⟨least, hleast⟩ := exists_isLeast hi
    rw [(hfound least).mpr hleast] at hnone
    cases hnone
  rw [forwardTransparent, hlocal]
  simp only [Bool.not_true, Bool.false_and, Bool.false_eq_true, if_false]
  cases hfirst : firstObserved around original.port targets (observeTargets around excluded original.port targets) with
  | some seen =>
    have hseen := firstObserved_iff.mp hfirst
    refine ⟨fun index => ?_, nofun⟩
    constructor
    · intro h
      obtain rfl : seen = index := by simpa using h
      exact .inl hseen
    · rintro (hleast | ⟨hunseen, -⟩)
      · rw [hseen.unique hleast]
      · exact absurd hseen.1.2 (hunseen seen hseen.1.1)
  | none =>
    have hunseen : ∀ i, Accepts around original.port targets i → ¬ Observed around excluded original.port targets i :=
      fun i haccepts hobserved => hnone (fun _ => firstObserved_iff) hfirst i ⟨haccepts, hobserved⟩
    have hsame : {i | Accepts around original.port targets i ∧ ¬ Observed around excluded original.port targets i} =
        {i | Accepts around original.port targets i} := by
      ext i
      exact and_iff_left_of_imp (hunseen i)
    have hno : ∀ index, ¬ IsLeast {i | Accepts around original.port targets i ∧
        Observed around excluded original.port targets i} index :=
      fun index h => hunseen index h.1.1 h.1.2
    cases hother : firstOther around original.port targets (observeTargets around excluded original.port targets) with
    | some found =>
      have hfound := firstOther_iff.mp hother
      rw [hsame] at hfound
      refine ⟨fun index => ?_, nofun⟩
      constructor
      · intro h
        obtain rfl : found = index := by simpa using h
        exact .inr ⟨hunseen, hfound⟩
      · rintro (hleast | ⟨-, hleast⟩)
        · exact absurd hleast (hno index)
        · rw [hfound.unique hleast]
    | none =>
      have hnobody : ∀ i, ¬ Accepts around original.port targets i :=
        fun i haccepts => hnone (fun _ => firstOther_iff) hother i ⟨haccepts, hunseen i haccepts⟩
      refine ⟨fun index => ?_, fun _ _ => hnobody⟩
      constructor
      · intro h
        cases hlocalhost : (localDestinations original).find? around.loopback <;> simp [hlocalhost] at h
      · rintro (hleast | ⟨-, hleast⟩)
        · exact absurd hleast (hno index)
        · exact absurd hleast.1 (hnobody index)

end

section
variable (around : Surroundings) (port : U16) (targets : List TransparentTarget)

/-- A connection went to the first target, in authored order, that accepts, and to the own
loopback interface only if none does. -/
structure InAuthoredOrder (result : Except ForwardError Forwarded) : Prop where
  member : ∀ index, result = .ok (.member index) ↔ IsLeast {i | Accepts around port targets i} index
  localhost : ∀ destination, result = .ok (.localhost destination) → ∀ i, ¬ Accepts around port targets i

end

/-- **Authored order.** A loopback connection goes to the first target in authored order that
accepts, and to the own loopback interface only if none does, exactly if that target is seen to
listen or no target is that accepts. -/
theorem authored_order_iff (around : Surroundings) (excluded : List U16) (targets : List TransparentTarget)
    {original : SocketAddress} (hlocal : original.host.isLoopback = true) :
    InAuthoredOrder around original.port targets (forwardTransparent around original targets excluded).result ↔
      ∀ first, IsLeast {i | Accepts around original.port targets i} first →
        Observed around excluded original.port targets first ∨
          ∀ i, Accepts around original.port targets i → ¬ Observed around excluded original.port targets i := by
  obtain ⟨hmember, hlocalhost⟩ := @forwardTransparent_loopback around excluded targets original hlocal
  constructor
  · rintro ⟨horder, -⟩ first hfirst
    rcases (hmember first).mp ((horder first).mpr hfirst) with hseen | ⟨hunseen, -⟩
    · exact .inl hseen.1.2
    · exact .inr hunseen
  · refine fun h => ⟨fun index => (hmember index).trans ⟨?_, fun hfirst => ?_⟩, hlocalhost⟩
    · rintro (hseen | ⟨-, hfirst⟩)
      · -- the first that accepts is one that is seen
        obtain ⟨first, hfirst⟩ := @exists_isLeast {i | Accepts around original.port targets i} _ hseen.1.1
        rcases h first hfirst with hobserved | hunseen
        · have hsame : IsLeast {i | Accepts around original.port targets i ∧
              Observed around excluded original.port targets i} first :=
            ⟨⟨hfirst.1, hobserved⟩, fun i hi => hfirst.2 hi.1⟩
          rw [hseen.unique hsame]
          exact hfirst
        · exact absurd hseen.1.2 (hunseen index hseen.1.1)
      · exact hfirst
    · rcases h index hfirst with hobserved | hunseen
      · exact .inl ⟨⟨hfirst.1, hobserved⟩, fun i hi => hfirst.2 hi.1⟩
      · exact .inr ⟨hunseen, hfirst⟩

/-- Two members accept on port 5432; the registry of the first cannot be reached. -/
def replicas : List TransparentTarget := [.new "db-main/db" "db-main" false, .new "db-replica/db" "db-replica" false]

/-- What is found around them. -/
def replicasAround : Surroundings where
  table := fun _ => some ""
  registry := fun host => if host = "db-replica" then some (Utf8.encode "5432".toList) else none
  connects := fun _ port => port = 5432
  loopback := fun _ => false

/-- A connection to port 5432. -/
def replicasOriginal : SocketAddress := ⟨.localhost, 5432⟩

theorem forwardTransparent_replicas :
    (forwardTransparent replicasAround replicasOriginal replicas []).result = .ok (.member 1) := by decide +kernel

/-- With the replica first, both members accept, and the first one is seen to listen. -/
theorem authored_order_iff_replica :
    InAuthoredOrder replicasAround 5432 replicas.reverse
        (forwardTransparent replicasAround replicasOriginal replicas.reverse []).result ∧
      (forwardTransparent replicasAround replicasOriginal replicas.reverse []).result = .ok (.member 0) := by
  have haccepts : Accepts replicasAround 5432 replicas.reverse 0 := ⟨.new "db-replica/db" "db-replica" false, rfl, by decide, rfl⟩
  have hobserved : Observed replicasAround [] 5432 replicas.reverse 0 :=
    ⟨.new "db-replica/db" "db-replica" false, rfl, by decide +kernel⟩
  have horder := (@authored_order_iff replicasAround [] replicas.reverse replicasOriginal rfl).mpr fun first hfirst => by
    obtain rfl := Nat.le_zero.mp (hfirst.2 haccepts)
    exact .inl hobserved
  exact ⟨horder, (horder.member 0).mpr ⟨haccepts, fun i _ => Nat.zero_le i⟩⟩

/-- The connection goes past the first member, which accepts. -/
theorem not_inAuthoredOrder_replicas :
    replicasOriginal.host.isLoopback = true ∧
      ¬ InAuthoredOrder replicasAround replicasOriginal.port replicas
        (forwardTransparent replicasAround replicasOriginal replicas []).result := by
  refine ⟨rfl, fun h => ?_⟩
  have hleast := (h.member 1).mp forwardTransparent_replicas
  have haccepts : Accepts replicasAround replicasOriginal.port replicas 0 :=
    ⟨.new "db-main/db" "db-main" false, rfl, by decide, rfl⟩
  have hle : 1 ≤ 0 := hleast.2 haccepts
  omega

end Apmpr.Router.Transparent
