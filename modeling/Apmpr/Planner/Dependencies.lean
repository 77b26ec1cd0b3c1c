import Mathlib.Data.Finset.Card
import Apmpr.Lib.Cycles
import Apmpr.Planner.Replan

/-!
# Dependency cycles

The two searches of the planner: `validate_local_dependencies` in the services of a block, and
`validate_expanded_dependencies` in those of all instances. Both keep the nodes they are done
with over all roots, and stop at the first cycle.

## What is proved

* `cyclicFrom_visits`: a search of bounded depth is a search that ends, if the bound is greater
  than the number of nodes that are not done.
* `dependency_cycles_exact`: a cycle is reported exactly if there is one.
-/

namespace Apmpr.Planner

open Relation

/-! ### The bound of a search -/

/-- The number of nodes that are not done. -/
def remaining (all : Finset String) (done : List String) : ℕ := (all.filter fun node => node ∉ done).card

theorem remaining_le {all : Finset String} {done done' : List String} (h : done ⊆ done') :
    remaining all done' ≤ remaining all done :=
  Finset.card_le_card (Finset.monotone_filter_right all fun _ _ hnot hmem => hnot (h hmem))

theorem remaining_cons {all : Finset String} {node : String} {done : List String} (hall : node ∈ all) (hdone : node ∉ done) :
    remaining all (node :: done) < remaining all done := by
  refine Finset.card_lt_card ⟨?_, fun hsubset => ?_⟩
  · exact Finset.monotone_filter_right all fun _ _ hnot hmem => hnot (List.mem_cons_of_mem _ hmem)
  · have hmem := hsubset (Finset.mem_filter.mpr ⟨hall, hdone⟩)
    exact (Finset.mem_filter.mp hmem).2 List.mem_cons_self

section Bound

variable {edges : String → List String} {all : Finset String}

/-- One step of the search through the successors of a node. -/
def searchNext (edges : String → List String) (fuel : ℕ) (active : List String) (found : Bool × List String) (next : String) :
    Bool × List String :=
  if found.1 then found else cyclicFrom edges fuel next active found.2

theorem foldl_searchNext_true (fuel : ℕ) (active done nodes : List String) :
    nodes.foldl (searchNext edges fuel active) (true, done) = (true, done) := by
  induction nodes with
  | nil => rfl
  | cons node rest ih => exact ih

theorem foldl_searchNext_visits {fuel : ℕ}
    (ih : ∀ node active done, node ∈ all → remaining all done < fuel →
      Visits edges active done [node] (cyclicFrom edges fuel node active done).1 (cyclicFrom edges fuel node active done).2)
    {nodes : List String} (hnodes : ∀ node ∈ nodes, node ∈ all) (active : List String) {done : List String}
    (hfuel : remaining all done < fuel) :
    Visits edges active done nodes (nodes.foldl (searchNext edges fuel active) (false, done)).1
      (nodes.foldl (searchNext edges fuel active) (false, done)).2 := by
  induction nodes generalizing done with
  | nil => exact .nil
  | cons node rest ihrest =>
    obtain ⟨hnode, hrest⟩ := List.forall_mem_cons.mp hnodes
    have hfirst := ih node active done hnode hfuel
    rw [List.foldl_cons, searchNext, if_neg Bool.false_ne_true]
    cases hresult : cyclicFrom edges fuel node active done with
    | mk found done' =>
      rw [hresult] at hfirst
      cases found with
      | true =>
        rw [foldl_searchNext_true]
        exact hfirst.cons_true rest
      | false => exact hfirst.cons_false (ihrest hrest ((remaining_le hfirst.subset).trans_lt hfuel))

/-- **A search that is deep enough ends.** -/
theorem cyclicFrom_visits (hall : ∀ a ∈ all, ∀ b ∈ edges a, b ∈ all) (fuel : ℕ) (node : String) (active done : List String)
    (hnode : node ∈ all) (hfuel : remaining all done < fuel) :
    Visits edges active done [node] (cyclicFrom edges fuel node active done).1 (cyclicFrom edges fuel node active done).2 := by
  induction fuel generalizing node active done with
  | zero => exact absurd hfuel (Nat.not_lt_zero _)
  | succ fuel ih =>
    rw [cyclicFrom]
    by_cases hactive : node ∈ active
    · rw [if_pos (List.contains_iff_mem.mpr hactive)]
      exact .back hactive
    · rw [if_neg fun h => hactive (List.contains_iff_mem.mp h)]
      by_cases hdone : node ∈ done
      · rw [if_pos (List.contains_iff_mem.mpr hdone)]
        exact .seen hactive hdone .nil
      · rw [if_neg fun h => hdone (List.contains_iff_mem.mp h)]
        have hless := remaining_cons hnode hdone
        have hinner := foldl_searchNext_visits ih (hall node hnode) (node :: active)
          (show remaining all (node :: done) < fuel by omega)
        change Visits edges active done [node] ((edges node).foldl (searchNext edges fuel (node :: active)) (false, node :: done)).1
          ((edges node).foldl (searchNext edges fuel (node :: active)) (false, node :: done)).2
        cases hresult : (edges node).foldl (searchNext edges fuel (node :: active)) (false, node :: done) with
        | mk found done' =>
          rw [hresult] at hinner
          cases found with
          | true => exact .cycle hactive hdone hinner
          | false => exact .clear hactive hdone hinner .nil

end Bound

/-- A cycle is among the errors. -/
def ReportsCycle (errors : List Diagnostic) : Prop := ∃ d ∈ errors, d.code = .dependencyCycle

theorem remaining_toFinset_le (nodes done : List String) : remaining nodes.toFinset done ≤ nodes.length :=
  (Finset.card_filter_le _ _).trans (List.toFinset_card_le nodes)

/-! ### Blocks -/

/-- A service of a block depends on another one of it. -/
def LocalDepends (block : Block) (service other : String) : Prop :=
  ∃ definition, block.services.get? service = some definition ∧ other ∈ definition.dependsOn.keys ∧
    Text.contains other "/" = false

theorem mem_localEdges_iff {block : Block} {service other : String} :
    other ∈ localEdges block service ↔ LocalDepends block service other ∧ block.services.contains other = true := by
  rw [localEdges, List.mem_filter, List.mem_flatMap]
  refine and_congr_left fun _ => ?_
  constructor
  · rintro ⟨definition, hdefinition, hother⟩
    obtain ⟨hkey, hlocal⟩ := List.mem_filter.mp hother
    exact ⟨definition, Option.mem_toList.mp hdefinition, hkey, by simpa using hlocal⟩
  · rintro ⟨definition, hdefinition, hkey, hlocal⟩
    exact ⟨definition, Option.mem_toList.mpr hdefinition, List.mem_filter.mpr ⟨hkey, by simpa using hlocal⟩⟩

/-- A cycle passes only nodes that lead on. -/
theorem transGen_restrict {α : Type} {r s : α → α → Prop} (h : ∀ a b c, r a b → r b c → s a b) {a b c : α}
    (hab : TransGen r a b) (hbc : r b c) : TransGen s a b := by
  induction hab generalizing c with
  | single hab => exact TransGen.single (h _ _ _ hab hbc)
  | tail _ hedge ih => exact (ih hedge).tail (h _ _ _ hedge hbc)

theorem cycle_iff_of_leads {α : Type} {r s : α → α → Prop} (h : ∀ a b c, r a b → r b c → s a b)
    (hsub : ∀ a b, s a b → r a b) : (∃ a, TransGen s a a) ↔ ∃ a, TransGen r a a := by
  constructor
  · rintro ⟨a, hcycle⟩
    exact ⟨a, TransGen.mono hsub _ _ hcycle⟩
  · rintro ⟨a, hcycle⟩
    obtain ⟨b, hedge, -⟩ := TransGen.head'_iff.mp hcycle
    exact ⟨a, transGen_restrict h hcycle hedge⟩

theorem localDependencyErrors_visits (name : String) (block : Block) {entries : List (String × Service)}
    (hentries : ∀ entry ∈ entries, entry.1 ∈ block.services.keys) (done : List String) :
    ∃ found done', Visits (localEdges block) [] done (entries.map Prod.fst) found done' ∧
      (ReportsCycle (localDependencyErrors name block entries done) ↔ found = true) := by
  have hall : ∀ a ∈ block.services.keys.toFinset, ∀ b ∈ localEdges block a, b ∈ block.services.keys.toFinset := by
    intro a _ b hb
    rw [List.mem_toFinset, SortedMap.mem_keys_iff]
    exact (SortedMap.contains_iff _ _).mp (mem_localEdges_iff.mp hb).2
  induction entries generalizing done with
  | nil => exact ⟨false, done, .nil, by simp [localDependencyErrors, ReportsCycle]⟩
  | cons entry rest ih =>
    obtain ⟨service, definition⟩ := entry
    obtain ⟨hservice, hrest⟩ := List.forall_mem_cons.mp hentries
    have hbound : remaining block.services.keys.toFinset done < block.services.entries.length + 1 := by
      have hle := remaining_toFinset_le block.services.keys done
      rw [SortedMap.keys, List.length_map] at hle
      exact Nat.lt_succ_of_le hle
    have hvisits := cyclicFrom_visits hall _ service [] done (List.mem_toFinset.mpr hservice) hbound
    rw [localDependencyErrors]
    cases hresult : cyclicFrom (localEdges block) (block.services.entries.length + 1) service [] done with
    | mk found done' =>
      rw [hresult] at hvisits
      cases found with
      | true => exact ⟨true, done', hvisits.cons_true _, by simp [ReportsCycle]⟩
      | false =>
        obtain ⟨found, done'', hrest', hiff⟩ := ih hrest done'
        refine ⟨found, done'', hvisits.cons_false hrest', ?_⟩
        rw [← hiff]
        simp [ReportsCycle, or_and_right, exists_or]

/-! ### Instances -/

/-- A node: the name of an instance and that of a service. -/
abbrev Node := String × String

/-- The text of a node. -/
def nodeText (node : Node) : String := s!"{node.1}/{node.2}"

/-- The node a dependency of an instance's service refers to. -/
def referredNode (inst reference : String) : Node := (Text.splitOnce '/' reference).getD (inst, reference)

/-- A service of an instance that is run. -/
def ServiceAt (spec : DeploymentSpec) (node : Node) (definition : Service) : Prop :=
  ∃ inst block, (instanceMap spec).get? node.1 = some inst ∧ inst.isExternal = false ∧
    spec.blocks.get? inst.block = some block ∧ block.services.get? node.2 = some definition

/-- A service of an instance depends on a node. -/
def Depends (spec : DeploymentSpec) (node other : Node) : Prop :=
  ∃ definition, ServiceAt spec node definition ∧ ∃ reference ∈ definition.dependsOn.keys, other = referredNode node.1 reference

/-- The same between the texts of nodes. -/
def TextDepends (spec : DeploymentSpec) (text other : String) : Prop :=
  ∃ node next, Depends spec node next ∧ nodeText node = text ∧ nodeText next = other

/-- The blocks of instances and the services that others depend on are there. -/
structure ReferencesExist (spec : DeploymentSpec) : Prop where
  blocks : missingBlock spec = none
  references : ∀ node other, Depends spec node other → ∃ definition, ServiceAt spec other definition

/-- The same for nodes as they are read off their texts. -/
structure TextReferencesExist (spec : DeploymentSpec) : Prop where
  blocks : missingBlock spec = none
  references : ∀ text other, TextDepends spec text other → isServiceNode spec other = true

theorem nodeText_eq (node : Node) : nodeText node = node.1 ++ "/" ++ node.2 := rfl

theorem dependencyTarget_nodeText (inst reference : String) :
    dependencyTarget inst reference = nodeText (referredNode inst reference) := by
  rw [dependencyTarget, referredNode]
  cases Text.splitOnce '/' reference <;> rfl

theorem name_of_instanceMap {spec : DeploymentSpec} {name : String} {inst : Instance}
    (h : (instanceMap spec).get? name = some inst) : inst.name = name := by
  obtain ⟨_, _, _, -, -, hname, rfl⟩ := SortedMap.get?_ofList_map_iff.mp h
  exact hname.symm

theorem mem_serviceNodes_iff {spec : DeploymentSpec} {inst : Instance} {service : String} {definition : Service} :
    (inst, service, definition) ∈ serviceNodes spec ↔ (instanceMap spec).get? inst.name = some inst ∧ inst.isExternal = false ∧
      ∃ block, spec.blocks.get? inst.block = some block ∧ block.services.get? service = some definition := by
  rw [serviceNodes, List.mem_flatMap]
  constructor
  · rintro ⟨other, hother, hmem⟩
    obtain ⟨⟨service', definition'⟩, hentry, heq⟩ := List.mem_map.mp hmem
    obtain ⟨rfl, rfl, rfl⟩ : other = inst ∧ service' = service ∧ definition' = definition := by simpa using heq
    obtain ⟨hvalue, hmanaged⟩ := List.mem_filter.mp hother
    obtain ⟨⟨name, value⟩, hnamed, rfl⟩ := List.mem_map.mp hvalue
    have hget := (SortedMap.mem_entries_iff _).mp hnamed
    obtain ⟨block, hblock, hentry⟩ := List.mem_flatMap.mp hentry
    refine ⟨?_, by simpa using hmanaged, block, Option.mem_toList.mp hblock, (SortedMap.mem_entries_iff _).mp hentry⟩
    rw [name_of_instanceMap hget]
    exact hget
  · rintro ⟨hget, hmanaged, block, hblock, hservice⟩
    refine ⟨inst, List.mem_filter.mpr ⟨List.mem_map.mpr ⟨_, (SortedMap.mem_entries_iff _).mpr hget, rfl⟩, by simp [hmanaged]⟩,
      List.mem_map.mpr ⟨(service, definition), ?_, rfl⟩⟩
    exact List.mem_flatMap.mpr ⟨block, Option.mem_toList.mpr hblock, (SortedMap.mem_entries_iff _).mpr hservice⟩

/-- The services that are visited are those there are. -/
theorem exists_mem_serviceNodes_iff {spec : DeploymentSpec} {node : Node} {definition : Service} :
    (∃ inst, inst.name = node.1 ∧ (inst, node.2, definition) ∈ serviceNodes spec) ↔ ServiceAt spec node definition := by
  constructor
  · rintro ⟨inst, hname, hmem⟩
    obtain ⟨hget, hmanaged, block, hblock, hservice⟩ := mem_serviceNodes_iff.mp hmem
    rw [hname] at hget
    exact ⟨inst, block, hget, hmanaged, hblock, hservice⟩
  · rintro ⟨inst, block, hget, hmanaged, hblock, hservice⟩
    have hname := name_of_instanceMap hget
    refine ⟨inst, hname, mem_serviceNodes_iff.mpr ⟨?_, hmanaged, block, hblock, hservice⟩⟩
    rw [hname]
    exact hget

theorem isServiceNode_iff {spec : DeploymentSpec} {text : String} : isServiceNode spec text = true ↔
    ∃ node, Text.splitOnce '/' text = some node ∧ ∃ definition, ServiceAt spec node definition := by
  unfold isServiceNode
  cases hsplit : Text.splitOnce '/' text with
  | none => simp
  | some node =>
    simp only [Option.any_eq_true, Bool.and_eq_true, Bool.not_eq_true', Option.some.injEq, exists_eq_left',
      SortedMap.contains_iff]
    constructor
    · rintro ⟨inst, hget, hmanaged, block, hblock, definition, hservice⟩
      exact ⟨definition, inst, block, hget, hmanaged, hblock, hservice⟩
    · rintro ⟨definition, inst, block, hget, hmanaged, hblock, hservice⟩
      exact ⟨inst, hget, hmanaged, block, hblock, definition, hservice⟩

/-- What is in the graph at a text: the edges of all services with that text. -/
theorem mem_foldl_graph (spec : DeploymentSpec) (nodes : List (Instance × String × Service))
    (graph : SortedMap String (List String)) (text : String) :
    ((nodes.foldl (fun graph node =>
        let key := s!"{node.1.name}/{node.2.1}"
        graph.insert key ((graph.get? key).getD [] ++ nodeEdges spec node)) graph).contains text = true ↔
      graph.contains text = true ∨ ∃ n ∈ nodes, nodeText (n.1.name, n.2.1) = text) ∧
    ∀ other, other ∈ ((nodes.foldl (fun graph node =>
        let key := s!"{node.1.name}/{node.2.1}"
        graph.insert key ((graph.get? key).getD [] ++ nodeEdges spec node)) graph).get? text).getD [] ↔
      other ∈ (graph.get? text).getD [] ∨ ∃ n ∈ nodes, nodeText (n.1.name, n.2.1) = text ∧ other ∈ nodeEdges spec n := by
  induction nodes generalizing graph with
  | nil => simp
  | cons first rest ih =>
    rw [List.foldl_cons]
    obtain ⟨hcontains, hmem⟩ := ih (graph.insert (nodeText (first.1.name, first.2.1))
      ((graph.get? (nodeText (first.1.name, first.2.1))).getD [] ++ nodeEdges spec first))
    constructor
    · refine hcontains.trans ?_
      rw [SortedMap.contains, SortedMap.get?_insert]
      by_cases hkey : text = nodeText (first.1.name, first.2.1)
      · simp [hkey]
      · rw [if_neg hkey, List.exists_mem_cons_iff, SortedMap.contains]
        simp [Ne.symm hkey]
    · intro other
      refine (hmem other).trans ?_
      rw [SortedMap.get?_insert]
      by_cases hkey : text = nodeText (first.1.name, first.2.1)
      · subst hkey
        simp [or_assoc]
      · rw [if_neg hkey]
        simp [Ne.symm hkey]

/-- The successors of a text in the graph. -/
def graphEdges (spec : DeploymentSpec) (text : String) : List String := ((dependencyGraph spec).get? text).getD []

theorem mem_graphEdges_iff {spec : DeploymentSpec} {text other : String} :
    other ∈ graphEdges spec text ↔ TextDepends spec text other ∧ isServiceNode spec other = true := by
  refine ((mem_foldl_graph spec (serviceNodes spec) ∅ text).2 other).trans ?_
  simp only [nodeEdges, List.mem_filter, List.mem_map, dependencyTarget_nodeText]
  constructor
  · rintro (hmem | ⟨⟨inst, service, definition⟩, hmem, htext, ⟨reference, hreference, rfl⟩, hnode⟩)
    · exact absurd hmem List.not_mem_nil
    · exact ⟨⟨(inst.name, service), _, ⟨definition, exists_mem_serviceNodes_iff.mp ⟨inst, rfl, hmem⟩, reference, hreference,
        rfl⟩, htext, rfl⟩, hnode⟩
  · rintro ⟨⟨node, _, ⟨definition, hservice, reference, hreference, rfl⟩, htext, rfl⟩, hnode⟩
    obtain ⟨inst, hname, hmem⟩ := exists_mem_serviceNodes_iff.mpr hservice
    refine Or.inr ⟨(inst, node.2, definition), hmem, ?_, ⟨reference, hreference, ?_⟩, hnode⟩
    · rw [hname]
      exact htext
    · rw [hname]

/-- The texts of the graph are those of the services. -/
theorem mem_keys_dependencyGraph_iff {spec : DeploymentSpec} {text : String} :
    text ∈ (dependencyGraph spec).keys ↔ ∃ node definition, ServiceAt spec node definition ∧ nodeText node = text := by
  rw [SortedMap.mem_keys_iff, ← SortedMap.contains_iff]
  refine (mem_foldl_graph spec (serviceNodes spec) ∅ text).1.trans ?_
  constructor
  · rintro (hmem | ⟨⟨inst, service, definition⟩, hmem, htext⟩)
    · exact absurd hmem Bool.false_ne_true
    · exact ⟨(inst.name, service), definition, exists_mem_serviceNodes_iff.mp ⟨inst, rfl, hmem⟩, htext⟩
  · rintro ⟨node, definition, hservice, htext⟩
    obtain ⟨inst, hname, hmem⟩ := exists_mem_serviceNodes_iff.mpr hservice
    refine Or.inr ⟨_, hmem, ?_⟩
    rw [hname]
    exact htext

/-- A text that is split at a slash is that of its parts. -/
theorem nodeText_of_splitOnce {text : String} {node : Node} (h : Text.splitOnce '/' text = some node) : nodeText node = text := by
  obtain ⟨⟨before, after⟩, hchars, rfl⟩ := Option.map_eq_some_iff.mp h
  obtain ⟨-, htext⟩ := Text.splitOnceChars_of_eq_some hchars
  rw [nodeText_eq]
  apply String.toList_inj.mp
  rw [htext]
  simp

theorem mem_keys_of_mem_graphEdges {spec : DeploymentSpec} {text other : String} (h : other ∈ graphEdges spec text) :
    other ∈ (dependencyGraph spec).keys := by
  obtain ⟨node, hsplit, definition, hservice⟩ := isServiceNode_iff.mp (mem_graphEdges_iff.mp h).2
  exact mem_keys_dependencyGraph_iff.mpr ⟨node, definition, hservice, nodeText_of_splitOnce hsplit⟩

theorem cycleErrors_visits (spec : DeploymentSpec) {nodes : List String}
    (hnodes : ∀ node ∈ nodes, node ∈ (dependencyGraph spec).keys) (done : List String) :
    ∃ found done', Visits (graphEdges spec) [] done nodes found done' ∧
      (ReportsCycle (cycleErrors (dependencyGraph spec) nodes done) ↔ found = true) := by
  have hall : ∀ a ∈ (dependencyGraph spec).keys.toFinset, ∀ b ∈ graphEdges spec a, b ∈ (dependencyGraph spec).keys.toFinset :=
    fun _ _ _ hb => List.mem_toFinset.mpr (mem_keys_of_mem_graphEdges hb)
  induction nodes generalizing done with
  | nil => exact ⟨false, done, .nil, by simp [cycleErrors, ReportsCycle]⟩
  | cons node rest ih =>
    obtain ⟨hnode, hrest⟩ := List.forall_mem_cons.mp hnodes
    have hbound : remaining (dependencyGraph spec).keys.toFinset done < (dependencyGraph spec).entries.length + 2 := by
      have hle := remaining_toFinset_le (dependencyGraph spec).keys done
      have hlength : (dependencyGraph spec).keys.length = (dependencyGraph spec).entries.length := List.length_map _
      omega
    have hvisits := cyclicFrom_visits hall _ node [] done (List.mem_toFinset.mpr hnode) hbound
    rw [cycleErrors]
    cases hresult : cyclicFrom (fun n => ((dependencyGraph spec).get? n).getD []) ((dependencyGraph spec).entries.length + 2)
        node [] done with
    | mk found done' =>
      rw [show cyclicFrom (graphEdges spec) _ node [] done = _ from hresult] at hvisits
      cases found with
      | true => exact ⟨true, done', hvisits.cons_true _, by simp [ReportsCycle]⟩
      | false =>
        obtain ⟨found, done'', hrest', hiff⟩ := ih hrest done'
        exact ⟨found, done'', hvisits.cons_false hrest', hiff⟩

/-! ### The graph of services -/

/-- Instances whose names have no slash. -/
def SlashFree (spec : DeploymentSpec) : Prop := ∀ name inst, (instanceMap spec).get? name = some inst → '/' ∉ name.toList

/-- The node a text is split into. -/
def nodeOf (text : String) : Node := (Text.splitOnce '/' text).getD (text, "")

theorem splitOnce_nodeText {node : Node} (h : '/' ∉ node.1.toList) : Text.splitOnce '/' (nodeText node) = some node :=
  Text.splitOnce_slash h

theorem nodeOf_nodeText {node : Node} (h : '/' ∉ node.1.toList) : nodeOf (nodeText node) = node := by
  rw [nodeOf, splitOnce_nodeText h]
  rfl

theorem SlashFree.of_serviceAt {spec : DeploymentSpec} (h : SlashFree spec) {node : Node} {definition : Service}
    (hservice : ServiceAt spec node definition) : '/' ∉ node.1.toList := by
  obtain ⟨inst, _, hget, -⟩ := hservice
  exact h _ inst hget

theorem Depends.serviceAt {spec : DeploymentSpec} {node other : Node} (h : Depends spec node other) :
    ∃ definition, ServiceAt spec node definition := by
  obtain ⟨definition, hservice, -⟩ := h
  exact ⟨definition, hservice⟩

/-- Without slashes the texts of nodes are read as they were written. -/
theorem ReferencesExist.text {spec : DeploymentSpec} (h : ReferencesExist spec) (hfree : SlashFree spec) :
    TextReferencesExist spec := by
  refine ⟨h.blocks, ?_⟩
  rintro _ _ ⟨node, next, hdepends, rfl, rfl⟩
  obtain ⟨definition, hservice⟩ := h.references node next hdepends
  exact isServiceNode_iff.mpr ⟨next, splitOnce_nodeText (hfree.of_serviceAt hservice), definition, hservice⟩

theorem text_cycle_iff {spec : DeploymentSpec} (h : ReferencesExist spec) (hfree : SlashFree spec) :
    (∃ text, TransGen (TextDepends spec) text text) ↔ ∃ node, TransGen (Depends spec) node node := by
  constructor
  · rintro ⟨text, hcycle⟩
    refine ⟨nodeOf text, hcycle.lift nodeOf ?_⟩
    rintro _ _ ⟨node, next, hdepends, rfl, rfl⟩
    obtain ⟨_, hnode⟩ := hdepends.serviceAt
    obtain ⟨_, hnext⟩ := h.references node next hdepends
    change Depends spec (nodeOf _) (nodeOf _)
    rw [nodeOf_nodeText (hfree.of_serviceAt hnode), nodeOf_nodeText (hfree.of_serviceAt hnext)]
    exact hdepends
  · rintro ⟨node, hcycle⟩
    exact ⟨nodeText node, hcycle.lift nodeText fun a b hdepends => ⟨a, b, hdepends, rfl, rfl⟩⟩

theorem reportsCycle_append_iff {errors rest : List Diagnostic} (h : ∀ d ∈ errors, d.code ≠ .dependencyCycle) :
    ReportsCycle (errors ++ rest) ↔ ReportsCycle rest := by
  constructor
  · rintro ⟨d, hd, hcode⟩
    rcases List.mem_append.mp hd with hd | hd
    · exact absurd hcode (h d hd)
    · exact ⟨d, hd, hcode⟩
  · rintro ⟨d, hd, hcode⟩
    exact ⟨d, List.mem_append_right _ hd, hcode⟩

/-- The search of all roots ends, with the answer of `validate_expanded_dependencies`. -/
theorem expandedDependencyErrors_visits (spec : DeploymentSpec) :
    ∃ found done, Visits (graphEdges spec) [] [] (dependencyGraph spec).keys found done ∧
      (ReportsCycle (expandedDependencyErrors spec) ↔ found = true) := by
  obtain ⟨found, done, hvisits, hiff⟩ := @cycleErrors_visits spec (dependencyGraph spec).keys (fun _ h => h) []
  refine ⟨found, done, hvisits, (reportsCycle_append_iff ?_).trans hiff⟩
  intro d hd
  obtain ⟨node, -, hd⟩ := List.mem_flatMap.mp hd
  obtain ⟨reference, -, rfl⟩ := List.mem_map.mp hd
  simp

theorem expanded_reportsCycle_iff {spec : DeploymentSpec} (h : TextReferencesExist spec) :
    ReportsCycle (expandedDependencyErrors spec) ↔ ∃ text, TransGen (TextDepends spec) text text := by
  obtain ⟨found, done, hvisits, hiff⟩ := expandedDependencyErrors_visits spec
  have hroots : ∀ text, graphEdges spec text ≠ [] → text ∈ (dependencyGraph spec).keys := by
    intro text hne
    obtain ⟨other, hother⟩ := List.exists_mem_of_ne_nil _ hne
    obtain ⟨⟨node, next, hdepends, rfl, -⟩, -⟩ := mem_graphEdges_iff.mp hother
    obtain ⟨definition, hservice⟩ := hdepends.serviceAt
    exact mem_keys_dependencyGraph_iff.mpr ⟨node, definition, hservice, rfl⟩
  have hleads : Adjacent (graphEdges spec) = TextDepends spec := by
    ext text other
    exact mem_graphEdges_iff.trans (and_iff_left_of_imp (h.references text other))
  rw [hiff, visits_iff hvisits hroots, hleads]

theorem local_reportsCycle_iff (name : String) (block : Block) :
    ReportsCycle (localDependencyErrors name block block.services.entries []) ↔ ∃ service, TransGen (LocalDepends block) service service := by
  obtain ⟨found, done, hvisits, hiff⟩ :=
    @localDependencyErrors_visits name block block.services.entries (fun entry hentry => List.mem_map.mpr ⟨entry, hentry, rfl⟩) []
  have hroots : ∀ service, localEdges block service ≠ [] → service ∈ block.services.entries.map Prod.fst := by
    intro service hne
    obtain ⟨other, hother⟩ := List.exists_mem_of_ne_nil _ hne
    obtain ⟨⟨definition, hget, -⟩, -⟩ := mem_localEdges_iff.mp hother
    exact List.mem_map.mpr ⟨_, (SortedMap.mem_entries_iff _).mpr hget, rfl⟩
  rw [hiff, visits_iff hvisits hroots]
  refine cycle_iff_of_leads ?_ fun _ _ hedge => (mem_localEdges_iff.mp hedge).1
  rintro a b c hab ⟨definition, hget, -⟩
  exact mem_localEdges_iff.mpr ⟨hab, (SortedMap.contains_iff _ _).mpr ⟨definition, hget⟩⟩

/-- **Dependency cycles are found exactly**: between the texts of nodes, and between the nodes
themselves where no instance name has a slash; and both searches end. -/
theorem dependency_cycles_exact :
    (∀ spec, TextReferencesExist spec →
      (ReportsCycle (expandedDependencyErrors spec) ↔ ∃ text, TransGen (TextDepends spec) text text)) ∧
    (∀ spec, ReferencesExist spec → SlashFree spec →
      (ReportsCycle (expandedDependencyErrors spec) ↔ ∃ node, TransGen (Depends spec) node node)) ∧
    (∀ name block, ReportsCycle (localDependencyErrors name block block.services.entries []) ↔
      ∃ service, TransGen (LocalDepends block) service service) ∧
    (∀ spec, ∃ found done, Visits (graphEdges spec) [] [] (dependencyGraph spec).keys found done ∧
      (ReportsCycle (expandedDependencyErrors spec) ↔ found = true)) ∧
    ∀ name block, ∃ found done, Visits (localEdges block) [] [] block.services.keys found done ∧
      (ReportsCycle (localDependencyErrors name block block.services.entries []) ↔ found = true) := by
  refine ⟨fun spec h => expanded_reportsCycle_iff h, fun spec h hfree => ?_, local_reportsCycle_iff,
    expandedDependencyErrors_visits, fun name block => ?_⟩
  · exact (expanded_reportsCycle_iff (h.text hfree)).trans (text_cycle_iff h hfree)
  · exact localDependencyErrors_visits name block (fun entry hentry => List.mem_map.mpr ⟨entry, hentry, rfl⟩) []

/-- A block with one service, which depends on the nodes that are given. -/
def dependentBlock (service : String) (references : List String) : Block where
  parameters := ∅
  services := .ofList [(service, {
    execution := .container (some "nginx:1.27") none [] ⟨none, ⟨"/workspace"⟩, false, ∅⟩
    publish := []
    volumes := []
    dependsOn := .ofList (references.map fun reference => (reference, .started))
    probe := none })]

/-- An instance of a block. -/
def instanceOf (name block : String) : Instance := { webInstance name none with block := block }

/-- The shop with other blocks and instances. -/
def dependentShop (blocks : List (String × Block)) (instances : List Instance) : DeploymentSpec :=
  { shopBundle.document.spec with blocks := .ofList blocks, instances := instances, groups := ∅ }

theorem depends_iff {spec : DeploymentSpec} {node other : Node} : Depends spec node other ↔
    ∃ n ∈ serviceNodes spec, (n.1.name, n.2.1) = node ∧ ∃ reference ∈ n.2.2.dependsOn.keys, other = referredNode n.1.name reference := by
  constructor
  · rintro ⟨definition, hservice, reference, hreference, rfl⟩
    obtain ⟨inst, hname, hmem⟩ := exists_mem_serviceNodes_iff.mpr hservice
    refine ⟨_, hmem, ?_, reference, hreference, ?_⟩
    · rw [hname]
    · rw [hname]
  · rintro ⟨⟨inst, service, definition⟩, hmem, rfl, reference, hreference, rfl⟩
    exact ⟨definition, exists_mem_serviceNodes_iff.mp ⟨inst, rfl, hmem⟩, reference, hreference, rfl⟩

/-- References that the list of services shows to exist. -/
theorem ReferencesExist.of_serviceNodes {spec : DeploymentSpec} (hblocks : missingBlock spec = none)
    (h : ∀ n ∈ serviceNodes spec, ∀ reference ∈ n.2.2.dependsOn.keys,
      ∃ m ∈ serviceNodes spec, (m.1.name, m.2.1) = referredNode n.1.name reference) : ReferencesExist spec := by
  refine ⟨hblocks, fun node other hdepends => ?_⟩
  obtain ⟨n, hn, -, reference, hreference, rfl⟩ := depends_iff.mp hdepends
  obtain ⟨⟨inst, service, definition⟩, hm, heq⟩ := h n hn reference hreference
  rw [← heq]
  exact ⟨definition, exists_mem_serviceNodes_iff.mp ⟨inst, rfl, hm⟩⟩

/-- Two servers of a block that depend on each other. -/
def cyclicShop : DeploymentSpec :=
  dependentShop [("one", dependentBlock "ui" ["back/ui"]), ("two", dependentBlock "ui" ["front/ui"])]
    [instanceOf "front" "one", instanceOf "back" "two"]

theorem cyclicShop_referencesExist : ReferencesExist cyclicShop :=
  .of_serviceNodes (by decide +kernel) (by decide +kernel)

theorem cyclicShop_slashFree : SlashFree cyclicShop := by
  intro name inst hget
  have hall : ∀ entry ∈ (instanceMap cyclicShop).entries, '/' ∉ entry.1.toList := by decide +kernel
  exact hall _ ((SortedMap.mem_entries_iff _).mpr hget)

/-- The two services of the shop depend on each other, which is reported. -/
theorem dependency_cycles_exact_shop :
    TransGen (Depends cyclicShop) ("front", "ui") ("front", "ui") ∧ ReportsCycle (expandedDependencyErrors cyclicShop) := by
  have hforth : Depends cyclicShop ("front", "ui") ("back", "ui") := depends_iff.mpr (by decide +kernel)
  have hback : Depends cyclicShop ("back", "ui") ("front", "ui") := depends_iff.mpr (by decide +kernel)
  have hcycle := (TransGen.single hforth).tail hback
  exact ⟨hcycle, (dependency_cycles_exact.2.1 cyclicShop cyclicShop_referencesExist cyclicShop_slashFree).mpr ⟨_, hcycle⟩⟩

/-- The service `b/c` of `a`, and the service `c` of `a/b`, between which there is `x`. -/
def slashedShop : DeploymentSpec :=
  dependentShop [("one", dependentBlock "b/c" []), ("two", dependentBlock "c" ["x/y"]), ("three", dependentBlock "y" ["a/b/c"])]
    [instanceOf "a" "one", instanceOf "a/b" "two", instanceOf "x" "three"]

/-- How far a node of the shop leads. -/
def slashedRank (node : Node) : ℕ := if node.1 = "a/b" then 2 else if node.1 = "x" then 1 else 0

/-- Nothing there depends on itself, but two nodes have the same text. -/
theorem dependency_cycle_of_texts :
    ReferencesExist slashedShop ∧ ReportsCycle (expandedDependencyErrors slashedShop) ∧
      ¬∃ node, TransGen (Depends slashedShop) node node := by
  refine ⟨.of_serviceNodes (by decide +kernel) (by decide +kernel), ?_, ?_⟩
  · have hcode : ((expandedDependencyErrors slashedShop).map Diagnostic.code).contains .dependencyCycle = true := by decide +kernel
    obtain ⟨d, hd, heq⟩ := List.mem_map.mp (List.contains_iff_mem.mp hcode)
    exact ⟨d, hd, heq⟩
  · rintro ⟨node, hcycle⟩
    have hrank : ∀ n ∈ serviceNodes slashedShop, ∀ reference ∈ n.2.2.dependsOn.keys,
        slashedRank (referredNode n.1.name reference) < slashedRank (n.1.name, n.2.1) := by decide +kernel
    have hstep : ∀ a b, Depends slashedShop a b → slashedRank b < slashedRank a := by
      intro a b hdepends
      obtain ⟨n, hn, rfl, reference, hreference, rfl⟩ := depends_iff.mp hdepends
      exact hrank n hn reference hreference
    have hless : ∀ a b, TransGen (Depends slashedShop) a b → slashedRank b < slashedRank a := by
      intro a b hab
      induction hab with
      | single hedge => exact hstep _ _ hedge
      | tail _ hedge ih => exact (hstep _ _ hedge).trans ih
    exact absurd (hless node node hcycle) (lt_irrefl _)

end Apmpr.Planner
