import Mathlib.Data.List.Basic
import Mathlib.Data.List.Dedup
import Mathlib.Logic.Relation

/-!
# Depth-first search for a cycle

A search visits nodes one after another. A node on the path it stands on closes a cycle; a node
that was visited before is passed by; any other node is visited, and its successors before the
next one. The visited nodes are kept over all roots, the path is not.

`Visits` is the search as a relation, without a bound on its depth: a derivation is a search that
ended. It is compared with the graph alone.

## What is proved

* `Visits.cyclic`: a cycle that is found is one of the graph.
* `Visits.closed`: where none is found, what was visited is closed and has none.
* `visits_iff`: from all nodes that have successors, a cycle is found exactly if there is one.
-/

namespace Apmpr

open Relation

variable {α : Type}

/-- The search, on the path `active` and after `done`, through a list of nodes: whether it finds
a cycle, and what is done then. -/
inductive Visits (edges : α → List α) : List α → List α → List α → Bool → List α → Prop
  /-- Nothing is left. -/
  | nil {active done : List α} : Visits edges active done [] false done
  /-- The node is on the path. -/
  | back {active done rest : List α} {node : α} : node ∈ active → Visits edges active done (node :: rest) true done
  /-- The node was visited. -/
  | seen {active done rest done' : List α} {node : α} {found : Bool} : node ∉ active → node ∈ done →
      Visits edges active done rest found done' → Visits edges active done (node :: rest) found done'
  /-- There is a cycle beyond the node. -/
  | cycle {active done rest done' : List α} {node : α} : node ∉ active → node ∉ done →
      Visits edges (node :: active) (node :: done) (edges node) true done' →
      Visits edges active done (node :: rest) true done'
  /-- There is none beyond the node. -/
  | clear {active done rest done' done'' : List α} {node : α} {found : Bool} : node ∉ active → node ∉ done →
      Visits edges (node :: active) (node :: done) (edges node) false done' →
      Visits edges active done' rest found done'' → Visits edges active done (node :: rest) found done''

/-- One node leads to another. -/
def Adjacent (edges : α → List α) (a b : α) : Prop := b ∈ edges a

/-- What is visited, and no longer on the path, leads nowhere else, and not to itself. -/
structure Finished (edges : α → List α) (active done : List α) : Prop where
  closed : ∀ a ∈ done, a ∉ active → ∀ b ∈ edges a, b ∈ done ∧ b ∉ active
  acyclic : ∀ a ∈ done, a ∉ active → ¬TransGen (Adjacent edges) a a

/-- A node that was closed off has only what was closed off before beyond it. -/
theorem Finished.leave {edges : α → List α} {active done : List α} {node : α} (h : Finished edges (node :: active) done) (hnode : node ∈ done) (hactive : node ∉ active)
    (hnext : ∀ b ∈ edges node, b ∈ done ∧ b ∉ node :: active) : Finished edges active done := by
  have hstays : ∀ a b, a ∈ done → a ∉ node :: active → ReflTransGen (Adjacent edges) a b → b ∈ done ∧ b ∉ node :: active := by
    intro a b ha ha' hab
    induction hab with
    | refl => exact ⟨ha, ha'⟩
    | tail _ hedge ih => exact h.closed _ ih.1 ih.2 _ hedge
  constructor
  · intro a ha ha' b hb
    by_cases heq : a = node
    · subst heq
      obtain ⟨hdone, hnot⟩ := hnext b hb
      exact ⟨hdone, fun hmem => hnot (List.mem_cons_of_mem _ hmem)⟩
    · obtain ⟨hdone, hnot⟩ := h.closed a ha (by simp [heq, ha']) b hb
      exact ⟨hdone, fun hmem => hnot (List.mem_cons_of_mem _ hmem)⟩
  · intro a ha ha' hcycle
    by_cases heq : a = node
    · subst heq
      obtain ⟨b, hedge, hback⟩ := TransGen.head'_iff.mp hcycle
      obtain ⟨hdone, hnot⟩ := hnext b hedge
      exact (hstays b a hdone hnot hback).2 List.mem_cons_self
    · exact h.acyclic a ha (by simp [heq, ha']) hcycle

namespace Visits

variable {edges : α → List α} {active done done' nodes : List α} {found : Bool}

theorem subset (h : Visits edges active done nodes found done') : done ⊆ done' := by
  induction h with
  | nil => exact List.Subset.refl _
  | back => exact List.Subset.refl _
  | seen _ _ _ ih => exact ih
  | cycle _ _ _ ih => exact fun a ha => ih (List.mem_cons_of_mem _ ha)
  | clear _ _ _ _ ih ih' => exact fun a ha => ih' (ih (List.mem_cons_of_mem _ ha))

/-- A cycle that is found from the first node is found. -/
theorem cons_true {node : α} (h : Visits edges active done [node] true done') (rest : List α) :
    Visits edges active done (node :: rest) true done' := by
  cases h with
  | back hactive => exact back hactive
  | seen _ _ h => cases h
  | cycle hactive hdone hinner => exact cycle hactive hdone hinner
  | clear _ _ _ h => cases h

/-- The search goes on after the first node. -/
theorem cons_false {node : α} {rest done'' : List α} (h : Visits edges active done [node] false done')
    (hrest : Visits edges active done' rest found done'') : Visits edges active done (node :: rest) found done'' := by
  cases h with
  | seen hactive hdone h =>
    cases h
    exact seen hactive hdone hrest
  | clear hactive hdone hinner h =>
    cases h
    exact clear hactive hdone hinner hrest

/-- **Soundness**: where every node of the path leads to the nodes that are visited, a cycle that
is found is one. -/
theorem cyclic (h : Visits edges active done nodes found done') (hfound : found = true)
    (hpath : ∀ a ∈ active, ∀ node ∈ nodes, TransGen (Adjacent edges) a node) : ∃ a, TransGen (Adjacent edges) a a := by
  induction h with
  | nil => cases hfound
  | @back _ _ _ node hactive => exact ⟨node, hpath node hactive node List.mem_cons_self⟩
  | seen _ _ _ ih => exact ih hfound fun a ha node hnode => hpath a ha node (List.mem_cons_of_mem _ hnode)
  | @cycle _ _ _ _ node _ _ _ ih =>
    refine ih rfl fun a ha next hnext => ?_
    rcases List.mem_cons.mp ha with rfl | ha
    · exact TransGen.single hnext
    · exact (hpath a ha node List.mem_cons_self).tail hnext
  | clear _ _ _ _ _ ih' => exact ih' hfound fun a ha node hnode => hpath a ha node (List.mem_cons_of_mem _ hnode)

/-- **Completeness**: where no cycle is found, the nodes are finished. -/
theorem closed (h : Visits edges active done nodes found done') (hfound : found = false)
    (hfinished : Finished edges active done) :
    Finished edges active done' ∧ ∀ node ∈ nodes, node ∈ done' ∧ node ∉ active := by
  induction h with
  | nil => exact ⟨hfinished, nofun⟩
  | back => cases hfound
  | @seen _ _ _ _ node _ hactive hdone hrest ih =>
    obtain ⟨hfinished', hnodes⟩ := ih hfound hfinished
    exact ⟨hfinished', List.forall_mem_cons.mpr ⟨⟨hrest.subset hdone, hactive⟩, hnodes⟩⟩
  | cycle => cases hfound
  | @clear active done _ done' _ node _ hactive hdone hinner hrest ih ih' =>
    have henter : Finished edges (node :: active) (node :: done) := by
      constructor
      · intro a ha ha' b hb
        obtain ⟨hne, hnot⟩ := not_or.mp (List.mem_cons.not.mp ha')
        obtain ⟨hbdone, hbnot⟩ := hfinished.closed a ((List.mem_cons.mp ha).resolve_left hne) hnot b hb
        refine ⟨List.mem_cons_of_mem _ hbdone, fun hmem => ?_⟩
        rcases List.mem_cons.mp hmem with rfl | hmem
        · exact hdone hbdone
        · exact hbnot hmem
      · intro a ha ha'
        obtain ⟨hne, hnot⟩ := not_or.mp (List.mem_cons.not.mp ha')
        exact hfinished.acyclic a ((List.mem_cons.mp ha).resolve_left hne) hnot
    obtain ⟨hleft, hnext⟩ := ih rfl henter
    have hnode : node ∈ done' := hinner.subset List.mem_cons_self
    obtain ⟨hfinished', hnodes⟩ := ih' hfound (Finished.leave hleft hnode hactive hnext)
    exact ⟨hfinished', List.forall_mem_cons.mpr ⟨⟨hrest.subset hnode, hactive⟩, hnodes⟩⟩

end Visits

/-- **A cycle is found exactly if there is one**, from roots that include every node with a
successor. -/
theorem visits_iff {edges : α → List α} {roots done : List α} {found : Bool}
    (h : Visits edges [] [] roots found done) (hroots : ∀ a, edges a ≠ [] → a ∈ roots) :
    found = true ↔ ∃ a, TransGen (Adjacent edges) a a := by
  constructor
  · exact fun hfound => h.cyclic hfound nofun
  · rintro ⟨a, hcycle⟩
    by_contra hnot
    obtain ⟨hfinished, hnodes⟩ := h.closed (eq_false_of_ne_true hnot) ⟨nofun, nofun⟩
    obtain ⟨b, hedge, -⟩ := TransGen.head'_iff.mp hcycle
    have hroot := hroots a (List.ne_nil_of_mem hedge)
    exact hfinished.acyclic a (hnodes a hroot).1 List.not_mem_nil hcycle

end Apmpr
