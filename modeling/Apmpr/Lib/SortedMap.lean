import Mathlib.Data.List.Induction
import Mathlib.Data.List.Sort
import Mathlib.Order.Basic

/-!
# Ordered maps

A finite map kept as the list of its entries in strictly increasing order of
their keys, the way a B-tree map presents itself to its users: one value for
each key, and iteration in key order. An insertion replaces the value of a key
that is already there, and `SortedMap.ofList` collects a list of entries, the
last writer winning.

Two maps with the same lookups are equal (`SortedMap.ext_get?`), so a map built in
two ways is compared through `get?` alone.
-/

namespace Apmpr

universe u v w

/-- The entries of a map, in strictly increasing order of their keys. -/
structure SortedMap (κ : Type u) (ν : Type v) [LinearOrder κ] where
  /-- The entries. -/
  entries : List (κ × ν)
  /-- The keys increase. -/
  sorted : entries.Pairwise fun a b => a.1 < b.1

namespace SortedMap

variable {κ : Type u} {ν : Type v} {μ : Type w} [LinearOrder κ]

/-! ### Entry lists -/

/-- The value an entry list gives to a key: that of the first entry for it. -/
def lookup (k : κ) : List (κ × ν) → Option ν
  | [] => none
  | (k', x) :: rest => if k = k' then some x else lookup k rest

/-- It is the lookup of lists. -/
theorem lookup_eq_lookup [BEq κ] [LawfulBEq κ] (k : κ) (l : List (κ × ν)) : l.lookup k = lookup k l := by
  induction l with
  | nil => rfl
  | cons e rest ih =>
    rw [List.lookup_cons, lookup, ih]
    by_cases hk : k = e.1
    · simp [hk]
    · rw [beq_false_of_ne hk, if_neg hk]

/-- Put an entry at its place, replacing an entry of the same key. -/
def insertEntry (k : κ) (x : ν) : List (κ × ν) → List (κ × ν)
  | [] => [(k, x)]
  | (k', x') :: rest =>
    if k < k' then (k, x) :: (k', x') :: rest
    else if k = k' then (k, x) :: rest
    else (k', x') :: insertEntry k x rest

theorem lookup_insertEntry (k : κ) (x : ν) (k' : κ) (l : List (κ × ν)) :
    lookup k' (insertEntry k x l) = if k' = k then some x else lookup k' l := by
  induction l with
  | nil => simp [insertEntry, lookup]
  | cons e rest ih =>
    obtain ⟨a, y⟩ := e
    simp only [insertEntry]
    split_ifs with h₁ h₂ h₃ h₄ h₅ <;> simp_all [lookup]

theorem key_mem_insertEntry {k : κ} {x : ν} {l : List (κ × ν)} {e : κ × ν}
    (h : e ∈ insertEntry k x l) : e = (k, x) ∨ e ∈ l := by
  induction l with
  | nil => simpa [insertEntry] using h
  | cons a rest ih =>
    obtain ⟨k', x'⟩ := a
    simp only [insertEntry] at h
    split_ifs at h with h₁ h₂ <;> grind

theorem pairwise_insertEntry (k : κ) (x : ν) {l : List (κ × ν)}
    (h : l.Pairwise fun a b => a.1 < b.1) :
    (insertEntry k x l).Pairwise fun a b => a.1 < b.1 := by
  induction l with
  | nil => simp [insertEntry]
  | cons a rest ih =>
    obtain ⟨k', x'⟩ := a
    have htail := (List.pairwise_cons.mp h).2
    have hhead := (List.pairwise_cons.mp h).1
    simp only [insertEntry]
    split_ifs with h₁ h₂
    · refine List.pairwise_cons.mpr ⟨fun b hb => ?_, h⟩
      rcases List.mem_cons.mp hb with rfl | hb
      · exact h₁
      · exact h₁.trans (hhead b hb)
    · subst h₂
      exact List.pairwise_cons.mpr ⟨hhead, htail⟩
    · refine List.pairwise_cons.mpr ⟨fun b hb => ?_, ih htail⟩
      rcases key_mem_insertEntry hb with rfl | hb
      · exact lt_of_le_of_ne (not_lt.mp h₁) (Ne.symm h₂)
      · exact hhead b hb

/-- On a list with increasing keys the entries are the lookups. -/
theorem lookup_eq_some_iff {l : List (κ × ν)} (h : l.Pairwise fun a b => a.1 < b.1) {k : κ} {x : ν} :
    lookup k l = some x ↔ (k, x) ∈ l := by
  induction l with
  | nil => simp [lookup]
  | cons a rest ih =>
    obtain ⟨k', x'⟩ := a
    have hhead := (List.pairwise_cons.mp h).1
    simp only [lookup, List.mem_cons, Prod.mk.injEq]
    split_ifs with hk
    · subst hk
      constructor
      · intro hx
        exact Or.inl ⟨rfl, (Option.some.inj hx).symm⟩
      · rintro (⟨-, rfl⟩ | hm)
        · rfl
        · exact absurd (hhead _ hm) (lt_irrefl _)
    · rw [ih (List.pairwise_cons.mp h).2]
      exact ⟨Or.inr, fun hm => hm.resolve_left fun hx => hk hx.1⟩

/-! ### Maps -/

/-- The map with no entries. -/
def empty : SortedMap κ ν := ⟨[], List.Pairwise.nil⟩

instance : EmptyCollection (SortedMap κ ν) := ⟨empty⟩

instance [DecidableEq ν] : DecidableEq (SortedMap κ ν) := fun a b =>
  decidable_of_iff (a.entries = b.entries) ⟨fun h => by cases a; cases b; cases h; rfl, fun h => h ▸ rfl⟩

/-- The value of a key. -/
def get? (m : SortedMap κ ν) (k : κ) : Option ν := lookup k m.entries

/-- Whether a key has a value. -/
def contains (m : SortedMap κ ν) (k : κ) : Bool := (m.get? k).isSome

/-- The keys, increasing. -/
def keys (m : SortedMap κ ν) : List κ := m.entries.map Prod.fst

/-- The values, in the order of their keys. -/
def values (m : SortedMap κ ν) : List ν := m.entries.map Prod.snd

/-- Give a key a value, replacing the one it had. -/
def insert (m : SortedMap κ ν) (k : κ) (x : ν) : SortedMap κ ν :=
  ⟨insertEntry k x m.entries, pairwise_insertEntry k x m.sorted⟩

/-- Take a key out. -/
def erase (m : SortedMap κ ν) (k : κ) : SortedMap κ ν :=
  ⟨m.entries.filter fun e => e.1 ≠ k, m.sorted.filter _⟩

/-- Change every value, leaving the keys. -/
def mapValues (f : κ → ν → μ) (m : SortedMap κ ν) : SortedMap κ μ :=
  ⟨m.entries.map fun e => (e.1, f e.1 e.2), List.pairwise_map.mpr m.sorted⟩

/-- Insert the entries of a list in order: for each key the last one stays. -/
def insertAll (m : SortedMap κ ν) (l : List (κ × ν)) : SortedMap κ ν :=
  l.foldl (fun acc e => acc.insert e.1 e.2) m

/-- Collect a list of entries into a map. -/
def ofList (l : List (κ × ν)) : SortedMap κ ν := insertAll empty l

theorem mem_entries_iff (m : SortedMap κ ν) {k : κ} {x : ν} : (k, x) ∈ m.entries ↔ m.get? k = some x :=
  (lookup_eq_some_iff m.sorted).symm

theorem nodup_keys (m : SortedMap κ ν) : m.keys.Nodup := List.pairwise_map.mpr (m.sorted.imp fun hlt => ne_of_lt hlt)

theorem mem_keys_iff (m : SortedMap κ ν) {k : κ} : k ∈ m.keys ↔ ∃ x, m.get? k = some x := by
  simp [keys, mem_entries_iff]

@[simp] theorem get?_empty (k : κ) : (empty : SortedMap κ ν).get? k = none := rfl

@[simp] theorem get?_insert (m : SortedMap κ ν) (k : κ) (x : ν) (k' : κ) :
    (m.insert k x).get? k' = if k' = k then some x else m.get? k' :=
  lookup_insertEntry k x k' m.entries

theorem lookup_filter_ne (k k' : κ) (l : List (κ × ν)) :
    lookup k' (l.filter fun e => e.1 ≠ k) = if k' = k then none else lookup k' l := by
  induction l with
  | nil => simp [lookup]
  | cons e rest ih =>
    obtain ⟨a, x⟩ := e
    rw [List.filter_cons]
    by_cases ha : a = k
    · simp only [ha, ne_eq, not_true_eq_false, decide_false, Bool.false_eq_true, if_false, lookup]
      rw [← ha] at ih ⊢
      rw [ih]
      split_ifs <;> simp_all
    · simp only [ha, ne_eq, not_false_eq_true, decide_true, if_true, lookup]
      simp only [ne_eq] at ih
      rw [ih]
      split_ifs <;> simp_all

@[simp] theorem get?_erase (m : SortedMap κ ν) (k k' : κ) :
    (m.erase k).get? k' = if k' = k then none else m.get? k' :=
  lookup_filter_ne k k' m.entries

theorem lookup_map (f : κ → ν → μ) (k : κ) (l : List (κ × ν)) :
    lookup k (l.map fun e => (e.1, f e.1 e.2)) = (lookup k l).map (f k) := by
  induction l with
  | nil => rfl
  | cons e rest ih =>
    simp only [List.map_cons, lookup]
    split_ifs with hk
    · rw [hk, Option.map_some]
    · exact ih

theorem get?_mapValues (f : κ → ν → μ) (m : SortedMap κ ν) (k : κ) :
    (m.mapValues f).get? k = (m.get? k).map (f k) :=
  lookup_map f k m.entries

@[simp] theorem contains_mapValues (f : κ → ν → μ) (m : SortedMap κ ν) (k : κ) :
    (m.mapValues f).contains k = m.contains k := by
  simp [contains, get?_mapValues]

theorem mapValues_mapValues {ξ : Type w} (f : κ → ν → μ) (g : κ → μ → ξ) (m : SortedMap κ ν) :
    (m.mapValues f).mapValues g = m.mapValues fun k x => g k (f k x) := by
  simp only [mapValues, List.map_map]
  rfl

@[simp] theorem keys_mapValues (f : κ → ν → μ) (m : SortedMap κ ν) : (m.mapValues f).keys = m.keys := by
  simp only [keys, mapValues, List.map_map]
  rfl

theorem mapValues_eq_self_iff (f : κ → ν → ν) (m : SortedMap κ ν) :
    m.mapValues f = m ↔ ∀ e ∈ m.entries, f e.1 e.2 = e.2 := by
  obtain ⟨l, hl⟩ := m
  simp only [mapValues, mk.injEq]
  clear hl
  induction l with
  | nil => simp
  | cons e rest ih => rw [List.map_cons, List.cons.injEq, List.forall_mem_cons, ih, Prod.ext_iff]; simp

theorem contains_iff (m : SortedMap κ ν) (k : κ) : m.contains k = true ↔ ∃ x, m.get? k = some x := by
  simp [contains, Option.isSome_iff_exists]

/-- Maps with the same lookups are the same map. -/
theorem ext_get? {m₁ m₂ : SortedMap κ ν} (h : ∀ k, m₁.get? k = m₂.get? k) : m₁ = m₂ := by
  have hmem : ∀ e, e ∈ m₁.entries ↔ e ∈ m₂.entries := by
    rintro ⟨k, x⟩
    rw [mem_entries_iff, mem_entries_iff, h]
  have hnodup : ∀ m : SortedMap κ ν, m.entries.Nodup := fun m =>
    m.sorted.imp fun hab he => by subst he; exact lt_irrefl _ hab
  have hperm := (List.perm_ext_iff_of_nodup (hnodup m₁) (hnodup m₂)).mpr hmem
  have heq : m₁.entries = m₂.entries :=
    hperm.eq_of_pairwise (fun a b _ _ hab hba => absurd hab hba.not_gt) m₁.sorted m₂.sorted
  cases m₁; cases m₂; cases heq; rfl

/-! ### Collecting a list -/

@[simp] theorem insertAll_nil (m : SortedMap κ ν) : m.insertAll [] = m := rfl

@[simp] theorem insertAll_cons (m : SortedMap κ ν) (e : κ × ν) (l : List (κ × ν)) :
    m.insertAll (e :: l) = (m.insert e.1 e.2).insertAll l := rfl

theorem insertAll_append (m : SortedMap κ ν) (l₁ l₂ : List (κ × ν)) :
    m.insertAll (l₁ ++ l₂) = (m.insertAll l₁).insertAll l₂ := by
  simp [insertAll, List.foldl_append]

/-- A key nothing is inserted for keeps its value. -/
theorem get?_insertAll_of_forall_ne {m : SortedMap κ ν} {l : List (κ × ν)} {k : κ}
    (h : ∀ e ∈ l, e.1 ≠ k) : (m.insertAll l).get? k = m.get? k := by
  induction l generalizing m with
  | nil => rfl
  | cons e l ih =>
    rw [insertAll_cons, ih fun e' he' => h e' (List.mem_cons_of_mem _ he'), get?_insert,
      if_neg (h e (List.mem_cons_self ..)).symm]

/-- A key for which every inserted value is the same gets that value. -/
theorem get?_insertAll_of_mem {m : SortedMap κ ν} {l : List (κ × ν)} {k : κ} {x : ν}
    (hmem : (k, x) ∈ l) (huniq : ∀ y, (k, y) ∈ l → y = x) : (m.insertAll l).get? k = some x := by
  induction l generalizing m with
  | nil => cases hmem
  | cons e l ih =>
    obtain ⟨k', y⟩ := e
    rw [insertAll_cons]
    by_cases hl : (k, x) ∈ l
    · exact ih hl fun y hy => huniq y (List.mem_cons_of_mem _ hy)
    · have hhead : k = k' ∧ x = y := by
        rcases List.mem_cons.mp hmem with h | h
        · exact ⟨congrArg Prod.fst h, congrArg Prod.snd h⟩
        · exact absurd h hl
      obtain ⟨rfl, rfl⟩ := hhead
      rw [get?_insertAll_of_forall_ne, get?_insert, if_pos rfl]
      rintro ⟨k', y⟩ he rfl
      have := huniq y (List.mem_cons_of_mem _ he)
      subst this
      exact hl he

/-- A value found after inserting was inserted, or was there. -/
theorem of_get?_insertAll {m : SortedMap κ ν} {l : List (κ × ν)} {k : κ} {x : ν}
    (h : (m.insertAll l).get? k = some x) : (k, x) ∈ l ∨ (∀ e ∈ l, e.1 ≠ k) ∧ m.get? k = some x := by
  induction l generalizing m with
  | nil => exact Or.inr ⟨by simp, h⟩
  | cons e l ih =>
    rw [insertAll_cons] at h
    rcases ih h with hl | ⟨hne, hm⟩
    · exact Or.inl (List.mem_cons_of_mem _ hl)
    · rw [get?_insert] at hm
      split_ifs at hm with hk
      · left
        rw [hk, ← Option.some.inj hm]
        exact List.mem_cons_self ..
      · right
        refine ⟨fun e' he' => ?_, hm⟩
        rcases List.mem_cons.mp he' with rfl | he'
        · exact fun h => hk h.symm
        · exact hne e' he'

/-- Collecting a list with one value for each key looks up exactly its entries. -/
theorem get?_ofList_iff {l : List (κ × ν)} (huniq : ∀ k x y, (k, x) ∈ l → (k, y) ∈ l → x = y)
    {k : κ} {x : ν} : (ofList l).get? k = some x ↔ (k, x) ∈ l := by
  constructor
  · intro h
    rcases of_get?_insertAll h with h | ⟨-, h⟩
    · exact h
    · simp at h
  · intro h
    exact get?_insertAll_of_mem h fun y hy => huniq k y x hy h

/-- Of the values inserted for one key, the last is found. -/
theorem get?_insertAll_eq_some_iff {m : SortedMap κ ν} {l : List (κ × ν)} {k : κ} {x : ν}
    (hm : m.get? k = none) :
    (m.insertAll l).get? k = some x ↔ ∃ before after, l = before ++ (k, x) :: after ∧ ∀ e ∈ after, e.1 ≠ k := by
  constructor
  · intro h
    induction l using List.reverseRecOn with
    | nil =>
      rw [insertAll_nil, hm] at h
      cases h
    | append_singleton l e ih =>
      rw [insertAll_append, insertAll_cons, insertAll_nil, get?_insert] at h
      split_ifs at h with hk
      · obtain rfl := Option.some.inj h
        exact ⟨l, [], by rw [hk], by simp⟩
      · obtain ⟨before, after, rfl, hafter⟩ := ih h
        refine ⟨before, after ++ [e], by simp, fun e' he' => ?_⟩
        rcases List.mem_append.mp he' with he' | he'
        · exact hafter e' he'
        · obtain rfl := List.mem_singleton.mp he'
          exact fun h => hk h.symm
  · rintro ⟨before, after, rfl, hafter⟩
    rw [insertAll_append, insertAll_cons, get?_insertAll_of_forall_ne hafter, get?_insert, if_pos rfl]

/-- Of the entries of one key the last is collected. -/
theorem get?_ofList_map_iff {α : Type} {key : α → κ} {f : α → ν} {l : List α} {k : κ} {x : ν} :
    (ofList (l.map fun a => (key a, f a))).get? k = some x ↔
      ∃ before a later, l = before ++ a :: later ∧ (∀ other ∈ later, key other ≠ key a) ∧ k = key a ∧ x = f a := by
  rw [ofList, get?_insertAll_eq_some_iff (get?_empty k)]
  constructor
  · rintro ⟨before, later, hlist, hlater⟩
    obtain ⟨before', rest, rfl, rfl, hrest⟩ := List.map_eq_append_iff.mp hlist
    obtain ⟨a, later', rfl, ha, rfl⟩ := List.map_eq_cons_iff.mp hrest
    obtain ⟨rfl, rfl⟩ := Prod.mk.inj ha
    exact ⟨before', a, later', rfl, fun other hother => hlater _ (List.mem_map_of_mem hother), rfl, rfl⟩
  · rintro ⟨before, a, later, rfl, hlater, rfl, rfl⟩
    refine ⟨_, _, by rw [List.map_append, List.map_cons], fun e he => ?_⟩
    obtain ⟨other, hother, rfl⟩ := List.mem_map.mp he
    exact hlater other hother

/-- Two collections with the same keys in the same order are the same exactly if the last
values of every key are. -/
theorem ofList_map_eq_iff {α : Type} {key : α → κ} {f g : α → ν} {l : List α} :
    ofList (l.map fun a => (key a, f a)) = ofList (l.map fun a => (key a, g a)) ↔
      ∀ before a later, l = before ++ a :: later → (∀ other ∈ later, key other ≠ key a) → f a = g a := by
  constructor
  · intro heq before a later hsplit hlater
    have hf : (ofList (l.map fun a => (key a, f a))).get? (key a) = some (f a) :=
      get?_ofList_map_iff.mpr ⟨before, a, later, hsplit, hlater, rfl, rfl⟩
    have hg : (ofList (l.map fun a => (key a, g a))).get? (key a) = some (g a) :=
      get?_ofList_map_iff.mpr ⟨before, a, later, hsplit, hlater, rfl, rfl⟩
    rw [heq, hg] at hf
    exact (Option.some.inj hf).symm
  · intro h
    refine ext_get? fun k => Option.ext fun x => ?_
    rw [get?_ofList_map_iff, get?_ofList_map_iff]
    constructor
    · rintro ⟨before, a, later, hsplit, hlater, hk, rfl⟩
      exact ⟨before, a, later, hsplit, hlater, hk, h before a later hsplit hlater⟩
    · rintro ⟨before, a, later, hsplit, hlater, hk, rfl⟩
      exact ⟨before, a, later, hsplit, hlater, hk, (h before a later hsplit hlater).symm⟩

end SortedMap

end Apmpr
