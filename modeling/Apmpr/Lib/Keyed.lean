import Mathlib.Data.List.Dedup
import Apmpr.Lib.SortedMap

/-!
# Writes at one key

A list of writes, each to a key, seen at one key: `atKey` is what is written there, in
order. A state that is folded over writes, and of which a view changes only with the writes
to one key, is seen through that view as a fold over the writes there
(`view_foldl_writes`). `view_foldl` is the rule behind it: a fold whose steps a view
simulates is simulated by a fold.
-/

namespace Apmpr

universe u v w x

variable {σ : Type u} {τ : Type v} {α : Type w} {κ : Type x}

/-- **Simulation of a fold**: where every step is seen as a step of the view, as long as an
invariant that the steps keep holds, the fold is seen as a fold of the view. -/
theorem view_foldl {f : σ → α → σ} {g : τ → α → τ} (view : σ → τ) {P : σ → Prop} {l : List α}
    (hkeep : ∀ a ∈ l, ∀ s, P s → P (f s a)) (hview : ∀ a ∈ l, ∀ s, P s → view (f s a) = g (view s) a) {s : σ}
    (hs : P s) : P (l.foldl f s) ∧ view (l.foldl f s) = l.foldl g (view s) := by
  induction l generalizing s with
  | nil => exact ⟨hs, rfl⟩
  | cons a rest ih =>
    have hrest := ih (fun b hb => hkeep b (List.mem_cons_of_mem a hb)) (fun b hb => hview b (List.mem_cons_of_mem a hb))
      (hkeep a (List.mem_cons_self ..) s hs)
    rwa [hview a (List.mem_cons_self ..) s hs] at hrest

/-- Folds of steps that agree as long as an invariant holds agree. -/
theorem foldl_eq_of_invariant {f g : σ → α → σ} {P : σ → Prop} {l : List α} {s : σ} (hs : P s)
    (hkeep : ∀ a ∈ l, ∀ s, P s → P (g s a)) (heq : ∀ a ∈ l, ∀ s, P s → f s a = g s a) :
    l.foldl f s = l.foldl g s := by
  refine (view_foldl (P := P) id (fun a ha s hs => ?_) (fun a ha s hs => heq a ha s hs) hs).2
  rw [heq a ha s hs]
  exact hkeep a ha s hs

section

variable [DecidableEq κ]

/-- What is written at a key, in order. -/
def atKey (k : κ) (l : List (κ × α)) : List α := (l.filter fun e => e.1 = k).map Prod.snd

@[simp] theorem atKey_nil (k : κ) : atKey k ([] : List (κ × α)) = [] := rfl

theorem atKey_cons (k : κ) (e : κ × α) (l : List (κ × α)) :
    atKey k (e :: l) = if e.1 = k then e.2 :: atKey k l else atKey k l := by
  unfold atKey
  rw [List.filter_cons]
  by_cases h : e.1 = k <;> simp [h]

theorem atKey_append (k : κ) (l₁ l₂ : List (κ × α)) : atKey k (l₁ ++ l₂) = atKey k l₁ ++ atKey k l₂ := by
  simp [atKey]

theorem atKey_map {β : Type u} (k : κ) (f : α → β) (l : List (κ × α)) :
    atKey k (l.map fun e => (e.1, f e.2)) = (atKey k l).map f := by
  simp [atKey, List.filter_map, Function.comp_def]

theorem mem_atKey {k : κ} {x : α} {l : List (κ × α)} : x ∈ atKey k l ↔ (k, x) ∈ l := by
  simp [atKey]

/-- A fold over writes that changes a view only with the writes at one key. -/
theorem view_foldl_writes {f : σ → κ × α → σ} {touch : τ → α → τ} (view : σ → τ) {P : σ → Prop} {k : κ}
    {l : List (κ × α)} (hkeep : ∀ e ∈ l, ∀ s, P s → P (f s e))
    (hview : ∀ e ∈ l, ∀ s, P s → view (f s e) = if e.1 = k then touch (view s) e.2 else view s) {s : σ} (hs : P s) :
    P (l.foldl f s) ∧ view (l.foldl f s) = (atKey k l).foldl touch (view s) := by
  obtain ⟨hP, hfold⟩ := view_foldl view (g := fun v e => if e.1 = k then touch v e.2 else v) hkeep hview hs
  refine ⟨hP, hfold.trans ?_⟩
  generalize view s = v
  clear hkeep hview hfold hP hs
  induction l generalizing v with
  | nil => rfl
  | cons e rest ih =>
    rw [List.foldl_cons, atKey_cons, ih]
    split_ifs with h
    · rfl
    · rfl

/-- A fold over elements of different names, of which only the one of a name counts. -/
theorem foldl_once {name : α → κ} {l : List α} (hl : (l.map name).Nodup) (k : κ) (g : α → τ → τ) (v : τ) :
    l.foldl (fun v a => if name a = k then g a v else v) v =
      match l.find? fun a => name a = k with
      | none => v
      | some a => g a v := by
  induction l generalizing v with
  | nil => rfl
  | cons a rest ih =>
    obtain ⟨hfresh, hrest⟩ := List.nodup_cons.mp hl
    rw [List.foldl_cons, List.find?_cons, ih hrest]
    by_cases h : name a = k
    · have hnone : rest.find? (fun b => name b = k) = none := by
        refine List.find?_eq_none.mpr fun b hb => ?_
        rw [decide_eq_true_eq]
        exact fun hk => hfresh (List.mem_map.mpr ⟨b, hb, hk.trans h.symm⟩)
      simp [h, hnone]
    · simp [h]

/-- A fold that is seen through a view as one in which only the element of a name counts. -/
theorem view_foldl_once {f : σ → α → σ} (view : σ → τ) {P : σ → Prop} (name : α → κ) {l : List α}
    (hl : (l.map name).Nodup) {k : κ} {g : α → τ → τ} (hkeep : ∀ a ∈ l, ∀ s, P s → P (f s a))
    (hview : ∀ a ∈ l, ∀ s, P s → view (f s a) = if name a = k then g a (view s) else view s) {s : σ} (hs : P s) :
    P (l.foldl f s) ∧ view (l.foldl f s) =
      match l.find? fun a => name a = k with
      | none => view s
      | some a => g a (view s) := by
  obtain ⟨hP, hfold⟩ := view_foldl view (g := fun v a => if name a = k then g a v else v) hkeep hview hs
  exact ⟨hP, hfold.trans (foldl_once hl k g (view s))⟩

/-- The same of a fold over names. -/
theorem view_foldl_mem {f : σ → κ → σ} (view : σ → τ) {P : σ → Prop} {l : List κ} (hl : l.Nodup) {k : κ} {g : τ → τ}
    (hkeep : ∀ a ∈ l, ∀ s, P s → P (f s a))
    (hview : ∀ a ∈ l, ∀ s, P s → view (f s a) = if a = k then g (view s) else view s) {s : σ} (hs : P s) :
    P (l.foldl f s) ∧ view (l.foldl f s) = if l.contains k then g (view s) else view s := by
  obtain ⟨hP, hfold⟩ := view_foldl_once view id (g := fun _ => g) (by rwa [List.map_id]) hkeep hview hs
  refine ⟨hP, hfold.trans ?_⟩
  cases hfind : l.find? fun a => id a = k with
  | none =>
    have habsent : k ∉ l := fun hmem => List.find?_eq_none.mp hfind k hmem (decide_eq_true rfl)
    simp [habsent]
  | some a =>
    have ha : a = k := by simpa using List.find?_some hfind
    have hmem : k ∈ l := ha ▸ List.mem_of_find?_eq_some hfind
    simp [hmem]

end

/-- The entries of a map at a key are its value. -/
theorem atKey_entries [LinearOrder κ] (k : κ) (m : SortedMap κ α) : atKey k m.entries = (m.get? k).toList := by
  obtain ⟨l, hl⟩ := m
  unfold SortedMap.get?
  induction l with
  | nil => rfl
  | cons e rest ih =>
    obtain ⟨hhead, htail⟩ := List.pairwise_cons.mp hl
    rw [atKey_cons, SortedMap.lookup]
    by_cases h : e.1 = k
    · have hnone : atKey k rest = [] := by
        refine List.map_eq_nil_iff.mpr (List.filter_eq_nil_iff.mpr fun e' he' => ?_)
        rw [decide_eq_true_eq]
        exact fun h' => (hhead e' he').ne (h.trans h'.symm)
      rw [if_pos h, if_pos h.symm, hnone]
      rfl
    · rw [if_neg h, if_neg fun h' => h h'.symm]
      exact ih htail

/-- After inserting a list, a key has the last value inserted for it, or else the one it had. -/
theorem get?_insertAll [LinearOrder κ] (m : SortedMap κ α) (l : List (κ × α)) (k : κ) :
    (m.insertAll l).get? k = (atKey k l).getLast?.or (m.get? k) := by
  induction l generalizing m with
  | nil => rfl
  | cons e rest ih =>
    rw [SortedMap.insertAll_cons, ih, SortedMap.get?_insert, atKey_cons]
    by_cases h : e.1 = k
    · rw [if_pos h.symm, if_pos h, List.getLast?_cons]
      cases (atKey k rest).getLast? <;> rfl
    · rw [if_neg fun h' => h h'.symm, if_neg h]

theorem get?_insertAll_entries [LinearOrder κ] (m m' : SortedMap κ α) (k : κ) :
    (m.insertAll m'.entries).get? k = (m'.get? k).or (m.get? k) := by
  rw [get?_insertAll, atKey_entries]
  cases m'.get? k <;> rfl

/-- What is written last at a key by one list after another depends only on what each of
them writes last. -/
theorem getLast?_atKey_flatMap_congr [DecidableEq κ] {β : Type u} {f g : β → List (κ × α)} {l : List β} {k : κ}
    (h : ∀ b ∈ l, (atKey k (f b)).getLast? = (atKey k (g b)).getLast?) :
    (atKey k (l.flatMap f)).getLast? = (atKey k (l.flatMap g)).getLast? := by
  induction l with
  | nil => rfl
  | cons b rest ih =>
    rw [List.flatMap_cons, List.flatMap_cons, atKey_append, atKey_append, List.getLast?_append, List.getLast?_append,
      h b (List.mem_cons_self ..), ih fun b' hb' => h b' (List.mem_cons_of_mem b hb')]

theorem mem_keys_ofList [LinearOrder κ] {l : List (κ × α)} {k : κ} :
    k ∈ (SortedMap.ofList l).keys ↔ k ∈ l.map Prod.fst := by
  rw [SortedMap.mem_keys_iff, SortedMap.ofList, get?_insertAll, SortedMap.get?_empty, Option.or_none]
  constructor
  · rintro ⟨x, hx⟩
    exact List.mem_map.mpr ⟨(k, x), mem_atKey.mp (List.mem_of_getLast? hx), rfl⟩
  · intro hmem
    obtain ⟨⟨k', x⟩, he, rfl⟩ := List.mem_map.mp hmem
    cases hlast : (atKey k' l).getLast? with
    | none =>
      rw [List.getLast?_eq_none_iff] at hlast
      have := mem_atKey.mpr he
      rw [hlast] at this
      cases this
    | some y => exact ⟨y, rfl⟩

/-- A map has as many keys as there are different ones among its writes. -/
theorem length_keys_ofList [LinearOrder κ] (l : List (κ × α)) :
    (SortedMap.ofList l).keys.length = (l.map Prod.fst).dedup.length := by
  refine ((List.perm_ext_iff_of_nodup (SortedMap.ofList l).nodup_keys (List.nodup_dedup _)).mpr fun k => ?_).length_eq
  rw [mem_keys_ofList, List.mem_dedup]

/-- A list collected into a set: its order and its duplicates do not show. -/
theorem keys_ofList_congr [LinearOrder κ] {l l' : List κ} (h : ∀ k, k ∈ l ↔ k ∈ l') :
    (SortedMap.ofList (l.map fun k => (k, ()))).keys = (SortedMap.ofList (l'.map fun k => (k, ()))).keys := by
  have hkeys : ∀ (l : List κ) (k : κ), (SortedMap.ofList (l.map fun k => (k, ()))).get? k = some () ↔ k ∈ l := by
    intro l k
    have hmem := mem_keys_ofList (l := l.map fun k => (k, ())) (k := k)
    rw [SortedMap.mem_keys_iff] at hmem
    constructor
    · intro hget
      simpa using hmem.mp ⟨(), hget⟩
    · intro hk
      obtain ⟨_, hget⟩ := hmem.mpr (by simpa using hk)
      exact hget
  refine congrArg SortedMap.keys (SortedMap.ext_get? fun k => Option.ext fun u => ?_)
  cases u
  rw [hkeys, hkeys, h]

theorem ofList_entries [LinearOrder κ] (m : SortedMap κ α) : SortedMap.ofList m.entries = m := by
  refine SortedMap.ext_get? fun k => ?_
  rw [SortedMap.ofList, get?_insertAll_entries, SortedMap.get?_empty, Option.or_none]

theorem mem_keys_insert [LinearOrder κ] (m : SortedMap κ α) (k k' : κ) (x : α) :
    k' ∈ (m.insert k x).keys ↔ k' = k ∨ k' ∈ m.keys := by
  rw [SortedMap.mem_keys_iff, SortedMap.mem_keys_iff, SortedMap.get?_insert]
  by_cases h : k' = k <;> simp [h]

theorem atKey_eq_nil_iff [DecidableEq κ] {k : κ} {l : List (κ × α)} : atKey k l = [] ↔ ∀ e ∈ l, e.1 ≠ k := by
  rw [atKey, List.map_eq_nil_iff, List.filter_eq_nil_iff]
  simp only [decide_eq_true_eq]

/-- The entries of a collected list are the last ones of their keys. -/
theorem mem_entries_ofList [LinearOrder κ] {l : List (κ × α)} {e : κ × α} :
    e ∈ (SortedMap.ofList l).entries ↔ ∃ before after, l = before ++ e :: after ∧ ∀ later ∈ after, later.1 ≠ e.1 := by
  obtain ⟨k, x⟩ := e
  rw [SortedMap.mem_entries_iff, SortedMap.ofList, get?_insertAll, SortedMap.get?_empty, Option.or_none]
  constructor
  · intro h
    induction l with
    | nil => cases h
    | cons first rest ih =>
      by_cases hrest : atKey k rest = []
      · rw [atKey_cons, hrest] at h
        split_ifs at h with hfirst
        · have hx : first.2 = x := Option.some.inj h
          exact ⟨[], rest, by rw [List.nil_append, ← hfirst, ← hx], atKey_eq_nil_iff.mp hrest⟩
        · cases h
      · have hlast : (atKey k rest).getLast? = some x := by
          rw [atKey_cons] at h
          split_ifs at h
          · rwa [List.getLast?_cons_of_ne_nil hrest] at h
          · exact h
        obtain ⟨before, after, rfl, hafter⟩ := ih hlast
        exact ⟨first :: before, after, rfl, hafter⟩
  · rintro ⟨before, after, rfl, hafter⟩
    rw [atKey_append, atKey_cons, if_pos rfl, atKey_eq_nil_iff.mpr hafter, List.getLast?_append]
    rfl

end Apmpr
