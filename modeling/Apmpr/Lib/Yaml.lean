import Mathlib.Data.List.Nodup
import Mathlib.Data.List.Perm.Basic

/-!
# YAML documents

A document as it is read from YAML: mappings have entries in an order, with keys that are documents
themselves, and any value may have a tag. Reading a value looks through its tags, but the key a
mapping is asked for is a plain string, without one.

An entry is added at the end of a mapping, and where one is removed, the last one takes its place.

## What is proved

What is found after a change (`lookup_insert_self`, `lookup_insert_of_ne`, `lookup_remove_of_ne`), and
that different keys stay different (`distinct_insert`, `distinct_remove`).
-/

namespace Apmpr

/-- A document. -/
inductive Yaml where
  | null
  | bool (b : Bool)
  | number (text : String)
  | string (text : String)
  | sequence (items : List Yaml)
  | mapping (entries : List (Yaml × Yaml))
  | tagged (tag : String) (value : Yaml)

namespace Yaml

mutual

/-- Whether two values are the same. -/
def decideEq : (a b : Yaml) → Decidable (a = b)
  | .null, .null => isTrue rfl
  | .bool x, .bool y => decidable_of_iff (x = y) (by simp)
  | .number x, .number y => decidable_of_iff (x = y) (by simp)
  | .string x, .string y => decidable_of_iff (x = y) (by simp)
  | .sequence x, .sequence y => @decidable_of_iff _ (x = y) (by simp) (decideItems x y)
  | .mapping x, .mapping y => @decidable_of_iff _ (x = y) (by simp) (decideEntries x y)
  | .tagged t x, .tagged u y =>
    @decidable_of_iff _ (t = u ∧ x = y) (by simp) (@instDecidableAnd _ _ _ (decideEq x y))
  | .null, .bool _ | .null, .number _ | .null, .string _ | .null, .sequence _ | .null, .mapping _ | .null, .tagged _ _
  | .bool _, .null | .bool _, .number _ | .bool _, .string _ | .bool _, .sequence _ | .bool _, .mapping _ | .bool _, .tagged _ _
  | .number _, .null | .number _, .bool _ | .number _, .string _ | .number _, .sequence _ | .number _, .mapping _ | .number _, .tagged _ _
  | .string _, .null | .string _, .bool _ | .string _, .number _ | .string _, .sequence _ | .string _, .mapping _ | .string _, .tagged _ _
  | .sequence _, .null | .sequence _, .bool _ | .sequence _, .number _ | .sequence _, .string _ | .sequence _, .mapping _ | .sequence _, .tagged _ _
  | .mapping _, .null | .mapping _, .bool _ | .mapping _, .number _ | .mapping _, .string _ | .mapping _, .sequence _ | .mapping _, .tagged _ _
  | .tagged _ _, .null | .tagged _ _, .bool _ | .tagged _ _, .number _ | .tagged _ _, .string _ | .tagged _ _, .sequence _ | .tagged _ _, .mapping _ =>
    isFalse nofun

/-- Whether the items of two sequences are the same. -/
def decideItems : (a b : List Yaml) → Decidable (a = b)
  | [], [] => isTrue rfl
  | x :: xs, y :: ys => @decidable_of_iff _ (x = y ∧ xs = ys) (by simp) (@instDecidableAnd _ _ (decideEq x y) (decideItems xs ys))
  | [], _ :: _ | _ :: _, [] => isFalse nofun

/-- Whether the entries of two mappings are the same. -/
def decideEntries : (a b : List (Yaml × Yaml)) → Decidable (a = b)
  | [], [] => isTrue rfl
  | (k, x) :: xs, (l, y) :: ys =>
    @decidable_of_iff _ (k = l ∧ x = y ∧ xs = ys) (by simp [and_assoc])
      (@instDecidableAnd _ _ (decideEq k l) (@instDecidableAnd _ _ (decideEq x y) (decideEntries xs ys)))
  | [], _ :: _ | _ :: _, [] => isFalse nofun

end

instance : DecidableEq Yaml := decideEq

/-- A value without its tags. -/
def untag : Yaml → Yaml
  | .tagged _ value => value.untag
  | value => value

/-- The text of a string. -/
def asStr (value : Yaml) : Option String :=
  match value.untag with
  | .string text => some text
  | _ => none

/-- The entries of a mapping. -/
def asMapping (value : Yaml) : Option (List (Yaml × Yaml)) :=
  match value.untag with
  | .mapping entries => some entries
  | _ => none

/-- A value whose entries are others, with its tags. -/
def withMapping (entries : List (Yaml × Yaml)) : Yaml → Yaml
  | .tagged tag value => .tagged tag (value.withMapping entries)
  | _ => .mapping entries

/-- Whether a key is a plain string. -/
def isKey (key : String) : Yaml → Bool
  | .string text => text = key
  | _ => false

/-- The value at a key. -/
def lookup (key : String) (entries : List (Yaml × Yaml)) : Option Yaml :=
  (entries.find? fun entry => isKey key entry.1).map Prod.snd

/-- The value at a key of a mapping. -/
def get (key : String) (value : Yaml) : Option Yaml := value.asMapping.bind (lookup key)

/-- Put a value at a key, where it was or at the end. -/
def insert (key : String) (value : Yaml) : List (Yaml × Yaml) → List (Yaml × Yaml)
  | [] => [(.string key, value)]
  | entry :: rest => if isKey key entry.1 then (entry.1, value) :: rest else entry :: insert key value rest

/-- Remove a key; the last entry takes its place. -/
def remove (key : String) : List (Yaml × Yaml) → List (Yaml × Yaml)
  | [] => []
  | entry :: rest =>
    if isKey key entry.1 then
      match rest.getLast? with
      | none => []
      | some last => last :: rest.dropLast
    else entry :: remove key rest

/-- The keys of a mapping are different. -/
def Distinct (entries : List (Yaml × Yaml)) : Prop := (entries.map Prod.fst).Nodup

/-- The keys of every mapping in a value are different, as they are in what is read. -/
inductive Sound : Yaml → Prop where
  | null : Sound .null
  | bool (b : Bool) : Sound (.bool b)
  | number (text : String) : Sound (.number text)
  | string (text : String) : Sound (.string text)
  | sequence {items : List Yaml} (hitems : ∀ item ∈ items, Sound item) : Sound (.sequence items)
  | mapping {entries : List (Yaml × Yaml)} (hdistinct : Distinct entries) (hkeys : ∀ entry ∈ entries, Sound entry.1)
    (hvalues : ∀ entry ∈ entries, Sound entry.2) : Sound (.mapping entries)
  | tagged (tag : String) {value : Yaml} (hvalue : Sound value) : Sound (.tagged tag value)

/-- A document that was read. -/
structure Document where
  root : Yaml
  sound : root.Sound

section

variable {key key' : String} {value : Yaml} {entries : List (Yaml × Yaml)}

@[simp] theorem asStr_string (text : String) : asStr (.string text) = some text := rfl

@[simp] theorem asMapping_mapping (entries : List (Yaml × Yaml)) : asMapping (.mapping entries) = some entries := rfl

theorem isKey_iff {k : Yaml} : isKey key k = true ↔ k = .string key := by
  cases k <;> simp [isKey]

theorem asMapping_withMapping (entries : List (Yaml × Yaml)) (value : Yaml) :
    (value.withMapping entries).asMapping = some entries := by
  cases value with
  | tagged tag value =>
    have ih := asMapping_withMapping entries value
    exact ih
  | null => rfl
  | bool b => rfl
  | number text => rfl
  | string text => rfl
  | sequence items => rfl
  | mapping entries => rfl

theorem get_of_asMapping (h : value.asMapping = some entries) (key : String) : value.get key = lookup key entries := by
  rw [get, h]
  rfl

theorem get_withMapping (key : String) (entries : List (Yaml × Yaml)) (value : Yaml) :
    (value.withMapping entries).get key = lookup key entries :=
  get_of_asMapping (asMapping_withMapping entries value) key

theorem lookup_cons (entry : Yaml × Yaml) (rest : List (Yaml × Yaml)) :
    lookup key (entry :: rest) = if isKey key entry.1 = true then some entry.2 else lookup key rest := by
  rw [lookup, List.find?_cons]
  cases isKey key entry.1 <;> rfl

theorem mem_of_lookup (h : lookup key entries = some value) : (.string key, value) ∈ entries := by
  induction entries with
  | nil => cases h
  | cons entry rest ih =>
    rw [lookup_cons] at h
    split_ifs at h with hkey
    · obtain rfl := Option.some.inj h
      rw [← isKey_iff.mp hkey]
      exact List.mem_cons_self
    · exact List.mem_cons_of_mem _ (ih h)

theorem lookup_eq_none_iff : lookup key entries = none ↔ .string key ∉ entries.map Prod.fst := by
  induction entries with
  | nil => simp [lookup]
  | cons entry rest ih =>
    rw [lookup_cons, List.map_cons, List.mem_cons, not_or, ← ih]
    split_ifs with hkey
    · simp [isKey_iff.mp hkey]
    · rw [isKey_iff] at hkey
      simp [Ne.symm hkey]

/-- Different keys have one value each. -/
theorem lookup_of_mem (hdistinct : Distinct entries) (h : (.string key, value) ∈ entries) :
    lookup key entries = some value := by
  induction entries with
  | nil => cases h
  | cons entry rest ih =>
    obtain ⟨hnotin, hrest⟩ := List.nodup_cons.mp hdistinct
    rw [lookup_cons]
    rcases List.mem_cons.mp h with rfl | h
    · exact if_pos (isKey_iff.mpr rfl)
    · have hkey : ¬isKey key entry.1 = true := by
        intro hkey
        rw [isKey_iff.mp hkey] at hnotin
        exact hnotin (List.mem_map_of_mem h)
      rw [if_neg hkey]
      exact ih hrest h

theorem lookup_insert_self (key : String) (value : Yaml) (entries : List (Yaml × Yaml)) :
    lookup key (insert key value entries) = some value := by
  induction entries with
  | nil => rw [insert, lookup_cons, if_pos (isKey_iff.mpr rfl)]
  | cons entry rest ih =>
    rw [insert]
    split_ifs with hkey
    · rw [lookup_cons, if_pos hkey]
    · rw [lookup_cons, if_neg hkey]
      exact ih

theorem lookup_insert_of_ne (h : key' ≠ key) (value : Yaml) (entries : List (Yaml × Yaml)) :
    lookup key' (insert key value entries) = lookup key' entries := by
  have hother : ∀ k, isKey key k = true → ¬isKey key' k = true := by
    intro k hk hk'
    rw [isKey_iff.mp hk] at hk'
    exact h (Yaml.string.inj (isKey_iff.mp hk')).symm
  induction entries with
  | nil => rw [insert, lookup_cons, if_neg (hother _ (isKey_iff.mpr rfl))]
  | cons entry rest ih =>
    rw [insert]
    split_ifs with hkey
    · rw [lookup_cons, lookup_cons, if_neg (hother _ hkey), if_neg (hother _ hkey)]
    · rw [lookup_cons, lookup_cons, ih]

/-- A new key comes last. -/
theorem insert_of_lookup_none (h : lookup key entries = none) (value : Yaml) :
    insert key value entries = entries ++ [(.string key, value)] := by
  induction entries with
  | nil => rfl
  | cons entry rest ih =>
    rw [lookup_cons] at h
    split_ifs at h with hkey
    rw [insert, if_neg hkey, ih h]
    rfl

theorem distinct_append_of_lookup_none (hdistinct : Distinct entries) (h : lookup key entries = none) (value : Yaml) :
    Distinct (entries ++ [(.string key, value)]) := by
  rw [Distinct, List.map_append]
  refine List.Nodup.append hdistinct (List.nodup_singleton _) ?_
  intro k hk hself
  obtain rfl : k = .string key := by simpa using hself
  exact lookup_eq_none_iff.mp h hk

theorem getLast_cons_dropLast_perm {rest : List (Yaml × Yaml)} {last : Yaml × Yaml} (h : rest.getLast? = some last) :
    (last :: rest.dropLast).Perm rest := by
  have hsplit : rest = rest.dropLast ++ [last] := by
    have hne : rest ≠ [] := by
      rintro rfl
      cases h
    rw [List.getLast?_eq_some_getLast hne, Option.some.injEq] at h
    rw [← h]
    exact (List.dropLast_append_getLast hne).symm
  conv_rhs => rw [hsplit]
  exact (List.perm_append_singleton last rest.dropLast).symm

@[simp] theorem sound_string (text : String) : Sound (.string text) := .string text

@[simp] theorem sound_mapping_iff : Sound (.mapping entries) ↔
    Distinct entries ∧ ∀ entry ∈ entries, Sound entry.1 ∧ Sound entry.2 := by
  constructor
  · intro h
    cases h with
    | mapping hdistinct hkeys hvalues => exact ⟨hdistinct, fun entry hentry => ⟨hkeys entry hentry, hvalues entry hentry⟩⟩
  · rintro ⟨hdistinct, hentries⟩
    exact .mapping hdistinct (fun entry hentry => (hentries entry hentry).1) fun entry hentry => (hentries entry hentry).2

@[simp] theorem sound_tagged_iff {tag : String} : Sound (.tagged tag value) ↔ Sound value := by
  constructor
  · intro h
    cases h with
    | tagged _ hvalue => exact hvalue
  · exact .tagged tag

theorem Sound.untag {value : Yaml} (h : value.Sound) : value.untag.Sound := by
  induction h with
  | tagged tag hvalue ih => exact ih
  | null => exact .null
  | bool b => exact .bool b
  | number text => exact .number text
  | string text => exact .string text
  | sequence hitems => exact .sequence hitems
  | mapping hdistinct hkeys hvalues => exact .mapping hdistinct hkeys hvalues

theorem Sound.asMapping (h : value.Sound) (hmapping : value.asMapping = some entries) :
    Distinct entries ∧ ∀ entry ∈ entries, Sound entry.2 := by
  have huntag := h.untag
  unfold Yaml.asMapping at hmapping
  cases hvalue : value.untag with
  | mapping found =>
    rw [hvalue] at hmapping huntag
    obtain rfl := Option.some.inj hmapping
    cases huntag with
    | mapping hdistinct hkeys hvalues => exact ⟨hdistinct, hvalues⟩
  | null => simp [hvalue] at hmapping
  | bool b => simp [hvalue] at hmapping
  | number text => simp [hvalue] at hmapping
  | string text => simp [hvalue] at hmapping
  | sequence items => simp [hvalue] at hmapping
  | tagged tag inner => simp [hvalue] at hmapping

theorem Sound.lookup (h : value.Sound) (hmapping : value.asMapping = some entries) {found : Yaml}
    (hfound : lookup key entries = some found) : found.Sound :=
  (h.asMapping hmapping).2 _ (mem_of_lookup hfound)

theorem Sound.get (h : value.Sound) {found : Yaml} (hfound : value.get key = some found) : found.Sound := by
  obtain ⟨entries, hentries, hlookup⟩ := Option.bind_eq_some_iff.mp hfound
  exact h.lookup hentries hlookup

/-- Without a key, but for the order. -/
theorem remove_perm (key : String) (entries : List (Yaml × Yaml)) :
    (remove key entries).Perm (entries.eraseP fun entry => isKey key entry.1) := by
  induction entries with
  | nil => exact .refl _
  | cons entry rest ih =>
    rw [remove]
    split_ifs with hkey
    · simp only [List.eraseP_cons, hkey, cond_true]
      cases hlast : rest.getLast? with
      | none =>
        rw [List.getLast?_eq_none_iff.mp hlast]
      | some last => exact getLast_cons_dropLast_perm hlast
    · simp only [List.eraseP_cons, hkey, cond_false]
      exact ih.cons _

theorem distinct_remove (hdistinct : Distinct entries) (key : String) : Distinct (remove key entries) := by
  have hsub : ((entries.eraseP fun entry => isKey key entry.1).map Prod.fst).Sublist (entries.map Prod.fst) :=
    List.eraseP_sublist.map _
  exact ((remove_perm key entries).map Prod.fst).nodup_iff.mpr (hdistinct.sublist hsub)

/-- The other keys have the values they had. -/
theorem lookup_remove_of_ne (hdistinct : Distinct entries) (h : key' ≠ key) :
    lookup key' (remove key entries) = lookup key' entries := by
  have hmem : ∀ value, (.string key', value) ∈ remove key entries ↔ (.string key', value) ∈ entries := by
    intro value
    rw [(remove_perm key entries).mem_iff]
    refine List.mem_eraseP_of_neg ?_
    rw [isKey_iff]
    simpa using h
  cases hlookup : lookup key' entries with
  | some value => exact lookup_of_mem (distinct_remove hdistinct key) ((hmem value).mpr (mem_of_lookup hlookup))
  | none =>
    cases hremoved : lookup key' (remove key entries) with
    | none => rfl
    | some value =>
      rw [lookup_of_mem hdistinct ((hmem value).mp (mem_of_lookup hremoved))] at hlookup
      cases hlookup

end

end Yaml

end Apmpr
