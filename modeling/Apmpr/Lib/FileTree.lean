import Apmpr.Lib.FileSystem
import Apmpr.Lib.Stateful
import Mathlib.Data.List.Infix

/-!
# Files and what they hold

A tree is what there is below some directory: directories, and files with what they hold and
their mode. The system may refuse an operation on it, and then leaves behind what it likes;
what it does not refuse it does, if it can be done. Where there are no links, locations are
all there is to paths.

A file that is written under a temporary name and then renamed changes two locations. `Put` is
such a file; of several files that are put in place, the last one that touches a location says
what is there.

## What is proved

* `FileOp.fileAt_apply`: an operation changes only what it names.
* `Spares.perform`, `Spares.bind`, `Spares.forM`: what is written elsewhere stays.
* `foldl_effect`: the last file that touches a location counts.
* `all_in_place_iff`: all files are in place iff none is touched by a later one that is not the same.
-/

namespace Apmpr

/-- A file: what it holds, and its mode. -/
structure HeldFile (α : Type) where
  content : α
  mode : ℕ
  deriving DecidableEq

/-- What is at a location of a tree. -/
inductive Node (α : Type) where
  | dir
  | file (held : HeldFile α)

/-- What there is below a directory. -/
abbrev FileTree (α : Type) := Location → Option (Node α)

variable {α : Type}

/-- The file at a location. -/
def FileTree.fileAt (tree : FileTree α) (place : Location) : Option (HeldFile α) :=
  match tree place with
  | some (.file held) => some held
  | some .dir | none => none

/-- Whether a directory is at a location. -/
def FileTree.isDir (tree : FileTree α) (place : Location) : Bool :=
  match tree place with
  | some .dir => true
  | some (.file _) | none => false

/-! ### Operations -/

/-- An operation on a tree. -/
inductive FileOp (α : Type) where
  | createDirAll (place : Location)
  | write (place : Location) (content : α)
  | rename (old new : Location)
  | setMode (place : Location) (mode : ℕ)
  | removeDirAll (place : Location)
  | removeFile (place : Location)

namespace FileOp

/-- The tree after an operation, if it can be done; a file that is made has the given mode. -/
def apply (newMode : ℕ) : FileOp α → FileTree α → Option (FileTree α)
  | .createDirAll place, tree =>
    if place.inits.all fun above => (tree.fileAt above).isNone then
      some fun l => if l.isPrefixOf place then some .dir else tree l
    else none
  | .write place content, tree =>
    if tree.isDir place.dropLast && !tree.isDir place then
      let mode := ((tree.fileAt place).map HeldFile.mode).getD newMode
      some (Function.update tree place (some (.file ⟨content, mode⟩)))
    else none
  | .rename old new, tree =>
    match tree.fileAt old with
    | some held =>
      if tree.isDir new.dropLast && !tree.isDir new then
        some (Function.update (Function.update tree old none) new (some (.file held)))
      else none
    | none => none
  | .setMode place mode, tree =>
    match tree.fileAt place with
    | some held => some (Function.update tree place (some (.file { held with mode := mode })))
    | none => none
  | .removeDirAll place, tree =>
    if tree.isDir place then some fun l => if place.isPrefixOf l then none else tree l else none
  | .removeFile place, tree =>
    if (tree.fileAt place).isSome then some (Function.update tree place none) else none

/-- The locations where an operation changes what files there are. -/
def Changes : FileOp α → Location → Prop
  | .createDirAll _, _ => False
  | .write place _, l => l = place
  | .rename old new, l => l = old ∨ l = new
  | .setMode place _, l => l = place
  | .removeDirAll place, l => place <+: l
  | .removeFile place, l => l = place

end FileOp

namespace FileTree

variable {tree tree' : FileTree α} {newMode : ℕ}

theorem fileAt_update (tree : FileTree α) (place l : Location) (node : Option (Node α)) :
    fileAt (Function.update tree place node) l =
      if l = place then (match node with | some (.file held) => some held | _ => none) else tree.fileAt l := by
  by_cases h : l = place
  · rw [if_pos h, fileAt, h, Function.update_self]
    cases node with
    | none => rfl
    | some node => cases node <;> rfl
  · rw [if_neg h, fileAt, Function.update_of_ne h]
    rfl

theorem fileAt_createDirAll {place : Location} (h : (FileOp.createDirAll place).apply newMode tree = some tree')
    (l : Location) : tree'.fileAt l = tree.fileAt l := by
  rw [FileOp.apply] at h
  split_ifs at h with hfree
  obtain rfl := Option.some.inj h
  by_cases hl : l <+: place
  · have hnone := List.all_eq_true.mp hfree l ((List.mem_inits _ _).mpr hl)
    rw [Option.isNone_iff_eq_none] at hnone
    rw [hnone, fileAt, if_pos (List.isPrefixOf_iff_prefix.mpr hl)]
  · rw [fileAt, if_neg fun hprefix => hl (List.isPrefixOf_iff_prefix.mp hprefix)]
    rfl

theorem fileAt_write {place : Location} {content : α} (h : (FileOp.write place content).apply newMode tree = some tree') :
    ∃ mode, ∀ l, tree'.fileAt l = if l = place then some ⟨content, mode⟩ else tree.fileAt l := by
  rw [FileOp.apply] at h
  split_ifs at h
  obtain rfl := Option.some.inj h
  exact ⟨_, fun l => fileAt_update tree place l _⟩

theorem fileAt_rename {old new : Location} (h : (FileOp.rename old new).apply newMode tree = some tree') :
    ∃ held, tree.fileAt old = some held ∧ ∀ l, tree'.fileAt l =
      if l = new then some held else if l = old then none else tree.fileAt l := by
  rw [FileOp.apply] at h
  cases hold : tree.fileAt old with
  | none =>
    rw [hold] at h
    cases h
  | some held =>
    rw [hold] at h
    dsimp only at h
    split_ifs at h
    obtain rfl := Option.some.inj h
    refine ⟨held, rfl, fun l => ?_⟩
    rw [fileAt_update, fileAt_update]

theorem fileAt_setMode {place : Location} {mode : ℕ} (h : (FileOp.setMode place mode).apply newMode tree = some tree') :
    ∃ held, tree.fileAt place = some held ∧ ∀ l, tree'.fileAt l =
      if l = place then some { held with mode := mode } else tree.fileAt l := by
  rw [FileOp.apply] at h
  cases hheld : tree.fileAt place with
  | none =>
    rw [hheld] at h
    cases h
  | some held =>
    rw [hheld] at h
    obtain rfl := Option.some.inj h
    exact ⟨held, rfl, fun l => fileAt_update tree place l _⟩

end FileTree

/-- **An operation changes only what it names.** -/
theorem FileOp.fileAt_apply {op : FileOp α} {newMode : ℕ} {tree tree' : FileTree α} (h : op.apply newMode tree = some tree')
    {l : Location} (hl : ¬op.Changes l) : tree'.fileAt l = tree.fileAt l := by
  cases op with
  | createDirAll place => exact FileTree.fileAt_createDirAll h l
  | write place content =>
    obtain ⟨mode, hafter⟩ := FileTree.fileAt_write h
    rw [hafter]
    exact if_neg hl
  | rename old new =>
    obtain ⟨held, -, hafter⟩ := FileTree.fileAt_rename h
    rw [hafter, if_neg fun hnew => hl (.inr hnew), if_neg fun hold => hl (.inl hold)]
  | setMode place mode =>
    obtain ⟨held, -, hafter⟩ := FileTree.fileAt_setMode h
    rw [hafter]
    exact if_neg hl
  | removeDirAll place =>
    rw [apply] at h
    split_ifs at h
    obtain rfl := Option.some.inj h
    rw [FileTree.fileAt, if_neg fun hprefix => hl (List.isPrefixOf_iff_prefix.mp hprefix)]
    rfl
  | removeFile place =>
    rw [apply] at h
    split_ifs at h
    obtain rfl := Option.some.inj h
    rw [FileTree.fileAt_update]
    exact if_neg hl

/-! ### Systems -/

/-- A system: the mode of a file that is made, and which operations it refuses, with what it
says and what it leaves behind. -/
structure FileHost (α : Type) where
  newMode : ℕ
  refuses : FileOp α → FileTree α → Option (String × FileTree α)

namespace FileHost

variable (host : FileHost α)

/-- An operation, as the system does it. -/
def perform (op : FileOp α) : Stateful (FileTree α) String Unit := .ofFun fun tree =>
  match host.refuses op tree with
  | some (error, left) => (.error error, left)
  | none =>
    match op.apply host.newMode tree with
    | some tree' => (.ok (), tree')
    | none => (.error "the operation cannot be done", tree)

/-- An operation on what is there, if something is. -/
def performIfThere (place : Location) (op : FileOp α) : Stateful (FileTree α) String Unit := .ofFun fun tree =>
  if (tree place).isSome then (host.perform op).exec tree else (.ok (), tree)

variable {host}

/-- The rule for an operation: where it gives something, it was done. -/
theorem ensures_perform {op : FileOp α} {before after : FileTree α → Prop}
    (h : ∀ tree tree', before tree → op.apply host.newMode tree = some tree' → after tree') :
    Stateful.Ensures before (host.perform op) (fun _ => after) fun _ _ => True := by
  intro tree hbefore
  refine ⟨fun value tree' hrun => ?_, fun _ _ _ => trivial⟩
  rw [perform, Stateful.exec_ofFun] at hrun
  cases hrefuses : host.refuses op tree with
  | some refused =>
    rw [hrefuses] at hrun
    cases hrun
  | none =>
    rw [hrefuses] at hrun
    dsimp only at hrun
    cases happly : op.apply host.newMode tree with
    | none =>
      rw [happly] at hrun
      cases hrun
    | some left =>
      rw [happly] at hrun
      cases hrun
      exact h tree _ hbefore happly

end FileHost

/-- A computation that, where it gives something, leaves the files of a region as they are. -/
def Spares {β : Type} (region : Location → Prop) (m : Stateful (FileTree α) String β) : Prop :=
  ∀ files : Location → Option (HeldFile α), Stateful.Ensures (fun tree => ∀ l, region l → tree.fileAt l = files l) m
    (fun _ tree => ∀ l, region l → tree.fileAt l = files l) fun _ _ => True

namespace Spares

variable {β γ : Type} {region : Location → Prop} {host : FileHost α}

theorem pure {value : β} : Spares region (Pure.pure value : Stateful (FileTree α) String β) :=
  fun _ => .pure fun _ h => h

theorem bind {m : Stateful (FileTree α) String β} {next : β → Stateful (FileTree α) String γ} (hfirst : Spares region m)
    (hnext : ∀ value, Spares region (next value)) : Spares region (m >>= next) :=
  fun files => .bind (hfirst files) fun value => hnext value files

theorem forM {items : List β} {body : β → Stateful (FileTree α) String PUnit}
    (hbody : ∀ item ∈ items, Spares region (body item)) : Spares region (items.forM body) := by
  intro files
  exact @Stateful.Ensures.forM _ _ _ _ (fun _ tree => ∀ l, region l → tree.fileAt l = files l) items body
    fun _ item _ hsplit => hbody item (by simp [hsplit]) files

theorem perform {op : FileOp α} (h : ∀ l, region l → ¬op.Changes l) : Spares region (host.perform op) := fun _ =>
  FileHost.ensures_perform fun _ _ hbefore happly l hl => (FileOp.fileAt_apply happly (h l hl)).trans (hbefore l hl)

theorem performIfThere {place : Location} {op : FileOp α} (h : ∀ l, region l → ¬op.Changes l) :
    Spares region (host.performIfThere place op) := by
  intro files tree hbefore
  refine ⟨fun value tree' hrun => ?_, fun _ _ _ => trivial⟩
  rw [FileHost.performIfThere, Stateful.exec_ofFun] at hrun
  split_ifs at hrun
  · exact ((perform h files) tree hbefore).1 value tree' hrun
  · cases hrun
    exact hbefore

end Spares

/-! ### Files put in place -/

/-- A file put in place: where, and under which temporary name it was written. -/
structure Put (α : Type) where
  place : Location
  temporary : Location
  held : HeldFile α
  deriving DecidableEq

namespace Put

/-- Whether a location is a file's, or that of its temporary name. -/
def touches (put : Put α) (l : Location) : Bool := put.place = l || put.temporary = l

/-- The files after one is put in place. -/
def effect (files : Location → Option (HeldFile α)) (put : Put α) (l : Location) : Option (HeldFile α) :=
  if l = put.place then some put.held else if l = put.temporary then none else files l

/-- The last file that touches a location. -/
def lastTouch (puts : List (Put α)) (l : Location) : Option (Put α) := (puts.filter (·.touches l)).getLast?

/-- The last file to touch a file's place is there and holds the same. -/
def InPlace (puts : List (Put α)) (put : Put α) : Prop :=
  ∀ last ∈ lastTouch puts put.place, last.place = put.place ∧ last.held = put.held

instance [DecidableEq α] (puts : List (Put α)) (put : Put α) : Decidable (InPlace puts put) :=
  inferInstanceAs (Decidable (∀ last ∈ lastTouch puts put.place, _))

theorem effect_of_touches {put : Put α} {l : Location} (h : put.touches l = true) (files : Location → Option (HeldFile α)) :
    effect files put l = if put.place = l then some put.held else none := by
  rw [effect]
  by_cases hplace : put.place = l
  · rw [if_pos hplace.symm, if_pos hplace]
  · simp only [touches, hplace, decide_false, Bool.false_or, decide_eq_true_eq] at h
    rw [if_neg (Ne.symm hplace), if_pos h.symm, if_neg hplace]

theorem effect_of_not_touches {put : Put α} {l : Location} (h : put.touches l = false)
    (files : Location → Option (HeldFile α)) : effect files put l = files l := by
  simp only [touches, Bool.or_eq_false_iff, decide_eq_false_iff_not] at h
  rw [effect, if_neg (Ne.symm h.1), if_neg (Ne.symm h.2)]

/-- **The last file that touches a location says what is there.** -/
theorem foldl_effect (puts : List (Put α)) (files : Location → Option (HeldFile α)) (l : Location) :
    puts.foldl effect files l =
      match lastTouch puts l with
      | some last => if last.place = l then some last.held else none
      | none => files l := by
  induction puts using List.reverseRecOn with
  | nil => rfl
  | append_singleton puts put ih =>
    rw [List.foldl_append, List.foldl_cons, List.foldl_nil, lastTouch, List.filter_append, List.filter_singleton]
    cases htouches : put.touches l with
    | true =>
      rw [effect_of_touches htouches, cond_true, List.getLast?_concat]
    | false =>
      rw [effect_of_not_touches htouches, cond_false, List.append_nil]
      exact ih

/-- A file touches its own place, so that some file is the last one to do so. -/
theorem exists_lastTouch {puts : List (Put α)} {put : Put α} (h : put ∈ puts) :
    ∃ last, lastTouch puts put.place = some last := by
  have hmem : put ∈ puts.filter (·.touches put.place) := List.mem_filter.mpr ⟨h, by simp [touches]⟩
  rw [lastTouch, List.getLast?_eq_some_getLast (List.ne_nil_of_mem hmem)]
  exact ⟨_, rfl⟩

/-- **All files are in place** iff the last one to touch the place of each is the same there. -/
theorem all_in_place_iff (puts : List (Put α)) (files : Location → Option (HeldFile α)) :
    (∀ put ∈ puts, puts.foldl effect files put.place = some put.held) ↔ ∀ put ∈ puts, InPlace puts put := by
  refine forall₂_congr fun put hput => ?_
  obtain ⟨last, hlast⟩ := exists_lastTouch hput
  rw [foldl_effect, hlast]
  dsimp only
  constructor
  · intro h other hother
    obtain rfl := Option.some.inj (hlast.symm.trans hother)
    split_ifs at h with hplace
    exact ⟨hplace, Option.some.inj h⟩
  · intro h
    obtain ⟨hplace, hheld⟩ := h last hlast
    rw [if_pos hplace, hheld]

end Put

end Apmpr
