import Apmpr.Lib.Places
import Apmpr.Planner.Import

/-!
# The order of an import

An import is its steps in their order: documents are written, directories and placeholders are
made. A `Sketch` is what is known from the bundle alone once a step has not failed: the places
that are directories, since a step needed them, and the files of its documents. From it follows
which steps fail in every directory, which may leave the directory, and which conflicts the
check before the writes does not find.

## What is proved

* `ensures_run`: a step that does not leave the directory, or fails, changes nothing outside,
  and if it did not fail the sketch is right.
* `follows_writeInto`: an import carries out the steps of its bundle.
* `not_exists_of_foreseen`: what is not there before anything is written is not there at its
  turn, if that is foreseen.
* `stays`, `allOrNothing`: then everything stays in the directory, and a conflict leaves nothing
  behind.
-/

namespace Apmpr

namespace PathBuf

/-- Where the parts of a path start, seen from the directory it is joined to. -/
def origin (p : PathBuf) : Place := if p.isAbsolute then .outside none [] else .below []

/-- What a path names. -/
def places (p : PathBuf) : List Place := p.origin.named p.toPath.parts

/-- What a path names before its last part. -/
def way (p : PathBuf) : List Place := p.origin.named p.toPath.parts.dropLast

/-- Where a path leads. -/
def place (p : PathBuf) : Place := p.origin.after p.toPath.parts

end PathBuf

namespace Planner

namespace Import

open FileSystem

/-! ### The steps of a bundle -/

/-- A step of an import, with its path seen from the directory. -/
inductive Step where
  /-- A document is written. -/
  | document (p : PathBuf)
  /-- A directory is made, if it is missing. -/
  | directory (p : PathBuf)
  /-- An empty file is made with the directories above it, if it is missing. -/
  | placeholder (p : PathBuf)

namespace Step

/-- The path of a step. -/
def path : Step → PathBuf
  | document p | directory p | placeholder p => p

/-- What a step makes where it is missing. -/
def makes : Step → List Place
  | document p => [p.place]
  | directory p => if p.ending = .dot then p.way else p.places
  | placeholder p => if p.ending = .part then p.places else p.way

/-- The directories without which a step fails. -/
def needs : Step → List Place
  | document p => p.way
  | directory p => p.places
  | placeholder p => if p.ending = .part then p.way else p.places

/-- A step, carried out in a directory. -/
def run (around : Surroundings) (into : PathBuf) : Step → Importing Unit
  | document p => write around (into.join p)
  | directory p => createDirAll around (into.join p)
  | placeholder p => writeMissing around (into.join p)

end Step

/-- The steps for an input itself. -/
def rootSteps (root : PathBuf) : RequiredLocalInputKind → List Step
  | .sourceDirectory => [.directory root]
  | .file | .dotenvFile => [.placeholder root]
  | .environmentValue | .parameterValue => []

/-- The step for a path of an input. -/
def pathStep (root relative : PathBuf) : Step :=
  if isFileLike relative then .placeholder (root.join relative) else .directory (root.join relative)

/-- The steps of `scaffold_required_inputs` for an input. -/
def inputSteps (input : RequiredLocalInput) : List Step :=
  let root := inputRoot ⟨""⟩ input
  rootSteps root input.kind ++ input.scaffoldPaths.map (pathStep root)

/-- The step that makes the directory of the overlays, where there are some. -/
def overlaysStep (bundle : PortableBundle) : List Step :=
  if bundle.overlays.keys = [] then [] else [.directory ⟨"overlays"⟩]

/-- The steps of an import, in their order. -/
def bundleSteps (bundle : PortableBundle) : List Step :=
  [.document (definitionPath bundle)] ++ (overlaysStep bundle ++
    (bundle.overlays.keys.map (fun name => .document (overlayPath name)) ++ bundle.requiredLocalInputs.flatMap inputSteps))

/-! ### What is known of an import -/

/-- What is known of the places of an import that has come so far: there are directories, and the
files of its documents. -/
structure Sketch where
  dirs : List Place
  files : List Place

namespace Sketch

/-- A step that fails: a file is where it needs a directory, or a directory where it puts a
document. -/
def blocks (sketch : Sketch) (step : Step) : Bool :=
  step.needs.any sketch.files.contains ||
    match step with
    | .document p => !p.place.isOutside && (p.way ++ sketch.dirs).contains p.place
    | .directory _ | .placeholder _ => false

/-- A step that may make something outside: all that is known there are directories. -/
def leaves (sketch : Sketch) (step : Step) : Bool :=
  match step with
  | .document p => p.place.isOutside
  | .directory _ | .placeholder _ => step.makes.any fun q => q.isOutside && !sketch.dirs.contains q

/-- What is known after a step that did not fail. -/
def after (sketch : Sketch) (step : Step) : Sketch where
  dirs := step.needs ++ sketch.dirs
  files :=
    match step with
    | .document p => p.place :: sketch.files
    | .directory _ | .placeholder _ => sketch.files

/-- No step leaves the directory before one has failed. -/
def staysInside : Sketch → List Step → Bool
  | _, [] => true
  | sketch, step :: rest => sketch.blocks step || (!sketch.leaves step && (sketch.after step).staysInside rest)

/-- What is known before anything is written. -/
def empty : Sketch := ⟨[], []⟩

end Sketch

/-- The documents of a bundle, the definition first. -/
def documents (bundle : PortableBundle) : List PathBuf :=
  definitionPath bundle :: bundle.overlays.keys.map overlayPath

/-- Whether the directory of the overlays was there before: the definition was written along it, or
there is a directory in it. -/
def overlaysThere (bundle : PortableBundle) (known : List Place) : Bool :=
  (definitionPath bundle).way.contains (.below ["overlays"]) || known.any (Place.isBeneath ["overlays"])

/-- Whether an overlay that is not there before anything is written is not there at its turn: it has
a place of its own, and in a directory of the overlays that was made just now; or a document of the
bundle was there before. -/
def foreseen (bundle : PortableBundle) (sketch : Sketch) (p : PathBuf) : Bool :=
  let known := p.way ++ sketch.dirs
  if overlaysThere bundle known then
    !sketch.files.contains p.place || (documents bundle).any fun m => m.places.all known.contains
  else p.place.isBeneath ["overlays"] && !sketch.files.contains p.place

/-- The same of all overlays, up to one that fails: a file on its way is no conflict. -/
def allForeseen (bundle : PortableBundle) : Sketch → List PathBuf → Bool
  | _, [] => true
  | sketch, p :: rest =>
    p.way.any sketch.files.contains ||
      (foreseen bundle sketch p &&
        (sketch.blocks (.document p) || allForeseen bundle (sketch.after (.document p)) rest))

/-- Whether every conflict of an import is found before anything is written. -/
def conflictsForeseen (bundle : PortableBundle) : Bool :=
  let definition := Step.document (definitionPath bundle)
  Sketch.empty.blocks definition ||
    allForeseen bundle ((overlaysStep bundle).foldl Sketch.after (Sketch.empty.after definition))
      (bundle.overlays.keys.map overlayPath)

/-- A bundle that nothing goes wrong with: no step leaves the directory before one has failed, and
conflicts are found before anything is written. -/
structure Contained (bundle : PortableBundle) : Prop where
  inside : Sketch.empty.staysInside (bundleSteps bundle) = true
  foreseen : conflictsForeseen bundle = true

instance (bundle : PortableBundle) : Decidable (Contained bundle) :=
  decidable_of_iff (Sketch.empty.staysInside (bundleSteps bundle) = true ∧ conflictsForeseen bundle = true)
    ⟨fun h => ⟨h.1, h.2⟩, fun h => ⟨h.1, h.2⟩⟩

/-! ### Paths joined to the directory -/

section
variable {cwd : Location} {into : PathBuf} {fs : FileSystem} {around : Surroundings} {p : PathBuf} {create : Bool}
  {sketch : Sketch} {bundle : PortableBundle} {disk : Disk} {α β : Type}

/-- Where a path starts. -/
def startOf (cwd : Location) (into p : PathBuf) : Location := if p.isAbsolute then [] else root cwd into

theorem locate_origin : p.origin.locate fs (root cwd into) = some (startOf cwd into p) := by
  rw [PathBuf.origin, startOf]
  split_ifs
  · exact walk_nil
  · exact congrArg some (List.append_nil _)

theorem startOf_dir (hbase : Base cwd into fs) : fs.entry (startOf cwd into p) = some .dir := by
  rw [startOf]
  split_ifs
  · exact fs.root_dir
  · exact hbase.root_dir

/-- The kernel goes along a path from where it starts. -/
theorem resolve_join (hbase : Base cwd into fs) (hp : p.isAbsolute = true ∨ p.toPath.parts ≠ []) :
    fs.resolve create (into.join p).toPath = fs.walk create fs.links (startOf cwd into p) p.toPath.parts := by
  rw [FileSystem.resolve, startOf]
  by_cases habs : p.isAbsolute = true
  · have hstart := (PathBuf.start_toPath p).mpr habs
    rw [PathBuf.join_of_isAbsolute habs, if_pos habs, hstart, if_neg]
    · rfl
    · intro heq
      rw [heq] at hstart
      cases hstart
  · have hrel := Bool.eq_false_iff.mpr habs
    have hparts := hp.resolve_left habs
    rw [if_neg, if_neg habs, PathBuf.parts_join hrel, PathBuf.from_toPath, PathBuf.isAbsolute_join_of_relative hrel,
      ← PathBuf.from_toPath, hbase.here, walk_dirs hbase.dirs]
    · rfl
    · intro heq
      have hnil := congrArg Path.parts heq
      rw [PathBuf.parts_join hrel] at hnil
      exact hparts (List.append_eq_nil_iff.mp hnil).2

theorem createDirAll_join (hbase : Base cwd into fs) :
    fs.createDirAll (into.join p).toPath = fs.makeDirs (startOf cwd into p) p.toPath.parts := by
  rw [FileSystem.createDirAll, startOf]
  by_cases habs : p.isAbsolute = true
  · rw [PathBuf.join_of_isAbsolute habs, if_pos habs, (PathBuf.start_toPath p).mpr habs]
    rfl
  · have hrel := Bool.eq_false_iff.mpr habs
    rw [if_neg habs, PathBuf.parts_join hrel, PathBuf.from_toPath, PathBuf.isAbsolute_join_of_relative hrel,
      ← PathBuf.from_toPath, hbase.here, makeDirs_dirs hbase.dirs]
    rfl

/-- The directories above a path, if there is a path above it. -/
theorem parent_join (hbase : Base cwd into fs) (hp : p.isAbsolute = true ∨ p.toPath.parts ≠ []) :
    ((into.join p).toPath.parent = none ∧ p.toPath.parts.dropLast = []) ∨
      ∃ parent, (into.join p).toPath.parent = some parent ∧
        fs.createDirAll parent = fs.makeDirs (startOf cwd into p) p.toPath.parts.dropLast := by
  by_cases habs : p.isAbsolute = true
  · have hstart := (PathBuf.start_toPath p).mpr habs
    rw [PathBuf.join_of_isAbsolute habs, Path.parent, startOf, if_pos habs]
    cases hparts : p.toPath.parts with
    | nil => exact .inl ⟨by simp only [hstart], rfl⟩
    | cons part rest =>
      refine .inr ⟨_, rfl, ?_⟩
      rw [FileSystem.createDirAll, hstart]
      rfl
  · have hrel := Bool.eq_false_iff.mpr habs
    have hparts := hp.resolve_left habs
    have hjoined := @PathBuf.parts_join into p hrel
    right
    have hne : (into.join p).toPath.parts ≠ [] := by
      rw [hjoined]
      exact fun hnil => hparts (List.append_eq_nil_iff.mp hnil).2
    have hparent : (into.join p).toPath.parent =
        some ⟨(into.join p).toPath.start, into.toPath.parts ++ p.toPath.parts.dropLast⟩ := by
      rw [Path.parent]
      cases hcases : (into.join p).toPath.parts with
      | nil => exact absurd hcases hne
      | cons part rest =>
        dsimp only
        rw [← hcases, hjoined, List.dropLast_append_of_ne_nil hparts]
    refine ⟨_, hparent, ?_⟩
    rw [FileSystem.createDirAll, startOf, if_neg habs, PathBuf.from_toPath, PathBuf.isAbsolute_join_of_relative hrel,
      ← PathBuf.from_toPath, hbase.here, makeDirs_dirs hbase.dirs]
    rfl

/-- An import that has come so far as a sketch says. -/
structure Fits (cwd : Location) (into : PathBuf) (fs : FileSystem) (sketch : Sketch) (disk : Disk) : Prop where
  kept : Kept cwd into fs disk
  dirs : ∀ q ∈ sketch.dirs, q.IsDir disk.fs (root cwd into)
  files : ∀ q ∈ sketch.files, ∃ l, q = .below l ∧ disk.fs.entry (root cwd into ++ l) = some .file

theorem Fits.base (hbase : Base cwd into fs) {sketch : Sketch} {disk : Disk} (h : Fits cwd into fs sketch disk) :
    Base cwd into disk.fs := hbase.extends h.kept.1

/-- No step has both a file and a directory at a place. -/
theorem Fits.not_isDir {sketch : Sketch} {disk : Disk} (h : Fits cwd into fs sketch disk) {q : Place}
    (hq : q ∈ sketch.files) {fs' : FileSystem} {new : Location → Entry → Prop} (hext : Extends new disk.fs fs') :
    ¬q.IsDir fs' (root cwd into) := by
  obtain ⟨l, rfl, hfile⟩ := h.files q hq
  rw [Place.isDir_below, hext.keeps hfile]
  simp

/-- Directories that are made along parts which start as a path does. -/
theorem makeDirs_fits (hbase : Base cwd into fs) {sketch : Sketch} {disk : Disk} (h : Fits cwd into fs sketch disk)
    {parts : List PathPart}
    (hheld : (∃ q ∈ p.origin.named parts, q ∈ sketch.files) ∨
      ∀ q ∈ p.origin.named parts, q.isOutside = true → q ∈ sketch.dirs) :
    Extends (Inside cwd into) disk.fs (disk.fs.makeDirs (startOf cwd into p) parts).1 ∧
      ((disk.fs.makeDirs (startOf cwd into p) parts).2 = true →
        ∀ q ∈ p.origin.named parts, q.IsDir (disk.fs.makeDirs (startOf cwd into p) parts).1 (root cwd into)) := by
  have hdisk := h.base hbase
  have hplaces := @Place.makeDirs_places disk.fs (root cwd into) (startOf cwd into p) p.origin parts hdisk.plain
    locate_origin (startOf_dir hdisk) ?_
  · exact ⟨hplaces.1.mono fun l entry _ hnew => ⟨hnew.1, by rintro target rfl; cases hnew.2⟩, hplaces.2⟩
  · rcases hheld with ⟨q, hq, hfile⟩ | hout
    · obtain ⟨l, rfl, hentry⟩ := h.files q hfile
      exact .inl ⟨l, hq, hentry⟩
    · exact .inr fun q hq hoff => h.dirs q (hout q hq hoff)

theorem Kept.extends {disk : Disk} {fs' : FileSystem} (h : Kept cwd into fs disk) (hext : Extends (Inside cwd into) disk.fs fs') :
    Kept cwd into fs { disk with fs := fs' } := ⟨h.1.trans hext, h.2⟩

/-- What is known stays so, and more may be. -/
theorem Fits.extends {sketch sketch' : Sketch} {disk : Disk} {fs' : FileSystem} (h : Fits cwd into fs sketch disk)
    (hext : Extends (Inside cwd into) disk.fs fs')
    (hdirs : ∀ q ∈ sketch'.dirs, q ∈ sketch.dirs ∨ q.IsDir fs' (root cwd into)) (hfiles : sketch'.files = sketch.files) :
    Fits cwd into fs sketch' { disk with fs := fs' } := by
  refine ⟨h.kept.extends hext, fun q hq => ?_, fun q hq => ?_⟩
  · exact (hdirs q hq).elim (fun hold => (h.dirs q hold).extends hext) id
  · rw [hfiles] at hq
    obtain ⟨l, hl, hfile⟩ := h.files q hq
    exact ⟨l, hl, hext.keeps hfile⟩

theorem isOrigin_origin : p.origin.isOrigin = true := by
  rw [PathBuf.origin]
  split_ifs <;> rfl

/-- Where the kernel comes to a directory along a path whose way is known, the path names only
directories. -/
theorem places_of_isDirectory (hbase : Base cwd into fs) (hp : p.isAbsolute = true ∨ p.toPath.parts ≠ [])
    (hway : ∀ q ∈ p.way, q.IsDir fs (root cwd into)) (h : isDirectory fs (into.join p).toPath = true) :
    ∀ q ∈ p.places, q.IsDir fs (root cwd into) := by
  intro q hq
  rcases Place.mem_named_dropLast hq with hq | rfl
  · exact hway q hq
  rw [isDirectory, canonicalize, resolve_join hbase hp] at h
  cases hwalk : fs.walk false fs.links (startOf cwd into p) p.toPath.parts with
  | none =>
    rw [hwalk] at h
    cases h
  | some final =>
    simp only [hwalk, decide_eq_true_eq] at h
    exact ⟨final, Place.locate_of_walk isOrigin_origin hbase.plain locate_origin (startOf_dir hbase) hway hwalk, h⟩

theorem isDirectory_of_places (hbase : Base cwd into fs) (hp : p.isAbsolute = true ∨ p.toPath.parts ≠ [])
    (hall : ∀ q ∈ p.places, q.IsDir fs (root cwd into)) :
    fs.pathExists (into.join p).toPath = true ∧ isDirectory fs (into.join p).toPath = true := by
  obtain ⟨final, hwalk, hdir⟩ := Place.walk_of_isDir isOrigin_origin locate_origin (startOf_dir hbase) hall
  rw [FileSystem.pathExists, isDirectory, canonicalize, resolve_join hbase hp, hwalk]
  exact ⟨rfl, by simpa using hdir⟩

/-- A path that does not leave the directory. -/
theorem tame_of_place (h : p.place.isOutside = false) : Tame cwd into (into.join p).toPath := by
  have hinside := Place.not_outside_of_after h
  intro l hl
  by_cases habs : p.isAbsolute = true
  · rw [PathBuf.place, PathBuf.origin, if_pos habs] at h
    have hout := Place.isOutside_after (show (Place.outside none []).isOutside = true from rfl) p.toPath.parts
    rw [h] at hout
    cases hout
  · have horigin : p.origin = .below [] := if_neg habs
    rw [named_join (Bool.eq_false_iff.mpr habs)] at hl
    rcases List.mem_append.mp hl with hl | hl
    · exact .inl hl
    · rw [horigin] at hinside
      rw [← List.append_nil (root cwd into)] at hl
      obtain ⟨l', rfl, hmem⟩ := Place.mem_named_of_visited hinside hl
      have hne := Place.ne_nil_of_mem_named hmem
      exact .inr ⟨List.prefix_append _ _, by simpa using hne⟩

/-- Where it leads. -/
theorem root_of_place {l : Location} (h : p.place = .below l) : root cwd (into.join p) = root cwd into ++ l := by
  by_cases habs : p.isAbsolute = true
  · rw [PathBuf.place, PathBuf.origin, if_pos habs] at h
    have hout := Place.isOutside_after (show (Place.outside none []).isOutside = true from rfl) p.toPath.parts
    rw [h] at hout
    cases hout
  · have hrel := Bool.eq_false_iff.mpr habs
    have horigin : p.origin = .below [] := if_neg habs
    rw [PathBuf.place, horigin] at h
    rw [root, PathBuf.parts_join hrel, lexical_append, PathBuf.from_toPath, PathBuf.isAbsolute_join_of_relative hrel,
      ← PathBuf.from_toPath]
    have hlexical := @Place.lexical_of_after (root cwd into) [] l _ h
    rw [List.append_nil] at hlexical
    exact hlexical

theorem way_subset {q : Place} (h : q ∈ p.way) : q ∈ p.places := Place.named_dropLast_subset h

/-- The way of a path, if a file is on it or at its end, or if nothing on it is open. -/
theorem held_way {disk : Disk} (hdisk : Fits cwd into fs sketch disk)
    (h : (∃ q ∈ p.places, q ∈ sketch.files) ∨ ∀ q ∈ p.way, q.isOutside = true → q ∈ sketch.dirs) :
    (∃ q ∈ p.way, q ∈ sketch.files) ∨ ∀ q ∈ p.way, q.isOutside = true → q ∈ sketch.dirs := by
  rcases h with ⟨q, hq, hfile⟩ | hopen
  · rcases Place.mem_named_dropLast hq with hway | heq
    · exact .inl ⟨q, hway, hfile⟩
    · -- the path ends at a file in the directory, so that it has not left it
      obtain ⟨l, rfl, -⟩ := hdisk.files q hfile
      have hinside := Place.not_outside_of_after (show p.place.isOutside = false by rw [PathBuf.place, ← heq]; rfl)
      refine .inr fun q hq hout => ?_
      rw [hinside q (way_subset hq)] at hout
      cases hout
  · exact .inr hopen

theorem createDirs_fits (hbase : Base cwd into fs) (hp : p.isAbsolute = true ∨ p.toPath.parts ≠ []) {disk : Disk}
    (hdisk : Fits cwd into fs sketch disk)
    (hstep : sketch.blocks (.directory p) = true ∨ sketch.leaves (.directory p) = false) :
    Extends (Inside cwd into) disk.fs (createDirs disk.fs (into.join p)).1 ∧
      ((createDirs disk.fs (into.join p)).2 = true →
        ∀ q ∈ p.places, q.IsDir (createDirs disk.fs (into.join p)).1 (root cwd into)) := by
  have hbase' := hdisk.base hbase
  have hblocked : sketch.blocks (.directory p) = true → ∃ q ∈ p.places, q ∈ sketch.files := by simp [Sketch.blocks, Step.needs]
  have hopen : sketch.leaves (.directory p) = false →
      ∀ q ∈ (Step.directory p).makes, q.isOutside = true → q ∈ sketch.dirs := by
    simp [Sketch.leaves]
  rw [createDirs, PathBuf.ending_join]
  by_cases hdot : p.ending = .dot
  · rw [if_pos hdot]
    rw [Step.makes, if_pos hdot] at hopen
    have hheld := held_way hdisk (hstep.imp hblocked hopen)
    have hmade := makeDirs_fits hbase hdisk hheld
    rcases parent_join hbase' hp with ⟨hnone, hnil⟩ | ⟨parent, hparent, heq⟩
    · simp only [hnone]
      refine ⟨.refl, fun hthere => places_of_isDirectory hbase' hp (fun q hq => ?_) hthere⟩
      rw [PathBuf.way, hnil] at hq
      cases hq
    · simp only [hparent, heq, Bool.and_eq_true]
      refine ⟨hmade.1, fun hok => ?_⟩
      exact places_of_isDirectory (hbase'.extends hmade.1) hp (hmade.2 hok.1) hok.2
  · rw [if_neg hdot, createDirAll_join hbase']
    rw [Step.makes, if_neg hdot] at hopen
    exact makeDirs_fits hbase hdisk (hstep.imp hblocked hopen)

/-- The directories of a step. -/
theorem ensures_directory (hbase : Base cwd into fs) (hp : p.isAbsolute = true ∨ p.toPath.parts ≠ [])
    (hstep : sketch.blocks (.directory p) = true ∨ sketch.leaves (.directory p) = false) :
    (createDirAll around (into.join p)).Ensures (Fits cwd into fs sketch)
      (fun _ disk => sketch.blocks (.directory p) = false ∧ Fits cwd into fs (sketch.after (.directory p)) disk)
      (fun _ => Kept cwd into fs) := by
  intro disk hdisk
  obtain ⟨hext, hdirs⟩ := createDirs_fits hbase hp hdisk hstep
  refine ⟨fun value disk' hrun => ?_, fun error disk' hrun => ?_⟩
  · obtain ⟨hresult, rfl⟩ := Prod.mk.inj hrun
    split_ifs at hresult with hmade
    refine ⟨?_, hdisk.extends hext (fun q hq => ?_) rfl⟩
    · refine Bool.eq_false_iff.mpr fun hblocks => ?_
      obtain ⟨q, hq, hfile⟩ : ∃ q ∈ p.places, q ∈ sketch.files := by simpa [Sketch.blocks, Step.needs] using hblocks
      exact hdisk.not_isDir hfile hext (hdirs hmade q hq)
    · exact (List.mem_append.mp hq).symm.imp_right (hdirs hmade q)
  · obtain ⟨-, rfl⟩ := Prod.mk.inj hrun
    exact hdisk.kept.extends hext

theorem ensures_createParent (hbase : Base cwd into fs) (hp : p.isAbsolute = true ∨ p.toPath.parts ≠ [])
    (hstep : (∃ q ∈ p.places, q ∈ sketch.files) ∨ ∀ q ∈ p.way, q.isOutside = true → q ∈ sketch.dirs) :
    (createParent around (into.join p)).Ensures (Fits cwd into fs sketch)
      (fun _ disk => (∀ q ∈ p.way, q.IsDir disk.fs (root cwd into)) ∧ Fits cwd into fs sketch disk)
      (fun _ => Kept cwd into fs) := by
  intro disk hdisk
  have hmade := makeDirs_fits hbase hdisk (held_way hdisk hstep)
  rw [createParent]
  simp only [Stateful.exec_ofFun]
  rcases parent_join (hdisk.base hbase) hp with ⟨hnone, hnil⟩ | ⟨parent, hparent, heq⟩
  · rw [hnone]
    refine ⟨fun value disk' hrun => ?_, fun error disk' hrun => ?_⟩
    · cases hrun
      refine ⟨fun q hq => ?_, hdisk⟩
      rw [PathBuf.way, hnil] at hq
      cases hq
    · cases hrun
  · simp only [hparent, heq]
    refine ⟨fun value disk' hrun => ?_, fun error disk' hrun => ?_⟩
    · obtain ⟨hresult, rfl⟩ := Prod.mk.inj hrun
      split_ifs at hresult with hok
      exact ⟨hmade.2 hok, hdisk.extends hmade.1 (fun q hq => .inl hq) rfl⟩
    · obtain ⟨-, rfl⟩ := Prod.mk.inj hrun
      exact hdisk.kept.extends hmade.1

/-- What is written of a path that does not leave the directory. -/
theorem written_inside (hbase : Base cwd into fs) (hinside : p.place.isOutside = false) {disk : Disk}
    (hkept : Kept cwd into fs disk) {fs' : FileSystem} {location : Location}
    (h : disk.fs.writeFile (into.join p).toPath = some (fs', location)) :
    Extends (Inside cwd into) disk.fs fs' ∧ Kept cwd into fs ⟨fs', location :: disk.written⟩ := by
  obtain ⟨hext, hbeneath⟩ := writeFile_inside (hbase.extends hkept.1) (tame_of_place hinside) h
  exact ⟨hext, hkept.1.trans hext, List.forall_mem_cons.mpr ⟨hbeneath, hkept.2⟩⟩

/-- The placeholder of a step. -/
theorem ensures_placeholder (hbase : Base cwd into fs) (hp : p.isAbsolute = true ∨ p.toPath.parts ≠ [])
    (hstep : sketch.blocks (.placeholder p) = true ∨ sketch.leaves (.placeholder p) = false) :
    (writeMissing around (into.join p)).Ensures (Fits cwd into fs sketch)
      (fun _ disk => sketch.blocks (.placeholder p) = false ∧ Fits cwd into fs (sketch.after (.placeholder p)) disk)
      (fun _ => Kept cwd into fs) := by
  have hneeds : ∀ q ∈ (Step.placeholder p).needs, q ∈ p.places := by
    intro q hq
    rw [Step.needs] at hq
    split_ifs at hq
    · exact way_subset hq
    · exact hq
  have hmakes : ∀ q ∈ p.way, q ∈ (Step.placeholder p).makes := by
    intro q hq
    rw [Step.makes]
    split_ifs
    · exact way_subset hq
    · exact hq
  have hblocked : sketch.blocks (.placeholder p) = true ↔ ∃ q ∈ (Step.placeholder p).needs, q ∈ sketch.files := by
    simp [Sketch.blocks]
  have hopen : sketch.leaves (.placeholder p) = false →
      ∀ q ∈ (Step.placeholder p).makes, q.isOutside = true → q ∈ sketch.dirs := by
    simp [Sketch.leaves]
  have hheld : (∃ q ∈ p.places, q ∈ sketch.files) ∨ ∀ q ∈ p.way, q.isOutside = true → q ∈ sketch.dirs := by
    refine hstep.imp (fun h => ?_) fun h q hq => hopen h q (hmakes q hq)
    obtain ⟨q, hq, hfile⟩ := hblocked.mp h
    exact ⟨q, hneeds q hq, hfile⟩
  rw [writeMissing]
  refine .bind (ensures_createParent hbase hp hheld) fun _ => ?_
  rintro disk ⟨hway, hdisk⟩
  have hbase' := hdisk.base hbase
  -- a step that finds its directories is not blocked
  have hgoes : (∀ q ∈ (Step.placeholder p).needs, q.IsDir disk.fs (root cwd into)) →
      sketch.blocks (.placeholder p) = false ∧ Fits cwd into fs (sketch.after (.placeholder p)) disk := by
    intro hdirs
    constructor
    · refine Bool.eq_false_iff.mpr fun hblocks => ?_
      obtain ⟨q, hq, hfile⟩ := hblocked.mp hblocks
      exact hdisk.not_isDir hfile (@Extends.refl disk.fs fun _ _ => True) (hdirs q hq)
    · exact ⟨hdisk.kept, fun q hq => (List.mem_append.mp hq).elim (hdirs q) (hdisk.dirs q), hdisk.files⟩
  simp only [Stateful.exec_ofFun]
  by_cases hexists : pathExists disk.fs (into.join p) = true
  · rw [if_pos hexists]
    refine ⟨fun value disk' hrun => ?_, fun error disk' hrun => ?_⟩
    · cases hrun
      refine hgoes fun q hq => ?_
      rw [Step.needs] at hq
      split_ifs at hq with hending
      · exact hway q hq
      · rw [pathExists, PathBuf.ending_join, if_neg hending] at hexists
        exact places_of_isDirectory hbase' hp hway hexists q hq
    · cases hrun
  · rw [if_neg hexists, write]
    simp only [Stateful.exec_ofFun, PathBuf.ending_join]
    by_cases hending : p.ending = .part
    · rw [if_pos hending]
      have hneedsWay : (Step.placeholder p).needs = p.way := if_pos hending
      obtain ⟨hfree, hfits⟩ := hgoes (by rw [hneedsWay]; exact hway)
      have hout := hopen (hstep.resolve_left (by simp [hfree]))
      rw [Step.makes, if_pos hending] at hout
      have hinside : p.place.isOutside = false := by
        refine Bool.eq_false_iff.mpr fun hplace => hexists ?_
        rw [pathExists, PathBuf.ending_join, if_pos hending]
        refine (isDirectory_of_places hbase' hp fun q hq => ?_).1
        rcases Place.mem_named_dropLast hq with hq' | rfl
        · exact hway q hq'
        · exact hdisk.dirs _ (hout _ hq hplace)
      cases hwrite : disk.fs.writeFile (into.join p).toPath with
      | none =>
        refine ⟨fun value disk' hrun => ?_, fun error disk' hrun => ?_⟩
        · cases hrun
        · cases hrun
          exact hdisk.kept
      | some written =>
        obtain ⟨hext, hkept⟩ := written_inside hbase hinside hdisk.kept hwrite
        refine ⟨fun value disk' hrun => ?_, fun error disk' hrun => ?_⟩
        · cases hrun
          have hafter : Fits cwd into fs (sketch.after (.placeholder p)) { disk with fs := written.1 } :=
            hfits.extends hext (fun q hq => .inl hq) rfl
          obtain ⟨-, hdirs, hfiles⟩ := hafter
          exact ⟨hfree, hkept, hdirs, hfiles⟩
        · cases hrun
    · rw [if_neg hending]
      refine ⟨fun value disk' hrun => ?_, fun error disk' hrun => ?_⟩
      · cases hrun
      · cases hrun
        exact hdisk.kept

/-- A place below a directory is that of a relative path. -/
theorem origin_of_below {l : Location} {parts : List PathPart} (h : .below l ∈ p.origin.named parts) :
    p.isAbsolute = false ∧ p.origin = .below [] := by
  by_cases habs : p.isAbsolute = true
  · rw [PathBuf.origin, if_pos habs] at h
    cases Place.isOutside_of_mem_named h
  · exact ⟨Bool.eq_false_iff.mpr habs, if_neg habs⟩

/-- A file on the way of a path is not passed. -/
theorem resolve_file_in_way (hbase : Base cwd into fs) {l : Location} (hl : .below l ∈ p.way)
    (hfile : fs.entry (root cwd into ++ l) = some .file) : fs.resolve create (into.join p).toPath = none := by
  obtain ⟨hrel, horigin⟩ := origin_of_below hl
  rw [PathBuf.way, horigin] at hl
  have hparts : p.toPath.parts ≠ [] := by
    intro hnil
    rw [hnil] at hl
    cases hl
  rw [resolve_join hbase (.inr hparts), startOf, if_neg (by simp [hrel]), ← List.append_nil (root cwd into)]
  exact Place.walk_file_in_way hbase.plain hl hfile

/-- A path to a place below visits its way. -/
theorem way_visited (hplace : p.place.isOutside = false) {q : Place} (hq : q ∈ p.way) :
    ∃ l, q = .below l ∧ root cwd into ++ l ∈ visited ((into.join p).toPath.start.from cwd) (into.join p).toPath.parts.dropLast := by
  have hinside := Place.not_outside_of_after hplace q (way_subset hq)
  cases q with
  | outside above since => cases hinside
  | below l =>
    obtain ⟨hrel, horigin⟩ := origin_of_below hq
    rw [PathBuf.way, horigin] at hq
    have hparts : p.toPath.parts ≠ [] := by
      intro hnil
      rw [hnil] at hq
      cases hq
    refine ⟨l, rfl, ?_⟩
    rw [PathBuf.parts_join hrel, List.dropLast_append_of_ne_nil hparts, visited_append, PathBuf.from_toPath,
      PathBuf.isAbsolute_join_of_relative hrel, ← PathBuf.from_toPath]
    have hvisited := @Place.visited_of_mem_named (root cwd into) [] l _ hq
    rw [List.append_nil] at hvisited
    exact List.mem_append_right _ hvisited

/-- What is known of a document that was written below: its file and the way to it are there, and
there was no directory. -/
theorem written_below (hbase : Base cwd into fs) {l : Location} (hplace : p.place = .below l) {fs' : FileSystem}
    {location : Location} (h : fs.writeFile (into.join p).toPath = some (fs', location)) :
    location = root cwd into ++ l ∧ fs'.entry location = some .file ∧ fs.entry location ≠ some .dir ∧
      ∀ q ∈ p.way, q.IsDir fs (root cwd into) := by
  have hinside : p.place.isOutside = false := by rw [hplace]; rfl
  have hplain := (tame_of_place hinside).plain hbase
  rw [← hbase.here] at hplain
  obtain ⟨hlocation, -, hdir, -⟩ := writeFile_spec hplain h
  obtain ⟨hfile, hway⟩ := writeFile_there hplain h
  rw [hbase.here] at hlocation hway
  refine ⟨hlocation.trans (root_of_place hplace), hfile, hdir, fun q hq => ?_⟩
  obtain ⟨l', rfl, hvisited⟩ := @way_visited cwd into p hinside q hq
  exact Place.isDir_below.mpr (hway _ hvisited)

/-- A document that was written was not blocked. -/
theorem write_fits (hbase : Base cwd into fs)
    (hstep : sketch.blocks (.document p) = true ∨ sketch.leaves (.document p) = false) {disk : Disk}
    (hdisk : Fits cwd into fs sketch disk) {fs' : FileSystem} {location : Location}
    (h : disk.fs.writeFile (into.join p).toPath = some (fs', location)) :
    sketch.blocks (.document p) = false ∧ Fits cwd into fs (sketch.after (.document p)) ⟨fs', location :: disk.written⟩ := by
  have hbase' := hdisk.base hbase
  have hfree : sketch.blocks (.document p) = false := by
    refine Bool.eq_false_iff.mpr fun hblocks => ?_
    rw [Sketch.blocks, Bool.or_eq_true] at hblocks
    rcases hblocks with hblocks | hblocks
    · obtain ⟨q, hq, hfile⟩ : ∃ q ∈ p.way, q ∈ sketch.files := by simpa [Step.needs] using hblocks
      obtain ⟨l, rfl, hentry⟩ := hdisk.files q hfile
      rw [writeFile, resolve_file_in_way hbase' hq hentry] at h
      cases h
    · simp only [Bool.and_eq_true, Bool.not_eq_true', List.contains_eq_mem, decide_eq_true_eq, List.mem_append] at hblocks
      obtain ⟨hinside, htaken⟩ := hblocks
      obtain ⟨l, hplace⟩ := Place.exists_below hinside
      obtain ⟨hlocation, -, hdir, hway⟩ := written_below hbase' hplace h
      have hthere : p.place.IsDir disk.fs (root cwd into) := htaken.elim (hway _) (hdisk.dirs _)
      rw [hplace, Place.isDir_below, ← hlocation] at hthere
      exact hdir hthere
  have hinside : p.place.isOutside = false := hstep.resolve_left (by simp [hfree])
  obtain ⟨hext, hkept⟩ := written_inside hbase hinside hdisk.kept h
  obtain ⟨l, hplace⟩ := Place.exists_below hinside
  obtain ⟨hlocation, hfile, -, hway⟩ := written_below hbase' hplace h
  refine ⟨hfree, hkept, fun q hq => ?_, fun q hq => ?_⟩
  · exact (List.mem_append.mp hq).elim (fun hq => (hway q hq).extends hext) fun hq => (hdisk.dirs q hq).extends hext
  · rcases List.mem_cons.mp hq with rfl | hq
    · exact ⟨l, hplace, hlocation ▸ hfile⟩
    · obtain ⟨l', hl', hentry⟩ := hdisk.files q hq
      exact ⟨l', hl', hext.keeps hentry⟩

/-- The document of a step. -/
theorem ensures_document (hbase : Base cwd into fs)
    (hstep : sketch.blocks (.document p) = true ∨ sketch.leaves (.document p) = false) :
    (write around (into.join p)).Ensures (Fits cwd into fs sketch)
      (fun _ disk => sketch.blocks (.document p) = false ∧ Fits cwd into fs (sketch.after (.document p)) disk)
      (fun _ => Kept cwd into fs) := by
  intro disk hdisk
  rw [write]
  simp only [Stateful.exec_ofFun]
  split
  · next fs' location hwrite =>
    refine ⟨fun value disk' hrun => ?_, fun error disk' hrun => ?_⟩
    · cases hrun
      split_ifs at hwrite
      exact write_fits hbase hstep hdisk hwrite
    · cases hrun
  · refine ⟨fun value disk' hrun => ?_, fun error disk' hrun => ?_⟩
    · cases hrun
    · cases hrun
      exact hdisk.kept

/-- **A step of an import.** A step that does not leave the directory, or is blocked, changes
nothing outside; and after one that did not fail, which was not blocked, what is known is so. -/
theorem ensures_run {step : Step} (hbase : Base cwd into fs)
    (hp : step.path.isAbsolute = true ∨ step.path.toPath.parts ≠ [])
    (hstep : sketch.blocks step = true ∨ sketch.leaves step = false) :
    (step.run around into).Ensures (Fits cwd into fs sketch)
      (fun _ disk => sketch.blocks step = false ∧ Fits cwd into fs (sketch.after step) disk) (fun _ => Kept cwd into fs) := by
  cases step with
  | document p => exact @ensures_document _ _ _ around p sketch hbase hstep
  | directory p => exact @ensures_directory _ _ _ around p sketch hbase hp hstep
  | placeholder p => exact @ensures_placeholder _ _ _ around p sketch hbase hp hstep

/-! ### An import carries out its steps -/

/-- Surroundings in which nothing is refused. -/
def quiet : Surroundings := ⟨fun _ => "", fun _ => none, fun _ => none, fun _ _ => none⟩

/-- A step whose path names something; a document's path ends with a name. -/
def Step.Proper : Step → Prop
  | document p => p.ending = .part ∧ ∃ before last, p.toPath.parts = before ++ [.name last]
  | directory p | placeholder p => p.isAbsolute = true ∨ p.toPath.parts ≠ []

theorem Step.Proper.names {step : Step} (h : step.Proper) : step.path.isAbsolute = true ∨ step.path.toPath.parts ≠ [] := by
  cases step with
  | document p =>
    obtain ⟨-, before, last, hparts⟩ := h
    exact .inr (by simp [path, hparts])
  | directory p => exact h
  | placeholder p => exact h

theorem ending_document (hm : p ∈ documents bundle) : p.ending = .part ∧ ∃ before last, p.toPath.parts = before ++ [.name last] := by
  rcases List.mem_cons.mp hm with rfl | hm
  · obtain ⟨⟨before, last, hparts, -⟩, hending⟩ := parts_yaml bundle.deployment.metadata.name
    exact ⟨hending, before, last, hparts⟩
  · obtain ⟨name, -, rfl⟩ := List.mem_map.mp hm
    obtain ⟨⟨before, last, hparts, -⟩, hending⟩ := parts_yaml name
    rw [overlayPath, yamlPath, PathBuf.ending_join]
    refine ⟨hending, ?_⟩
    by_cases habs : (PathBuf.mk s!"{name}.yaml").isAbsolute = true
    · rw [PathBuf.join_of_isAbsolute habs]
      exact ⟨before, last, hparts⟩
    · rw [PathBuf.parts_join (Bool.eq_false_iff.mpr habs), hparts, ← List.append_assoc]
      exact ⟨_, last, rfl⟩

/-- Joined to what names something, a path names something or is absolute. -/
theorem names_join {base : PathBuf} (hbase : base.isAbsolute = true ∨ base.toPath.parts ≠ []) (p : PathBuf) :
    (base.join p).isAbsolute = true ∨ (base.join p).toPath.parts ≠ [] := by
  by_cases habs : p.isAbsolute = true
  · rw [PathBuf.join_of_isAbsolute habs]
    exact .inl habs
  · have hrel := Bool.eq_false_iff.mpr habs
    rw [PathBuf.isAbsolute_join_of_relative hrel, PathBuf.parts_join hrel]
    exact hbase.imp_right fun hne hnil => hne (List.append_eq_nil_iff.mp hnil).1

theorem names_inputRoot (input : RequiredLocalInput) :
    (inputRoot ⟨""⟩ input).isAbsolute = true ∨ (inputRoot ⟨""⟩ input).toPath.parts ≠ [] :=
  names_join (.inr (by decide)) _

/-- A part of an import that carries out these steps, if `ahead` says where an import is that has
some steps before it, and `failed` where it is when it fails. -/
def Follows (ahead : List Step → Disk → Prop) (failed : Disk → Prop) (m : Importing α) (steps : List Step) : Prop :=
  ∀ rest, m.Ensures (ahead (steps ++ rest)) (fun _ => ahead rest) fun _ => failed

section
variable {ahead : List Step → Disk → Prop} {failed : Disk → Prop} {force : Bool}

theorem Follows.bind {m : Importing α} {next : α → Importing β} {steps later : List Step}
    (hfirst : Follows ahead failed m steps) (hnext : ∀ value, Follows ahead failed (next value) later) :
    Follows ahead failed (m >>= next) (steps ++ later) := by
  intro rest
  rw [List.append_assoc]
  exact .bind (hfirst (later ++ rest)) fun value => hnext value rest

theorem follows_pure {value : α} : Follows ahead failed (pure value : Importing α) [] := fun _ => .pure fun _ h => h

theorem Follows.forM {items : List β} {body : β → Importing Unit} {steps : β → List Step}
    (h : ∀ item ∈ items, Follows ahead failed (body item) (steps item)) :
    Follows ahead failed (items.forM body) (items.flatMap steps) := by
  induction items with
  | nil => exact follows_pure
  | cons item rest ih =>
    rw [List.flatMap_cons]
    exact .bind (h item (List.mem_cons_self ..)) fun _ => ih fun other hother => h other (List.mem_cons_of_mem _ hother)

/-- What changes nothing is no step, if it does not fail, or may. -/
theorem follows_of_still {m : Importing α} (hsame : ∀ disk, (m.exec disk).2 = disk)
    (h : (∀ disk error, (m.exec disk).1 ≠ .error error) ∨ ∀ rest disk, ahead rest disk → failed disk) :
    Follows ahead failed m [] := by
  intro rest disk hahead
  have hstill := hsame disk
  refine ⟨fun value disk' hrun => ?_, fun error disk' hrun => ?_⟩
  · rw [hrun] at hstill
    obtain rfl : disk' = disk := hstill
    exact hahead
  · rw [hrun] at hstill
    obtain rfl : disk' = disk := hstill
    rcases h with hnever | hfailed
    · exact absurd (congrArg Prod.fst hrun) (hnever disk' error)
    · exact hfailed rest disk' hahead

theorem follows_refuseExisting (h : force = true ∨ ∀ rest disk, ahead rest disk → failed disk) :
    Follows ahead failed (refuseExisting force p) [] := by
  refine follows_of_still (fun _ => rfl) (h.imp_left ?_)
  rintro rfl disk error
  exact nofun

theorem follows_refuse {code : BundleErrorCode} {message : Option String}
    (h : message = none ∨ ∀ rest disk, ahead rest disk → failed disk) :
    Follows ahead failed (refuse code p message) [] := by
  refine follows_of_still (fun disk => ?_) (h.imp_left ?_)
  · cases message <;> rfl
  · rintro rfl disk error
    exact nofun

variable (hstill : (force = true ∧ around = quiet) ∨ ∀ rest disk, ahead rest disk → failed disk)
  (hrun : ∀ step : Step, step.Proper → Follows ahead failed (step.run around into) [step])

include hrun in
theorem follows_scaffoldInput (input : RequiredLocalInput) :
    Follows ahead failed (scaffoldInput around into input) (inputSteps input) := by
  have hnames := names_inputRoot input
  rw [scaffoldInput, inputRoot_eq]
  have hroot : Follows ahead failed (scaffoldRoot around (into.join (inputRoot ⟨""⟩ input)) input.kind)
      (rootSteps (inputRoot ⟨""⟩ input) input.kind) := by
    cases input.kind with
    | sourceDirectory => exact hrun (.directory _) hnames
    | file => exact hrun (.placeholder _) hnames
    | dotenvFile => exact hrun (.placeholder _) hnames
    | environmentValue => exact follows_pure
    | parameterValue => exact follows_pure
  have hpath : ∀ relative, Follows ahead failed (scaffoldPath around (into.join (inputRoot ⟨""⟩ input)) relative)
      [pathStep (inputRoot ⟨""⟩ input) relative] := by
    intro relative
    rw [scaffoldPath, PathBuf.join_join (inputRoot_text_ne input), pathStep]
    split_ifs
    · exact hrun (.placeholder _) (names_join hnames _)
    · exact hrun (.directory _) (names_join hnames _)
  refine .bind hroot fun _ => ?_
  rw [List.map_eq_flatMap]
  exact .forM fun relative _ => hpath relative

include hstill hrun in
theorem follows_writeOverlay {entry : String × Encoding.UnplacedOverlay} (hentry : overlayPath entry.1 ∈ documents bundle) :
    Follows ahead failed (writeOverlay around force (into.join ⟨"overlays"⟩) entry) [.document (overlayPath entry.1)] := by
  rw [writeOverlay, yamlPath_overlays]
  have hdocument := hrun (.document (overlayPath entry.1)) (ending_document hentry)
  have hsteps : [Step.document (overlayPath entry.1)] = [] ++ ([] ++ [.document (overlayPath entry.1)]) := rfl
  rw [hsteps]
  refine .bind (follows_refuseExisting (hstill.imp_left And.left)) fun _ => .bind (follows_refuse ?_) fun _ => hdocument
  exact hstill.imp_left fun hquiet => by rw [hquiet.2]; rfl

include hstill in
theorem follows_validateDefinition : Follows ahead failed (validateDefinition around p) [] := by
  refine follows_of_still (fun disk => ?_) (hstill.imp_left ?_)
  · rw [validateDefinition, Stateful.exec_ofFun]
    cases around.invalid disk.fs p <;> rfl
  · rintro ⟨-, rfl⟩ disk error
    exact nofun

include hstill hrun in
/-- **An import carries out the steps of its bundle.** -/
theorem follows_writeInto (bundle : PortableBundle) :
    Follows ahead failed (writeInto around bundle into force) (bundleSteps bundle) := by
  have hchecks : Follows ahead failed (bundle.overlays.keys.forM fun name =>
      refuseExisting force (yamlPath (into.join ⟨"overlays"⟩) name)) [] := by
    have hnone : bundle.overlays.keys.flatMap (fun _ => ([] : List Step)) = [] := by simp
    rw [← hnone]
    exact .forM fun name _ => follows_refuseExisting (hstill.imp_left And.left)
  have hyaml : Follows ahead failed (refuse .bundleWriteFailed (into.join (definitionPath bundle))
      (around.deploymentYaml bundle.deployment)) [] :=
    follows_refuse (hstill.imp_left fun hquiet => by rw [hquiet.2]; rfl)
  have hdefinition := hrun (.document (definitionPath bundle)) (@ending_document _ bundle (List.mem_cons_self ..))
  have hoverlays : Follows ahead failed (createOverlaysDir around bundle (into.join ⟨"overlays"⟩)) (overlaysStep bundle) := by
    rw [createOverlaysDir, overlaysStep]
    split_ifs
    · exact follows_pure
    · exact hrun (.directory _) (.inr (by decide))
  have hdocuments : Follows ahead failed (bundle.overlays.entries.forM (writeOverlay around force (into.join ⟨"overlays"⟩)))
      (bundle.overlays.keys.map fun name => .document (overlayPath name)) := by
    rw [SortedMap.keys, List.map_map, List.map_eq_flatMap]
    refine .forM fun entry hentry => @follows_writeOverlay _ _ bundle _ _ _ hstill hrun _ ?_
    exact List.mem_cons_of_mem _ (List.mem_map_of_mem (List.mem_map_of_mem hentry))
  have hinputs : Follows ahead failed (scaffoldRequiredInputs around into bundle.requiredLocalInputs)
      (bundle.requiredLocalInputs.flatMap inputSteps) := .forM fun input _ => follows_scaffoldInput hrun input
  have hsteps : bundleSteps bundle = [] ++ ([] ++ ([] ++ ([.document (definitionPath bundle)] ++ (overlaysStep bundle ++
      (bundle.overlays.keys.map (fun name => .document (overlayPath name)) ++
        (bundle.requiredLocalInputs.flatMap inputSteps ++ ([] ++ []))))))) := by simp [bundleSteps]
  rw [writeInto, hsteps]
  exact .bind (follows_refuseExisting (hstill.imp_left And.left)) fun _ => .bind hchecks fun _ => .bind hyaml fun _ =>
    .bind hdefinition fun _ => .bind hoverlays fun _ => .bind hdocuments fun _ => .bind hinputs fun _ =>
    .bind (follows_validateDefinition hstill) fun _ => follows_pure

end

/-! ### Everything stays in the directory -/

/-- An import before these steps, none of which leaves the directory before one has failed. -/
def Ahead (cwd : Location) (into : PathBuf) (fs : FileSystem) (rest : List Step) (disk : Disk) : Prop :=
  ∃ sketch : Sketch, sketch.staysInside rest = true ∧ Fits cwd into fs sketch disk

theorem follows_run {step : Step} (hbase : Base cwd into fs) (hproper : step.Proper) :
    Follows (Ahead cwd into fs) (Kept cwd into fs) (step.run around into) [step] := by
  rintro rest disk ⟨sketch, hsafe, hfits⟩
  simp only [List.singleton_append, Sketch.staysInside, Bool.or_eq_true, Bool.and_eq_true, Bool.not_eq_true'] at hsafe
  obtain ⟨hvalue, herror⟩ := @ensures_run _ _ _ around sketch step hbase hproper.names (hsafe.imp_right And.left) disk hfits
  refine ⟨fun value disk' hrun => ?_, herror⟩
  obtain ⟨hfree, hafter⟩ := hvalue value disk' hrun
  exact ⟨_, (hsafe.resolve_left (by simp [hfree])).2, hafter⟩

/-! ### Conflicts -/

/-- The files of an import, and the directory of its overlays, if they are new. -/
def Fresh (base : Location) (sketch : Sketch) (l : Location) (entry : Entry) : Prop :=
  l = base ++ ["overlays"] ∧ entry = .dir ∨ (∃ l', l = base ++ l' ∧ .below l' ∈ sketch.files) ∧ entry = .file

/-- An import that has written documents so far. -/
structure Underway (cwd : Location) (into : PathBuf) (fs : FileSystem) (bundle : PortableBundle) (sketch : Sketch)
    (disk : Disk) : Prop where
  fits : Fits cwd into fs sketch disk
  inside : ∀ q ∈ sketch.dirs, q.isOutside = false
  fresh : Extends (Fresh (root cwd into) sketch) fs disk.fs
  definition : ∀ q ∈ (definitionPath bundle).way, q.IsDir fs (root cwd into)
  absent : ∀ m ∈ documents bundle, pathExists fs (into.join m) = false

theorem names_document (hm : p ∈ documents bundle) : p.isAbsolute = true ∨ p.toPath.parts ≠ [] := by
  obtain ⟨-, before, last, hparts⟩ := ending_document hm
  exact .inr (by simp [hparts])

/-- A document all of whose places are directories is there. -/
theorem document_exists (hbase : Base cwd into fs) (hm : p ∈ documents bundle)
    (hall : ∀ q ∈ p.places, q.IsDir fs (root cwd into)) : pathExists fs (into.join p) = true := by
  rw [pathExists, PathBuf.ending_join, if_pos (ending_document hm).1]
  exact (isDirectory_of_places hbase (names_document hm) hall).1

/-- If the directory of the overlays was there, then so was every directory. -/
theorem Underway.was_dir (h : Underway cwd into fs bundle sketch disk)
    (hoverlays : fs.entry (root cwd into ++ ["overlays"]) = some .dir) {q : Place} (hinside : q.isOutside = false)
    (hdir : q.IsDir disk.fs (root cwd into)) : q.IsDir fs (root cwd into) := by
  obtain ⟨l, rfl⟩ := Place.exists_below hinside
  rw [Place.isDir_below] at hdir ⊢
  rcases h.fresh.cases hdir with hold | ⟨heq, -⟩ | ⟨-, hfile⟩
  · exact hold
  · rw [heq]
    exact hoverlays
  · cases hfile

/-- A directory in that of the overlays was there, and so was that of the overlays. -/
theorem Underway.overlays_dir (h : Underway cwd into fs bundle sketch disk) {known : List Place}
    (hknown : ∀ q ∈ known, q.IsDir disk.fs (root cwd into)) (hthere : overlaysThere bundle known = true) :
    fs.entry (root cwd into ++ ["overlays"]) = some .dir := by
  rw [overlaysThere, Bool.or_eq_true] at hthere
  rcases hthere with hway | hbelow
  · exact Place.isDir_below.mp (h.definition _ (by simpa using hway))
  · obtain ⟨q, hq, hbeneath⟩ := List.any_eq_true.mp hbelow
    obtain ⟨l, rfl, ⟨below, rfl⟩, hne⟩ := Place.exists_of_isBeneath hbeneath
    have hdir := Place.isDir_below.mp (hknown _ hq)
    have hold : fs.entry (root cwd into ++ (["overlays"] ++ below)) = some .dir := by
      rcases h.fresh.cases hdir with hold | ⟨heq, -⟩ | ⟨-, hfile⟩
      · exact hold
      · exact absurd (List.append_cancel_left heq) hne
      · cases hfile
    rw [← List.append_assoc] at hold
    have hthere : fs.entry (root cwd into ++ ["overlays"] ++ below) ≠ none := Option.ne_none_iff_exists'.mpr ⟨_, hold⟩
    refine dir_of_below hthere ?_
    rintro rfl
    exact hne (List.append_nil _)

/-- **The conflict check.** An overlay that was not there before anything was written is not there at
its turn, if that is foreseen. -/
theorem not_exists_of_foreseen (hbase : Base cwd into fs) (h : Underway cwd into fs bundle sketch disk)
    (hp : p ∈ documents bundle) (hstep : sketch.blocks (.document p) = true ∨ sketch.leaves (.document p) = false)
    (hforeseen : p.way.any sketch.files.contains = true ∨ foreseen bundle sketch p = true) :
    pathExists disk.fs (into.join p) = false := by
  have hdisk := h.fits.base hbase
  obtain ⟨hending, before, last, hparts⟩ := ending_document hp
  by_cases hfile : p.way.any sketch.files.contains = true
  · obtain ⟨q, hq, hmem⟩ := List.any_eq_true.mp hfile
    obtain ⟨l, rfl, hentry⟩ := h.fits.files q (by simpa using hmem)
    rw [pathExists, PathBuf.ending_join, if_pos hending, FileSystem.pathExists, canonicalize,
      resolve_file_in_way hdisk hq hentry]
    rfl
  have hforeseen := hforeseen.resolve_left hfile
  -- the step is blocked by no file, so that it can only be within
  have hinside : p.place.isOutside = false := by
    rcases hstep with hblocks | hstays
    · have hneeds : (Step.document p).needs.any sketch.files.contains = false := by simpa [Step.needs] using hfile
      rw [Sketch.blocks, hneeds, Bool.false_or, Bool.and_eq_true] at hblocks
      simpa using hblocks.1
    · exact hstays
  obtain ⟨l, hplace⟩ := Place.exists_below hinside
  refine Bool.eq_false_iff.mpr fun hthere => ?_
  have habsent := h.absent p hp
  rw [pathExists, PathBuf.ending_join, if_pos hending] at hthere habsent
  obtain ⟨final, hfinal⟩ := Option.isSome_iff_exists.mp hthere
  have hnonempty : (into.join p).toPath.parts ≠ [] := by
    by_cases habs : p.isAbsolute = true
    · rw [PathBuf.join_of_isAbsolute habs, hparts]
      simp
    · rw [PathBuf.parts_join (Bool.eq_false_iff.mpr habs), hparts]
      simp
  obtain ⟨follow, hwalk⟩ := @resolve_eq disk.fs false _ hnonempty
  obtain ⟨follow', hwalk'⟩ := @resolve_eq fs false _ hnonempty
  have hway := hwalk.symm.trans hfinal
  have htame : Tame cwd into (into.join p).toPath := tame_of_place hinside
  have hplain := htame.plain hdisk
  have hdirs := dirs_of_way (by rw [hdisk.here]; exact hplain) hway
  have hfrom := @from_dir disk.fs (into.join p).toPath.start
  rw [hdisk.here] at hway hdirs hfrom
  obtain ⟨hlexical, -⟩ := walkParts_plain hplain hfrom hway
  obtain rfl : final = root cwd into ++ l := hlexical.trans (root_of_place hplace)
  have hthere := (there_of_canonicalize hfinal).ne_none
  have hknown : ∀ q ∈ p.way ++ sketch.dirs, q.isOutside = false ∧ q.IsDir disk.fs (root cwd into) := by
    intro q hq
    rcases List.mem_append.mp hq with hq | hq
    · obtain ⟨l', rfl, hvisited⟩ := @way_visited cwd into p hinside q hq
      exact ⟨rfl, Place.isDir_below.mpr (hdirs _ hvisited)⟩
    · exact ⟨h.inside q hq, h.fits.dirs q hq⟩
  -- what is there and is no file of the import was there before
  have hold : p.place ∉ sketch.files → l ≠ ["overlays"] → fs.entry (root cwd into ++ l) = disk.fs.entry (root cwd into ++ l) := by
    intro hnot hne
    rcases h.fresh.entry (root cwd into ++ l) with hsame | ⟨-, entry, -, ⟨hoverlays, -⟩ | ⟨⟨l', heq, hmem⟩, -⟩⟩
    · exact hsame.symm
    · exact absurd (List.append_cancel_left hoverlays) hne
    · rw [← List.append_cancel_left heq, ← hplace] at hmem
      exact absurd hmem hnot
  have hnever : p.place ∉ sketch.files → fs.entry (root cwd into ++ ["overlays"]) ≠ some .dir := by
    intro hnot hoverlays
    have hsame : fs.entry (root cwd into ++ l) = disk.fs.entry (root cwd into ++ l) := by
      by_cases hl : l = ["overlays"]
      · rw [hl, hoverlays, h.fresh.keeps hoverlays]
      · exact hold hnot hl
    have hback : ∀ v ∈ named cwd (into.join p).toPath, disk.fs.entry v = some .dir → fs.entry v = some .dir := by
      intro v _ hdir
      rcases h.fresh.cases hdir with hold | ⟨rfl, -⟩ | ⟨-, hfile⟩
      · exact hold
      · exact hoverlays
      · cases hfile
    rw [FileSystem.pathExists, canonicalize, hwalk', hbase.here, walkParts_transfer hplain hback hsame hway] at habsent
    cases habsent
  rw [foreseen] at hforeseen
  split_ifs at hforeseen with hbefore
  · have hoverlays := h.overlays_dir (fun q hq => (hknown q hq).2) hbefore
    rw [Bool.or_eq_true] at hforeseen
    rcases hforeseen with hnew | hdocument
    · exact hnever (by simpa using hnew) hoverlays
    · obtain ⟨m, hm, hall⟩ := List.any_eq_true.mp hdocument
      have hexists := document_exists hbase hm fun q hq => by
        have hmem : q ∈ p.way ++ sketch.dirs := by simpa using List.all_eq_true.mp hall q hq
        exact h.was_dir hoverlays (hknown q hmem).1 (hknown q hmem).2
      rw [h.absent m hm] at hexists
      cases hexists
  · rw [Bool.and_eq_true, hplace, Place.isBeneath_below] at hforeseen
    obtain ⟨⟨⟨below, rfl⟩, hne⟩, hnew⟩ := hforeseen
    rw [← hplace] at hnew
    have hnot : p.place ∉ sketch.files := by simpa using hnew
    refine hnever hnot ?_
    rw [← hold hnot hne, ← List.append_assoc] at hthere
    refine dir_of_below hthere ?_
    rintro rfl
    exact hne (List.append_nil _)

theorem Fresh.after {base l : Location} {entry : Entry} (h : Fresh base sketch l entry) (step : Step) :
    Fresh base (sketch.after step) l entry := by
  rcases h with hoverlays | ⟨⟨l', hl, hmem⟩, hentry⟩
  · exact .inl hoverlays
  · refine .inr ⟨⟨l', hl, ?_⟩, hentry⟩
    cases step with
    | document p => exact List.mem_cons_of_mem _ hmem
    | directory p => exact hmem
    | placeholder p => exact hmem

/-- A document that was written adds its file and nothing else. -/
theorem fresh_written (hbase : Base cwd into fs) (hdisk : Fits cwd into fs sketch disk)
    (hfresh : Extends (Fresh (root cwd into) sketch) fs disk.fs)
    (hstep : sketch.blocks (.document p) = true ∨ sketch.leaves (.document p) = false) {fs' : FileSystem}
    {location : Location} (h : disk.fs.writeFile (into.join p).toPath = some (fs', location)) :
    Extends (Fresh (root cwd into) (sketch.after (.document p))) fs fs' ∧
      ∀ q ∈ p.way, q.isOutside = false ∧ q.IsDir disk.fs (root cwd into) := by
  have hbase' := hdisk.base hbase
  have hinside : p.place.isOutside = false := hstep.resolve_left (by simp [(write_fits hbase hstep hdisk h).1])
  obtain ⟨l, hplace⟩ := Place.exists_below hinside
  obtain ⟨hlocation, -, -, hway⟩ := written_below hbase' hplace h
  have htame : Tame cwd into (into.join p).toPath := tame_of_place hinside
  have hext := (writeFile_spec (by rw [hbase'.here]; exact htame.plain hbase') h).2.2.2
  refine ⟨(hfresh.mono fun _ _ _ hold => hold.after _).trans (hext.mono ?_), fun q hq => ⟨?_, hway q hq⟩⟩
  · rintro l' entry - ⟨rfl, rfl⟩
    exact .inr ⟨⟨l, hlocation, by rw [← hplace]; exact List.mem_cons_self ..⟩, rfl⟩
  · exact Place.not_outside_of_after hinside q (way_subset hq)

theorem ensures_definition (hbase : Base cwd into fs)
    (hstep : Sketch.empty.blocks (.document (definitionPath bundle)) = true ∨
      Sketch.empty.leaves (.document (definitionPath bundle)) = false)
    (habsent : ∀ m ∈ documents bundle, pathExists fs (into.join m) = false) :
    (write around (into.join (definitionPath bundle))).Ensures (· = ⟨fs, []⟩)
      (fun _ disk => Sketch.empty.blocks (.document (definitionPath bundle)) = false ∧
        Underway cwd into fs bundle (Sketch.empty.after (.document (definitionPath bundle))) disk) (Clean fs) := by
  rintro disk rfl
  have hfits : Fits cwd into fs Sketch.empty ⟨fs, []⟩ := ⟨⟨.refl, by simp⟩, by simp [Sketch.empty], by simp [Sketch.empty]⟩
  rw [write]
  simp only [Stateful.exec_ofFun]
  split
  · next fs' location hwrite =>
    refine ⟨fun value disk' hrun => ?_, fun error disk' hrun => ?_⟩
    · cases hrun
      split_ifs at hwrite
      obtain ⟨hfree, hafter⟩ := write_fits hbase hstep hfits hwrite
      obtain ⟨hfresh, hway⟩ := fresh_written hbase hfits .refl hstep hwrite
      refine ⟨hfree, hafter, fun q hq => ?_, hfresh, fun q hq => (hway q hq).2, habsent⟩
      exact (hway q (by simpa [Sketch.after, Sketch.empty, Step.needs] using hq)).1
    · cases hrun
  · refine ⟨fun value disk' hrun => ?_, fun error disk' hrun hconflict => ?_⟩
    · cases hrun
    · cases hrun
      cases hconflict

/-- One overlay: if that is foreseen, it is not refused now. -/
theorem ensures_overlay {entry : String × Encoding.UnplacedOverlay} (hbase : Base cwd into fs)
    (hentry : overlayPath entry.1 ∈ documents bundle)
    (hstep : sketch.blocks (.document (overlayPath entry.1)) = true ∨ sketch.leaves (.document (overlayPath entry.1)) = false)
    (hforeseen : (overlayPath entry.1).way.any sketch.files.contains = true ∨
      foreseen bundle sketch (overlayPath entry.1) = true) :
    (writeOverlay around false (into.join ⟨"overlays"⟩) entry).Ensures (Underway cwd into fs bundle sketch)
      (fun _ disk => sketch.blocks (.document (overlayPath entry.1)) = false ∧
        Underway cwd into fs bundle (sketch.after (.document (overlayPath entry.1))) disk) (Clean fs) := by
  have hpasses : (refuseExisting false (into.join (overlayPath entry.1))).Ensures (Underway cwd into fs bundle sketch)
      (fun _ => Underway cwd into fs bundle sketch) (Clean fs) := by
    intro disk hdisk
    have habsent := not_exists_of_foreseen hbase hdisk hentry hstep hforeseen
    rw [refuseExisting, Stateful.exec_ofFun, habsent]
    refine ⟨fun value disk' hrun => ?_, fun error disk' hrun => ?_⟩
    · cases hrun
      exact hdisk
    · cases hrun
  have hwrites : (write around (into.join (overlayPath entry.1))).Ensures (Underway cwd into fs bundle sketch)
      (fun _ disk => sketch.blocks (.document (overlayPath entry.1)) = false ∧
        Underway cwd into fs bundle (sketch.after (.document (overlayPath entry.1))) disk) (Clean fs) := by
    intro disk hdisk
    rw [write]
    simp only [Stateful.exec_ofFun]
    split
    · next fs' location hwrite =>
      refine ⟨fun value disk' hrun => ?_, fun error disk' hrun => ?_⟩
      · cases hrun
        split_ifs at hwrite
        obtain ⟨hfree, hafter⟩ := write_fits hbase hstep hdisk.fits hwrite
        obtain ⟨hfresh, hway⟩ := fresh_written hbase hdisk.fits hdisk.fresh hstep hwrite
        refine ⟨hfree, hafter, fun q hq => ?_, hfresh, hdisk.definition, hdisk.absent⟩
        exact (List.mem_append.mp hq).elim (fun hq => (hway q hq).1) (hdisk.inside q)
      · cases hrun
    · refine ⟨fun value disk' hrun => ?_, fun error disk' hrun hconflict => ?_⟩
      · cases hrun
      · cases hrun
        cases hconflict
  rw [writeOverlay, yamlPath_overlays]
  have hfailed : BundleErrorCode.bundleWriteFailed ≠ .bundleWriteConflict := by decide
  exact .bind hpasses fun _ => .bind (ensures_refuse hfailed _) fun _ => hwrites

theorem leaves_overlays : sketch.leaves (.directory ⟨"overlays"⟩) = false := by
  have hmakes : (Step.directory ⟨"overlays"⟩).makes = [.below ["overlays"]] := by decide
  simp [Sketch.leaves, hmakes, Place.isOutside]

/-- The directory of the overlays is all that is made for them. -/
theorem ensures_overlaysDir {rest : List Step} (hbase : Base cwd into fs)
    (hsteps : sketch.staysInside (overlaysStep bundle ++ rest) = true) :
    (createOverlaysDir around bundle (into.join ⟨"overlays"⟩)).Ensures (Underway cwd into fs bundle sketch)
      (fun _ disk => ((overlaysStep bundle).foldl Sketch.after sketch).staysInside rest = true ∧
        Underway cwd into fs bundle ((overlaysStep bundle).foldl Sketch.after sketch) disk) (Clean fs) := by
  rw [createOverlaysDir]
  rw [overlaysStep] at hsteps ⊢
  by_cases hkeys : bundle.overlays.keys = []
  · rw [if_pos hkeys] at hsteps ⊢
    rw [if_pos hkeys]
    exact .pure fun _ hdisk => ⟨hsteps, hdisk⟩
  rw [if_neg hkeys] at hsteps ⊢
  rw [if_neg hkeys]
  intro disk hdisk
  have hbase' := hdisk.fits.base hbase
  have hp : (PathBuf.mk "overlays").isAbsolute = true ∨ (PathBuf.mk "overlays").toPath.parts ≠ [] := .inr (by decide)
  obtain ⟨hvalue, -⟩ := @ensures_directory cwd into fs around ⟨"overlays"⟩ sketch hbase hp (.inr leaves_overlays) disk hdisk.fits
  have hdirs : Extends (Fresh (root cwd into) sketch) disk.fs (createDirs disk.fs (into.join ⟨"overlays"⟩)).1 := by
    have hnamed := @named_join cwd into ⟨"overlays"⟩ (by decide)
    have hending : ¬(into.join ⟨"overlays"⟩).ending = .dot := by
      rw [PathBuf.ending_join]
      decide
    have htame : Tame cwd into (into.join ⟨"overlays"⟩).toPath := tame_of_place (by decide)
    rw [createDirs, if_neg hending]
    refine (makeDirs_spec (by rw [hbase'.here]; exact htame.plain hbase') (from_dir _)).1.mono fun l entry hnone hnew => ?_
    obtain ⟨hl, hentry⟩ := hnew
    rw [hbase'.here, ← named, hnamed] at hl
    rcases List.mem_append.mp hl with hway | hl
    · rw [hbase'.dirs l hway] at hnone
      cases hnone
    · exact .inl ⟨List.mem_singleton.mp hl, hentry⟩
  refine ⟨fun value disk' hrun => ?_, fun error disk' hrun hconflict => ?_⟩
  · obtain ⟨hfree, hafter⟩ := hvalue value disk' hrun
    rw [createDirAll, Stateful.exec_ofFun] at hrun
    obtain ⟨-, rfl⟩ := Prod.mk.inj hrun
    simp only [List.singleton_append, Sketch.staysInside, hfree, Bool.false_or, Bool.and_eq_true] at hsteps
    refine ⟨hsteps.2, hafter, fun q hq => ?_, hdisk.fresh.trans hdirs, hdisk.definition, hdisk.absent⟩
    have hneeds : (Step.directory ⟨"overlays"⟩).needs = [.below ["overlays"]] := by decide
    rcases List.mem_append.mp hq with hq | hq
    · rw [hneeds] at hq
      rw [List.mem_singleton.mp hq]
      rfl
    · exact hdisk.inside q hq
  · rw [createDirAll, Stateful.exec_ofFun] at hrun
    obtain ⟨hresult, -⟩ := Prod.mk.inj hrun
    split_ifs at hresult
    cases hresult
    cases hconflict

theorem fits_empty : Fits cwd into fs Sketch.empty ⟨fs, []⟩ := ⟨⟨.refl, by simp⟩, by simp [Sketch.empty], by simp [Sketch.empty]⟩

/-- An import whose overlays from here on are foreseen. -/
def Pending (cwd : Location) (into : PathBuf) (fs : FileSystem) (bundle : PortableBundle) (steps : List Step)
    (overlays : List PathBuf) (disk : Disk) : Prop :=
  ∃ sketch, sketch.staysInside steps = true ∧ allForeseen bundle sketch overlays = true ∧
    Underway cwd into fs bundle sketch disk

theorem ensures_pending {entry : String × Encoding.UnplacedOverlay} {steps : List Step} {overlays : List PathBuf}
    (hbase : Base cwd into fs) (hentry : overlayPath entry.1 ∈ documents bundle) :
    (writeOverlay around false (into.join ⟨"overlays"⟩) entry).Ensures
      (Pending cwd into fs bundle (.document (overlayPath entry.1) :: steps) (overlayPath entry.1 :: overlays))
      (fun _ => Pending cwd into fs bundle steps overlays) (Clean fs) := by
  rintro disk ⟨sketch, hsteps, hoverlays, hdisk⟩
  rw [Sketch.staysInside, Bool.or_eq_true, Bool.and_eq_true, Bool.not_eq_true'] at hsteps
  rw [allForeseen, Bool.or_eq_true, Bool.and_eq_true] at hoverlays
  obtain ⟨hvalue, herror⟩ := @ensures_overlay _ _ _ around sketch bundle entry hbase hentry (hsteps.imp_right And.left)
    (hoverlays.imp_right And.left) disk hdisk
  refine ⟨fun value disk' hrun => ?_, herror⟩
  obtain ⟨hfree, hafter⟩ := hvalue value disk' hrun
  have hway : ¬(overlayPath entry.1).way.any sketch.files.contains = true := by
    intro hfile
    rw [Sketch.blocks, Step.needs, hfile, Bool.true_or] at hfree
    cases hfree
  refine ⟨_, (hsteps.resolve_left (by simp [hfree])).2, ?_, hafter⟩
  have hlater := (hoverlays.resolve_left hway).2
  rwa [hfree, Bool.false_or] at hlater

theorem ensures_writeInto {bundle : PortableBundle} (hbase : Base cwd into fs) (hcontained : Contained bundle) :
    (writeInto around bundle into false).Ensures (· = ⟨fs, []⟩) (fun _ _ => True) (Clean fs) := by
  obtain ⟨hinside, hforeseen⟩ := hcontained
  have hfailed : BundleErrorCode.bundleWriteFailed ≠ .bundleWriteConflict := by decide
  have hclean : ∀ (error : BundleError) (disk : Disk), error.code ≠ .bundleWriteConflict → Clean fs error disk :=
    fun _ _ hcode hconflict => absurd hconflict hcode
  rw [bundleSteps, List.singleton_append, Sketch.staysInside, Bool.or_eq_true, Bool.and_eq_true, Bool.not_eq_true'] at hinside
  rw [conflictsForeseen, Bool.or_eq_true] at hforeseen
  -- no document is there before anything is written
  have hchecks : (bundle.overlays.keys.forM fun name =>
      refuseExisting false (yamlPath (into.join ⟨"overlays"⟩) name)).Ensures (· = ⟨fs, []⟩)
      (fun _ disk => (∀ name ∈ bundle.overlays.keys, pathExists fs (into.join (overlayPath name)) = false) ∧
        disk = ⟨fs, []⟩) (Clean fs) := by
    refine (@Stateful.Ensures.forM _ _ _ _ (fun done disk =>
      (∀ name ∈ done, pathExists fs (into.join (overlayPath name)) = false) ∧ disk = ⟨fs, []⟩) _ _
      fun done name later _ => .assume fun hdone => ?_).mono (by simp) (fun _ _ h => h) fun _ _ h => h
    rw [yamlPath_overlays]
    refine ensures_refuseExisting.mono (fun _ h => h) (fun _ disk h => ⟨fun other hother => ?_, h.2⟩) fun _ _ h => h
    rcases List.mem_append.mp hother with hother | hother
    · exact hdone other hother
    · rw [List.mem_singleton.mp hother]
      exact h.1
  have hoverlays : ∀ steps, (bundle.overlays.entries.forM (writeOverlay around false (into.join ⟨"overlays"⟩))).Ensures
      (Pending cwd into fs bundle (bundle.overlays.keys.map (fun name => .document (overlayPath name)) ++ steps)
        (bundle.overlays.keys.map overlayPath))
      (fun _ _ => True) (Clean fs) := by
    intro steps
    refine (@Stateful.Ensures.forM _ _ _ _ (fun done disk => ∀ rest, bundle.overlays.entries = done ++ rest →
      Pending cwd into fs bundle (rest.map (fun entry => .document (overlayPath entry.1)) ++ steps)
        (rest.map fun entry => overlayPath entry.1) disk) _ _ fun done entry later hsplit => ?_).mono ?_
        (fun _ _ _ => trivial) fun _ _ h => h
    · have hentry : overlayPath entry.1 ∈ documents bundle := by
        refine List.mem_cons_of_mem _ (List.mem_map_of_mem (List.mem_map_of_mem ?_))
        simp [hsplit]
      refine (ensures_pending hbase hentry).mono (fun disk h => h (entry :: later) hsplit) (fun _ disk h rest hrest => ?_) fun _ _ h => h
      have heq : later = rest := by simpa [hsplit] using hrest
      rw [← heq]
      exact h
    · rintro disk h rest rfl
      simpa [SortedMap.keys, Function.comp_def] using h
  have hscaffold : Unconflicted (scaffoldRequiredInputs around into bundle.requiredLocalInputs) :=
    @Stateful.Ensures.forM _ _ _ _ (fun _ _ => True) _ _ fun _ _ _ _ => unconflicted_scaffoldInput
  rw [writeInto]
  refine .bind ensures_refuseExisting fun _ => .assume fun hdefinition => ?_
  refine .bind hchecks fun _ => .assume fun hkeys => ?_
  have habsent : ∀ m ∈ documents bundle, pathExists fs (into.join m) = false := by
    intro m hm
    rcases List.mem_cons.mp hm with rfl | hm
    · exact hdefinition
    · obtain ⟨name, hname, rfl⟩ := List.mem_map.mp hm
      exact hkeys name hname
  refine .bind (ensures_refuse hfailed _) fun _ => ?_
  refine .bind (ensures_definition hbase (hinside.imp_right And.left) habsent) fun _ => .assume fun hfree => ?_
  have hfree' : ¬Sketch.empty.blocks (.document (definitionPath bundle)) = true := by simp [hfree]
  refine .bind (ensures_overlaysDir hbase (hinside.resolve_left hfree').2) fun _ => .assume fun hsteps => ?_
  refine .bind ((hoverlays _).mono (fun disk hdisk => ⟨_, hsteps, hforeseen.resolve_left hfree', hdisk⟩) (fun _ _ h => h)
    fun _ _ h => h) fun _ => ?_
  refine .bind (hscaffold.mono (fun _ _ => trivial) (fun _ _ h => h) hclean) fun _ => ?_
  exact .bind (unconflicted_validateDefinition.mono (fun _ h => h) (fun _ _ h => h) hclean) fun _ => .pure fun _ h => h

/-- Once the directory is made, the bundle is written into it. -/
theorem exec_writeImportedBundle {force : Bool} : (writeImportedBundle around bundle into force).exec ⟨fs, []⟩ =
    if (createDirs fs into).2 = true then (writeInto around bundle into force).exec ⟨(createDirs fs into).1, []⟩
    else (.error (writeFailed around into.text), ⟨(createDirs fs into).1, []⟩) := by
  have hfirst : (createDirAll around into).exec ⟨fs, []⟩ =
      (if (createDirs fs into).2 then .ok () else .error (writeFailed around into.text), ⟨(createDirs fs into).1, []⟩) := rfl
  rw [writeImportedBundle, Stateful.exec_bind, hfirst]
  split_ifs
  · rfl
  · rfl

/-- **Containment.** -/
theorem stays {force : Bool} (hfree : LinkFree fs into) (h : Sketch.empty.staysInside (bundleSteps bundle) = true) :
    Stays fs into ((writeImportedBundle around bundle into force).exec ⟨fs, []⟩).2 := by
  rw [exec_writeImportedBundle]
  by_cases hmade : (createDirs fs into).2 = true
  · rw [if_pos hmade]
    have hbase := base_of_created hfree hmade
    have hfollows := @follows_writeInto into around _ _ force
      (.inr fun _ _ hahead => hahead.elim fun _ hfits => hfits.2.kept) (fun _ => follows_run hbase) bundle []
    rw [List.append_nil] at hfollows
    have hkept : Kept fs.cwd into (createDirs fs into).1 ((writeInto around bundle into force).exec ⟨(createDirs fs into).1, []⟩).2 := by
      obtain ⟨hvalue, herror⟩ := hfollows ⟨_, []⟩ ⟨_, h, fits_empty⟩
      rcases hrun : (writeInto around bundle into force).exec ⟨(createDirs fs into).1, []⟩ with ⟨error | value, disk⟩
      · exact herror error disk hrun
      · obtain ⟨_, -, hfits⟩ := hvalue value disk hrun
        exact hfits.kept
    obtain ⟨hext, hwritten⟩ := hkept
    refine ⟨fun l hl => ?_, hwritten⟩
    rcases hext.entry l with hsame | ⟨-, entry, -, hbeneath, -⟩
    · exact absurd hsame hl
    · exact hbeneath
  · rw [if_neg hmade]
    exact ⟨fun l hl => absurd rfl hl, by simp⟩

/-- **Conflicts.** If they are foreseen, a conflict leaves nothing behind. -/
theorem allOrNothing (hfree : LinkFree fs into) (h : Contained bundle) :
    AllOrNothing fs into ((writeImportedBundle around bundle into false).exec ⟨fs, []⟩) := by
  intro error herror hconflict
  rw [exec_writeImportedBundle] at herror ⊢
  by_cases hmade : (createDirs fs into).2 = true
  · rw [if_pos hmade] at herror ⊢
    obtain ⟨-, hrun⟩ := @ensures_writeInto _ _ _ around _ (base_of_created hfree hmade) h ⟨(createDirs fs into).1, []⟩ rfl
    rcases hresult : (writeInto around bundle into false).exec ⟨(createDirs fs into).1, []⟩ with ⟨error' | value, disk⟩
    · simp only [hresult] at herror ⊢
      cases herror
      exact hrun error disk hresult hconflict
    · simp only [hresult] at herror
      cases herror
  · rw [if_neg hmade]

end

end Import

end Planner

end Apmpr
