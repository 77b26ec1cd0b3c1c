import Apmpr.Lib.FileSystem
import Apmpr.Lib.Stateful
import Apmpr.Planner.Portable

/-!
# Importing a bundle

`write_imported_bundle` and `scaffold_required_inputs` of the crate `apmpr-planner`: the
definition and the overlays of a bundle are written below a directory, and placeholders are
made for the inputs the receiver is to provide. The names of all these are texts of the bundle
that are joined to the directory as paths. Without `force` nothing is to be overwritten, and
every destination is checked before anything is written.

A path is what its parts are, and how its text ends: what ends with a separator or a dot can
only be a directory. What the system says of a path it cannot write, and what loading and
planning say of the written definition, is the surroundings of an import.

`Stays` and `AllOrNothing` are what an import is to keep.

## What is proved

* `PathBuf.parts_join`, `PathBuf.join_join`: joining texts is joining what their parts are.
* `base_of_created`: once the directory is made without links, it is there.
* `unconflicted_scaffoldInput`: only documents are refused for a conflict.
-/

namespace Apmpr

/-! ### Texts as paths -/

namespace PathBuf

/-- A component as a part. -/
def Component.part : Component → Option PathPart
  | .rootDir | .curDir => none
  | .parentDir => some .up
  | .normal name => some (.name name)

/-- Where a text starts, and the parts it names. -/
def toPath (p : PathBuf) : Path :=
  ⟨match p.components.head? with
    | some .rootDir => .root
    | some .curDir => .dot
    | _ => .bare,
    p.components.filterMap Component.part⟩

/-- What a text ends with after its last part. -/
inductive Ending where
  | part
  | separator
  | dot
  deriving DecidableEq

/-- How a text ends. -/
def ending (p : PathBuf) : Ending :=
  let last := (Text.split '/' p.text).getLast?
  if last = some "" then .separator else if last = some "." then .dot else .part

/-- The part a piece of a text is. -/
def pieceOf (piece : String) : Option PathPart := (component piece).bind Component.part

theorem toPath_parts (p : PathBuf) : p.toPath.parts = (Text.split '/' p.text).filterMap pieceOf := by
  have hparts : ((Text.split '/' p.text).filterMap component).filterMap Component.part =
      (Text.split '/' p.text).filterMap pieceOf := List.filterMap_filterMap ..
  rw [toPath, components, ← hparts]
  split_ifs <;> rfl

/-- Only an absolute path starts at the root. -/
theorem start_toPath (p : PathBuf) : p.toPath.start = .root ↔ p.isAbsolute = true := by
  rw [toPath, components, isAbsolute]
  by_cases hroot : Text.startsWith p.text "/" = true
  · rw [if_pos hroot]
    simp [hroot]
  · rw [if_neg hroot]
    by_cases hdot : (Text.split '/' p.text).head? = some "."
    · rw [if_pos hdot]
      simp [hroot]
    · rw [if_neg hdot]
      cases hhead : ((Text.split '/' p.text).filterMap component).head? with
      | none => simp [hroot]
      | some first =>
        obtain ⟨piece, -, hpiece⟩ := List.mem_filterMap.mp (List.mem_of_head? hhead)
        rw [component] at hpiece
        split_ifs at hpiece
        · obtain rfl := Option.some.inj hpiece
          simp [hroot]
        · obtain rfl := Option.some.inj hpiece
          simp [hroot]

theorem from_toPath (p : PathBuf) (location : Location) :
    p.toPath.start.from location = if p.isAbsolute then [] else location := by
  by_cases h : p.isAbsolute = true
  · rw [(start_toPath p).mpr h, if_pos h]
    rfl
  · rw [if_neg h]
    cases hstart : p.toPath.start with
    | root => exact absurd ((start_toPath p).mp hstart) h
    | dot => rfl
    | bare => rfl

theorem join_of_isAbsolute {base p : PathBuf} (h : p.isAbsolute = true) : base.join p = p := if_pos h

/-- A relative path is put after its base and a separator, if there is something before it. -/
theorem join_text (base : PathBuf) {p : PathBuf} (h : p.isAbsolute = false) :
    base.text = "" ∧ (base.join p).text = p.text ∨
      ∃ before, (base.text.toList = before ∨ base.text.toList = before ++ ['/']) ∧ base.text ≠ "" ∧
        (base.join p).text.toList = before ++ '/' :: p.text.toList := by
  rw [join, if_neg (by simp [h])]
  by_cases hempty : base.text = ""
  · exact .inl ⟨hempty, by simp [hempty]⟩
  · refine .inr ?_
    by_cases hend : Text.endsWith base.text "/" = true
    · obtain ⟨before, hbefore⟩ := List.isSuffixOf_iff_suffix.mp hend
      have hbase : base.text.toList = before ++ ['/'] := hbefore.symm
      refine ⟨before, .inr hbase, hempty, ?_⟩
      rw [if_pos (.inr hend), String.toList_append, hbase, List.append_assoc]
      rfl
    · refine ⟨base.text.toList, .inl rfl, hempty, ?_⟩
      rw [if_neg (by simp [hempty, hend])]
      simp

theorem isAbsolute_join_of_relative {base p : PathBuf} (h : p.isAbsolute = false) :
    (base.join p).isAbsolute = base.isAbsolute := by
  rcases join_text base h with ⟨hempty, htext⟩ | ⟨before, hbefore, hne, htext⟩
  · rw [isAbsolute, htext, ← isAbsolute, h, isAbsolute, hempty]
    rfl
  · rw [isAbsolute, isAbsolute, Text.startsWith, Text.startsWith, htext]
    have hslash : "/".toList = ['/'] := rfl
    rw [hslash]
    rcases hbefore with hbefore | hbefore
    · rw [hbefore]
      cases before with
      | nil => exact absurd (String.toList_eq_nil_iff.mp hbefore) hne
      | cons c before => simp [List.isPrefixOf]
    · rw [hbefore]
      cases before <;> simp [List.isPrefixOf]

/-- The parts of a relative path come after those of its base. -/
theorem parts_join {base p : PathBuf} (h : p.isAbsolute = false) :
    (base.join p).toPath.parts = base.toPath.parts ++ p.toPath.parts := by
  rw [toPath_parts, toPath_parts, toPath_parts]
  rcases join_text base h with ⟨hempty, htext⟩ | ⟨before, hbefore, -, htext⟩
  · have hnone : (Text.split '/' base.text).filterMap pieceOf = [] := by rw [hempty]; rfl
    rw [htext, hnone, List.nil_append]
  · rw [Text.split, htext, Text.splitChars_append_cons, List.map_append, List.filterMap_append]
    rcases hbefore with hbefore | hbefore
    · rw [← hbefore]
      rfl
    · have hbase : Text.split '/' base.text = (Text.splitChars '/' before).map String.ofList ++ [""] := by
        rw [Text.split, hbefore, Text.splitChars_append_cons, List.map_append]
        rfl
      rw [hbase, List.filterMap_append]
      have hlast : [""].filterMap pieceOf = [] := rfl
      rw [hlast, List.append_nil]
      rfl

/-- How a path ends does not depend on what it is joined to. -/
theorem ending_join (base p : PathBuf) : (base.join p).ending = p.ending := by
  by_cases h : p.isAbsolute = true
  · rw [join_of_isAbsolute h]
  rcases join_text base (Bool.eq_false_iff.mpr h) with ⟨-, htext⟩ | ⟨before, -, -, htext⟩
  · rw [ending, ending, htext]
  · have hlast : (Text.split '/' (base.join p).text).getLast? = (Text.split '/' p.text).getLast? := by
      rw [Text.split, htext, Text.splitChars_append_cons, List.map_append, List.getLast?_append_of_ne_nil]
      · rfl
      · simpa using Text.splitChars_ne_nil '/' p.text.toList
    rw [ending, ending, hlast]

/-- Joining twice is joining what was joined. -/
theorem join_join {base p q : PathBuf} (hp : p.text ≠ "") : (base.join p).join q = base.join (p.join q) := by
  by_cases hq : q.isAbsolute = true
  · rw [join_of_isAbsolute hq, join_of_isAbsolute hq, join_of_isAbsolute hq]
  by_cases habs : p.isAbsolute = true
  · rw [join_of_isAbsolute habs, join_of_isAbsolute (isAbsolute_join habs q)]
  have hq' := Bool.eq_false_iff.mpr hq
  have habs' := Bool.eq_false_iff.mpr habs
  have hinner : (p.join q).isAbsolute = false := by rw [isAbsolute_join_of_relative hq', habs']
  obtain ⟨before, hbefore⟩ : ∃ before, ∀ r : PathBuf, r.isAbsolute = false → base.join r = ⟨before ++ r.text⟩ := by
    by_cases hend : base.text = "" ∨ Text.endsWith base.text "/" = true
    · exact ⟨base.text, fun r hr => by rw [join, if_neg (by simp [hr]), if_pos hend]⟩
    · exact ⟨base.text ++ "/", fun r hr => by rw [join, if_neg (by simp [hr]), if_neg hend]⟩
  have hne : before ++ p.text ≠ "" := fun hempty => hp (String.append_eq_empty_iff.mp hempty).2
  have hend : Text.endsWith (before ++ p.text) "/" = Text.endsWith p.text "/" := by
    have hslash : "/".toList = ['/'] := rfl
    rcases List.eq_nil_or_concat p.text.toList with hnil | ⟨chars, c, hchars⟩
    · exact absurd (String.toList_eq_nil_iff.mp hnil) hp
    · rw [Text.endsWith, Text.endsWith, hslash, String.toList_append, hchars, Bool.eq_iff_iff,
        List.isSuffixOf_iff_suffix, List.isSuffixOf_iff_suffix]
      simp [List.singleton_suffix_iff_getLast?_eq_some]
  have hjoin : ∀ r : PathBuf, r.text ≠ "" →
      r.join q = if Text.endsWith r.text "/" then ⟨r.text ++ q.text⟩ else ⟨r.text ++ "/" ++ q.text⟩ := by
    intro r hr
    rw [join, if_neg (by simp [hq'])]
    simp only [hr, false_or]
  rw [hbefore _ habs', hbefore _ hinner, hjoin _ hne, hjoin _ hp, hend]
  split_ifs
  · simp [String.append_assoc]
  · simp [String.append_assoc]

end PathBuf

namespace Planner

namespace Import

open FileSystem

/-! ### The importer -/

/-- The file system, and the files that have been written, the last one first. -/
structure Disk where
  fs : FileSystem
  written : List Location

/-- What is not the importer's own: what the system says of a path it cannot write, why a
document is no YAML, and what is wrong with the definition that was written. -/
structure Surroundings where
  refusal : String → String
  deploymentYaml : Document → Option String
  overlayYaml : Encoding.UnplacedOverlay → Option String
  invalid : FileSystem → PathBuf → Option String

/-- `ImportBundleResult`. -/
structure ImportBundleResult where
  deploymentName : String
  definitionPath : PathBuf
  overlayPaths : List PathBuf
  requiredLocalInputs : List RequiredLocalInput

/-- A step of the import. -/
abbrev Importing (α : Type) := Stateful Disk BundleError α

/-- Whether there is a directory at a path. -/
def isDirectory (fs : FileSystem) (path : Path) : Bool :=
  match fs.canonicalize path with
  | some location => fs.entry location = some .dir
  | none => false

/-- `exists`. -/
def pathExists (fs : FileSystem) (p : PathBuf) : Bool :=
  if p.ending = .part then fs.pathExists p.toPath else isDirectory fs p.toPath

/-- `create_dir_all`: what ends with a dot is not made itself. -/
def createDirs (fs : FileSystem) (p : PathBuf) : FileSystem × Bool :=
  if p.ending = .dot then
    match p.toPath.parent with
    | none => (fs, isDirectory fs p.toPath)
    | some parent =>
      let made := fs.createDirAll parent
      (made.1, made.2 && isDirectory made.1 p.toPath)
  else fs.createDirAll p.toPath

section
variable (around : Surroundings)

/-- A path that could not be written. -/
def writeFailed (text : String) : BundleError := ⟨.bundleWriteFailed, text, around.refusal text⟩

/-- `create_dir_all`, as a step. -/
def createDirAll (p : PathBuf) : Importing Unit := .ofFun fun disk =>
  let made := createDirs disk.fs p
  (if made.2 then .ok () else .error (writeFailed around p.text), { disk with fs := made.1 })

/-- `create_dir_all` of the parent, if there is one. -/
def createParent (p : PathBuf) : Importing Unit := .ofFun fun disk =>
  match p.toPath.parent with
  | none => (.ok (), disk)
  | some parent =>
    let made := disk.fs.createDirAll parent
    (if made.2 then .ok () else .error (writeFailed around parent.display), { disk with fs := made.1 })

/-- `write_conflict`. -/
def writeConflict (p : PathBuf) : BundleError :=
  ⟨.bundleWriteConflict, p.text, "refusing to overwrite existing file without --force"⟩

/-- The refusal of a path where something is, without `force`. -/
def refuseExisting (force : Bool) (p : PathBuf) : Importing Unit := .ofFun fun disk =>
  (if !force && pathExists disk.fs p then .error (writeConflict p) else .ok (), disk)

/-- `write`. -/
def write (p : PathBuf) : Importing Unit := .ofFun fun disk =>
  match if p.ending = .part then disk.fs.writeFile p.toPath else none with
  | some (fs, location) => (.ok (), ⟨fs, location :: disk.written⟩)
  | none => (.error (writeFailed around p.text), disk)

/-- An empty file, where there is nothing. -/
def writeMissing (p : PathBuf) : Importing Unit := do
  createParent around p
  .ofFun fun disk => if pathExists disk.fs p then (.ok (), disk) else (write around p).exec disk

/-- A document that is refused for what is said of it. -/
def refuse (code : BundleErrorCode) (p : PathBuf) : Option String → Importing Unit
  | none => pure ()
  | some message => throw ⟨code, p.text, message⟩

/-- `is_file_like`: there is a dot in the name, and something before it. -/
def isFileLike (p : PathBuf) : Bool :=
  match p.fileName with
  | some name => name.toList.tail.contains '.'
  | none => false

/-- The root of an input. -/
def inputRoot (base : PathBuf) (input : RequiredLocalInput) : PathBuf :=
  (base.join ⟨"required-local-inputs"⟩).join ⟨input.name⟩

/-- The placeholder of an input itself. -/
def scaffoldRoot (root : PathBuf) : RequiredLocalInputKind → Importing Unit
  | .sourceDirectory => createDirAll around root
  | .file | .dotenvFile => writeMissing around root
  | .environmentValue | .parameterValue => pure ()

/-- The placeholder of a path of an input. -/
def scaffoldPath (root relative : PathBuf) : Importing Unit :=
  let path := root.join relative
  if isFileLike relative then writeMissing around path else createDirAll around path

/-- The file of a document in a directory. -/
def yamlPath (dir : PathBuf) (name : String) : PathBuf := dir.join ⟨s!"{name}.yaml"⟩

/-- The directory of the overlays is made where there are some. -/
def createOverlaysDir (bundle : PortableBundle) (dir : PathBuf) : Importing Unit :=
  if bundle.overlays.keys = [] then pure () else createDirAll around dir

/-- The overlay of a bundle, written. -/
def writeOverlay (force : Bool) (dir : PathBuf) (entry : String × Encoding.UnplacedOverlay) : Importing Unit := do
  let path := yamlPath dir entry.1
  refuseExisting force path
  refuse .bundleWriteFailed path (around.overlayYaml entry.2)
  write around path

/-- The definition that was written, loaded and planned. -/
def validateDefinition (p : PathBuf) : Importing Unit := .ofFun fun disk =>
  (refuse .bundleValidationFailed p (around.invalid disk.fs p)).exec disk

/-- The placeholders of an input. -/
def scaffoldInput (into : PathBuf) (input : RequiredLocalInput) : Importing Unit := do
  let root := inputRoot into input
  scaffoldRoot around root input.kind
  input.scaffoldPaths.forM (scaffoldPath around root)

/-- `scaffold_required_inputs`. -/
def scaffoldRequiredInputs (into : PathBuf) (inputs : List RequiredLocalInput) : Importing Unit :=
  inputs.forM (scaffoldInput around into)

/-- What is written once the directory is there. -/
def writeInto (bundle : PortableBundle) (into : PathBuf) (force : Bool) : Importing ImportBundleResult := do
  let deploymentName := bundle.deployment.metadata.name
  let definitionPath := yamlPath into deploymentName
  let overlaysDir := into.join ⟨"overlays"⟩
  -- every destination is checked before anything is written
  refuseExisting force definitionPath
  bundle.overlays.keys.forM fun name => refuseExisting force (yamlPath overlaysDir name)
  refuse .bundleWriteFailed definitionPath (around.deploymentYaml bundle.deployment)
  write around definitionPath
  createOverlaysDir around bundle overlaysDir
  bundle.overlays.entries.forM (writeOverlay around force overlaysDir)
  scaffoldRequiredInputs around into bundle.requiredLocalInputs
  validateDefinition around definitionPath
  return ⟨deploymentName, definitionPath, bundle.overlays.keys.map (yamlPath overlaysDir), bundle.requiredLocalInputs⟩

/-- `write_imported_bundle`. -/
def writeImportedBundle (bundle : PortableBundle) (into : PathBuf) (force : Bool) : Importing ImportBundleResult := do
  createDirAll around into
  writeInto around bundle into force

end

/-! ### What an import is to keep -/

/-- Where a directory is, if there are no links on the way. -/
def root (cwd : Location) (into : PathBuf) : Location := lexical (into.toPath.start.from cwd) into.toPath.parts

/-- What a path names on its way. -/
def named (cwd : Location) (path : Path) : List Location := visited (path.start.from cwd) path.parts

/-- There are no links on the way to a directory, and none in it. -/
structure LinkFree (fs : FileSystem) (into : PathBuf) : Prop where
  way : ∀ l ∈ named fs.cwd into.toPath, ∀ target, fs.entry l ≠ some (.link target)
  inside : ∀ l, root fs.cwd into <+: l → ∀ target, fs.entry l ≠ some (.link target)

/-- Whatever has changed since the directory itself was made is strictly beneath it, and so are
the files that were written. -/
def Stays (fs : FileSystem) (into : PathBuf) (disk : Disk) : Prop :=
  (∀ l, disk.fs.entry l ≠ (createDirs fs into).1.entry l → Beneath (root fs.cwd into) l) ∧
    ∀ l ∈ disk.written, Beneath (root fs.cwd into) l

/-- A conflict leaves nothing behind but the directory itself. -/
def AllOrNothing (fs : FileSystem) (into : PathBuf) (result : Except BundleError ImportBundleResult × Disk) : Prop :=
  ∀ error, result.1 = .error error → error.code = .bundleWriteConflict → result.2 = ⟨(createDirs fs into).1, []⟩

/-- The path of the definition, seen from the directory. -/
def definitionPath (bundle : PortableBundle) : PathBuf := ⟨s!"{bundle.deployment.metadata.name}.yaml"⟩

/-- The path of an overlay, seen from the directory. -/
def overlayPath (name : String) : PathBuf := yamlPath ⟨"overlays"⟩ name

/-! ### The directory -/

section
variable {cwd : Location} {into : PathBuf} {fs fs' : FileSystem}

/-- Something new in a directory, no link. -/
def Inside (cwd : Location) (into : PathBuf) (l : Location) (entry : Entry) : Prop :=
  Beneath (root cwd into) l ∧ ∀ target, entry ≠ .link target

/-- A directory is there, and no links are in it. -/
structure Base (cwd : Location) (into : PathBuf) (fs : FileSystem) : Prop where
  here : fs.cwd = cwd
  dirs : ∀ l ∈ named cwd into.toPath, fs.entry l = some .dir
  plain : ∀ l, root cwd into <+: l → ∀ target, fs.entry l ≠ some (.link target)

theorem Base.extends (h : Base cwd into fs) (hext : Extends (Inside cwd into) fs fs') : Base cwd into fs' := by
  refine ⟨hext.cwd.trans h.here, fun l hl => hext.keeps (h.dirs l hl), fun l hl target hlink => ?_⟩
  rcases hext.cases hlink with hold | ⟨-, hnew⟩
  · exact h.plain l hl target hold
  · exact hnew target rfl

theorem Base.root_dir (h : Base cwd into fs) : fs.entry (root cwd into) = some .dir := by
  have hfrom : fs.entry (into.toPath.start.from cwd) = some .dir := by
    rw [← h.here]
    exact from_dir _
  exact lexical_dir hfrom h.dirs

/-- A path names what is on the way to the directory, or in it. -/
def Tame (cwd : Location) (into : PathBuf) (path : Path) : Prop :=
  ∀ l ∈ named cwd path, l ∈ named cwd into.toPath ∨ Beneath (root cwd into) l

theorem Tame.parent {path parent : Path} (h : Tame cwd into path) (hparent : path.parent = some parent) :
    Tame cwd into parent := fun l hl => h l (mem_visited_of_dropLast (visited_parent hparent hl))

theorem Tame.plain {path : Path} (htame : Tame cwd into path) (hbase : Base cwd into fs) :
    ∀ l ∈ named cwd path, ∀ target, fs.entry l ≠ some (.link target) := by
  intro l hl target hlink
  rcases htame l hl with hway | hbeneath
  · rw [hbase.dirs l hway] at hlink
    cases hlink
  · exact hbase.plain l hbeneath.1 target hlink

/-- A relative path goes on from the directory. -/
theorem named_join {p : PathBuf} (h : p.isAbsolute = false) :
    named cwd (into.join p).toPath = named cwd into.toPath ++ visited (root cwd into) p.toPath.parts := by
  rw [named, PathBuf.parts_join h, visited_append, PathBuf.from_toPath, PathBuf.isAbsolute_join_of_relative h,
    ← PathBuf.from_toPath]
  rfl

theorem writeFile_inside {path : Path} {location : Location} (hbase : Base cwd into fs) (htame : Tame cwd into path)
    (h : fs.writeFile path = some (fs', location)) :
    Extends (Inside cwd into) fs fs' ∧ Beneath (root cwd into) location := by
  obtain rfl := hbase.here
  obtain ⟨-, hmem, hdir, hext⟩ := writeFile_spec (htame.plain hbase) h
  have hbeneath := (htame location hmem).resolve_left fun hway => hdir (hbase.dirs location hway)
  refine ⟨hext.mono fun l entry _ hnew => ?_, hbeneath⟩
  obtain ⟨rfl, rfl⟩ := hnew
  exact ⟨hbeneath, nofun⟩

/-- What an import keeps once the directory is there. -/
def Kept (cwd : Location) (into : PathBuf) (fs : FileSystem) (disk : Disk) : Prop :=
  Extends (Inside cwd into) fs disk.fs ∧ ∀ l ∈ disk.written, Beneath (root cwd into) l

variable {around : Surroundings} {p : PathBuf}

theorem inputRoot_eq (input : RequiredLocalInput) : inputRoot into input = into.join (inputRoot ⟨""⟩ input) := by
  have hbase : (⟨""⟩ : PathBuf).join ⟨"required-local-inputs"⟩ = ⟨"required-local-inputs"⟩ := by decide
  rw [inputRoot, inputRoot, hbase]
  exact PathBuf.join_join (by simp)

theorem inputRoot_text_ne (input : RequiredLocalInput) : (inputRoot ⟨""⟩ input).text ≠ "" := by
  have hbase : (⟨""⟩ : PathBuf).join ⟨"required-local-inputs"⟩ = ⟨"required-local-inputs"⟩ := by decide
  rw [inputRoot, hbase, PathBuf.join]
  split_ifs with habs
  · intro hempty
    rw [PathBuf.isAbsolute, hempty] at habs
    cases habs
  · simp
  · simp

/-- The place of an overlay. -/
theorem yamlPath_overlays (name : String) : yamlPath (into.join ⟨"overlays"⟩) name = into.join (overlayPath name) :=
  PathBuf.join_join (by simp)

/-- Where no links are named and there is a directory at the end, all that is named is one. -/
theorem dirs_of_isDirectory {path : Path} (hplain : ∀ l ∈ named fs.cwd path, ∀ target, fs.entry l ≠ some (.link target))
    (h : isDirectory fs path = true) : ∀ l ∈ named fs.cwd path, fs.entry l = some .dir := by
  by_cases hnil : path.parts = []
  · intro l hl
    rw [named, hnil] at hl
    cases hl
  · rw [isDirectory] at h
    cases hfinal : fs.canonicalize path with
    | none =>
      rw [hfinal] at h
      cases h
    | some final =>
      simp only [hfinal, decide_eq_true_eq] at h
      obtain ⟨follow, hwalk⟩ := @resolve_eq fs false path hnil
      exact dirs_of_walkParts hplain (hwalk.symm.trans hfinal) h

/-- Once the directory is made without links, it is there. -/
theorem base_of_created (hfree : LinkFree fs into) (h : (createDirs fs into).2 = true) :
    Base fs.cwd into (createDirs fs into).1 := by
  suffices hspec : Extends (fun _ entry => entry = .dir) fs (createDirs fs into).1 ∧
      ∀ l ∈ named fs.cwd into.toPath, (createDirs fs into).1.entry l = some .dir by
    obtain ⟨hext, hdirs⟩ := hspec
    refine ⟨hext.cwd, hdirs, fun l hl target hlink => ?_⟩
    rcases hext.cases hlink with hold | hnew
    · exact hfree.inside l hl target hold
    · cases hnew
  have hmade : ∀ path : Path, (∀ l ∈ named fs.cwd path, l ∈ named fs.cwd into.toPath) →
      Extends (fun _ entry => entry = .dir) fs (fs.createDirAll path).1 := by
    intro path hnames
    obtain ⟨hext, -⟩ := makeDirs_spec (fun l hl => hfree.way l (hnames l hl)) (from_dir path.start)
    exact hext.mono fun _ _ _ hnew => hnew.2
  rw [createDirs] at h ⊢
  split_ifs at h ⊢ with hdot
  · cases hparent : into.toPath.parent with
    | none =>
      rw [hparent] at h
      exact ⟨.refl, dirs_of_isDirectory hfree.way h⟩
    | some parent =>
      simp only [hparent, Bool.and_eq_true] at h
      have hext := hmade parent fun l hl => mem_visited_of_dropLast (visited_parent hparent hl)
      refine ⟨hext, ?_⟩
      have hstill : ∀ l ∈ named fs.cwd into.toPath, ∀ target, (fs.createDirAll parent).1.entry l ≠ some (.link target) := by
        intro l hl target hlink
        rcases hext.cases hlink with hold | hnew
        · exact hfree.way l hl target hold
        · cases hnew
      rw [← hext.cwd] at hstill ⊢
      exact dirs_of_isDirectory hstill h.2
  · exact ⟨hmade _ fun l hl => hl, (makeDirs_spec hfree.way (from_dir into.toPath.start)).2 h⟩

/-- A document's text ends with a name. -/
theorem parts_yaml (name : String) :
    (∃ before last, (PathBuf.toPath ⟨s!"{name}.yaml"⟩).parts = before ++ [.name last] ∧ Text.endsWith last ".yaml" = true) ∧
      PathBuf.ending ⟨s!"{name}.yaml"⟩ = .part := by
  obtain ⟨before, last, hsplit⟩ := @Text.splitChars_append_last '/' ".yaml".toList (by decide) name.toList
  have hpieces : Text.split '/' s!"{name}.yaml" = before.map String.ofList ++ [String.ofList (last ++ ".yaml".toList)] := by
    have htext : s!"{name}.yaml".toList = name.toList ++ ".yaml".toList := String.toList_append
    rw [Text.split, htext, hsplit, List.map_append, List.map_singleton]
  have hne : ∀ s : String, s.toList.length < 5 → String.ofList (last ++ ".yaml".toList) ≠ s := by
    rintro s hs rfl
    rw [String.toList_ofList, List.length_append] at hs
    have hyaml : ".yaml".toList.length = 5 := rfl
    omega
  have hempty := hne "" (by decide)
  have hdot := hne "." (by decide)
  have hup := hne ".." (by decide)
  constructor
  · refine ⟨(before.map String.ofList).filterMap PathBuf.pieceOf, String.ofList (last ++ ".yaml".toList), ?_, ?_⟩
    · rw [PathBuf.toPath_parts, hpieces, List.filterMap_append]
      have hpiece : PathBuf.pieceOf (String.ofList (last ++ ".yaml".toList)) = some (.name (String.ofList (last ++ ".yaml".toList))) := by
        rw [PathBuf.pieceOf, PathBuf.component, if_neg (not_or.mpr ⟨hempty, hdot⟩), if_neg hup]
        rfl
      rw [List.filterMap_cons_some hpiece, List.filterMap_nil]
    · exact List.isSuffixOf_iff_suffix.mpr ⟨last, String.toList_ofList.symm⟩
  · simp only [PathBuf.ending, hpieces, List.getLast?_concat, Option.some.injEq, hempty, hdot, if_false]

/-! ### Errors -/

/-- An error that is no conflict, or comes before anything is written. -/
def Clean (fs : FileSystem) (error : BundleError) (disk : Disk) : Prop :=
  error.code = .bundleWriteConflict → disk = ⟨fs, []⟩

theorem ensures_refuse {holds : Disk → Prop} {code : BundleErrorCode} (hcode : code ≠ .bundleWriteConflict)
    (message : Option String) : (refuse code p message).Ensures holds (fun _ => holds) (Clean fs) := by
  cases message with
  | none => exact .pure fun _ h => h
  | some message =>
    intro disk _
    refine ⟨fun value disk' hrun => ?_, fun error disk' hrun hconflict => ?_⟩
    · cases hrun
    · cases hrun
      exact absurd hconflict hcode

/-- Before anything is written a conflict leaves nothing behind. -/
theorem ensures_refuseExisting :
    (refuseExisting false p).Ensures (· = ⟨fs, []⟩) (fun _ disk => pathExists fs p = false ∧ disk = ⟨fs, []⟩) (Clean fs) := by
  rintro disk rfl
  refine ⟨fun value disk' hrun => ?_, fun error disk' hrun _ => ?_⟩
  · rw [refuseExisting, Stateful.exec_ofFun] at hrun
    obtain ⟨hresult, rfl⟩ := Prod.mk.inj hrun
    refine ⟨?_, rfl⟩
    split_ifs at hresult with hcheck
    simpa using hcheck
  · exact (Prod.mk.inj hrun).2.symm

/-- A step that is refused for no conflict. -/
def Unconflicted {α : Type} (m : Importing α) : Prop :=
  m.Ensures (fun _ => True) (fun _ _ => True) fun error _ => error.code ≠ .bundleWriteConflict

theorem unconflicted_ofFun {f : Disk → Except BundleError Unit × Disk}
    (h : ∀ disk error, (f disk).1 = .error error → error.code ≠ .bundleWriteConflict) : Unconflicted (.ofFun f) := by
  refine fun disk _ => ⟨fun _ _ _ => trivial, fun error disk' hrun => h disk error ?_⟩
  rw [Stateful.exec_ofFun] at hrun
  rw [hrun]

theorem unconflicted_createDirAll : Unconflicted (createDirAll around p) := by
  refine unconflicted_ofFun fun disk error herror => ?_
  dsimp only at herror
  split_ifs at herror
  cases herror
  exact nofun

theorem write_error {disk : Disk} {error : BundleError} (h : ((write around p).exec disk).1 = .error error) :
    error.code ≠ .bundleWriteConflict := by
  rw [write, Stateful.exec_ofFun] at h
  split at h
  · cases h
  · cases h
    exact nofun

theorem unconflicted_writeMissing : Unconflicted (writeMissing around p) := by
  have hparent : Unconflicted (createParent around p) := by
    refine unconflicted_ofFun fun disk error herror => ?_
    cases hparent : p.toPath.parent with
    | none =>
      rw [hparent] at herror
      cases herror
    | some parent =>
      rw [hparent] at herror
      dsimp only at herror
      split_ifs at herror
      cases herror
      exact nofun
  refine .bind hparent fun _ => unconflicted_ofFun fun disk error herror => ?_
  split_ifs at herror
  exact write_error herror

theorem unconflicted_scaffoldInput {input : RequiredLocalInput} : Unconflicted (scaffoldInput around into input) := by
  have hroot : Unconflicted (scaffoldRoot around (inputRoot into input) input.kind) := by
    cases input.kind with
    | sourceDirectory => exact unconflicted_createDirAll
    | file => exact unconflicted_writeMissing
    | dotenvFile => exact unconflicted_writeMissing
    | environmentValue => exact .pure fun _ _ => trivial
    | parameterValue => exact .pure fun _ _ => trivial
  have hpath : ∀ relative, Unconflicted (scaffoldPath around (inputRoot into input) relative) := by
    intro relative
    rw [scaffoldPath]
    exact .ite (fun _ => unconflicted_writeMissing) fun _ => unconflicted_createDirAll
  exact .bind hroot fun _ => @Stateful.Ensures.forM _ _ _ _ (fun _ _ => True) _ _ fun _ relative _ _ => hpath relative

theorem unconflicted_validateDefinition : Unconflicted (validateDefinition around p) := by
  refine unconflicted_ofFun fun disk error herror => ?_
  cases hinvalid : around.invalid disk.fs p with
  | none =>
    rw [hinvalid] at herror
    cases herror
  | some message =>
    rw [hinvalid] at herror
    cases herror
    exact nofun

end

end Import

end Planner

end Apmpr
