import Apmpr.Lib.Landscape
import Apmpr.Planner.ImportSteps

/-!
# Where an import leaves the directory

A step that leaves the directory does so in some file system: the places that it and the steps
before it need are directories there, and what it makes outside is missing. All steps before it
are harmless there, whatever else they make, so that the import comes to it.

## What is proved

* `Along.run`: a harmless step does not fail, and changes nothing outside.
* `Along.fatal`: a step that leaves puts something outside; `Escaped.of_run`: there it stays.
* `exists_fatal`: a landscape for the first step that leaves.
* `exists_not_stays`: a bundle with such a step leaves the directory somewhere.
-/

namespace Apmpr

namespace Planner

namespace Import

open FileSystem

/-! ### Writing into a landscape -/

/-- The directory of a landscape, as a path: its working directory. -/
def here : PathBuf := ⟨"."⟩

theorem root_here (cwd : Location) : root cwd here = cwd := by
  have hpath : here.toPath = ⟨.dot, []⟩ := by decide
  rw [root, hpath]
  rfl

theorem named_here (cwd : Location) : named cwd here.toPath = [] := by
  have hpath : here.toPath = ⟨.dot, []⟩ := by decide
  rw [named, hpath]
  rfl

theorem createDirs_here (fs : FileSystem) : createDirs fs here = (fs, true) := by
  have hpath : here.toPath = ⟨.dot, []⟩ := by decide
  have hparent : here.toPath.parent = some ⟨.bare, []⟩ := by decide
  have hmade : fs.createDirAll ⟨.bare, []⟩ = (fs, true) := rfl
  have hthere : isDirectory fs here.toPath = true := by
    have hwalk : fs.walk false fs.links fs.cwd [] = some fs.cwd := walk_nil
    rw [hpath, isDirectory, canonicalize, FileSystem.resolve, if_neg (by simp)]
    simp only [PathStart.from, hwalk, fs.cwd_dir, decide_true]
  rw [createDirs, if_pos (by decide)]
  simp only [hparent, hmade, hthere, Bool.and_self]

/-- Into the working directory everything is written at once. -/
theorem exec_here {around : Surroundings} {bundle : PortableBundle} {force : Bool} {fs : FileSystem} :
    (writeImportedBundle around bundle here force).exec ⟨fs, []⟩ = (writeInto around bundle here force).exec ⟨fs, []⟩ := by
  rw [exec_writeImportedBundle, createDirs_here]
  rfl

section

variable {land : Landscape} {disk : Disk} {around : Surroundings} {p : PathBuf} {step : Step}

theorem linkFree_here : LinkFree land.fs here := by
  refine ⟨fun l hl => ?_, fun l hl => ?_⟩
  · rw [named_here] at hl
    cases hl
  · rw [root_here] at hl
    exact land.plain hl

/-- An import that has put files into a landscape so far, none of them where there is a directory. -/
def Along (land : Landscape) (disk : Disk) : Prop :=
  Extends (fun l entry => entry = .file ∧ ∃ below, l = land.home ++ below ∧ .below below ∉ land.dirs) land.fs disk.fs

theorem Along.extends (h : Along land disk) : Extends (fun l _ => Beneath land.home l) land.fs disk.fs := by
  refine h.mono ?_
  rintro l entry hnone ⟨-, below, rfl, -⟩
  refine ⟨List.prefix_append _ _, fun heq => ?_⟩
  rw [heq] at hnone
  have hhome : land.fs.entry land.home = some .dir := land.entry_home (List.prefix_refl _)
  rw [hnone] at hhome
  cases hhome

theorem Along.base (h : Along land disk) : Base land.home here disk.fs := by
  refine ⟨h.cwd, fun l hl => ?_, fun l hl target hlink => ?_⟩
  · rw [named_here] at hl
    cases hl
  · rw [root_here] at hl
    rcases h.cases hlink with hold | ⟨hnew, -⟩
    · exact land.plain hl target hold
    · cases hnew

theorem Along.isDir (h : Along land disk) {q : Place} (hq : q ∈ land.dirs) : q.IsDir disk.fs land.home :=
  (land.isDir_of_mem hq).extends h

/-- Something is there outside, or has been written there, that was not there before. -/
def Escaped (land : Landscape) (disk : Disk) : Prop :=
  ∃ l, ¬Beneath land.home l ∧ (land.fs.entry l = none ∧ disk.fs.entry l ≠ none ∨ l ∈ disk.written)

theorem Escaped.mono {disk' : Disk} (h : Escaped land disk)
    (hkeeps : ∀ l entry, disk.fs.entry l = some entry → disk'.fs.entry l = some entry)
    (hwritten : ∀ l ∈ disk.written, l ∈ disk'.written) : Escaped land disk' := by
  obtain ⟨l, hout, ⟨hnone, hthere⟩ | hl⟩ := h
  · obtain ⟨entry, hentry⟩ := Option.ne_none_iff_exists'.mp hthere
    exact ⟨l, hout, .inl ⟨hnone, by simp [hkeeps l entry hentry]⟩⟩
  · exact ⟨l, hout, .inr (hwritten l hl)⟩

theorem not_stays_of_escaped (h : Escaped land disk) : ¬Stays land.fs here disk := by
  rintro ⟨hentries, hwritten⟩
  rw [createDirs_here] at hentries
  have hroot : root land.fs.cwd here = land.home := root_here _
  rw [hroot] at hentries hwritten
  obtain ⟨l, hout, ⟨hnone, hthere⟩ | hl⟩ := h
  · exact hout (hentries l fun hsame => hthere (hsame.trans hnone))
  · exact hout (hwritten l hl)

theorem createDirs_keeps {fs : FileSystem} {l : Location} {entry : Entry} (h : fs.entry l = some entry) :
    (createDirs fs p).1.entry l = some entry := by
  rw [createDirs]
  split_ifs
  · cases p.toPath.parent with
    | none => exact h
    | some parent => exact makeDirs_keeps h
  · exact makeDirs_keeps h

theorem Escaped.of_write (h : Escaped land disk) : Escaped land ((write around p).exec disk).2 := by
  rw [write, Stateful.exec_ofFun]
  cases hwrite : if p.ending = .part then disk.fs.writeFile p.toPath else none with
  | none => exact h
  | some written =>
    split_ifs at hwrite
    exact @Escaped.mono land disk ⟨written.1, written.2 :: disk.written⟩ h (fun _ _ => writeFile_keeps hwrite)
      fun _ => List.mem_cons_of_mem _

/-- What has escaped stays there. -/
theorem Escaped.of_run (step : Step) (h : Escaped land disk) : Escaped land ((step.run around here).exec disk).2 := by
  cases step with
  | document p =>
    rw [Step.run]
    exact h.of_write
  | directory p =>
    have hkeeps : ∀ l entry, disk.fs.entry l = some entry → (createDirs disk.fs (here.join p)).1.entry l = some entry := by
      intro l entry hentry
      exact createDirs_keeps hentry
    rw [Step.run, createDirAll, Stateful.exec_ofFun]
    generalize createDirs disk.fs (here.join p) = made at hkeeps
    exact h.mono hkeeps fun _ hl => hl
  | placeholder p =>
    have hparent : (createParent around (here.join p)).Keeps (Escaped land) := by
      refine .ofFun fun disk h => ?_
      cases (here.join p).toPath.parent with
      | none => exact h
      | some parent =>
        exact @Escaped.mono land disk { disk with fs := (disk.fs.createDirAll parent).1 } h (fun _ _ => makeDirs_keeps) fun _ hl => hl
    have hmissing : (writeMissing around (here.join p)).Keeps (Escaped land) := by
      refine .bind hparent fun _ => .ofFun fun disk h => ?_
      split_ifs
      · exact h
      · exact h.of_write
    rw [Step.run]
    exact hmissing disk h

/-- Along a document's way that is there the kernel comes to where its file is to be. -/
theorem resolve_below {cwd l : Location} {into : PathBuf} {fs : FileSystem} (hbase : Base cwd into fs)
    {before : List PathPart} {last : String} (hparts : p.toPath.parts = before ++ [.name last]) (hplace : p.place = .below l)
    (hway : ∀ q ∈ p.way, q.IsDir fs (root cwd into)) : ∃ above, p.origin.after before = .below above ∧ l = above ++ [last] ∧
      ∀ create, fs.resolve create (into.join p).toPath = fs.walk create fs.links (root cwd into ++ above) [.name last] := by
  have hnamed : Place.below l ∈ p.places := by
    rw [← hplace, PathBuf.place, PathBuf.places, hparts]
    exact Place.after_mem_named ..
  obtain ⟨hrel, horigin⟩ := origin_of_below hnamed
  rw [PathBuf.place, horigin, hparts, Place.after_append] at hplace
  obtain ⟨above, habove⟩ := Place.exists_below (show ((Place.below []).after before).isOutside = false by
    refine Bool.eq_false_iff.mpr fun hout => ?_
    have hafter := Place.isOutside_after hout [.name last]
    rw [hplace] at hafter
    cases hafter)
  rw [habove] at hplace
  have hdirs : ∀ v ∈ visited (root cwd into ++ []) before, fs.entry v = some .dir := by
    intro v hv
    have hnone := Place.not_outside_of_after (show ((Place.below []).after before).isOutside = false by rw [habove]; rfl)
    obtain ⟨l', rfl, hl'⟩ := Place.mem_named_of_visited hnone hv
    refine Place.isDir_below.mp (hway _ ?_)
    rw [PathBuf.way, horigin, hparts, List.dropLast_concat]
    exact hl'
  refine ⟨above, by rw [horigin, habove], (Place.below.inj hplace).symm, fun create => ?_⟩
  have hwalk := @walk_dirs fs create fs.links _ _ hdirs [.name last]
  rw [Place.lexical_of_after habove, List.append_nil] at hwalk
  rw [resolve_join hbase (.inr (by simp [hparts])), startOf, if_neg (by simp [hrel]), hparts, hwalk]

/-- A document is written if the way to it is there and there is no directory in its place. -/
theorem exists_written {cwd l : Location} {into : PathBuf} {fs : FileSystem} (hbase : Base cwd into fs)
    {before : List PathPart} {last : String} (hparts : p.toPath.parts = before ++ [.name last]) (hplace : p.place = .below l)
    (hway : ∀ q ∈ p.way, q.IsDir fs (root cwd into)) (hfree : fs.entry (root cwd into ++ l) ≠ some .dir) :
    ∃ fs', fs.writeFile (into.join p).toPath = some (fs', root cwd into ++ l) ∧
      Extends (fun l' entry => l' = root cwd into ++ l ∧ entry = .file) fs fs' ∧
      fs'.entry (root cwd into ++ l) = some .file := by
  have hinside : p.place.isOutside = false := by rw [hplace]; rfl
  obtain ⟨above, -, rfl, hgoes⟩ := resolve_below hbase hparts hplace hway
  have hresolve : fs.resolve true (into.join p).toPath = some (root cwd into ++ (above ++ [last])) := by
    rw [hgoes, ← List.append_assoc]
    rw [← List.append_assoc] at hfree
    cases hentry : fs.entry (root cwd into ++ above ++ [last]) with
    | none => simp [walk_name_none hentry]
    | some entry =>
      cases entry with
      | file => simp [walk_name_file hentry]
      | dir => exact absurd hentry hfree
      | link target =>
        rw [List.append_assoc] at hentry
        exact absurd hentry (hbase.plain _ (List.prefix_append _ _) target)
  have hwrite : ∃ fs', fs.writeFile (into.join p).toPath = some (fs', root cwd into ++ (above ++ [last])) := by
    rw [writeFile, hresolve]
    cases hentry : fs.entry (root cwd into ++ (above ++ [last])) with
    | none => simp [hentry]
    | some entry =>
      cases entry with
      | file => simp [hentry]
      | dir => exact absurd hentry hfree
      | link target => exact absurd hentry (hbase.plain _ (List.prefix_append _ _) target)
  obtain ⟨fs', hwrite⟩ := hwrite
  have hplain := (tame_of_place hinside).plain hbase
  rw [← hbase.here] at hplain
  exact ⟨fs', hwrite, (writeFile_spec hplain hwrite).2.2.2, (writeFile_there hplain hwrite).1⟩

/-- A step that changes at most the directory: its directories are there, and its file can be. -/
def Harmless (land : Landscape) : Step → Prop
  | .document p => (∀ q ∈ p.way, q ∈ land.dirs) ∧ ∃ l, p.place = .below l ∧ .below l ∉ land.dirs
  | step => (∀ q ∈ step.needs, q ∈ land.dirs) ∧ ∀ q ∈ step.makes, q.isOutside = true → q ∈ land.dirs

/-- Where there is no directory a file can be written. -/
theorem Along.write (h : Along land disk) {before : List PathPart} {last : String}
    (hparts : p.toPath.parts = before ++ [.name last]) (hending : p.ending = .part)
    (hway : ∀ q ∈ p.way, q ∈ land.dirs) {l : Location} (hplace : p.place = .below l) (hfree : .below l ∉ land.dirs) :
    ∃ disk', (write around (here.join p)).exec disk = (.ok (), disk') ∧ Along land disk' := by
  have hne : l ≠ [] := by
    have hnamed : Place.below l ∈ p.places := by
      rw [← hplace, PathBuf.place, PathBuf.places, hparts]
      exact Place.after_mem_named ..
    exact Place.ne_nil_of_mem_named hnamed
  have hnodir : disk.fs.entry (land.home ++ l) ≠ some .dir := by
    intro hdir
    rcases h.cases hdir with hold | ⟨hnew, -⟩
    · have hinner := (land.entry_inner hne).symm.trans hold
      rw [if_neg hfree] at hinner
      split_ifs at hinner
      cases hinner
    · cases hnew
  have hroot : root land.home here = land.home := root_here _
  obtain ⟨fs', hwrite, hext, -⟩ := exists_written h.base hparts hplace
    (fun q hq => by rw [hroot]; exact h.isDir (hway q hq)) (by rw [hroot]; exact hnodir)
  rw [hroot] at hwrite hext
  refine ⟨⟨fs', (land.home ++ l) :: disk.written⟩, ?_, Extends.trans h (hext.mono ?_)⟩
  · rw [Import.write, Stateful.exec_ofFun, PathBuf.ending_join, if_pos hending, hwrite]
  · rintro l' entry - ⟨rfl, rfl⟩
    exact ⟨rfl, l, rfl, hfree⟩

theorem startOf_here (h : Along land disk) : p.origin.locate disk.fs land.home = some (startOf land.home here p) ∧
    disk.fs.entry (startOf land.home here p) = some .dir := by
  have hlocate := @locate_origin land.home here disk.fs p
  rw [root_here] at hlocate
  exact ⟨hlocate, startOf_dir h.base⟩

/-- Directories that are there already. -/
theorem Along.makeDirs (h : Along land disk) {parts : List PathPart} (hnamed : ∀ q ∈ p.origin.named parts, q ∈ land.dirs) :
    disk.fs.makeDirs (startOf land.home here p) parts = (disk.fs, true) := by
  obtain ⟨hat, hdir⟩ := @startOf_here land disk p h
  obtain ⟨final, -, -, hmade⟩ := Place.makeDirs_there [] hat hdir fun q hq => h.isDir (hnamed q hq)
  rw [List.append_nil] at hmade
  exact hmade

theorem Along.isDirectory (h : Along land disk) (hp : p.isAbsolute = true ∨ p.toPath.parts ≠ [])
    (hplaces : ∀ q ∈ p.places, q ∈ land.dirs) :
    disk.fs.pathExists (here.join p).toPath = true ∧ isDirectory disk.fs (here.join p).toPath = true :=
  isDirectory_of_places h.base hp fun q hq => by rw [root_here]; exact h.isDir (hplaces q hq)

theorem Along.createDirs (h : Along land disk) (hp : p.isAbsolute = true ∨ p.toPath.parts ≠ [])
    (hplaces : ∀ q ∈ p.places, q ∈ land.dirs) : createDirs disk.fs (here.join p) = (disk.fs, true) := by
  have hway : disk.fs.makeDirs (startOf land.home here p) p.toPath.parts.dropLast = (disk.fs, true) :=
    h.makeDirs fun q hq => hplaces q (way_subset hq)
  rw [Import.createDirs, PathBuf.ending_join]
  split_ifs
  · rcases parent_join h.base hp with ⟨hnone, -⟩ | ⟨parent, hparent, hmade⟩
    · simp only [hnone, (h.isDirectory hp hplaces).2]
    · simp only [hparent, hmade, hway, (h.isDirectory hp hplaces).2, Bool.and_self]
  · rw [createDirAll_join h.base]
    exact h.makeDirs hplaces

theorem Along.createParent (h : Along land disk) (hp : p.isAbsolute = true ∨ p.toPath.parts ≠ [])
    (hway : ∀ q ∈ p.way, q ∈ land.dirs) : (createParent around (here.join p)).exec disk = (.ok (), disk) := by
  rw [Import.createParent, Stateful.exec_ofFun]
  rcases parent_join h.base hp with ⟨hnone, -⟩ | ⟨parent, hparent, hmade⟩
  · rw [hnone]
  · simp only [hparent, hmade, h.makeDirs hway, if_true]

/-- **Steps that go on.** -/
theorem Along.run (h : Along land disk) (hproper : step.Proper) (hharmless : Harmless land step) :
    ∃ disk', (step.run around here).exec disk = (.ok (), disk') ∧ Along land disk' := by
  have hp := hproper.names
  cases step with
  | document p =>
    obtain ⟨hending, before, last, hparts⟩ := hproper
    obtain ⟨hway, l, hplace, hfree⟩ := hharmless
    rw [Step.run]
    exact h.write hparts hending hway hplace hfree
  | directory p =>
    refine ⟨disk, ?_, h⟩
    have hmade := @Along.createDirs land disk p h hp hharmless.1
    rw [Step.run, createDirAll, Stateful.exec_ofFun, hmade]
    rfl
  | placeholder p =>
    obtain ⟨hneeds, hmakes⟩ := hharmless
    have hway : ∀ q ∈ p.way, q ∈ land.dirs := by
      intro q hq
      refine hneeds q ?_
      rw [Step.needs]
      split_ifs
      · exact hq
      · exact way_subset hq
    have hfirst := @Along.createParent land disk around p h hp hway
    rw [Step.run, writeMissing, Stateful.exec_bind, hfirst]
    simp only [Stateful.exec_ofFun]
    by_cases hexists : pathExists disk.fs (here.join p) = true
    · rw [if_pos hexists]
      exact ⟨disk, rfl, h⟩
    rw [if_neg hexists]
    have hmissing : ¬∀ q ∈ p.places, q ∈ land.dirs := by
      intro hplaces
      refine hexists ?_
      rw [pathExists]
      split_ifs
      · exact (h.isDirectory hp hplaces).1
      · exact (h.isDirectory hp hplaces).2
    have hending : p.ending = .part := by
      by_contra hending
      refine hmissing fun q hq => hneeds q ?_
      rw [Step.needs, if_neg hending]
      exact hq
    -- what is missing is the last thing that the path names
    obtain ⟨q, hq, hnot⟩ : ∃ q ∈ p.places, q ∉ land.dirs := by simpa using hmissing
    obtain rfl : q = p.place := (Place.mem_named_dropLast hq).resolve_left fun hq' => hnot (hway q hq')
    have hinside : p.place.isOutside = false := by
      refine Bool.eq_false_iff.mpr fun hout => hnot (hmakes _ ?_ hout)
      rw [Step.makes, if_pos hending]
      exact hq
    obtain ⟨l, hplace⟩ := Place.exists_below hinside
    rw [hplace] at hnot
    rcases List.eq_nil_or_concat p.toPath.parts with hnil | ⟨before, last, hparts⟩
    · rw [PathBuf.places, hnil] at hq
      cases hq
    rw [List.concat_eq_append] at hparts
    cases last with
    | name last => exact h.write hparts hending hway hplace hnot
    | up =>
      rw [PathBuf.places, hparts, Place.named_append] at hq
      rcases List.mem_append.mp hq with hq | hq
      · rw [PathBuf.way, hparts, List.dropLast_concat] at hway
        exact absurd (hplace ▸ hway _ hq) hnot
      · cases hq

/-- Whether a step makes what is named before these last parts of its path. -/
def Step.Reaches (rest : List PathPart) : Step → Prop
  | document _ => rest = []
  | directory p => p.ending = .dot → rest ≠ []
  | placeholder p => p.ending ≠ .part → rest ≠ []

/-- A step that makes something outside: all that it names before is there. -/
structure Fatal (land : Landscape) (step : Step) (before : List PathPart) (name : String) (rest : List PathPart) : Prop where
  parts : step.path.toPath.parts = before ++ .name name :: rest
  way : ∀ q ∈ step.path.origin.named before, q ∈ land.dirs
  outside : ((step.path.origin.after before).go (.name name)).isOutside = true
  missing : (step.path.origin.after before).go (.name name) ∉ land.dirs
  room : (step.path.origin.after before).extent < land.depth
  short : name.length ≤ land.size
  reached : step.Reaches rest

theorem anchored_origin (dirs : List Place) (p : PathBuf) : p.origin.Anchored dirs := by
  rw [PathBuf.origin]
  split_ifs
  · exact ⟨rfl, by simp [Place.named], by simp⟩
  · intro before name rest heq
    simp at heq

/-- Where the way ends there is a directory, and nothing beyond. -/
theorem Fatal.beyond {before rest : List PathPart} {name : String} (hfatal : Fatal land step before name rest)
    (h : Along land disk) : ∃ location, (step.path.origin.after before).locate disk.fs land.home = some location ∧
      disk.fs.entry location = some .dir ∧ disk.fs.entry (location ++ [name]) = none ∧
      land.fs.entry (location ++ [name]) = none ∧ ¬Beneath land.home (location ++ [name]) := by
  have hout : (step.path.origin.after before).isOutside = true := by
    have hlast := hfatal.outside
    cases hafter : step.path.origin.after before with
    | below location =>
      rw [hafter] at hlast
      cases hlast
    | outside above since => rfl
  obtain ⟨location, hat, hdir, hnone, hoff⟩ := land.beyond ((anchored_origin land.dirs step.path).after hfatal.way)
    hfatal.room hout hfatal.short hfatal.missing
  refine ⟨location, Place.locate_extends hat h, Extends.keeps h hdir, ?_, hnone, hoff⟩
  rcases h.extends.entry (location ++ [name]) with hsame | ⟨-, entry, -, hnew⟩
  · exact hsame.trans hnone
  · exact absurd hnew hoff

/-- Directories made along such a path. -/
theorem Fatal.makeDirs {before rest : List PathPart} {name : String} (hfatal : Fatal land step before name rest)
    (h : Along land disk) (rest' : List PathPart) : Escaped land
      { disk with fs := (disk.fs.makeDirs (startOf land.home here step.path) (before ++ .name name :: rest')).1 } := by
  obtain ⟨location, hat, hdir, hnone, hbefore, hoff⟩ := hfatal.beyond h
  obtain ⟨hstart, hstartDir⟩ := @startOf_here land disk step.path h
  obtain ⟨final, hfinal, -, hmade⟩ := Place.makeDirs_there (.name name :: rest') hstart hstartDir fun q hq =>
    h.isDir (hfatal.way q hq)
  obtain rfl := Option.some.inj (hat.symm.trans hfinal)
  refine ⟨location ++ [name], hoff, .inl ⟨hbefore, ?_⟩⟩
  rw [hmade, FileSystem.makeDirs, hnone]
  dsimp only
  simp [makeDirs_keeps (entry_mkdir hdir hnone)]

/-- A file written at the end of such a path. -/
theorem Fatal.write {before : List PathPart} {name : String} (hfatal : Fatal land step before name []) (h : Along land disk)
    (hending : step.path.ending = .part) :
    pathExists disk.fs (here.join step.path) = false ∧
      Escaped land ((write around (here.join step.path)).exec disk).2 := by
  obtain ⟨location, hat, hdir, hnone, hbefore, hoff⟩ := hfatal.beyond h
  obtain ⟨hstart, hstartDir⟩ := @startOf_here land disk step.path h
  have hplain : ∀ l, land.home <+: l → ∀ target, disk.fs.entry l ≠ some (.link target) := by
    have hbase := h.base.plain
    rwa [root_here] at hbase
  have hway : ∀ q ∈ step.path.origin.named before, q.IsDir disk.fs land.home := fun q hq => h.isDir (hfatal.way q hq)
  obtain ⟨final, hwalk, -⟩ := Place.walk_of_isDir isOrigin_origin hstart hstartDir hway
  have hfinal := Place.locate_of_walk isOrigin_origin hplain hstart hstartDir
    (fun q hq => hway q (Place.named_dropLast_subset hq)) hwalk
  obtain rfl := Option.some.inj (hat.symm.trans hfinal)
  have hgoes : ∀ create, ∃ left, disk.fs.resolve create (here.join step.path).toPath =
      disk.fs.walk create left location [.name name] := by
    intro create
    have hcome : disk.fs.walk create disk.fs.links (startOf land.home here step.path) before = some location := by
      cases create with
      | false => exact hwalk
      | true => exact walk_create hwalk
    obtain ⟨left, -, hleft⟩ := walk_append [.name name] hcome hdir
    refine ⟨left, ?_⟩
    rw [resolve_join h.base (.inr (by rw [hfatal.parts]; simp)), hfatal.parts, hleft]
  constructor
  · obtain ⟨left, hleft⟩ := hgoes false
    rw [pathExists, PathBuf.ending_join, if_pos hending, FileSystem.pathExists, canonicalize, hleft, walk_name_none hnone]
    rfl
  · obtain ⟨left, hleft⟩ := hgoes true
    rw [walk_name_none hnone] at hleft
    refine ⟨location ++ [name], hoff, .inr ?_⟩
    have hwrite : disk.fs.writeFile (here.join step.path).toPath =
        some (disk.fs.add (location ++ [name]) .file, location ++ [name]) := by
      rw [writeFile, hleft]
      simp [hnone]
    rw [Import.write, Stateful.exec_ofFun, PathBuf.ending_join, if_pos hending, hwrite]
    exact List.mem_cons_self ..

/-- **Steps that escape.** -/
theorem Along.fatal {before rest : List PathPart} {name : String} (h : Along land disk) (hproper : step.Proper)
    (hfatal : Fatal land step before name rest) : Escaped land ((step.run around here).exec disk).2 := by
  have hp := hproper.names
  have hparts := hfatal.parts
  have hreached := hfatal.reached
  have hdropLast : rest ≠ [] → step.path.toPath.parts.dropLast = before ++ .name name :: rest.dropLast := by
    intro hrest
    rw [hparts, List.dropLast_append_of_ne_nil (by simp), List.dropLast_cons_of_ne_nil hrest]
  -- the directories above the path, if what is missing is above
  have habove : rest ≠ [] → ∃ parent, (here.join step.path).toPath.parent = some parent ∧
      Escaped land { disk with fs := (disk.fs.createDirAll parent).1 } := by
    intro hrest
    rcases parent_join h.base hp with ⟨-, hnil⟩ | ⟨parent, hparent, hmade⟩
    · rw [hdropLast hrest] at hnil
      simp at hnil
    · refine ⟨parent, hparent, ?_⟩
      rw [hmade, hdropLast hrest]
      exact hfatal.makeDirs h _
  cases step with
  | document p =>
    obtain rfl : rest = [] := hreached
    rw [Step.run]
    exact (hfatal.write h hproper.1).2
  | directory p =>
    have hrun : Escaped land { disk with fs := (Import.createDirs disk.fs (here.join p)).1 } := by
      rw [Import.createDirs, PathBuf.ending_join]
      split_ifs with hdot
      · obtain ⟨parent, hparent, hmade⟩ := habove (hreached hdot)
        simp only [Step.path] at hparent
        simp only [hparent]
        exact hmade
      · have hmade := hfatal.makeDirs h rest
        rw [← hparts] at hmade
        rw [createDirAll_join h.base]
        exact hmade
    rw [Step.run, createDirAll, Stateful.exec_ofFun]
    exact hrun
  | placeholder p =>
    have hlast : (.ofFun fun disk => if pathExists disk.fs (here.join p) then (.ok (), disk)
        else (Import.write around (here.join p)).exec disk : Importing Unit).Keeps (Escaped land) := by
      refine .ofFun fun disk h => ?_
      split_ifs
      · exact h
      · exact h.of_write
    rw [Step.run, writeMissing, Stateful.exec_bind]
    by_cases hrest : rest = []
    · subst hrest
      have hending : p.ending = .part := by
        by_contra hending
        exact hreached hending rfl
      have hway : ∀ q ∈ p.way, q ∈ land.dirs := by
        have hnamed := hfatal.way
        simp only [Step.path] at hnamed hparts
        rw [PathBuf.way, hparts, List.dropLast_concat]
        exact hnamed
      obtain ⟨hnone, hescaped⟩ := @Fatal.write land disk around _ _ _ hfatal h hending
      rw [@Along.createParent land disk around p h hp hway]
      simp only [Stateful.exec_ofFun]
      rw [if_neg (by simpa [Step.path] using hnone)]
      exact hescaped
    · obtain ⟨parent, hparent, hmade⟩ := habove hrest
      have hfirst : Escaped land ((Import.createParent around (here.join p)).exec disk).2 := by
        simp only [Step.path] at hparent
        rw [Import.createParent, Stateful.exec_ofFun, hparent]
        exact hmade
      rcases hcreate : (Import.createParent around (here.join p)).exec disk with ⟨error | value, after⟩
      · rw [hcreate] at hfirst
        exact hfirst
      · rw [hcreate] at hfirst
        exact hlast after hfirst

/-! ### The first step that leaves -/

/-- An import before these steps, of which one is going to make something outside, or has. -/
def Due (land : Landscape) (rest : List Step) (disk : Disk) : Prop :=
  Escaped land disk ∨ Along land disk ∧ ∃ before step after, rest = before ++ step :: after ∧
    (∀ earlier ∈ before, Harmless land earlier) ∧ ∃ way name further, Fatal land step way name further

theorem follows_due (hproper : step.Proper) : Follows (Due land) (Escaped land) (step.run around here) [step] := by
  rintro rest disk (hescaped | ⟨halong, before, leaving, after, hsteps, hharmless, way, name, further, hfatal⟩)
  · have hstill : Escaped land ((step.run around here).exec disk).2 := hescaped.of_run step
    refine ⟨fun value disk' hrun => .inl ?_, fun error disk' hrun => ?_⟩
    · rwa [hrun] at hstill
    · rwa [hrun] at hstill
  · cases before with
    | nil =>
      obtain ⟨rfl, -⟩ := List.cons.inj hsteps
      have hgone : Escaped land ((step.run around here).exec disk).2 := halong.fatal hproper hfatal
      refine ⟨fun value disk' hrun => .inl ?_, fun error disk' hrun => ?_⟩
      · rwa [hrun] at hgone
      · rwa [hrun] at hgone
    | cons first before =>
      obtain ⟨rfl, rfl⟩ := List.cons.inj hsteps
      obtain ⟨hfirst, hlater⟩ := List.forall_mem_cons.mp hharmless
      obtain ⟨disk', hrun, halong'⟩ := @Along.run land disk around step halong hproper hfirst
      rw [hrun]
      refine ⟨fun value disk'' heq => ?_, fun error disk'' heq => ?_⟩
      · cases heq
        exact .inr ⟨halong', before, leaving, after, rfl, hlater, way, name, further, hfatal⟩
      · cases heq

/-- What is known after these steps, none of which was blocked or left the directory. -/
inductive Reached : List Step → Sketch → Prop
  | nothing : Reached [] .empty
  | step {before : List Step} {sketch : Sketch} {step : Step} (h : Reached before sketch)
      (hblocks : sketch.blocks step = false) (hleaves : sketch.leaves step = false) :
      Reached (before ++ [step]) (sketch.after step)

/-- What is known of a step that was carried out. -/
def Sketch.Knows (sketch : Sketch) : Step → Prop
  | .document p => (∀ q ∈ p.way, q ∈ sketch.dirs) ∧ p.place ∈ sketch.files
  | step => (∀ q ∈ step.needs, q ∈ sketch.dirs) ∧ ∀ q ∈ step.makes, q.isOutside = true → q ∈ sketch.dirs

/-- A step that comes before the inputs. -/
def Step.Early : Step → Prop
  | document _ => True
  | directory p => p = ⟨"overlays"⟩
  | placeholder _ => False

section

variable {before : List Step} {sketch : Sketch} {bundle : PortableBundle}

theorem exists_needs (step : Step) : ∃ parts, step.needs = step.path.origin.named parts := by
  cases step with
  | document p => exact ⟨_, rfl⟩
  | directory p => exact ⟨_, rfl⟩
  | placeholder p =>
    rw [Step.needs]
    split_ifs
    · exact ⟨_, rfl⟩
    · exact ⟨_, rfl⟩

theorem needs_of_not_blocks (h : sketch.blocks step = false) : ∀ q ∈ step.needs, q ∉ sketch.files := by
  intro q hq hfile
  exact List.any_eq_false.mp (Bool.or_eq_false_iff.mp h).1 q hq (by simpa using hfile)

theorem place_of_not_blocks (h : sketch.blocks (.document p) = false) (hinside : p.place.isOutside = false) :
    p.place ∉ p.way ∧ p.place ∉ sketch.dirs := by
  rw [Sketch.blocks, Bool.or_eq_false_iff] at h
  simpa [hinside] using h.2

theorem Reached.closed (h : Reached before sketch) : Place.Closed sketch.dirs := by
  induction h with
  | nothing => exact ⟨by simp [Sketch.empty], by simp [Sketch.empty]⟩
  | @step before sketch step h _ _ ih =>
    obtain ⟨parts, hparts⟩ := exists_needs step
    have hclosed := ih.named (anchored_origin [] step.path) parts
    rwa [← hparts] at hclosed

/-- The files are in the directory, and are no directories. -/
theorem Reached.apart (h : Reached before sketch) : ∀ q ∈ sketch.files, q.isOutside = false ∧ q ∉ sketch.dirs := by
  induction h with
  | nothing => simp [Sketch.empty]
  | @step before sketch step h hblocks hleaves ih =>
    have hold : ∀ q ∈ sketch.files, q.isOutside = false ∧ q ∉ step.needs ++ sketch.dirs := by
      intro q hq
      refine ⟨(ih q hq).1, fun hmem => ?_⟩
      rcases List.mem_append.mp hmem with hmem | hmem
      · exact needs_of_not_blocks hblocks q hmem hq
      · exact (ih q hq).2 hmem
    cases step with
    | document p =>
      have hplace := place_of_not_blocks hblocks hleaves
      refine List.forall_mem_cons.mpr ⟨⟨hleaves, fun hmem => ?_⟩, hold⟩
      exact (List.mem_append.mp hmem).elim hplace.1 hplace.2
    | directory p => exact hold
    | placeholder p => exact hold

theorem Sketch.Knows.after (h : sketch.Knows step) (later : Step) : (sketch.after later).Knows step := by
  have hdirs : ∀ q ∈ sketch.dirs, q ∈ (sketch.after later).dirs := fun _ => List.mem_append_right _
  cases step with
  | document p =>
    refine ⟨fun q hq => hdirs q (h.1 q hq), ?_⟩
    cases later with
    | document p => exact List.mem_cons_of_mem _ h.2
    | directory p => exact h.2
    | placeholder p => exact h.2
  | directory p => exact ⟨fun q hq => hdirs q (h.1 q hq), fun q hq hout => hdirs q (h.2 q hq hout)⟩
  | placeholder p => exact ⟨fun q hq => hdirs q (h.1 q hq), fun q hq hout => hdirs q (h.2 q hq hout)⟩

theorem Reached.knows (h : Reached before sketch) : ∀ step ∈ before, sketch.Knows step := by
  induction h with
  | nothing => simp
  | @step before sketch step h _ hleaves ih =>
    refine List.forall_mem_append.mpr ⟨fun earlier hmem => (ih earlier hmem).after step, List.forall_mem_singleton.mpr ?_⟩
    have hneeds : ∀ q ∈ step.needs, q ∈ (sketch.after step).dirs := fun _ => List.mem_append_left _
    have hmakes : ∀ q ∈ step.makes, q.isOutside = true → sketch.dirs.contains q = true → q ∈ (sketch.after step).dirs :=
      fun _ _ _ hmem => List.mem_append_right _ (by simpa using hmem)
    cases step with
    | document p => exact ⟨hneeds, List.mem_cons_self ..⟩
    | directory p => exact ⟨hneeds, fun q hq hout => hmakes q hq hout (by simpa [hout] using List.any_eq_false.mp hleaves q hq)⟩
    | placeholder p => exact ⟨hneeds, fun q hq hout => hmakes q hq hout (by simpa [hout] using List.any_eq_false.mp hleaves q hq)⟩

/-- Before the inputs nothing outside is needed. -/
theorem Reached.inside (h : Reached before sketch) (hearly : ∀ step ∈ before, step.Early) :
    ∀ q ∈ sketch.dirs, q.isOutside = false := by
  induction h with
  | nothing => simp [Sketch.empty]
  | @step before sketch step h _ hleaves ih =>
    obtain ⟨hbefore, hstep⟩ := List.forall_mem_append.mp hearly
    refine List.forall_mem_append.mpr ⟨fun q hq => ?_, ih hbefore⟩
    have hlast := hstep step (List.mem_singleton_self _)
    cases step with
    | document p => exact Place.not_outside_of_after hleaves q (way_subset hq)
    | directory p =>
      obtain rfl : p = ⟨"overlays"⟩ := hlast
      have hplaces : (Step.directory ⟨"overlays"⟩).needs = [.below ["overlays"]] := by decide
      rw [hplaces] at hq
      rw [List.mem_singleton.mp hq]
      rfl
    | placeholder p => cases hlast

theorem harmless_of_knows (h : sketch.Knows step) (hdirs : ∀ q ∈ sketch.dirs, q ∈ land.dirs)
    (hfiles : ∀ q ∈ sketch.files, q.isOutside = false ∧ q ∉ land.dirs) : Harmless land step := by
  cases step with
  | document p =>
    obtain ⟨hinside, hnot⟩ := hfiles _ h.2
    obtain ⟨l, hplace⟩ := Place.exists_below hinside
    exact ⟨fun q hq => hdirs q (h.1 q hq), l, hplace, hplace ▸ hnot⟩
  | directory p => exact ⟨fun q hq => hdirs q (h.1 q hq), fun q hq hout => hdirs q (h.2 q hq hout)⟩
  | placeholder p => exact ⟨fun q hq => hdirs q (h.1 q hq), fun q hq hout => hdirs q (h.2 q hq hout)⟩

/-- The part of its path with which a step makes a place. -/
theorem exists_part_of_makes (hproper : step.Proper) {q : Place} (hq : q ∈ step.makes) :
    ∃ way name rest, step.path.toPath.parts = way ++ .name name :: rest ∧ q = (step.path.origin.after way).go (.name name) ∧
      step.Reaches rest ∧ ∀ q ∈ step.path.origin.named way, q ∈ step.needs := by
  have hway : ∀ {way rest : List PathPart} {name : String}, step.path.toPath.parts = way ++ .name name :: rest →
      ∀ q ∈ step.path.origin.named way, q ∈ step.path.way := by
    intro way rest name hparts q hq
    rw [PathBuf.way, hparts, List.dropLast_append_of_ne_nil (by simp), Place.named_append]
    exact List.mem_append_left _ hq
  have hwhole : q ∈ step.path.places → ∃ way name rest, step.path.toPath.parts = way ++ .name name :: rest ∧
      q = (step.path.origin.after way).go (.name name) := Place.exists_split_of_mem_named
  have hdrop : q ∈ step.path.way → ∃ way name rest, step.path.toPath.parts = way ++ .name name :: rest ∧
      q = (step.path.origin.after way).go (.name name) ∧ rest ≠ [] := by
    intro hq
    obtain ⟨way, name, rest, hparts, hplace⟩ := Place.exists_split_of_mem_named hq
    have hne : step.path.toPath.parts ≠ [] := by
      intro hnil
      rw [hnil] at hparts
      simp at hparts
    refine ⟨way, name, rest ++ [step.path.toPath.parts.getLast hne], ?_, hplace, by simp⟩
    rw [← List.cons_append, ← List.append_assoc, ← hparts, List.dropLast_append_getLast]
  cases step with
  | document p =>
    obtain ⟨-, way, name, hparts⟩ := hproper
    refine ⟨way, name, [], hparts, ?_, rfl, hway hparts⟩
    rw [List.mem_singleton.mp hq, PathBuf.place, hparts, Place.after_append]
    rfl
  | directory p =>
    rw [Step.makes] at hq
    split_ifs at hq with hdot
    · obtain ⟨way, name, rest, hparts, hplace, hne⟩ := hdrop hq
      exact ⟨way, name, rest, hparts, hplace, fun _ => hne, fun q hq => way_subset (hway hparts q hq)⟩
    · obtain ⟨way, name, rest, hparts, hplace⟩ := hwhole hq
      exact ⟨way, name, rest, hparts, hplace, fun hdot' => absurd hdot' hdot, fun q hq => way_subset (hway hparts q hq)⟩
  | placeholder p =>
    rw [Step.makes] at hq
    split_ifs at hq with hending
    · obtain ⟨way, name, rest, hparts, hplace⟩ := hwhole hq
      refine ⟨way, name, rest, hparts, hplace, fun hending' => absurd hending hending', ?_⟩
      rw [Step.needs, if_pos hending]
      exact hway hparts
    · obtain ⟨way, name, rest, hparts, hplace, hne⟩ := hdrop hq
      refine ⟨way, name, rest, hparts, hplace, fun _ => hne, ?_⟩
      rw [Step.needs, if_neg hending]
      exact fun q hq => way_subset (hway hparts q hq)

/-- **A landscape for a step that leaves**, in which the steps before it are harmless. -/
theorem exists_fatal (h : Reached before sketch) (hproper : step.Proper) (hblocks : sketch.blocks step = false)
    (hleaves : sketch.leaves step = true) (hearly : ∀ p, step = .document p → ∀ earlier ∈ before, earlier.Early) :
    ∃ land, (∀ earlier ∈ before, Harmless land earlier) ∧ ∃ way name rest, Fatal land step way name rest := by
  obtain ⟨q, hq, hout, hnew⟩ : ∃ q ∈ step.makes, q.isOutside = true ∧ q ∉ sketch.dirs := by
    cases step with
    | document p =>
      refine ⟨p.place, List.mem_singleton_self _, hleaves, fun hmem => ?_⟩
      have hinside := h.inside (hearly p rfl) _ hmem
      rw [show p.place.isOutside = true from hleaves] at hinside
      cases hinside
    | directory p => simpa [Sketch.leaves] using hleaves
    | placeholder p => simpa [Sketch.leaves] using hleaves
  obtain ⟨way, name, rest, hparts, rfl, hreaches, hway⟩ := exists_part_of_makes hproper hq
  have hclosed := h.closed.named (anchored_origin [] step.path) way
  refine ⟨.ofPlaces (step.path.origin.named way ++ sketch.dirs) [] name.length (step.path.origin.after way).extent hclosed (by simp),
    fun earlier hmem => harmless_of_knows (h.knows earlier hmem) (fun _ => List.mem_append_right _) fun q hfile => ?_,
    way, name, rest, hparts, fun _ => List.mem_append_left _, hout, fun hmem => ?_, Landscape.ofPlaces_room.1,
    Landscape.ofPlaces_room.2, hreaches⟩
  · refine ⟨(h.apart q hfile).1, fun hmem => ?_⟩
    rcases List.mem_append.mp hmem with hmem | hmem
    · exact needs_of_not_blocks hblocks q (hway q hmem) hfile
    · exact (h.apart q hfile).2 hmem
  · rcases List.mem_append.mp hmem with hmem | hmem
    · exact Place.not_mem_named_of_outside hout hmem
    · exact hnew hmem

/-- The first step that leaves the directory. -/
theorem exists_leaving (h : Reached before sketch) {steps : List Step} (hleaves : sketch.staysInside steps = false) :
    ∃ more step later sketch', steps = more ++ step :: later ∧ Reached (before ++ more) sketch' ∧
      sketch'.blocks step = false ∧ sketch'.leaves step = true := by
  induction steps generalizing before sketch with
  | nil => cases hleaves
  | cons step steps ih =>
    rw [Sketch.staysInside, Bool.or_eq_false_iff, Bool.and_eq_false_iff] at hleaves
    obtain ⟨hblocks, hleaves⟩ := hleaves
    by_cases hnow : sketch.leaves step = true
    · exact ⟨[], step, steps, sketch, rfl, by rwa [List.append_nil], hblocks, hnow⟩
    · obtain ⟨more, leaving, later, sketch', rfl, hreached, hfree, hgone⟩ :=
        ih (h.step hblocks (Bool.eq_false_iff.mpr hnow)) (hleaves.resolve_left (by simpa using hnow))
      refine ⟨step :: more, leaving, later, sketch', rfl, ?_, hfree, hgone⟩
      rwa [List.append_assoc] at hreached

theorem proper_inputSteps {input : RequiredLocalInput} (h : step ∈ inputSteps input) :
    step.Proper ∧ ∀ p, step ≠ .document p := by
  have hnames := names_inputRoot input
  rcases List.mem_append.mp h with h | h
  · have hroot : step = .directory (inputRoot ⟨""⟩ input) ∨ step = .placeholder (inputRoot ⟨""⟩ input) := by
      cases hkind : input.kind <;> simp [rootSteps, hkind] at h <;> simp [h]
    rcases hroot with rfl | rfl
    · exact ⟨hnames, by simp⟩
    · exact ⟨hnames, by simp⟩
  · obtain ⟨relative, -, rfl⟩ := List.mem_map.mp h
    rw [pathStep]
    split_ifs
    · exact ⟨names_join hnames _, by simp⟩
    · exact ⟨names_join hnames _, by simp⟩

theorem proper_overlaysStep (h : step ∈ overlaysStep bundle) : step = .directory ⟨"overlays"⟩ := by
  rw [overlaysStep] at h
  split_ifs at h
  · cases h
  · exact List.mem_singleton.mp h

/-- The steps of a bundle, and those that come before a document. -/
theorem proper_bundleSteps {later : List Step} (h : bundleSteps bundle = before ++ step :: later) :
    step.Proper ∧ ∀ p, step = .document p → ∀ earlier ∈ before, earlier.Early := by
  have hearly : ∀ earlier ∈ [.document (definitionPath bundle)] ++ (overlaysStep bundle ++
      bundle.overlays.keys.map fun name => Step.document (overlayPath name)), earlier.Early ∧ earlier.Proper := by
    intro earlier hmem
    rcases List.mem_append.mp hmem with hmem | hmem
    · obtain rfl := List.mem_singleton.mp hmem
      exact ⟨trivial, @ending_document _ bundle (List.mem_cons_self ..)⟩
    rcases List.mem_append.mp hmem with hmem | hmem
    · obtain rfl := proper_overlaysStep hmem
      exact ⟨rfl, .inr (by decide)⟩
    · obtain ⟨name, hname, rfl⟩ := List.mem_map.mp hmem
      exact ⟨trivial, @ending_document _ bundle (List.mem_cons_of_mem _ (List.mem_map_of_mem hname))⟩
  have hinput : step ∈ bundle.requiredLocalInputs.flatMap inputSteps → step.Proper ∧ ∀ p, step ≠ .document p := by
    intro hmem
    obtain ⟨input, -, hmem⟩ := List.mem_flatMap.mp hmem
    exact proper_inputSteps hmem
  rw [bundleSteps, ← List.append_assoc (overlaysStep bundle), ← List.append_assoc] at h
  rcases List.append_eq_append_iff.mp h with ⟨between, rfl, hinputs⟩ | ⟨between, hdocuments, hrest⟩
  · obtain ⟨hproper, hnot⟩ := hinput (by rw [hinputs]; simp)
    exact ⟨hproper, fun p hp => absurd hp (hnot p)⟩
  · rw [hdocuments] at hearly
    cases between with
    | nil =>
      rw [List.nil_append] at hrest
      obtain ⟨hproper, hnot⟩ := hinput (by rw [← hrest]; exact List.mem_cons_self ..)
      exact ⟨hproper, fun p hp => absurd hp (hnot p)⟩
    | cons first between =>
      obtain ⟨rfl, -⟩ := List.cons.inj hrest
      exact ⟨(hearly step (by simp)).2, fun _ _ earlier hmem => (hearly earlier (List.mem_append_left _ hmem)).1⟩

/-- **A bundle with a step that leaves the directory** leaves it somewhere. -/
theorem exists_not_stays (h : Sketch.empty.staysInside (bundleSteps bundle) = false) :
    ∃ fs, LinkFree fs here ∧ ¬Stays fs here ((writeImportedBundle quiet bundle here true).exec ⟨fs, []⟩).2 := by
  obtain ⟨before, step, later, sketch, hsteps, hreached, hblocks, hleaves⟩ := exists_leaving .nothing h
  obtain ⟨hproper, hearly⟩ := proper_bundleSteps hsteps
  obtain ⟨land, hharmless, way, name, rest, hfatal⟩ := exists_fatal hreached hproper hblocks hleaves hearly
  refine ⟨land.fs, linkFree_here, not_stays_of_escaped ?_⟩
  have hfollows : Follows (Due land) (Escaped land) (writeInto quiet bundle here true) (bundleSteps bundle) :=
    follows_writeInto (.inl ⟨rfl, rfl⟩) (fun _ => follows_due) bundle
  have hdue : Due land (bundleSteps bundle ++ []) ⟨land.fs, []⟩ := by
    rw [List.append_nil, hsteps]
    exact .inr ⟨.refl, before, step, later, rfl, hharmless, way, name, rest, hfatal⟩
  obtain ⟨hvalue, herror⟩ := hfollows [] ⟨land.fs, []⟩ hdue
  rw [exec_here]
  rcases hrun : (writeInto quiet bundle here true).exec ⟨land.fs, []⟩ with ⟨error | value, disk⟩
  · exact herror error disk hrun
  · rcases hvalue value disk hrun with hescaped | ⟨-, before, step, after, hnil, -⟩
    · exact hescaped
    · simp at hnil

end

end

end Import

end Planner

end Apmpr
