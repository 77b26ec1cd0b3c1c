import Apmpr.Planner.ImportEscapes

/-!
# Which bundles are contained

Where a conflict is not foreseen there is a directory in which it comes too late: the places
that the import knows when it gets to the overlay are directories of it, and the overlay is there,
or is written by the import itself, but along a way that only the import makes.

## What is proved

* `ensures_halfway`: in such a directory the import ends with the conflict after it has written
  its definition.
* `import_contained_iff`: nothing goes wrong with a bundle in any directory without links exactly
  if it is contained.
-/

namespace Apmpr

namespace Planner

namespace Import

open FileSystem

/-! ### What is in the directory -/

/-- The working directory has exactly these directories and files. -/
structure Laid (home : Location) (dirs files : List Place) (fs : FileSystem) : Prop where
  cwd : fs.cwd = home
  entry : ∀ l, l ≠ [] →
    fs.entry (home ++ l) = if .below l ∈ dirs then some .dir else if .below l ∈ files then some .file else none

section

variable {home : Location} {dirs files : List Place} {fs : FileSystem} {disk : Disk} {around : Surroundings} {p : PathBuf}
  {bundle : PortableBundle}

theorem Laid.home_dir (h : Laid home dirs files fs) : fs.entry home = some .dir := by
  rw [← h.cwd]
  exact fs.cwd_dir

theorem Laid.base (h : Laid home dirs files fs) : Base home here fs := by
  refine ⟨h.cwd, fun l hl => ?_, ?_⟩
  · rw [named_here] at hl
    cases hl
  · rw [root_here]
    rintro _ ⟨l, rfl⟩ target hlink
    by_cases hnil : l = []
    · rw [hnil, List.append_nil, h.home_dir] at hlink
      cases hlink
    · rw [h.entry l hnil] at hlink
      split_ifs at hlink
      · cases hlink
      · cases hlink

theorem Laid.isDir (h : Laid home dirs files fs) {q : Place} (hq : q ∈ dirs) (hinside : q.isOutside = false) :
    q.IsDir fs home := by
  obtain ⟨l, rfl⟩ := Place.exists_below hinside
  rw [Place.isDir_below]
  by_cases hnil : l = []
  · rw [hnil, List.append_nil]
    exact h.home_dir
  · rw [h.entry l hnil, if_pos hq]

/-- The way to a place in the directory. -/
theorem Laid.way (h : Laid home dirs files fs) (hplace : p.place.isOutside = false) (hway : ∀ q ∈ p.way, q ∈ dirs) :
    ∀ q ∈ p.way, q.IsDir fs (root home here) := by
  intro q hq
  rw [root_here]
  exact h.isDir (hway q hq) (Place.not_outside_of_after hplace q (way_subset hq))

theorem Laid.congr (h : Laid home dirs files fs) {dirs' : List Place} (hdirs : ∀ q, q ∈ dirs' ↔ q ∈ dirs) :
    Laid home dirs' files fs := by
  refine ⟨h.cwd, fun l hl => ?_⟩
  rw [h.entry l hl]
  simp only [hdirs]

theorem laid_landscape (land : Landscape) : Laid land.home land.dirs (land.files.map .below) land.fs := by
  refine ⟨rfl, fun l hl => (land.entry_inner hl).trans ?_⟩
  simp

/-- A file more, where there was no directory. -/
theorem Laid.add_file (h : Laid home dirs files fs) {fs' : FileSystem} {l : Location} (hfree : .below l ∉ dirs)
    (hext : Extends (fun l' entry => l' = home ++ l ∧ entry = .file) fs fs') (hfile : fs'.entry (home ++ l) = some .file) :
    Laid home dirs (.below l :: files) fs' := by
  refine ⟨hext.cwd.trans h.cwd, fun l' hl' => ?_⟩
  by_cases heq : l' = l
  · subst heq
    rw [hfile, if_neg hfree, if_pos (List.mem_cons_self ..)]
  · have hsame : fs'.entry (home ++ l') = fs.entry (home ++ l') := by
      rcases hext.entry (home ++ l') with hsame | ⟨-, entry, -, hnew, -⟩
      · exact hsame
      · exact absurd (List.append_cancel_left hnew) heq
    rw [hsame, h.entry l' hl']
    simp [heq]

/-- A directory more, where there was no file. -/
theorem Laid.mkdir (h : Laid home dirs files fs) {name : String} (hfree : .below [name] ∉ files) :
    ∃ fs', fs.makeDirs home [.name name] = (fs', true) ∧ Laid home (.below [name] :: dirs) files fs' := by
  have hentry := h.entry [name] (by simp)
  rw [if_neg hfree] at hentry
  by_cases hmem : .below [name] ∈ dirs
  · rw [if_pos hmem] at hentry
    refine ⟨fs, by rw [makeDirs, hentry]; rfl, h.congr fun q => ?_⟩
    rw [List.mem_cons, or_iff_right_iff_imp]
    rintro rfl
    exact hmem
  · rw [if_neg hmem] at hentry
    refine ⟨fs.mkdir home name, by rw [makeDirs, hentry]; rfl, ?_⟩
    have hext : Extends (fun l entry => l = home ++ [name]) fs (fs.mkdir home name) := .add rfl
    refine ⟨hext.cwd.trans h.cwd, fun l hl => ?_⟩
    by_cases heq : l = [name]
    · subst heq
      rw [entry_mkdir h.home_dir hentry, if_pos (List.mem_cons_self ..)]
    · have hsame : (fs.mkdir home name).entry (home ++ l) = fs.entry (home ++ l) := by
        rcases hext.entry (home ++ l) with hsame | ⟨-, entry, -, hnew⟩
        · exact hsame
        · exact absurd (List.append_cancel_left hnew) heq
      rw [hsame, h.entry l hl]
      simp [heq]

/-- A document that can be written. -/
theorem Laid.write (h : Laid home dirs files disk.fs) (hp : p ∈ documents bundle) (hinside : p.place.isOutside = false)
    (hway : ∀ q ∈ p.way, q ∈ dirs) (hfree : p.place ∉ dirs) :
    ∃ disk', (write around (here.join p)).exec disk = (.ok (), disk') ∧ Laid home dirs (p.place :: files) disk'.fs ∧
      disk'.written ≠ [] := by
  obtain ⟨hending, before, last, hparts⟩ := ending_document hp
  obtain ⟨l, hplace⟩ := Place.exists_below hinside
  rw [hplace] at hfree ⊢
  have hne : l ≠ [] := by
    have hnamed : Place.below l ∈ p.places := by
      rw [← hplace, PathBuf.place, PathBuf.places, hparts]
      exact Place.after_mem_named ..
    exact Place.ne_nil_of_mem_named hnamed
  have hnodir : disk.fs.entry (root home here ++ l) ≠ some .dir := by
    rw [root_here, h.entry l hne, if_neg hfree]
    split_ifs
    · simp
    · simp
  obtain ⟨fs', hwrite, hext, hfile⟩ := exists_written h.base hparts hplace (h.way hinside hway) hnodir
  rw [root_here] at hwrite hext hfile
  refine ⟨⟨fs', (home ++ l) :: disk.written⟩, ?_, h.add_file hfree hext hfile, by simp⟩
  rw [Import.write, Stateful.exec_ofFun, PathBuf.ending_join, if_pos hending, hwrite]

/-- The directory of the overlays can be made. -/
theorem Laid.createOverlays (h : Laid home dirs files disk.fs) (hfree : .below ["overlays"] ∉ files) :
    ∃ fs', (createDirAll around (here.join ⟨"overlays"⟩)).exec disk = (.ok (), { disk with fs := fs' }) ∧
      Laid home (.below ["overlays"] :: dirs) files fs' := by
  have hending : PathBuf.ending ⟨"overlays"⟩ ≠ .dot := by decide
  have hparts : (PathBuf.toPath ⟨"overlays"⟩).parts = [.name "overlays"] := by decide
  have hstart : startOf home here ⟨"overlays"⟩ = home := by
    rw [startOf, root_here, if_neg (by decide)]
  obtain ⟨fs', hmade, hlaid⟩ := h.mkdir hfree
  refine ⟨fs', ?_, hlaid⟩
  rw [createDirAll, Stateful.exec_ofFun, createDirs, PathBuf.ending_join, if_neg hending, createDirAll_join h.base, hstart, hparts,
    hmade]
  rfl

/-- A document that is there. -/
theorem Laid.exists (h : Laid home dirs files fs) (hp : p ∈ documents bundle) (hinside : p.place.isOutside = false)
    (hway : ∀ q ∈ p.way, q ∈ dirs) (hthere : p.place ∈ dirs ∨ p.place ∈ files) : pathExists fs (here.join p) = true := by
  obtain ⟨hending, before, last, hparts⟩ := ending_document hp
  obtain ⟨l, hplace⟩ := Place.exists_below hinside
  obtain ⟨above, -, rfl, hgoes⟩ := resolve_below h.base hparts hplace (h.way hinside hway)
  rw [hplace] at hthere
  have hentry := h.entry (above ++ [last]) (by simp)
  rw [← List.append_assoc] at hentry
  rw [pathExists, PathBuf.ending_join, if_pos hending, FileSystem.pathExists, canonicalize, hgoes, root_here]
  by_cases hdir : .below (above ++ [last]) ∈ dirs
  · rw [if_pos hdir] at hentry
    rw [walk_name_dir hentry, walk_nil]
    rfl
  · rw [if_neg hdir, if_pos (hthere.resolve_left hdir)] at hentry
    rw [walk_name_file hentry]
    rfl

end

/-! ### The first conflict that is not foreseen -/

section

variable {bundle : PortableBundle} {sketch : Sketch} {p : PathBuf} {before : List Step}

theorem exists_unforeseen {overlays : List PathBuf} {inputs : List Step} (h : Reached before sketch)
    (hinside : sketch.staysInside (overlays.map .document ++ inputs) = true)
    (hforeseen : allForeseen bundle sketch overlays = false) :
    ∃ earlier p later sketch', overlays = earlier ++ p :: later ∧ Reached (before ++ earlier.map .document) sketch' ∧
      (∀ q ∈ p.way, q ∉ sketch'.files) ∧ p.place.isOutside = false ∧ foreseen bundle sketch' p = false := by
  induction overlays generalizing before sketch with
  | nil => cases hforeseen
  | cons p overlays ih =>
    rw [allForeseen, Bool.or_eq_false_iff, Bool.and_eq_false_iff] at hforeseen
    rw [List.map_cons, List.cons_append, Sketch.staysInside, Bool.or_eq_true, Bool.and_eq_true, Bool.not_eq_true'] at hinside
    obtain ⟨hway, hforeseen⟩ := hforeseen
    by_cases hnow : foreseen bundle sketch p = true
    · obtain ⟨hblocks, hlater⟩ := Bool.or_eq_false_iff.mp (hforeseen.resolve_left (by simp [hnow]))
      obtain ⟨hleaves, hrest⟩ := hinside.resolve_left (by simp [hblocks])
      obtain ⟨earlier, late, later, sketch', rfl, hreached, hlate⟩ := ih (h.step hblocks hleaves) hrest hlater
      rw [List.append_assoc] at hreached
      exact ⟨p :: earlier, late, later, sketch', rfl, hreached, hlate⟩
    · refine ⟨[], p, overlays, sketch, rfl, by rwa [List.map_nil, List.append_nil], fun q hq hfile => ?_, ?_,
        Bool.eq_false_iff.mpr hnow⟩
      · exact List.any_eq_false.mp hway q hq (by simpa using hfile)
      · rcases hinside with hblocks | ⟨hleaves, -⟩
        · rcases Bool.or_eq_true_iff.mp hblocks with hneeds | hplace
          · rw [show (Step.document p).needs.any sketch.files.contains = false from hway] at hneeds
            cases hneeds
          · simpa using (Bool.and_eq_true_iff.mp hplace).1
        · exact hleaves

theorem Reached.files (h : Reached before sketch) : ∀ q ∈ sketch.files, ∃ m, .document m ∈ before ∧ q = m.place := by
  induction h with
  | nothing => simp [Sketch.empty]
  | @step before sketch step h _ _ ih =>
    have hold : ∀ q ∈ sketch.files, ∃ m, .document m ∈ before ++ [step] ∧ q = m.place := by
      intro q hq
      obtain ⟨m, hm, rfl⟩ := ih q hq
      exact ⟨m, List.mem_append_left _ hm, rfl⟩
    cases step with
    | document p => exact List.forall_mem_cons.mpr ⟨⟨p, by simp, rfl⟩, hold⟩
    | directory p => exact hold
    | placeholder p => exact hold

/-- The definition is not written where the directory of the overlays is to be. -/
theorem definition_ne_overlays : (definitionPath bundle).place ≠ .below ["overlays"] := by
  obtain ⟨⟨before, last, hparts, hyaml⟩, -⟩ := parts_yaml bundle.deployment.metadata.name
  intro hplace
  rw [PathBuf.place, definitionPath, hparts, Place.after_append] at hplace
  cases hbefore : (PathBuf.origin ⟨s!"{bundle.deployment.metadata.name}.yaml"⟩).after before with
  | outside above since =>
    rw [hbefore] at hplace
    have hout := Place.isOutside_after (show (Place.outside above since).isOutside = true from rfl) [.name last]
    rw [hplace] at hout
    cases hout
  | below above =>
    rw [hbefore] at hplace
    obtain ⟨-, hlast⟩ := List.append_inj' (show above ++ [last] = [] ++ ["overlays"] from Place.below.inj hplace) rfl
    rw [List.singleton_inj.mp hlast] at hyaml
    revert hyaml
    decide

/-- An overlay names the directory of the overlays, or is outside. -/
theorem exists_place_overlay {name : String} :
    ∃ q ∈ (overlayPath name).places, q = .below ["overlays"] ∨ q.isOutside = true := by
  by_cases habs : (PathBuf.mk s!"{name}.yaml").isAbsolute = true
  · obtain ⟨⟨before, last, hparts, -⟩, -⟩ := parts_yaml name
    have hpath : overlayPath name = ⟨s!"{name}.yaml"⟩ := PathBuf.join_of_isAbsolute habs
    refine ⟨(overlayPath name).place, ?_, .inr ?_⟩
    · rw [hpath, PathBuf.place, PathBuf.places, hparts]
      exact Place.after_mem_named ..
    · rw [hpath, PathBuf.place, PathBuf.origin, if_pos habs]
      exact Place.isOutside_after rfl _
  · have hrel := Bool.eq_false_iff.mpr habs
    have hoverlays : (PathBuf.toPath ⟨"overlays"⟩).parts = [.name "overlays"] := by decide
    have hparts : (overlayPath name).toPath.parts = .name "overlays" :: (PathBuf.toPath ⟨s!"{name}.yaml"⟩).parts := by
      rw [overlayPath, yamlPath, PathBuf.parts_join hrel, hoverlays]
      rfl
    have horigin : (overlayPath name).origin = .below [] := by
      have hoverlaysRel : PathBuf.isAbsolute ⟨"overlays"⟩ = false := by decide
      rw [PathBuf.origin, overlayPath, yamlPath, PathBuf.isAbsolute_join_of_relative hrel, hoverlaysRel]
      rfl
    refine ⟨.below ["overlays"], ?_, .inl rfl⟩
    rw [PathBuf.places, hparts, horigin]
    exact List.mem_cons_self ..

/-! ### A directory for it -/

/-- The number of all parts of the documents. -/
def documentsDepth (bundle : PortableBundle) : ℕ := ((documents bundle).map (·.toPath.parts.length)).sum

/-- The length of all names of the documents. -/
def documentsSize (bundle : PortableBundle) : ℕ :=
  (((documents bundle).flatMap fun m => (Place.outside none m.toPath.parts).outerNames).map String.length).sum

theorem documents_room (hp : p ∈ documents bundle) : p.toPath.parts.length ≤ documentsDepth bundle ∧
    ∀ name, .name name ∈ p.toPath.parts → name.length ≤ documentsSize bundle := by
  refine ⟨List.le_sum_of_mem (List.mem_map_of_mem hp), fun name hname => ?_⟩
  refine List.le_sum_of_mem (List.mem_map_of_mem (List.mem_flatMap.mpr ⟨p, hp, ?_⟩))
  exact List.mem_filterMap.mpr ⟨_, hname, rfl⟩

/-- What names something that is missing is not there. -/
theorem not_exists_of_missing {land : Landscape} (hinside : ∀ q ∈ land.dirs, q.isOutside = false)
    (hdepth : documentsDepth bundle < land.depth) (hsize : documentsSize bundle ≤ land.size) (hp : p ∈ documents bundle)
    {q : Place} (hq : q ∈ p.places) (hdirs : q ∉ land.dirs) (hfiles : ∀ l ∈ land.files, q ≠ .below l) :
    pathExists land.fs (here.join p) = false := by
  refine Bool.eq_false_iff.mpr fun hthere => ?_
  rw [pathExists, PathBuf.ending_join, if_pos (ending_document hp).1, FileSystem.pathExists, canonicalize] at hthere
  obtain ⟨final, hfinal⟩ := Option.isSome_iff_exists.mp hthere
  rw [resolve_join (laid_landscape land).base (names_document hp)] at hfinal
  obtain ⟨hlength, hnames⟩ := documents_room hp
  have hstands : land.Stands p.origin (startOf land.home here p) := by
    rw [PathBuf.origin, startOf, root_here]
    split_ifs
    · exact .top
    · exact .here
  have hextent : p.origin.extent = 0 := by
    rw [PathBuf.origin]
    split_ifs
    · rfl
    · rfl
  rcases land.mem_of_walk hinside hstands (by omega) (fun name hname => (hnames name hname).trans hsize) hfinal q hq with
    hmem | ⟨l, hl, heq⟩
  · exact hdirs hmem
  · exact hfiles l hl heq

/-- A directory in which an overlay is there when the import comes to it, but no document was before. -/
structure Late (bundle : PortableBundle) (land : Landscape) (sketch : Sketch) (p : PathBuf) : Prop where
  known : ∀ q ∈ p.way ++ sketch.dirs, q ∈ land.dirs ∨ q = .below ["overlays"]
  dirs : ∀ q ∈ land.dirs, q ∈ p.way ++ sketch.dirs
  definition : ∀ q ∈ (definitionPath bundle).way, q ∈ land.dirs
  absent : ∀ m ∈ documents bundle, pathExists land.fs (here.join m) = false
  there : p.place ∈ p.way ++ sketch.dirs ∨ p.place ∈ sketch.files ∨ ∃ l ∈ land.files, p.place = .below l
  free : ["overlays"] ∉ land.files

/-- The steps before an overlay. -/
def overlaySteps (bundle : PortableBundle) (earlier : List PathBuf) : List Step :=
  .document (definitionPath bundle) :: .directory ⟨"overlays"⟩ :: earlier.map .document

variable {earlier : List PathBuf}

/-- All that an import knows when it comes to an overlay. -/
theorem known_overlaySteps (h : Reached (overlaySteps bundle earlier) sketch) (hplace : p.place.isOutside = false)
    (hway : ∀ q ∈ p.way, q ∉ sketch.files) :
    (∀ q ∈ p.way ++ sketch.dirs, q.isOutside = false) ∧ .below ["overlays"] ∈ sketch.dirs ∧
      (∀ q ∈ sketch.files, q ∉ p.way ++ sketch.dirs) ∧
      ∀ m, m = definitionPath bundle ∨ m ∈ earlier → (∀ q ∈ m.way, q ∈ sketch.dirs) ∧ m.place ∈ sketch.files := by
  have hearly : ∀ step ∈ overlaySteps bundle earlier, step.Early := by
    refine List.forall_mem_cons.mpr ⟨trivial, List.forall_mem_cons.mpr ⟨rfl, fun step hstep => ?_⟩⟩
    obtain ⟨m, -, rfl⟩ := List.mem_map.mp hstep
    trivial
  refine ⟨List.forall_mem_append.mpr ⟨fun q hq => ?_, h.inside hearly⟩, ?_, fun q hq hmem => ?_, fun m hm => ?_⟩
  · exact Place.not_outside_of_after hplace q (way_subset hq)
  · have hneeds : (Step.directory ⟨"overlays"⟩).needs = [.below ["overlays"]] := by decide
    exact (h.knows (.directory ⟨"overlays"⟩) (by simp [overlaySteps])).1 _ (by rw [hneeds]; exact List.mem_singleton_self _)
  · rcases List.mem_append.mp hmem with hmem | hmem
    · exact hway q hmem hq
    · exact (h.apart q hq).2 hmem
  · refine h.knows (.document m) ?_
    rcases hm with rfl | hm
    · exact List.mem_cons_self ..
    · exact List.mem_cons_of_mem _ (List.mem_cons_of_mem _ (List.mem_map_of_mem hm))

/-- Above the place of a document there is the directory, or what is on its way. -/
theorem mem_way_of_place (hp : p ∈ documents bundle) {location : Location} {name : String}
    (h : p.place = .below (location ++ [name])) : location = [] ∨ .below location ∈ p.way := by
  obtain ⟨-, before, last, hparts⟩ := ending_document hp
  have hanchored : (p.origin.after before).Anchored p.way := by
    refine (anchored_origin _ p).after fun q hq => ?_
    rwa [PathBuf.way, hparts, List.dropLast_concat]
  rw [PathBuf.place, hparts, Place.after_append] at h
  cases hafter : p.origin.after before with
  | outside above since =>
    rw [hafter] at h
    have hout := Place.isOutside_after (show (Place.outside above since).isOutside = true from rfl) [.name last]
    rw [h] at hout
    cases hout
  | below above =>
    rw [hafter] at h hanchored
    obtain ⟨rfl, -⟩ := List.append_inj' (show above ++ [last] = location ++ [name] from Place.below.inj h) rfl
    rcases List.eq_nil_or_concat above with rfl | ⟨first, next, rfl⟩
    · exact .inl rfl
    · rw [List.concat_eq_append] at hanchored ⊢
      exact .inr (hanchored first next [] rfl)

/-- The file of an overlay, if the import neither knows it as a directory nor has written it. -/
theorem exists_unwritten (sketch : Sketch) (hplace : p.place.isOutside = false) : ∃ files : List Location,
    (∀ l ∈ files, p.place = .below l ∧ p.place ∉ p.way ++ sketch.dirs ∧ p.place ∉ sketch.files) ∧
      (p.place ∈ p.way ++ sketch.dirs ∨ p.place ∈ sketch.files ∨ ∃ l ∈ files, p.place = .below l) := by
  by_cases hold : p.place ∈ p.way ++ sketch.dirs ∨ p.place ∈ sketch.files
  · exact ⟨[], by simp, hold.imp_right .inl⟩
  · obtain ⟨l, hl⟩ := Place.exists_below hplace
    refine ⟨[l], fun l' hl' => ?_, .inr (.inr ⟨l, List.mem_singleton_self _, hl⟩)⟩
    rw [List.mem_singleton.mp hl']
    exact ⟨hl, not_or.mp hold⟩

section

variable (h : Reached (overlaySteps bundle earlier) sketch) (hplace : p.place.isOutside = false)
  (hway : ∀ q ∈ p.way, q ∉ sketch.files) (hp : p ∈ documents bundle) (hforeseen : foreseen bundle sketch p = false)

include h hplace hway hforeseen

/-- A directory in which that of the overlays was there before. -/
theorem exists_late_there (hthere : overlaysThere bundle (p.way ++ sketch.dirs) = true) : ∃ land, Late bundle land sketch p := by
  obtain ⟨hinside, -, -, hknown⟩ := known_overlaySteps h hplace hway
  have hclosed : Place.Closed (p.way ++ sketch.dirs) := h.closed.named (anchored_origin [] p) _
  rw [foreseen, if_pos hthere, Bool.or_eq_false_iff, Bool.not_eq_false', List.any_eq_false] at hforeseen
  obtain ⟨hfile, hnone⟩ := hforeseen
  refine ⟨.ofPlaces (p.way ++ sketch.dirs) [] (documentsSize bundle) (documentsDepth bundle) hclosed (by simp),
    fun q hq => .inl hq, fun q hq => hq, fun q hq => List.mem_append_right _ ((hknown _ (.inl rfl)).1 q hq), fun m hm => ?_,
    .inr (.inl (by simpa using hfile)), by simp [Landscape.ofPlaces]⟩
  obtain ⟨q, hq, hnot⟩ : ∃ q ∈ m.places, q ∉ p.way ++ sketch.dirs := by
    simpa [List.all_eq_true] using hnone m hm
  exact not_exists_of_missing hinside Landscape.ofPlaces_room.1 Landscape.ofPlaces_room.2 hm hq hnot (by simp [Landscape.ofPlaces])

include hp

/-- A directory in which it was not, and so no overlay; the overlay is there where it is not in it. -/
theorem exists_late_missing (hthere : overlaysThere bundle (p.way ++ sketch.dirs) = false) : ∃ land, Late bundle land sketch p := by
  obtain ⟨hinside, hoverlays, hapart, hknown⟩ := known_overlaySteps h hplace hway
  obtain ⟨hdefinition, hwritten⟩ := hknown _ (.inl rfl)
  rw [foreseen, hthere, if_neg Bool.false_ne_true, Bool.and_eq_false_iff] at hforeseen
  obtain ⟨hnotWay, hnone⟩ := Bool.or_eq_false_iff.mp hthere
  have hbeneath : ∀ q ∈ p.way ++ sketch.dirs, q.isBeneath ["overlays"] = false := fun q hq =>
    Bool.eq_false_iff.mpr (List.any_eq_false.mp hnone q hq)
  have hclosed : Place.Closed ((p.way ++ sketch.dirs).filter (· ≠ .below ["overlays"])) :=
    (h.closed.named (anchored_origin [] p) _).without hbeneath
  have hmem : ∀ q, q ∈ (p.way ++ sketch.dirs).filter (· ≠ .below ["overlays"]) ↔
      q ∈ p.way ++ sketch.dirs ∧ q ≠ .below ["overlays"] := fun q =>
    List.mem_filter.trans (and_congr_right fun _ => decide_eq_true_iff)
  obtain ⟨files, hnew, hfiles⟩ := exists_unwritten sketch hplace
  have hfree : ["overlays"] ∉ files := fun hl => (hnew _ hl).2.1 ((hnew _ hl).1 ▸ List.mem_append_right _ hoverlays)
  have habove : ∀ location name, location ++ [name] ∈ files →
      location = [] ∨ .below location ∈ (p.way ++ sketch.dirs).filter (· ≠ .below ["overlays"]) := by
    intro location name hl
    obtain ⟨heq, -, hunwritten⟩ := hnew _ hl
    refine (mem_way_of_place hp heq).imp_right fun hlocation => (hmem _).mpr ⟨List.mem_append_left _ hlocation, fun hover => ?_⟩
    rw [Place.below.inj hover] at heq
    rcases hforeseen with hnot | hfile
    · refine Bool.eq_false_iff.mp hnot ?_
      rw [heq, Place.isBeneath_below]
      exact ⟨List.prefix_append _ _, by simp⟩
    · exact hunwritten (by simpa using hfile)
  refine ⟨.ofPlaces _ files (documentsSize bundle) (documentsDepth bundle) hclosed habove, fun q hq => ?_,
    fun q hq => ((hmem q).mp hq).1, fun q hq => (hmem q).mpr ⟨List.mem_append_right _ (hdefinition q hq), ?_⟩, fun m hm => ?_,
    hfiles, hfree⟩
  · by_cases hover : q = .below ["overlays"]
    · exact .inr hover
    · exact .inl ((hmem q).mpr ⟨hq, hover⟩)
  · rintro rfl
    exact absurd hq (by simpa using hnotWay)
  · have hmissing := @not_exists_of_missing bundle m (.ofPlaces _ files (documentsSize bundle) (documentsDepth bundle) hclosed habove)
      (fun q hq => hinside q ((hmem q).mp hq).1) Landscape.ofPlaces_room.1 Landscape.ofPlaces_room.2 hm
    rcases List.mem_cons.mp hm with rfl | hm
    · obtain ⟨-, before, last, hparts⟩ := ending_document hm
      refine @hmissing (definitionPath bundle).place ?_ (fun hdir => ?_) fun l hl heq => ?_
      · rw [PathBuf.place, PathBuf.places, hparts]
        exact Place.after_mem_named ..
      · exact hapart _ hwritten ((hmem _).mp hdir).1
      · obtain ⟨hsame, -, hunwritten⟩ := hnew l hl
        exact hunwritten (hsame ▸ heq ▸ hwritten)
    · obtain ⟨name, -, rfl⟩ := List.mem_map.mp hm
      obtain ⟨q, hq, hover | hout⟩ := @exists_place_overlay name
      · refine hmissing hq (fun hdir => ((hmem q).mp hdir).2 hover) fun l hl heq => ?_
        exact hfree (Place.below.inj (hover.symm.trans heq) ▸ hl)
      · refine hmissing hq (fun hdir => ?_) fun l hl heq => ?_
        · rw [hinside q ((hmem q).mp hdir).1] at hout
          cases hout
        · rw [heq] at hout
          cases hout

/-- **A directory for a conflict that is not foreseen.** -/
theorem exists_late : ∃ land, Late bundle land sketch p := by
  by_cases hthere : overlaysThere bundle (p.way ++ sketch.dirs) = true
  · exact exists_late_there h hplace hway hforeseen hthere
  · exact exists_late_missing h hplace hway hp hforeseen (Bool.eq_false_iff.mpr hthere)

end

/-! ### The conflict comes too late -/

/-- A conflict after something was written. -/
def Halfway (error : BundleError) (disk : Disk) : Prop := error.code = .bundleWriteConflict ∧ disk.written ≠ []

/-- An import on its way to an overlay, with these directories and at least these files. -/
def Toward (home : Location) (dirs written : List Place) (disk : Disk) : Prop :=
  ∃ files, Laid home dirs files disk.fs ∧ (∀ q ∈ written, q ∈ files) ∧ disk.written ≠ []

section

variable {home : Location} {dirs written : List Place} {around : Surroundings} {failed : BundleError → Disk → Prop}
  {holds after : Disk → Prop} {land : Landscape}

theorem Toward.mono {written' : List Place} {disk : Disk} (h : Toward home dirs written disk) (hsub : ∀ q ∈ written', q ∈ written) :
    Toward home dirs written' disk := by
  obtain ⟨files, hlaid, hwritten, hsome⟩ := h
  exact ⟨files, hlaid, fun q hq => hwritten q (hsub q hq), hsome⟩

/-- A step that does not fail. -/
theorem ensures_of_ok {m : Importing Unit} (h : ∀ disk, holds disk → ∃ disk', m.exec disk = (.ok (), disk') ∧ after disk') :
    m.Ensures holds (fun _ => after) failed := by
  intro disk hdisk
  obtain ⟨disk', hrun, hafter⟩ := h disk hdisk
  rw [hrun]
  refine ⟨fun value disk'' heq => ?_, fun error disk'' heq => ?_⟩
  · cases heq
    exact hafter
  · cases heq

theorem ensures_refuse_none {code : BundleErrorCode} : (refuse code p none).Ensures holds (fun _ => holds) failed :=
  .pure fun _ h => h

/-- What is not there is not refused. -/
theorem ensures_passes (h : ∀ disk, holds disk → pathExists disk.fs p = false) :
    (refuseExisting false p).Ensures holds (fun _ => holds) failed := by
  refine ensures_of_ok fun disk hdisk => ⟨disk, ?_, hdisk⟩
  rw [refuseExisting, Stateful.exec_ofFun, h disk hdisk]
  rfl

/-- After something was written a refusal is one halfway. -/
theorem ensures_refused (h : ∀ disk, holds disk → disk.written ≠ []) :
    (refuseExisting false p).Ensures holds (fun _ disk => pathExists disk.fs p = false ∧ holds disk) Halfway := by
  intro disk hdisk
  rw [refuseExisting, Stateful.exec_ofFun]
  refine ⟨fun value disk' hrun => ?_, fun error disk' hrun => ?_⟩
  · obtain ⟨hresult, rfl⟩ := Prod.mk.inj hrun
    split_ifs at hresult with hcheck
    exact ⟨by simpa using hcheck, hdisk⟩
  · obtain ⟨hresult, rfl⟩ := Prod.mk.inj hrun
    split_ifs at hresult
    cases hresult
    exact ⟨rfl, h disk hdisk⟩

/-- An overlay that can be written: it is, or it is refused halfway. -/
theorem ensures_toward {entry : String × Encoding.UnplacedOverlay} (hp : overlayPath entry.1 ∈ documents bundle)
    (hplace : (overlayPath entry.1).place.isOutside = false) (hway : ∀ q ∈ (overlayPath entry.1).way, q ∈ dirs)
    (hfree : (overlayPath entry.1).place ∉ dirs) :
    (writeOverlay quiet false (here.join ⟨"overlays"⟩) entry).Ensures (Toward home dirs written)
      (fun _ => Toward home dirs ((overlayPath entry.1).place :: written)) Halfway := by
  have hyaml : quiet.overlayYaml entry.2 = none := rfl
  rw [writeOverlay, yamlPath_overlays, hyaml]
  have hrefused : (refuseExisting false (here.join (overlayPath entry.1))).Ensures (Toward home dirs written)
      (fun _ => Toward home dirs written) Halfway :=
    (ensures_refused fun disk h => h.choose_spec.2.2).mono (fun _ h => h) (fun _ _ h => h.2) fun _ _ h => h
  refine .bind hrefused fun _ => .bind ensures_refuse_none fun _ => ensures_of_ok fun disk hdisk => ?_
  obtain ⟨files, hlaid, hwritten, -⟩ := hdisk
  obtain ⟨disk', hrun, hlaid', hsome⟩ := @Laid.write home dirs files disk quiet _ bundle hlaid hp hplace hway hfree
  exact ⟨disk', hrun, _, hlaid', List.forall_mem_cons.mpr ⟨List.mem_cons_self .., fun q hq => List.mem_cons_of_mem _ (hwritten q hq)⟩,
    hsome⟩

/-- The overlay that is there. -/
theorem ensures_conflict {entry : String × Encoding.UnplacedOverlay} (hp : overlayPath entry.1 ∈ documents bundle)
    (hplace : (overlayPath entry.1).place.isOutside = false) (hway : ∀ q ∈ (overlayPath entry.1).way, q ∈ dirs)
    (hthere : (overlayPath entry.1).place ∈ dirs ∨ (overlayPath entry.1).place ∈ written) :
    (writeOverlay quiet false (here.join ⟨"overlays"⟩) entry).Ensures (Toward home dirs written) (fun _ _ => False) Halfway := by
  rw [writeOverlay, yamlPath_overlays]
  refine .bind (ensures_refused fun disk h => h.choose_spec.2.2) fun _ => ?_
  rintro disk ⟨habsent, files, hlaid, hwritten, -⟩
  rw [hlaid.exists hp hplace hway (hthere.imp_right (hwritten _))] at habsent
  cases habsent

/-- Overlays that can be written one after another. -/
theorem ensures_earlier {overlays : List (String × Encoding.UnplacedOverlay)} (h : ∀ entry ∈ overlays,
    overlayPath entry.1 ∈ documents bundle ∧ (overlayPath entry.1).place.isOutside = false ∧
      (∀ q ∈ (overlayPath entry.1).way, q ∈ dirs) ∧ (overlayPath entry.1).place ∉ dirs) :
    (overlays.forM (writeOverlay quiet false (here.join ⟨"overlays"⟩))).Ensures (Toward home dirs written)
      (fun _ => Toward home dirs (overlays.map (fun entry => (overlayPath entry.1).place) ++ written)) Halfway := by
  induction overlays generalizing written with
  | nil => exact .pure fun _ h => h
  | cons entry overlays ih =>
    obtain ⟨⟨hp, hplace, hway, hfree⟩, hlater⟩ := List.forall_mem_cons.mp h
    refine .bind (ensures_toward hp hplace hway hfree) fun _ => (ih hlater).mono (fun _ hdisk => hdisk)
      (fun _ disk hdisk => hdisk.mono fun q hq => ?_) fun _ _ h => h
    simpa [or_left_comm] using hq

/-- What is in the directory when the definition is written. -/
def Started (bundle : PortableBundle) (land : Landscape) (disk : Disk) : Prop :=
  Laid land.home land.dirs ((definitionPath bundle).place :: land.files.map .below) disk.fs ∧ disk.written ≠ []

section

variable (hlate : Late bundle land sketch p) (h : Reached (overlaySteps bundle earlier) sketch)
  (hplace : p.place.isOutside = false) (hway : ∀ q ∈ p.way, q ∉ sketch.files)

include hlate

/-- Before anything is written nothing is refused. -/
theorem ensures_checks : (bundle.overlays.keys.forM fun name =>
    refuseExisting false (yamlPath (here.join ⟨"overlays"⟩) name)).Ensures (· = ⟨land.fs, []⟩) (fun _ => (· = ⟨land.fs, []⟩))
    failed := by
  refine @Stateful.Ensures.forM _ _ _ _ (fun _ (disk : Disk) => disk = ⟨land.fs, []⟩) _ _ fun done name later hkeys => ?_
  rw [yamlPath_overlays]
  refine ensures_passes fun disk hdisk => ?_
  rw [hdisk]
  refine hlate.absent _ (List.mem_cons_of_mem _ (List.mem_map_of_mem ?_))
  rw [hkeys]
  simp

include h

/-- The overlay is there when the import comes to it. -/
theorem late_there {first : List (String × Encoding.UnplacedOverlay)}
    (hfirst : first.map (fun entry => overlayPath entry.1) = earlier) : p.place ∈ p.way ++ sketch.dirs ∨
      p.place ∈ first.map (fun entry => (overlayPath entry.1).place) ++ (definitionPath bundle).place :: land.files.map .below := by
  refine hlate.there.imp_right fun hthere => List.mem_append.mpr ?_
  rcases hthere with hfile | ⟨l, hl, heq⟩
  · obtain ⟨m, hm, hsame⟩ := h.files _ hfile
    rcases List.mem_cons.mp hm with heq | hm
    · rw [hsame, Step.document.inj heq]
      exact .inr (List.mem_cons_self ..)
    · obtain ⟨m', hm', heq⟩ := List.mem_map.mp ((List.mem_cons.mp hm).resolve_left (by simp))
      rw [← hfirst] at hm'
      obtain ⟨entry, hentry, rfl⟩ := List.mem_map.mp hm'
      rw [hsame, ← Step.document.inj heq]
      exact .inl (List.mem_map.mpr ⟨entry, hentry, rfl⟩)
  · rw [heq]
    exact .inr (List.mem_cons_of_mem _ (List.mem_map_of_mem hl))

include hplace hway

theorem ensures_started : (write quiet (here.join (definitionPath bundle))).Ensures (· = ⟨land.fs, []⟩)
    (fun _ => Started bundle land) failed := by
  obtain ⟨-, -, hapart, hknown⟩ := known_overlaySteps h hplace hway
  obtain ⟨-, hwritten⟩ := hknown _ (.inl rfl)
  refine ensures_of_ok fun disk hdisk => ?_
  subst hdisk
  exact @Laid.write _ _ _ ⟨land.fs, []⟩ quiet _ bundle (laid_landscape land) (List.mem_cons_self ..) (h.apart _ hwritten).1
    hlate.definition fun hdir => hapart _ hwritten (hlate.dirs _ hdir)

theorem ensures_overlaysMade (hsome : bundle.overlays.keys ≠ []) :
    (createOverlaysDir quiet bundle (here.join ⟨"overlays"⟩)).Ensures (Started bundle land)
      (fun _ => Toward land.home (p.way ++ sketch.dirs) ((definitionPath bundle).place :: land.files.map .below)) failed := by
  obtain ⟨-, hoverlays, -, -⟩ := known_overlaySteps h hplace hway
  rw [createOverlaysDir, if_neg hsome]
  refine ensures_of_ok fun disk hdisk => ?_
  have hfree : Place.below ["overlays"] ∉ (definitionPath bundle).place :: land.files.map .below := by
    refine List.not_mem_cons_of_ne_of_not_mem definition_ne_overlays.symm fun hmem => ?_
    obtain ⟨l, hl, heq⟩ := List.mem_map.mp hmem
    exact hlate.free (Place.below.inj heq ▸ hl)
  obtain ⟨fs', hrun, hlaid⟩ := @Laid.createOverlays _ _ _ disk quiet hdisk.1 hfree
  refine ⟨_, hrun, _, hlaid.congr fun q => ⟨fun hq => ?_, fun hq => ?_⟩, fun q hq => hq, hdisk.2⟩
  · rcases hlate.known q hq with hmem | rfl
    · exact List.mem_cons_of_mem _ hmem
    · exact List.mem_cons_self ..
  · rcases List.mem_cons.mp hq with rfl | hq
    · exact List.mem_append_right _ hoverlays
    · exact hlate.dirs q hq

/-- **The import ends halfway.** -/
theorem ensures_halfway {later : List PathBuf} (hsplit : bundle.overlays.keys.map overlayPath = earlier ++ p :: later) :
    (writeInto quiet bundle here false).Ensures (· = ⟨land.fs, []⟩) (fun _ _ => False) Halfway := by
  obtain ⟨-, -, hapart, hknown⟩ := known_overlaySteps h hplace hway
  have hsome : bundle.overlays.keys ≠ [] := by
    intro hnil
    rw [hnil] at hsplit
    simp at hsplit
  have hdocuments : ∀ m ∈ earlier ++ p :: later, m ∈ documents bundle := fun m hm => List.mem_cons_of_mem _ (hsplit ▸ hm)
  -- the overlays before it, the overlay itself and those after it
  rw [SortedMap.keys, List.map_map] at hsplit
  obtain ⟨first, rest, hentries, hfirst, hrest⟩ := List.map_eq_append_iff.mp hsplit
  obtain ⟨entry, last, rfl, rfl, -⟩ := List.map_eq_cons_iff.mp hrest
  have hearlier := @ensures_earlier bundle land.home ((overlayPath entry.1).way ++ sketch.dirs)
    ((definitionPath bundle).place :: land.files.map .below) first fun other hother => by
      have hmem : overlayPath other.1 ∈ earlier := hfirst ▸ List.mem_map_of_mem hother
      obtain ⟨hdirs, hwritten⟩ := hknown _ (.inr hmem)
      exact ⟨hdocuments _ (List.mem_append_left _ hmem), (h.apart _ hwritten).1, fun q hq => List.mem_append_right _ (hdirs q hq),
        hapart _ hwritten⟩
  have hconflict := @ensures_conflict bundle land.home ((overlayPath entry.1).way ++ sketch.dirs) _ entry (hdocuments _ (by simp))
    hplace (fun q hq => List.mem_append_left _ hq) (late_there hlate h hfirst)
  have hoverlays : (bundle.overlays.entries.forM (writeOverlay quiet false (here.join ⟨"overlays"⟩))).Ensures
      (Toward land.home ((overlayPath entry.1).way ++ sketch.dirs) ((definitionPath bundle).place :: land.files.map .below))
      (fun _ _ => False) Halfway := by
    have happend : (first ++ entry :: last).forM (writeOverlay quiet false (here.join ⟨"overlays"⟩)) = (do
        first.forM (writeOverlay quiet false (here.join ⟨"overlays"⟩))
        (entry :: last).forM (writeOverlay quiet false (here.join ⟨"overlays"⟩))) := List.forM_append
    rw [hentries, happend]
    exact .bind hearlier fun _ => .bind hconflict fun _ => fun _ hfalse => hfalse.elim
  have hyaml : quiet.deploymentYaml bundle.deployment = none := rfl
  rw [writeInto, hyaml]
  refine .bind (ensures_passes fun disk hdisk => ?_) fun _ => .bind (ensures_checks hlate) fun _ => .bind ensures_refuse_none fun _ =>
    .bind (ensures_started hlate h hplace hway) fun _ => .bind (ensures_overlaysMade hlate h hplace hway hsome) fun _ =>
    .bind hoverlays fun _ => fun _ hfalse => hfalse.elim
  rw [hdisk]
  exact hlate.absent _ (List.mem_cons_self ..)

end

/-- **A bundle with a conflict that is not foreseen** stops halfway somewhere. -/
theorem exists_not_allOrNothing (hinside : Sketch.empty.staysInside (bundleSteps bundle) = true)
    (hforeseen : conflictsForeseen bundle = false) :
    ∃ fs, LinkFree fs here ∧ ¬AllOrNothing fs here ((writeImportedBundle quiet bundle here false).exec ⟨fs, []⟩) := by
  obtain ⟨hfree, hforeseen⟩ := Bool.or_eq_false_iff.mp hforeseen
  have hsome : bundle.overlays.keys ≠ [] := by
    intro hnil
    rw [hnil] at hforeseen
    cases hforeseen
  have hoverlaysStep : overlaysStep bundle = [.directory ⟨"overlays"⟩] := if_neg hsome
  rw [hoverlaysStep] at hforeseen
  have hdocuments : bundle.overlays.keys.map (fun name => Step.document (overlayPath name)) =
      (bundle.overlays.keys.map overlayPath).map .document := by
    rw [List.map_map]
    rfl
  rw [bundleSteps, hoverlaysStep, hdocuments, List.singleton_append, Sketch.staysInside, hfree, Bool.false_or, Bool.and_eq_true,
    Bool.not_eq_true', List.singleton_append, Sketch.staysInside, Bool.or_eq_true] at hinside
  obtain ⟨hdefinition, hrest⟩ := hinside
  have hunblocked : (Sketch.empty.after (.document (definitionPath bundle))).blocks (.directory ⟨"overlays"⟩) = false := by
    have hneeds : (Step.directory ⟨"overlays"⟩).needs = [.below ["overlays"]] := by decide
    simp [Sketch.blocks, Sketch.after, Sketch.empty, hneeds, definition_ne_overlays.symm]
  obtain ⟨earlier, p, later, sketch, hsplit, hreached, hway, hplace, hlate⟩ := exists_unforeseen
    ((Reached.nothing.step hfree hdefinition).step hunblocked leaves_overlays)
    ((hrest.resolve_left (by simp [hunblocked])) |> Bool.and_eq_true_iff.mp |>.2) hforeseen
  have hp : p ∈ documents bundle := by
    refine List.mem_cons_of_mem _ ?_
    rw [hsplit]
    simp
  obtain ⟨land, hland⟩ := @exists_late _ _ _ _ hreached hplace hway hp hlate
  obtain ⟨hvalue, herror⟩ := ensures_halfway hland hreached hplace hway hsplit ⟨land.fs, []⟩ rfl
  refine ⟨land.fs, linkFree_here, fun hnothing => ?_⟩
  rw [exec_here] at hnothing
  rcases hrun : (writeInto quiet bundle here false).exec ⟨land.fs, []⟩ with ⟨error | value, disk⟩
  · obtain ⟨hconflict, hwritten⟩ := herror error disk hrun
    rw [hrun] at hnothing
    exact hwritten (congrArg Disk.written (hnothing error rfl hconflict))
  · exact hvalue value disk hrun

end

end

/-- A deployment without anything in it. -/
def bareDocument (name : String) : Document :=
  ⟨"apmpr.dev/v1alpha1", "Deployment", ⟨name, ∅⟩, ⟨[], ∅, ∅, ∅, ∅, [], ∅, ∅, none, ∅, "apmpr-router"⟩⟩

/-- An overlay without anything in it. -/
def bareOverlay (name : String) : Encoding.UnplacedOverlay :=
  ⟨⟨"apmpr.dev/v1alpha1", "Overlay", name, ⟨false, ∅, ∅, []⟩, ⟨[], ∅, []⟩, [], ∅, ∅, false, ⟨""⟩⟩, rfl⟩

/-- A bundle of documents of these names, before it is hashed. -/
def bareBundle (name : String) (overlays : List String) : PortableBundle where
  apiVersion := PORTABLE_BUNDLE_API_VERSION
  metadata := ⟨name, "1970-01-01T00:00:00Z", "0.1.0"⟩
  deployment := bareDocument name
  overlays := .ofList (overlays.map fun overlay => (overlay, bareOverlay overlay))
  requiredLocalInputs := []
  contentHash := ""

/-- The same with its hash. -/
def hashed (platform : Platform) (bundle : PortableBundle) : PortableBundle :=
  { bundle with contentHash := contentHash platform bundle }

/-- A directory to import into. -/
def importDirs : FileSystem := ofDirs [[], ["srv"], ["srv", "import"]] ["srv"] (by decide) (by decide) (by decide)

theorem importDirs_linkFree : LinkFree importDirs ⟨"/srv/import"⟩ := by
  have hplain : ∀ l target, importDirs.entry l ≠ some (.link target) := by
    intro l target
    by_cases hl : l ∈ [[], ["srv"], ["srv", "import"]]
    · rw [show importDirs.entry l = some .dir from if_pos hl]
      exact nofun
    · rw [show importDirs.entry l = none from if_neg hl]
      exact nofun
  exact ⟨fun l _ => hplain l, fun l _ => hplain l⟩

/-- Two overlays, a source directory with files of its own and a file of environment values. -/
def shopBundle : PortableBundle :=
  { bareBundle "shop" ["debug", "release"] with
    requiredLocalInputs :=
      [⟨"catalog", .sourceDirectory, "directory", "the catalog", [⟨"conf/app.toml"⟩, ⟨"data"⟩]⟩,
        ⟨"secrets/local.env", .dotenvFile, "dotenv", "the secrets", []⟩] }

/-- Overlays of which the second always fails, so that the third is never written outside. -/
def stoppedBundle : PortableBundle := bareBundle "shop" ["a", "a.yaml/b", "z/../../../evil"]

/-- What is written does not depend on the hash. -/
theorem writeImportedBundle_hashed (around : Surroundings) (platform : Platform) (bundle : PortableBundle) (into : PathBuf)
    (force : Bool) :
    writeImportedBundle around (hashed platform bundle) into force = writeImportedBundle around bundle into force := rfl

/-- Whether an import ended with a conflict. -/
def conflicted : Except BundleError ImportBundleResult → Bool
  | .error error => error.code = .bundleWriteConflict
  | .ok _ => false

/-- **Which bundles are contained.** Into every directory without links, and whatever the system says,
a bundle is written beneath the directory, and without `force` a conflict leaves nothing behind,
exactly if no step leaves the directory before one has failed and every conflict is foreseen. -/
theorem import_contained_iff (bundle : PortableBundle) :
    (∀ fs into around, LinkFree fs into →
      (∀ force, Stays fs into ((writeImportedBundle around bundle into force).exec ⟨fs, []⟩).2) ∧
        AllOrNothing fs into ((writeImportedBundle around bundle into false).exec ⟨fs, []⟩)) ↔ Contained bundle := by
  constructor
  · intro h
    have hinside : Sketch.empty.staysInside (bundleSteps bundle) = true := by
      by_contra hleaves
      obtain ⟨fs, hfree, hescapes⟩ := exists_not_stays (Bool.eq_false_iff.mpr hleaves)
      exact hescapes ((h fs here quiet hfree).1 true)
    refine ⟨hinside, ?_⟩
    by_contra hforeseen
    obtain ⟨fs, hfree, hhalfway⟩ := exists_not_allOrNothing hinside (Bool.eq_false_iff.mpr hforeseen)
    exact hhalfway (h fs here quiet hfree).2
  · intro hcontained fs into around hfree
    exact ⟨fun _ => stays hfree hcontained.inside, allOrNothing hfree hcontained⟩

/-- Both stay in the directory: of one everything is written, of the other the first overlay. -/
theorem import_contained_iff_shop :
    ((∀ force, Stays importDirs ⟨"/srv/import"⟩
        ((writeImportedBundle quiet shopBundle ⟨"/srv/import"⟩ force).exec ⟨importDirs, []⟩).2) ∧
      AllOrNothing importDirs ⟨"/srv/import"⟩
        ((writeImportedBundle quiet shopBundle ⟨"/srv/import"⟩ false).exec ⟨importDirs, []⟩)) ∧
      ((writeImportedBundle quiet shopBundle ⟨"/srv/import"⟩ false).exec ⟨importDirs, []⟩).2.written.map
          (List.drop 2) = [["required-local-inputs", "secrets", "local.env"],
        ["required-local-inputs", "catalog", "conf", "app.toml"], ["overlays", "release.yaml"], ["overlays", "debug.yaml"],
        ["shop.yaml"]] ∧
      ((∀ force, Stays importDirs ⟨"/srv/import"⟩
        ((writeImportedBundle quiet stoppedBundle ⟨"/srv/import"⟩ force).exec ⟨importDirs, []⟩).2) ∧
      AllOrNothing importDirs ⟨"/srv/import"⟩
        ((writeImportedBundle quiet stoppedBundle ⟨"/srv/import"⟩ false).exec ⟨importDirs, []⟩)) ∧
      ((writeImportedBundle quiet stoppedBundle ⟨"/srv/import"⟩ false).exec ⟨importDirs, []⟩).2.written.map
          (List.drop 2) = [["overlays", "a.yaml"], ["shop.yaml"]] :=
  ⟨(import_contained_iff shopBundle).mpr (by decide +kernel) _ _ quiet importDirs_linkFree, by decide +kernel,
    (import_contained_iff stoppedBundle).mpr (by decide +kernel) _ _ quiet importDirs_linkFree, by decide +kernel⟩

/-- Accepted bundles that are written outside, and that stop halfway. -/
theorem import_escapes :
    (∀ platform name overlays, parsePortableBundle platform (writePortableBundle (hashed platform (bareBundle name overlays))) =
        .ok (hashed platform (bareBundle name overlays))) ∧
      (∀ platform, ¬Stays importDirs ⟨"/srv/import"⟩
        ((writeImportedBundle quiet (hashed platform (bareBundle "../x" [])) ⟨"/srv/import"⟩ false).exec ⟨importDirs, []⟩).2) ∧
      ∀ platform, ¬AllOrNothing importDirs ⟨"/srv/import"⟩
        ((writeImportedBundle quiet (hashed platform (bareBundle "shop" ["a", "./a"])) ⟨"/srv/import"⟩ false).exec
          ⟨importDirs, []⟩) := by
  refine ⟨fun platform name overlays => ?_, fun platform h => ?_, fun platform h => ?_⟩
  · rw [parse_write, verify_ok_iff rfl rfl]
    refine (machineState_nil_iff _).mpr ⟨fun source _ hget => ?_, fun repository _ hget => ?_, fun key overlay hget => ?_⟩
    · cases hget
    · cases hget
    · rcases SortedMap.of_get?_insertAll hget with hmem | ⟨-, hempty⟩
      · obtain ⟨other, -, heq⟩ := List.mem_map.mp hmem
        obtain ⟨rfl, rfl⟩ := Prod.mk.inj heq
        rfl
      · cases hempty
  · rw [writeImportedBundle_hashed] at h
    have hwritten : ((writeImportedBundle quiet (bareBundle "../x" []) ⟨"/srv/import"⟩ false).exec ⟨importDirs, []⟩).2.written =
        [["srv", "x.yaml"]] := by decide +kernel
    have hbeneath := h.2 ["srv", "x.yaml"] (by rw [hwritten]; exact List.mem_singleton_self _)
    exact absurd hbeneath.1 (by decide)
  · rw [writeImportedBundle_hashed] at h
    have hrun : conflicted ((writeImportedBundle quiet (bareBundle "shop" ["a", "./a"]) ⟨"/srv/import"⟩ false).exec
        ⟨importDirs, []⟩).1 = true := by decide +kernel
    have hwritten : ((writeImportedBundle quiet (bareBundle "shop" ["a", "./a"]) ⟨"/srv/import"⟩ false).exec
        ⟨importDirs, []⟩).2.written = [["srv", "import", "overlays", "a.yaml"], ["srv", "import", "shop.yaml"]] := by
      decide +kernel
    generalize (writeImportedBundle quiet (bareBundle "shop" ["a", "./a"]) ⟨"/srv/import"⟩ false).exec ⟨importDirs, []⟩ =
      result at h hrun hwritten
    obtain ⟨error | value, disk⟩ := result
    · rw [h error rfl (by simpa [conflicted] using hrun)] at hwritten
      cases hwritten
    · cases hrun

end Import

end Planner

end Apmpr
