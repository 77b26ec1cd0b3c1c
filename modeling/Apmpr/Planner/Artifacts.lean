import Apmpr.Lib.FileTree
import Apmpr.Planner.Import
import Apmpr.Planner.InjectedFiles
import Apmpr.Planner.Panics

/-!
# Writing a plan

`write_plan` of the crate `apmpr-planner`, with `materialize_injected_files` and `write_atomic`.
A plan is written below its artifact directory, and paths are seen from there. Every file is
written under a temporary name, its own with the extension `tmp`, and renamed; an injected file
is then given its mode. Injected files are at
`overlays/<instance>/<digest of the content>/<name of the target>`, so that two targets of an
instance may share a directory, and even a path.

## What is proved

* `location_relativePath`: where an injected file is, and where its temporary name is.
* `ensures_materialize`: the injected files are put in place one after another.
* `spares_afterOverlays`: nothing else is written among them.
* `injected_files_materialised`: all injected files are there with what was planned iff the last
  one to touch the path of each has this path and is the same; `injected_files_differ` has a plan
  where it is not.
-/

namespace Apmpr

namespace Path

/-- The name with another extension: what comes after its last dot, unless it begins with it. -/
def nameWithExtension (name extension : String) : String :=
  let stem := match Text.rsplitOnce '.' name with
    | some (before, _) => if before = "" then name else before
    | none => name
  s!"{stem}.{extension}"

/-- `Path::with_extension`. -/
def withExtension (path : Path) (extension : String) : Path :=
  match path.fileName with
  | some name => ⟨path.start, path.parts.dropLast ++ [.name (nameWithExtension name extension)]⟩
  | none => path

/-- Where a path leads from a directory below which there are no links. -/
def location (path : Path) : Location := FileSystem.lexical [] path.parts

end Path

namespace Planner

/-! ### Writing -/

/-- `write_atomic`. -/
def writeAtomic (host : FileHost String) (path : Path) (content : String) : Stateful (FileTree String) String Unit := do
  let temporary := path.withExtension "tmp"
  host.perform (.write temporary.location content)
  host.perform (.rename temporary.location path.location)

/-- One file of `materialize_injected_files`. -/
def materializeInjectedFile (host : FileHost String) (file : InjectedFilePlan) : Stateful (FileTree String) String Unit := do
  let path := file.relativePath.toPath
  path.parent.toList.forM fun parent => host.perform (.createDirAll parent.location)
  writeAtomic host path file.content
  host.perform (.setMode path.location file.mode)

/-- `materialize_injected_files`. -/
def materializeInjectedFiles (host : FileHost String) (files : List InjectedFilePlan) :
    Stateful (FileTree String) String Unit := files.forM (materializeInjectedFile host)

/-- How the parts of a plan are written as text. -/
structure Serializer where
  compose : Json → String
  document : Document → String
  manifest : Plan → String
  routes : Json → String
  profile : ManagedProfilePlan → Except String String
  router : Router.RouterConfig → String

/-- The path of a text. -/
def artifact (name : String) : Path := PathBuf.toPath ⟨name⟩

/-- A JSON file in a directory of artifacts. -/
def jsonArtifact (directory name : String) : Path := ((⟨directory⟩ : PathBuf).join ⟨s!"{name}.json"⟩).toPath

/-- The managed profiles of a plan, written. -/
def writeProfiles (host : FileHost String) (serializer : Serializer) (profiles : List (String × ManagedProfilePlan)) :
    Stateful (FileTree String) String Unit :=
  if profiles.isEmpty then pure ()
  else do
    host.perform (.createDirAll (artifact "managed-profiles").location)
    profiles.forM fun (inst, profile) =>
      match serializer.profile profile with
      | .ok encoded => writeAtomic host (jsonArtifact "managed-profiles" inst) encoded
      | .error error => throw error

/-- The host router of a plan, written; or what was written before, removed. -/
def writeHostRouter (host : FileHost String) (serializer : Serializer) :
    Option Router.RouterConfig → Stateful (FileTree String) String Unit
  | some config => writeAtomic host (artifact "host-router.json") (serializer.router config)
  | none => host.performIfThere (artifact "host-router.json").location (.removeFile (artifact "host-router.json").location)

/-- What `write_plan` does after the injected files. -/
def writeArtifacts (host : FileHost String) (serializer : Serializer) (plan : Plan) :
    Stateful (FileTree String) String Unit := do
  writeAtomic host (artifact "compose.yaml") (serializer.compose plan.compose)
  plan.remoteProjects.values.forM fun remote =>
    writeAtomic host remote.composeFile.toPath (serializer.compose remote.compose)
  writeAtomic host (artifact "resolved-deployment.yaml") (serializer.document plan.resolvedDeployment)
  writeAtomic host (artifact "manifest.json") (serializer.manifest plan)
  plan.routeConfigs.entries.forM fun (consumer, config) =>
    writeAtomic host (jsonArtifact "routes" consumer) (serializer.routes config)
  host.performIfThere (artifact "managed-profiles").location (.removeDirAll (artifact "managed-profiles").location)
  writeProfiles host serializer plan.managedProfiles
  writeHostRouter host serializer plan.hostRouterConfig

/-- `write_plan`. -/
def writePlan (host : FileHost String) (serializer : Serializer) (workspaceRoot : PathBuf) (plan : Plan) :
    Stateful (FileTree String) String PathBuf := do
  host.perform (.createDirAll (artifact "routes").location)
  host.performIfThere (artifact "overlays").location (.removeDirAll (artifact "overlays").location)
  materializeInjectedFiles host plan.injectedFiles
  writeArtifacts host serializer plan
  return workspaceRoot.join plan.artifactDir

/-! ### Paths of artifacts -/

/-- A text that names a file: it is one name, and neither `.` nor `..`. -/
def IsFileName (name : String) : Prop := '/' ∉ name.toList ∧ PathBuf.component name = some (.normal name)

theorem isFileName_of_chars {name : String} (hne : name ≠ "") (h : ∀ c ∈ name.toList, isNameChar c = true) :
    IsFileName name := by
  have hdot : '.' ∉ name.toList := fun hmem => absurd (h _ hmem) (by decide)
  refine ⟨fun hmem => absurd (h _ hmem) (by decide), ?_⟩
  rw [PathBuf.component, if_neg, if_neg]
  · rintro rfl
    exact hdot (by decide)
  · rintro (rfl | rfl)
    · exact hne rfl
    · exact hdot (by decide)

/-- A text that is long enough, without separators, names a file. -/
theorem isFileName_of_length {name : String} (hlength : 2 < name.toList.length) (h : '/' ∉ name.toList) :
    IsFileName name := by
  refine ⟨h, ?_⟩
  rw [PathBuf.component, if_neg, if_neg]
  · rintro rfl
    exact absurd hlength (by decide)
  · rintro (rfl | rfl) <;> exact absurd hlength (by decide)

/-- A part between separators has none. -/
theorem not_mem_of_mem_splitChars {c : Char} {l part : List Char} (h : part ∈ Text.splitChars c l) : c ∉ part := by
  induction l generalizing part with
  | nil =>
    obtain rfl := List.mem_singleton.mp h
    exact List.not_mem_nil
  | cons a rest ih =>
    rw [Text.splitChars] at h
    split_ifs at h with ha
    · rcases List.mem_cons.mp h with rfl | h
      · exact List.not_mem_nil
      · exact ih h
    · split at h
      · obtain rfl := List.mem_singleton.mp h
        simpa using Ne.symm ha
      · rename_i first parts hsplit
        rcases List.mem_cons.mp h with rfl | h
        · have hfirst := ih (hsplit ▸ List.mem_cons_self ..)
          simp [Ne.symm ha, hfirst]
        · exact ih (hsplit ▸ List.mem_cons_of_mem _ h)

theorem isFileName_fileName {p : PathBuf} {name : String} (h : p.fileName = some name) : IsFileName name := by
  rw [PathBuf.fileName] at h
  cases hlast : p.components.getLast? with
  | none =>
    rw [hlast] at h
    cases h
  | some last =>
    rw [hlast] at h
    cases last with
    | rootDir => cases h
    | curDir => cases h
    | parentDir => cases h
    | normal other =>
      obtain rfl := Option.some.inj h
      have hpart : ∃ part ∈ Text.split '/' p.text, PathBuf.component part = some (.normal other) := by
        have hmem := List.mem_of_getLast? hlast
        rw [PathBuf.components] at hmem
        split_ifs at hmem
        · rcases List.mem_cons.mp hmem with heq | hmem
          · cases heq
          · exact List.mem_filterMap.mp hmem
        · rcases List.mem_cons.mp hmem with heq | hmem
          · cases heq
          · exact List.mem_filterMap.mp hmem
        · exact List.mem_filterMap.mp hmem
      obtain ⟨part, hsplit, hcomponent⟩ := hpart
      obtain rfl : part = other := by
        rw [PathBuf.component] at hcomponent
        split_ifs at hcomponent
        · cases hcomponent
        · exact PathBuf.Component.normal.inj (Option.some.inj hcomponent)
      obtain ⟨chars, hchars, rfl⟩ := List.mem_map.mp hsplit
      refine ⟨fun hslash => ?_, hcomponent⟩
      rw [String.toList_ofList] at hslash
      exact not_mem_of_mem_splitChars hchars hslash

/-- A path text that names a file below directories. -/
structure Names (p : PathBuf) (names : List String) : Prop where
  nonempty : p.text ≠ ""
  ended : Text.endsWith p.text "/" = false
  parts : p.toPath.parts = names.map .name

theorem endsWith_slash {before : List Char} {text name : String} (htext : text.toList = before ++ name.toList)
    (hne : name ≠ "") (h : '/' ∉ name.toList) : Text.endsWith text "/" = false := by
  rw [Bool.eq_false_iff]
  intro hends
  obtain ⟨start, hstart⟩ := List.isSuffixOf_iff_suffix.mp hends
  obtain ⟨init, last, hlast⟩ := (List.eq_nil_or_concat name.toList).resolve_left fun hnil =>
    hne (String.toList_eq_nil_iff.mp hnil)
  rw [htext, hlast, List.concat_eq_append, ← List.append_assoc] at hstart
  obtain ⟨-, hslash⟩ := List.append_inj' hstart rfl
  refine h ?_
  rw [hlast, List.concat_eq_append, ← hslash]
  exact List.mem_append_right _ (by decide)

theorem IsFileName.ne {name : String} (h : IsFileName name) : name ≠ "" := by
  rintro rfl
  exact absurd h.2 (by decide)

theorem Names.single {name : String} (h : IsFileName name) : Names ⟨name⟩ [name] := by
  refine ⟨h.ne, @endsWith_slash [] _ _ rfl h.ne h.1, ?_⟩
  rw [PathBuf.toPath_parts, Text.split, Text.splitChars_of_not_mem h.1]
  simp [PathBuf.pieceOf, h.2, PathBuf.Component.part]

theorem Names.join {p : PathBuf} {names : List String} (hp : Names p names) {name : String} (h : IsFileName name) :
    Names (p.join ⟨name⟩) (names ++ [name]) := by
  have hrelative : PathBuf.isAbsolute ⟨name⟩ = false := by
    rw [Bool.eq_false_iff]
    intro habsolute
    obtain ⟨rest, hrest⟩ := (PathBuf.isAbsolute_iff _).mp habsolute
    exact h.1 (hrest ▸ List.mem_cons_self ..)
  obtain ⟨before, hbefore⟩ := PathBuf.join_toList hp.nonempty hrelative
  refine ⟨fun hempty => ?_, ?_, ?_⟩
  · rw [hempty] at hbefore
    cases before <;> cases hbefore
  · exact @endsWith_slash (before ++ ['/']) _ _ (by rw [hbefore, List.append_assoc]; rfl) h.ne h.1
  · have hcomponents := PathBuf.components_join_name hp.nonempty hp.ended h.1 h.2
    have hparts := hp.parts
    rw [PathBuf.toPath] at hparts ⊢
    dsimp only at hparts ⊢
    rw [hcomponents, List.filterMap_append, hparts, List.map_append]
    rfl

theorem lexical_names (above : Location) (names : List String) :
    FileSystem.lexical above (names.map .name) = above ++ names := by
  induction names generalizing above with
  | nil => exact (List.append_nil _).symm
  | cons name rest ih =>
    rw [List.map_cons, FileSystem.lexical, ih, List.append_assoc]
    rfl

/-- Where a file and its temporary name are. -/
theorem Names.location {p : PathBuf} {above : List String} {name : String} (h : Names p (above ++ [name])) :
    p.toPath.location = above ++ [name] ∧
      (p.toPath.withExtension "tmp").location = above ++ [Path.nameWithExtension name "tmp"] := by
  have hname : p.toPath.fileName = some name := by
    rw [Path.fileName, h.parts, List.map_append, List.map_singleton, List.getLast?_concat]
  constructor
  · rw [Path.location, h.parts, lexical_names, List.nil_append]
  · rw [Path.withExtension, hname, Path.location, h.parts]
    dsimp only
    rw [List.map_append, List.map_singleton, List.dropLast_concat, FileSystem.lexical_append, lexical_names]
    rfl

/-! ### Files one after another -/

section Writing

open Stateful (Ensures)

variable {host : FileHost String}

/-- Where an injected file is put, and under which temporary name it is written. -/
def InjectedFilePlan.put (file : InjectedFilePlan) : Put String where
  place := file.relativePath.toPath.location
  temporary := (file.relativePath.toPath.withExtension "tmp").location
  held := ⟨file.content, file.mode⟩

/-- A file that is written is in place with what it is to hold, in some mode. -/
theorem ensures_writeAtomic (path : Path) (content : String) (files : Location → Option (HeldFile String)) :
    Ensures (fun tree => tree.fileAt = files) (writeAtomic host path content)
      (fun _ tree => ∃ mode, tree.fileAt =
        Put.effect files ⟨path.location, (path.withExtension "tmp").location, ⟨content, mode⟩⟩) fun _ _ => True := by
  have hwrite : Ensures (fun tree => tree.fileAt = files)
      (host.perform (.write (path.withExtension "tmp").location content))
      (fun _ tree => ∃ mode, ∀ l, tree.fileAt l =
        if l = (path.withExtension "tmp").location then some ⟨content, mode⟩ else files l) fun _ _ => True := by
    refine FileHost.ensures_perform fun tree tree' hbefore happly => ?_
    obtain ⟨mode, hafter⟩ := FileTree.fileAt_write happly
    exact ⟨mode, fun l => by rw [hafter, hbefore]⟩
  refine hwrite.bind fun _ => FileHost.ensures_perform fun tree tree' ⟨mode, hbefore⟩ happly => ?_
  obtain ⟨held, hheld, hafter⟩ := FileTree.fileAt_rename happly
  rw [hbefore, if_pos rfl] at hheld
  obtain rfl := Option.some.inj hheld
  refine ⟨mode, funext fun l => ?_⟩
  rw [hafter, Put.effect]
  split_ifs with hplace htemporary
  · rfl
  · rfl
  · rw [hbefore, if_neg htemporary]

/-- An injected file is put in place. -/
theorem ensures_materializeInjectedFile (file : InjectedFilePlan) (files : Location → Option (HeldFile String)) :
    Ensures (fun tree => tree.fileAt = files) (materializeInjectedFile host file)
      (fun _ tree => tree.fileAt = Put.effect files file.put) fun _ _ => True := by
  have hparent : Ensures (fun tree => tree.fileAt = files)
      (file.relativePath.toPath.parent.toList.forM fun parent => host.perform (.createDirAll parent.location))
      (fun _ tree => tree.fileAt = files) fun _ _ => True :=
    @Ensures.forM _ _ _ _ (fun _ tree => tree.fileAt = files) _ _ fun _ _ _ _ =>
      FileHost.ensures_perform fun tree tree' hbefore happly =>
        (funext fun l => FileTree.fileAt_createDirAll happly l).trans hbefore
  refine hparent.bind fun _ => (ensures_writeAtomic _ _ files).bind fun _ =>
    FileHost.ensures_perform fun tree tree' ⟨mode, hbefore⟩ happly => ?_
  obtain ⟨held, hheld, hafter⟩ := FileTree.fileAt_setMode happly
  rw [hbefore, Put.effect, if_pos rfl] at hheld
  obtain rfl := Option.some.inj hheld
  refine funext fun l => ?_
  by_cases hl : l = file.relativePath.toPath.location
  · rw [hafter, if_pos hl, Put.effect]
    exact (if_pos hl).symm
  · rw [hafter, if_neg hl, hbefore, Put.effect, Put.effect, if_neg hl]
    exact (if_neg hl).symm

/-- **The injected files are put in place one after another.** -/
theorem ensures_materialize (injected : List InjectedFilePlan) (files : Location → Option (HeldFile String)) :
    Ensures (fun tree => tree.fileAt = files) (materializeInjectedFiles host injected)
      (fun _ tree => tree.fileAt = (injected.map InjectedFilePlan.put).foldl Put.effect files) fun _ _ => True := by
  refine @Ensures.forM _ _ _ _ (fun done (tree : FileTree String) =>
    tree.fileAt = (done.map InjectedFilePlan.put).foldl Put.effect files) _ _ fun done file _ _ => ?_
  rw [List.map_append, List.foldl_append]
  exact ensures_materializeInjectedFile file _

/-! ### Everything else -/

/-- What is among the injected files. -/
def AmongInjected (l : Location) : Prop := ["overlays"] <+: l

theorem not_amongInjected {first : String} {rest : List String} (h : first ≠ "overlays") : ¬AmongInjected (first :: rest) :=
  fun hprefix => h (List.cons_prefix_cons.mp hprefix).1.symm

theorem spares_writeAtomic {path : Path} {content : String} (hplace : ¬AmongInjected path.location)
    (htemporary : ¬AmongInjected (path.withExtension "tmp").location) :
    Spares AmongInjected (writeAtomic host path content) := by
  refine .bind (.perform fun l hl heq => ?_) fun _ => .perform fun l hl heq => ?_
  · exact htemporary (heq ▸ hl)
  · rcases heq with rfl | rfl
    · exact htemporary hl
    · exact hplace hl

theorem ne_overlays {name : String} {c : Char} (h : name.toList.getLast? = some c) (hc : c ≠ 's') : name ≠ "overlays" := by
  rintro rfl
  exact hc (Option.some.inj (h.symm.trans (by decide)))

theorem getLast?_append_of {text ending : String} {c : Char} (h : ending.toList.getLast? = some c) :
    (text ++ ending).toList.getLast? = some c := by
  rw [String.toList_append, List.getLast?_append, h]
  rfl

theorem nameWithExtension_ne (name : String) : Path.nameWithExtension name "tmp" ≠ "overlays" := by
  refine @ne_overlays _ 'p' ?_ (by decide)
  exact getLast?_append_of (by decide)

/-- A file beside the overlays is not among the injected files. -/
theorem spares_single {path : PathBuf} {name content : String} (h : Names path [name]) (hname : name ≠ "overlays") :
    Spares AmongInjected (writeAtomic host path.toPath content) := by
  obtain ⟨hplace, htemporary⟩ := @Names.location path [] name h
  refine spares_writeAtomic ?_ ?_
  · rw [hplace]
    exact not_amongInjected hname
  · rw [htemporary]
    exact not_amongInjected (nameWithExtension_ne name)

/-- A file in another directory is not among the injected files. -/
theorem spares_jsonArtifact {directory name content : String} (hdirectory : IsFileName directory)
    (hother : directory ≠ "overlays") (h : '/' ∉ name.toList) :
    Spares AmongInjected (writeAtomic host (jsonArtifact directory name) content) := by
  have hname : IsFileName s!"{name}.json" := by
    have hending : (".json").toList = ['.', 'j', 's', 'o', 'n'] := rfl
    refine isFileName_of_length ?_ ?_
    · change 2 < (name ++ ".json").toList.length
      rw [String.toList_append, hending, List.length_append]
      simp only [List.length_cons, List.length_nil]
      omega
    · change '/' ∉ (name ++ ".json").toList
      rw [String.toList_append, hending]
      simp [h]
  obtain ⟨hplace, htemporary⟩ := @Names.location _ [directory] _ ((Names.single hdirectory).join hname)
  refine spares_writeAtomic ?_ ?_
  · rw [jsonArtifact, hplace]
    exact not_amongInjected hother
  · rw [jsonArtifact, htemporary]
    exact not_amongInjected hother

/-- The names of what is written beside the injected files are names of files. -/
structure PlainNames (plan : Plan) : Prop where
  remotes : ∀ remote ∈ plan.remoteProjects.values, ∃ device : String, '/' ∉ device.toList ∧
    remote.composeFile = ⟨s!"compose.{device}.yaml"⟩
  routes : ∀ entry ∈ plan.routeConfigs.entries, '/' ∉ entry.1.toList
  profiles : ∀ entry ∈ plan.managedProfiles, '/' ∉ entry.1.toList

/-- **Nothing else is written among the injected files.** -/
theorem spares_writeArtifacts {plan : Plan} (h : PlainNames plan) (serializer : Serializer) :
    Spares AmongInjected (writeArtifacts host serializer plan) := by
  have hfile : ∀ {name : String}, IsFileName name → name ≠ "overlays" → ∀ content,
      Spares AmongInjected (writeAtomic host (artifact name) content) := fun hname hne _ =>
    spares_single (.single hname) hne
  have hprofiles : (artifact "managed-profiles").location = ["managed-profiles"] := by decide +kernel
  have hrouter : (artifact "host-router.json").location = ["host-router.json"] := by decide +kernel
  have hcompose : IsFileName "compose.yaml" := ⟨by decide, by decide⟩
  have hresolved : IsFileName "resolved-deployment.yaml" := ⟨by decide, by decide⟩
  have hmanifest : IsFileName "manifest.json" := ⟨by decide, by decide⟩
  have hhost : IsFileName "host-router.json" := ⟨by decide, by decide⟩
  have hroutes : IsFileName "routes" := ⟨by decide, by decide⟩
  have hmanaged : IsFileName "managed-profiles" := ⟨by decide, by decide⟩
  refine .bind (hfile hcompose (by decide) _) fun _ => .bind (.forM fun remote hremote => ?_) fun _ =>
    .bind (hfile hresolved (by decide) _) fun _ => .bind (hfile hmanifest (by decide) _) fun _ =>
    .bind (.forM fun entry hentry => spares_jsonArtifact hroutes (by decide) (h.routes entry hentry)) fun _ =>
    .bind (.performIfThere fun l hl hchanges => ?_) fun _ => .bind ?_ fun _ => ?_
  · obtain ⟨device, hdevice, hcomposeFile⟩ := h.remotes remote hremote
    have hending : (".yaml").toList = ['.', 'y', 'a', 'm', 'l'] := rfl
    have htext : (s!"compose.{device}.yaml").toList = "compose.".toList ++ device.toList ++ ".yaml".toList := by
      change ("compose." ++ device ++ ".yaml").toList = _
      rw [String.toList_append, String.toList_append]
    rw [hcomposeFile]
    refine spares_single (.single (isFileName_of_length ?_ ?_)) (@ne_overlays _ 'l' ?_ (by decide))
    · rw [htext, hending, List.length_append]
      simp only [List.length_cons, List.length_nil]
      omega
    · rw [htext, hending]
      simp [hdevice]
    · exact getLast?_append_of (by decide)
  · rw [hprofiles] at hchanges
    obtain ⟨rest, rfl⟩ := hchanges
    exact not_amongInjected (by decide) hl
  · rw [writeProfiles]
    split_ifs
    · exact .pure
    · refine .bind (.perform fun l _ hchanges => hchanges) fun _ => .forM fun entry hentry => ?_
      dsimp only
      cases serializer.profile entry.2 with
      | ok encoded => exact spares_jsonArtifact hmanaged (by decide) (h.profiles entry hentry)
      | error error => exact fun _ tree _ => ⟨nofun, fun _ _ _ => trivial⟩
  · cases plan.hostRouterConfig with
    | some config => exact hfile hhost (by decide) _
    | none =>
      refine .performIfThere fun l hl hchanges => ?_
      rw [hrouter] at hchanges
      obtain rfl : l = ["host-router.json"] := hchanges
      exact not_amongInjected (by decide) hl

/-- What is among the injected files after a plan is written: those of the plan, put in place one
after another. -/
theorem ensures_writePlan {plan : Plan} (h : PlainNames plan) (serializer : Serializer) (workspaceRoot : PathBuf) :
    Ensures (fun _ => True) (writePlan host serializer workspaceRoot plan)
      (fun _ tree => ∃ files, ∀ l, AmongInjected l →
        tree.fileAt l = (plan.injectedFiles.map InjectedFilePlan.put).foldl Put.effect files l) fun _ _ => True := by
  have hany : ∀ {op : FileOp String}, Ensures (fun _ => True) (host.perform op) (fun _ _ => True) fun _ _ => True :=
    FileHost.ensures_perform fun _ _ _ _ => trivial
  have hclear : Ensures (fun _ => True) (host.performIfThere (artifact "overlays").location
      (.removeDirAll (artifact "overlays").location)) (fun _ _ => True) fun _ _ => True :=
    fun _ _ => ⟨fun _ _ _ => trivial, fun _ _ _ => trivial⟩
  have hinjected : Ensures (fun _ => True) (materializeInjectedFiles host plan.injectedFiles)
      (fun _ tree => ∃ files, ∀ l, AmongInjected l →
        tree.fileAt l = (plan.injectedFiles.map InjectedFilePlan.put).foldl Put.effect files l) fun _ _ => True := by
    intro tree _
    refine ⟨fun value tree' hrun => ⟨tree.fileAt, fun l _ => ?_⟩, fun _ _ _ => trivial⟩
    exact congrFun ((ensures_materialize plan.injectedFiles tree.fileAt tree rfl).1 value tree' hrun) l
  refine hany.bind fun _ => hclear.bind fun _ => hinjected.bind fun _ => Ensures.bind ?_ fun _ => .pure fun _ hpost => hpost
  rintro tree ⟨files, hfiles⟩
  exact ⟨fun value tree' hrun => ⟨files, ((spares_writeArtifacts h serializer) _ tree hfiles).1 value tree' hrun⟩,
    fun _ _ _ => trivial⟩

end Writing

/-! ### Plans -/

section Plans

variable {host : Host} {bundle : Bundle} {options : OverlayOptions} {devices : Devices} {plan : Plan}

/-- The keys of the planned profiles are those of the authored ones. -/
theorem keys_assignProfiles {platform : Platform} {deployment : String} {entries : List (String × ManagedProfile)}
    {used : List U16} {profiles : List (String × ManagedProfilePlan)}
    (h : assignProfiles platform deployment entries used = .ok profiles) :
    profiles.map Prod.fst = entries.map Prod.fst := by
  induction entries generalizing used profiles with
  | nil =>
    cases h
    rfl
  | cons entry rest ih =>
    obtain ⟨port, -, h⟩ := bind_eq_ok_iff.mp h
    obtain ⟨plans, hplans, h⟩ := bind_eq_ok_iff.mp h
    obtain rfl := Except.ok.inj h
    exact congrArg _ (ih hplans)

theorem plainNames_of_plan (h : planWithOverlaysAndDevices host bundle options devices = .ok plan) : PlainNames plan := by
  obtain ⟨e, groups, -, hvalid, hgenerate⟩ := planWithOverlaysAndDevices_ok h
  obtain ⟨profiles, config, probes, outputs, remotes, hprofiles, -, -, houtputs, hremotes, rfl⟩ :=
    generate_ok_iff.mp hgenerate
  have hnames := namesChecked_of_validate hvalid
  have hrun : ∀ output ∈ outputs, output.inst ∈ runInstances e.bundle.document.spec := by
    intro output houtput
    obtain ⟨inst, hinst, -, houtput⟩ := exists_of_mem_forall₂ (forall₂_of_mapM_ok houtputs).flip houtput
    rw [inst_of_instanceOutput houtput]
    exact hinst
  refine ⟨fun remote hremote => ?_, fun entry hentry => ?_, fun entry hentry => ?_⟩
  · obtain ⟨entry, hentry, rfl⟩ := List.mem_map.mp hremote
    obtain ⟨device, hused, hproject⟩ := (mem_remoteProjects hremotes entry).mp hentry
    refine ⟨device, ?_, ?_⟩
    · obtain ⟨⟨name, _⟩, hmem, rfl⟩ := List.mem_map.mp (mem_keys_ofList.mp hused)
      obtain ⟨output, houtput, hplaced⟩ := List.mem_filterMap.mp hmem
      split_ifs at hplaced
      obtain ⟨placed, hdevice, heq⟩ := Option.map_eq_some_iff.mp hplaced
      cases heq
      exact slash_not_mem_of_validName (hnames.devices _ (hrun output houtput) _ hdevice)
    · unfold remoteProject at hproject
      split at hproject
      · cases hproject
      · cases hproject
        rfl
  · obtain ⟨before, after, hsplit, -⟩ := mem_entries_ofList.mp hentry
    have hmem : entry ∈ outputs.filterMap fun output => output.route.map fun route => (output.inst.name, route.1) := by
      rw [hsplit]
      simp
    obtain ⟨output, houtput, hroute⟩ := List.mem_filterMap.mp hmem
    obtain ⟨route, -, rfl⟩ := Option.map_eq_some_iff.mp hroute
    exact slash_not_mem_of_validName (hnames.instances _ (List.mem_filter.mp (hrun output houtput)).1)
  · have hkey : entry.1 ∈ profiles.map Prod.fst := List.mem_map_of_mem hentry
    rw [keys_assignProfiles hprofiles] at hkey
    obtain ⟨authored, hauthored, heq⟩ := List.mem_map.mp hkey
    obtain ⟨-, -, hdocument, -⟩ := validate_ok_iff.mp hvalid
    simp only [documentErrors, List.append_eq_nil_iff] at hdocument
    have herrors := List.flatMap_eq_nil_iff.mp hdocument.1.2 authored hauthored
    unfold profileErrors at herrors
    simp only [List.append_eq_nil_iff] at herrors
    rw [← heq]
    exact slash_not_mem_of_validName (validName_of_validateName herrors.1.1.1.1)

/-- Where an injected file of a plan is, and where its temporary name is. -/
theorem location_relativePath (h : planWithOverlaysAndDevices host bundle options devices = .ok plan)
    {file : InjectedFilePlan} (hfile : file ∈ plan.injectedFiles) : ∃ name, IsFileName name ∧
      file.put.place = ["overlays", file.inst, file.contentHash, name] ∧
      file.put.temporary = ["overlays", file.inst, file.contentHash, Path.nameWithExtension name "tmp"] := by
  obtain ⟨e, groups, he, hvalid, hgenerate⟩ := planWithOverlaysAndDevices_ok h
  obtain ⟨profiles, config, probes, outputs, remotes, -, -, -, -, -, rfl⟩ := generate_ok_iff.mp hgenerate
  have hkept := keepsSpec he
  have hnodup : (instanceNames bundle.document.spec.instances).Nodup :=
    instanceNames_of_stripped hkept.instances ▸ nodup_of_validate hvalid
  obtain ⟨earlier, overlay, later, inst, entry, raw, -, hinjects⟩ := injected_of_effective he hnodup file hfile
  have hinst : IsFileName inst.name := by
    obtain ⟨i, hi, hstripped⟩ := List.mem_map.mp (hkept.instances ▸ hinjects.authored)
    have hname : (strippedInstance i).name = (strippedInstance inst).name := by rw [hstripped]
    have hvalidName := (namesChecked_of_validate hvalid).instances i hi
    rw [show i.name = inst.name from hname] at hvalidName
    refine isFileName_of_chars ?_ fun c hc => isNameChar_of_validName hvalidName hc
    rintro hempty
    rw [hempty] at hvalidName
    exact absurd hvalidName (by decide)
  have hhash : IsFileName (hexDigest (host.sha256 file.content)) := by
    refine isFileName_of_chars (fun hempty => ?_) fun c hc => isNameChar_hexDigest hc
    have hchars := congrArg (fun text => text.toList.length) hempty
    rw [hexDigest, String.toList_ofList, List.length_flatMap] at hchars
    simp [hexByte] at hchars
  have hname : IsFileName (entry.1.target.fileName.getD "injected") := by
    cases hfileName : entry.1.target.fileName with
    | none => exact ⟨by decide, by decide⟩
    | some name => exact isFileName_fileName hfileName
  have hnames : Names file.relativePath
      (["overlays", inst.name, hexDigest (host.sha256 file.content)] ++ [entry.1.target.fileName.getD "injected"]) := by
    rw [hinjects.planned]
    exact (((Names.single ⟨by decide, by decide⟩).join hinst).join hhash).join hname
  refine ⟨_, hname, ?_⟩
  rw [show file.inst = inst.name from congrArg (fun f : InjectedFilePlan => f.inst) hinjects.planned,
    show file.contentHash = hexDigest (host.sha256 file.content) from
      congrArg (fun f : InjectedFilePlan => f.contentHash) hinjects.planned]
  exact hnames.location

/-- **Injected files.** After a plan is written, every injected file is there with the planned
content and mode iff the last file that touches the path of each, by its own path or by its
temporary name, has this path, this content and this mode. -/
theorem injected_files_materialised (hplan : planWithOverlaysAndDevices host bundle options devices = .ok plan)
    (files : FileHost String) (serializer : Serializer) (workspaceRoot directory : PathBuf) (before after : FileTree String)
    (hwrite : (writePlan files serializer workspaceRoot plan).exec before = (.ok directory, after)) :
    (∀ file ∈ plan.injectedFiles,
        after.fileAt file.relativePath.toPath.location = some ⟨file.content, file.mode⟩) ↔
      ∀ file ∈ plan.injectedFiles, Put.InPlace (plan.injectedFiles.map InjectedFilePlan.put) file.put := by
  obtain ⟨start, hstart⟩ := ((ensures_writePlan (plainNames_of_plan hplan) serializer workspaceRoot) before trivial).1
    directory after hwrite
  have hall := Put.all_in_place_iff (plan.injectedFiles.map InjectedFilePlan.put) start
  rw [List.forall_mem_map, List.forall_mem_map] at hall
  rw [← hall]
  refine forall₂_congr fun file hfile => ?_
  obtain ⟨name, -, hplace, -⟩ := location_relativePath hplan hfile
  have hamong : AmongInjected file.put.place := by
    rw [hplace]
    exact ⟨_, rfl⟩
  rw [← hstart file.put.place hamong]
  rfl

end Plans

/-- A system that refuses nothing. -/
def plainFiles : FileHost String := ⟨420, fun _ _ => none⟩

/-- Nothing is written as text but the injected files. -/
def noTexts : Serializer where
  compose _ := ""
  document _ := ""
  manifest _ := ""
  routes _ := ""
  profile _ := .ok ""
  router _ := ""

/-- Two keys of `front`, with the same content and name. -/
def keysOverlay (mode : String) : Overlay :=
  { frontOverlay ∅ [] with
    files := [⟨none, some "secret", ⟨"/runtime/private/key.pem"⟩, "0600", false, false⟩,
      ⟨none, some "secret", ⟨"/runtime/public/key.pem"⟩, mode, false, false⟩] }

/-- The overlay of the keys, in a file. -/
def keysOptions : OverlayOptions := ⟨[⟨"keys.yaml"⟩], none, ∅⟩

/-- The plan of the shop with its keys, what it injects, and whether it is written with what is
then there. -/
def writtenKeys (mode : String) : Option (Bool × List (InjectedFilePlan × Option (HeldFile String))) :=
  (planWithOverlaysAndDevices (overlaidHost (keysOverlay mode)) shopBundle keysOptions ∅).toOption.map fun plan =>
    let written := (writePlan plainFiles noTexts ⟨"/srv/shop"⟩ plan).exec fun _ => none
    (written.1.toOption.isSome, plan.injectedFiles.map fun file => (file, written.2.fileAt file.put.place))

/-- What was evaluated of a plan that is written. -/
theorem exists_written {mode : String} {injected : List (InjectedFilePlan × Option (HeldFile String))}
    (h : writtenKeys mode = some (true, injected)) :
    ∃ plan directory after, planWithOverlaysAndDevices (overlaidHost (keysOverlay mode)) shopBundle keysOptions ∅ = .ok plan ∧
      (writePlan plainFiles noTexts ⟨"/srv/shop"⟩ plan).exec (fun _ => none) = (.ok directory, after) ∧
      plan.injectedFiles.map (fun file => (file, after.fileAt file.put.place)) = injected := by
  obtain ⟨plan, hplan, h⟩ := Option.map_eq_some_iff.mp h
  obtain ⟨hwritten, hinjected⟩ := Prod.mk.inj h
  obtain ⟨directory, hdirectory⟩ := Option.isSome_iff_exists.mp hwritten
  exact ⟨plan, directory, _, toOption_eq_some_iff.mp hplan, Prod.ext (toOption_eq_some_iff.mp hdirectory) rfl, hinjected⟩

/-- Keys with the same mode share a path, and both are there. -/
theorem injected_files_materialised_keys :
    ∃ plan directory after, planWithOverlaysAndDevices (overlaidHost (keysOverlay "0600")) shopBundle keysOptions ∅ = .ok plan ∧
      (writePlan plainFiles noTexts ⟨"/srv/shop"⟩ plan).exec (fun _ => none) = (.ok directory, after) ∧
      (∀ file ∈ plan.injectedFiles,
        after.fileAt file.relativePath.toPath.location = some ⟨file.content, file.mode⟩) ∧
      ∀ file ∈ plan.injectedFiles, Put.InPlace (plan.injectedFiles.map InjectedFilePlan.put) file.put := by
  have hrun : (writtenKeys "0600").map (fun written => (written.1, written.2.all fun file =>
      decide (file.2 = some file.1.put.held))) = some (true, true) := by decide +kernel
  obtain ⟨⟨written, injected⟩, hwritten, heq⟩ := Option.map_eq_some_iff.mp hrun
  obtain ⟨rfl, hall⟩ := Prod.mk.inj heq
  obtain ⟨plan, directory, after, hplan, hwrite, hinjected⟩ := exists_written hwritten
  have hthere : ∀ file ∈ plan.injectedFiles,
      after.fileAt file.relativePath.toPath.location = some ⟨file.content, file.mode⟩ := by
    intro file hfile
    have hmem : (file, after.fileAt file.put.place) ∈ injected := hinjected ▸ List.mem_map_of_mem hfile
    exact of_decide_eq_true (List.all_eq_true.mp hall _ hmem)
  exact ⟨plan, directory, after, hplan, hwrite, hthere,
    (injected_files_materialised hplan plainFiles noTexts ⟨"/srv/shop"⟩ directory _ after hwrite).mp hthere⟩

/-- Keys with different modes share a path as well, and the first is there with the mode of the
second. -/
theorem injected_files_differ :
    ∃ plan directory after, planWithOverlaysAndDevices (overlaidHost (keysOverlay "0644")) shopBundle keysOptions ∅ = .ok plan ∧
      (writePlan plainFiles noTexts ⟨"/srv/shop"⟩ plan).exec (fun _ => none) = (.ok directory, after) ∧
      ∃ file ∈ plan.injectedFiles, file.mode = 384 ∧
        after.fileAt file.relativePath.toPath.location = some ⟨file.content, 420⟩ := by
  have hrun : (writtenKeys "0644").map (fun written => (written.1, written.2.head?.map fun file =>
      (file.1.mode, decide (file.2 = some ⟨file.1.content, 420⟩)))) = some (true, some (384, true)) := by decide +kernel
  obtain ⟨⟨written, injected⟩, hwritten, heq⟩ := Option.map_eq_some_iff.mp hrun
  obtain ⟨rfl, hfirst⟩ := Prod.mk.inj heq
  obtain ⟨plan, directory, after, hplan, hwrite, hinjected⟩ := exists_written hwritten
  obtain ⟨file, hfile, hheld⟩ := Option.map_eq_some_iff.mp hfirst
  obtain ⟨hmode, hthere⟩ := Prod.mk.inj hheld
  have hmem : file ∈ plan.injectedFiles.map fun file => (file, after.fileAt file.put.place) := by
    rw [hinjected]
    exact List.mem_of_head? hfile
  obtain ⟨planned, hplanned, rfl⟩ := List.mem_map.mp hmem
  exact ⟨plan, directory, after, hplan, hwrite, planned, hplanned, hmode, of_decide_eq_true hthere⟩

end Planner

end Apmpr
