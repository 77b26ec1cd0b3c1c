import Apmpr.Lib.Lines
import Apmpr.Lib.Registry
import Apmpr.Lib.SortedMap
import Apmpr.Lib.Yaml

/-!
# Migrating sources

`migrate_sources` of `apmpr-cli`: a source of an older document names the path of its repository, or
has a plain path whose repository Git knows. It is changed to the name of an entry of
`spec.repositories` and a ref. An entry that has the path is adopted, and where there is none, one is
added under a free name made from the path.

Git and the canonical form of a path are outside, part of a `Machine`.

The entries are adopted by names read through the tags of YAML, and a source refers to a name without
one; so an entry whose name has a tag is adopted under a name that is not its key, and may be the key
of another entry (`tagged_name_taken`).

## What is proved

`migrates_iff` — exactly when a migration keeps repositories: if every entry that is adopted can be
found by the name it is adopted under. The search for a free name always ends (`searchName_ends`).
-/

namespace Apmpr.Cli.Migrate

open Yaml (lookup)

/-- `MigrationError`. -/
structure MigrationError where
  text : String
  deriving DecidableEq

/-- What is outside: how Git run in a directory answers arguments, with whether it succeeded and what
it printed, unless it could not be run; and the canonical form of a path. -/
structure Machine where
  git : PathBuf → List String → Except String (Bool × String × String)
  canonicalize : PathBuf → Except String PathBuf

variable (machine : Machine)

/-! ### The repository and the ref of a source -/

/-- `git_output`. -/
def gitOutput (directory : PathBuf) (arguments : List String) : Except String String :=
  match machine.git directory arguments with
  | .error error => .error s!"could not run Git: {error}"
  | .ok (success, stdout, stderr) => if success then .ok (Text.trim stdout) else .error (Text.trim stderr)

/-- A result with its error in a text. -/
def orFail {α : Type} (text : String → String) : Except String α → Except MigrationError α
  | .ok a => .ok a
  | .error error => .error ⟨text error⟩

/-- Something that has to be there. -/
def require {α : Type} (text : String) : Option α → Except MigrationError α
  | some a => .ok a
  | none => .error ⟨text⟩

/-- `resolve_migration_path`. -/
def resolveMigrationPath (base path : PathBuf) : PathBuf := if path.isAbsolute then path else base.join path

/-- `strip_prefix`. -/
def stripPrefix (path base : PathBuf) : Option PathBuf :=
  if path.startsWith base then some (.ofComponents (path.components.drop base.components.length)) else none

/-- The first worktree of a listing. -/
def firstWorktree (worktrees : String) : Option String :=
  (Text.lines worktrees.toList).findSome? fun line => Text.afterStart "worktree " (String.ofList line)

/-- `discover_separate_repository`. -/
def discoverSeparateRepository (name : String) (source definitionDir : PathBuf) : Except MigrationError String := do
  let worktrees ← orFail (fun error => s!"cannot migrate plain-path source `{name}`: {error}; create a separate Git worktree and author its repository and ref")
    (gitOutput machine source ["worktree", "list", "--porcelain"])
  let repository ← require s!"cannot migrate plain-path source `{name}`: Git did not report a repository worktree"
    (firstWorktree worktrees)
  let canonicalSource ← orFail (fun error => s!"cannot migrate plain-path source `{name}` at `{source.text}`: {error}")
    (machine.canonicalize source)
  let canonicalRepository ← orFail (fun error => s!"cannot migrate repository for source `{name}` at `{repository}`: {error}")
    (machine.canonicalize ⟨repository⟩)
  if canonicalSource == canonicalRepository || canonicalSource.startsWith canonicalRepository ||
      canonicalRepository.startsWith canonicalSource then
    .error ⟨s!"cannot migrate plain-path source `{name}` because its checkout overlaps the repository clone; create a separate worktree, then update the source path"⟩
  else
    return ((stripPrefix canonicalRepository definitionDir).getD canonicalRepository).text

/-- `discover_ref`. -/
def discoverRef (name : String) (source : PathBuf) : Except MigrationError String := do
  let failed (error : String) : String := s!"cannot determine ref for source `{name}`: {error}"
  let branch ← orFail failed (gitOutput machine source ["branch", "--show-current"])
  if branch ≠ "" then return branch
  else orFail failed (gitOutput machine source ["rev-parse", "HEAD"])

/-- A string at a key. -/
def textAt (key : String) (mapping : List (Yaml × Yaml)) : Option String := (lookup key mapping).bind Yaml.asStr

/-- A source that has a repository and a ref, and no type. -/
def alreadyCurrent (mapping : List (Yaml × Yaml)) : Bool :=
  (textAt "repository" mapping).isSome && (textAt "ref" mapping).isSome && (lookup "type" mapping).isNone

/-- The repository of a source: the one it names, or the one Git knows. -/
def repositoryPath (definitionDir : PathBuf) (name path : String) (mapping : List (Yaml × Yaml)) :
    Except MigrationError String :=
  match textAt "repository" mapping with
  | some repository => .ok repository
  | none => discoverSeparateRepository machine name (resolveMigrationPath definitionDir ⟨path⟩) definitionDir

/-- The ref of a source: the one it names, or the one that is checked out. -/
def reference (definitionDir : PathBuf) (name path : String) (mapping : List (Yaml × Yaml)) :
    Except MigrationError String :=
  match textAt "ref" mapping with
  | some reference =>
    if Text.isBlank reference then discoverRef machine name (resolveMigrationPath definitionDir ⟨path⟩) else .ok reference
  | none => discoverRef machine name (resolveMigrationPath definitionDir ⟨path⟩)

/-! ### Names of repositories -/

/-- `replace("--", "-")`. -/
def replaceDoubled : List Char → List Char
  | '-' :: '-' :: rest => '-' :: replaceDoubled rest
  | c :: rest => c :: replaceDoubled rest
  | [] => []

/-- Two dashes in a row become one while there are any; for a number of turns. -/
def collapse : ℕ → List Char → List Char
  | 0, name => name
  | turns + 1, name => if Text.containsChars ['-', '-'] name then collapse turns (replaceDoubled name) else name

/-- `migration_repository_name`. -/
def migrationRepositoryName (path : String) : String :=
  let candidate := (PathBuf.fileName ⟨path⟩).getD "repository"
  let mapped := candidate.toList.map fun c =>
    if Text.isAsciiAlphanumeric c || c = '-' then Text.asciiLowerChar c else '-'
  let name := ((collapse mapped.length mapped).dropWhile (· = '-')).rdropWhile (· = '-')
  match name with
  | [] => "repository"
  | first :: _ =>
    String.ofList (((if Text.isAsciiLower first then name else "repository-".toList ++ name).take 63).rdropWhile (· = '-'))

/-- Whether a mapping has a key. -/
def containsKey (key : String) (mapping : List (Yaml × Yaml)) : Bool := (lookup key mapping).isSome

/-- The search for a free name, for a number of turns: `none` where it has not ended by then. The number
that is put after the name would leave its type after more than 2³¹ entries. -/
def searchName (repositories : List (Yaml × Yaml)) (base : String) : ℕ → ℕ → String → Option String
  | 0, _, _ => none
  | turns + 1, suffix, candidate =>
    if containsKey candidate repositories then searchName repositories base turns (suffix + 1) s!"{base}-{suffix}"
    else some candidate

/-- The free name that is found. -/
def freeName (repositories : List (Yaml × Yaml)) (base : String) : String :=
  (searchName repositories base (repositories.length + 1) 2 base).getD base

/-! ### The migration -/

/-- The clone of an entry of `spec.repositories`. -/
def cloneOf (repository : Yaml) : Option String := (repository.get "clone").bind Yaml.asStr

/-- An entry that may be adopted: its path and its name. -/
def adoptable (entry : Yaml × Yaml) : Option (String × String) :=
  match entry.1.asStr, cloneOf entry.2 with
  | some name, some clone => some (clone, name)
  | _, _ => none

/-- The entries that may be adopted. -/
def adoptables (repositories : List (Yaml × Yaml)) : SortedMap String String := .ofList (repositories.filterMap adoptable)

/-- What the loop over the sources changes. -/
structure Progress where
  repositories : List (Yaml × Yaml)
  adopted : SortedMap String String
  changes : List String

/-- The name of a repository: an entry is adopted, or a new one is added. -/
def adopt (progress : Progress) (path : String) : Progress × String :=
  match progress.adopted.get? path with
  | some existing => (progress, existing)
  | none =>
    let name := freeName progress.repositories (migrationRepositoryName path)
    ({ progress with
        repositories := Yaml.insert name (.mapping [(.string "clone", .string path)]) progress.repositories
        adopted := progress.adopted.insert path name }, name)

/-- One source. -/
def migrateSource (definitionDir : PathBuf) (progress : Progress) (key source : Yaml) :
    Except MigrationError (Progress × Yaml) := do
  let name ← require "cannot migrate: every source name must be a string" key.asStr
  let mapping ← require s!"cannot migrate source `{name}`: definition must be a mapping" source.asMapping
  let path ← require s!"cannot migrate source `{name}`: path must be a string" (textAt "path" mapping)
  if alreadyCurrent mapping then return (progress, source)
  else
    let repository ← repositoryPath machine definitionDir name path mapping
    let reference ← reference machine definitionDir name path mapping
    let adoption := adopt progress repository
    let mapping := Yaml.insert "ref" (.string reference)
      (Yaml.insert "repository" (.string adoption.2) (Yaml.remove "type" mapping))
    return ({ adoption.1 with
        changes := adoption.1.changes ++ [s!"source `{name}` now references a declared adopted repository and ref"] },
      source.withMapping mapping)

/-- The loop over the sources. -/
def migrateEach (definitionDir : PathBuf) : Progress → List (Yaml × Yaml) →
    Except MigrationError (Progress × List (Yaml × Yaml))
  | progress, [] => .ok (progress, [])
  | progress, entry :: rest => do
    let (progress, source) ← migrateSource machine definitionDir progress entry.1 entry.2
    let (progress, sources) ← migrateEach definitionDir progress rest
    return (progress, (entry.1, source) :: sources)

/-- The directory of a deployment. -/
def definitionDir (deployment : PathBuf) : PathBuf :=
  match deployment.parent with
  | some parent => if parent.isEmpty then ⟨"."⟩ else parent
  | none => ⟨"."⟩

/-- `migrate_sources`: the document and the changes after it. -/
def migrateSources (document : Yaml) (deployment : PathBuf) (changes : List String) :
    Except MigrationError (Yaml × List String) :=
  match document.asMapping, (document.get "spec").bind Yaml.asMapping with
  | some fields, some spec =>
    match lookup "sources" spec with
    | none => .ok (document, changes)
    | some sourcesValue => do
      let rest := Yaml.remove "sources" spec
      let sources ← require "cannot migrate: spec.sources must be a mapping" sourcesValue.asMapping
      let repositories ← require "cannot migrate: spec.repositories must be a mapping"
        ((lookup "repositories" rest).getD (.mapping [])).asMapping
      let rest := Yaml.remove "repositories" rest
      let (progress, sources) ← migrateEach machine (definitionDir deployment)
        ⟨repositories, adoptables repositories, changes⟩ sources
      let spec := Yaml.insert "sources" (sourcesValue.withMapping sources)
        (Yaml.insert "repositories" (.mapping progress.repositories) rest)
      return (document.withMapping (Yaml.insert "spec" (((document.get "spec").getD .null).withMapping spec) fields),
        progress.changes)
  | _, _ => .ok (document, changes)

/-! ### The loop over dashes ends -/

theorem length_replaceDoubled_le (name : List Char) : (replaceDoubled name).length ≤ name.length := by
  fun_induction replaceDoubled name with
  | case1 rest ih =>
    simp only [List.length_cons]
    omega
  | case2 c rest hnot ih =>
    simp only [List.length_cons]
    omega
  | case3 => exact le_rfl

theorem length_replaceDoubled_lt {name : List Char} (h : Text.containsChars ['-', '-'] name = true) :
    (replaceDoubled name).length < name.length := by
  fun_induction replaceDoubled name with
  | case1 rest ih =>
    have hle := length_replaceDoubled_le rest
    simp only [List.length_cons]
    omega
  | case2 c rest hnot ih =>
    rw [Text.containsChars, Bool.or_eq_true] at h
    rcases h with hstart | hrest
    · cases rest with
      | nil => simp [List.isPrefixOf] at hstart
      | cons d rest =>
        simp only [List.isPrefixOf, Bool.and_true, Bool.and_eq_true, beq_iff_eq] at hstart
        obtain ⟨rfl, rfl⟩ := hstart
        exact absurd rfl (hnot rest rfl)
    · have hlt := ih hrest
      simp only [List.length_cons]
      omega
  | case3 => simp [Text.containsChars] at h

/-- There are no two dashes in a row after the loop: as many turns as there are characters are enough. -/
theorem collapse_ends {turns : ℕ} {name : List Char} (h : name.length ≤ turns) :
    Text.containsChars ['-', '-'] (collapse turns name) = false := by
  induction turns generalizing name with
  | zero =>
    obtain rfl := List.eq_nil_of_length_eq_zero (Nat.le_zero.mp h)
    rfl
  | succ turns ih =>
    rw [collapse]
    split_ifs with hdoubled
    · have hlt := length_replaceDoubled_lt hdoubled
      exact ih (by omega)
    · exact Bool.eq_false_iff.mpr hdoubled

/-! ### A free name is found -/

section Search

variable {repositories : List (Yaml × Yaml)}

/-- The names that are tried. -/
def candidate (base : String) : ℕ → String
  | 0 => base
  | k + 1 => s!"{base}-{k + 2}"

theorem candidate_injective (base : String) : Function.Injective (candidate base) := by
  have hlength : ∀ k, candidate base (k + 1) ≠ base := by
    intro k h
    have hsame : (base ++ "-" ++ toString (k + 2)).length = base.length := congrArg String.length h
    rw [String.length_append, String.length_append, show "-".length = 1 from rfl] at hsame
    omega
  intro j k h
  cases j with
  | zero =>
    cases k with
    | zero => rfl
    | succ k => exact absurd h.symm (hlength k)
  | succ j =>
    cases k with
    | zero => exact absurd h (hlength j)
    | succ k =>
      have htext : toString (j + 2) = toString (k + 2) := by simpa [candidate] using h
      have hdigits : Nat.toDigits 10 (j + 2) = Nat.toDigits 10 (k + 2) := by
        simpa only [Nat.toString_eq_repr, Nat.toList_repr] using congrArg String.toList htext
      have hsame := congrArg (fun digits => Nat.ofDigitChars 10 digits 0) hdigits
      simpa using hsame

/-- What is found is not a key. -/
theorem searchName_free {base name : String} {turns suffix : ℕ} {first : String}
    (h : searchName repositories base turns suffix first = some name) : containsKey name repositories = false := by
  induction turns generalizing suffix first with
  | zero => cases h
  | succ turns ih =>
    rw [searchName] at h
    split_ifs at h with hused
    · exact ih h
    · obtain rfl := Option.some.inj h
      exact Bool.eq_false_iff.mpr hused

/-- Where nothing is found, every name that was tried is a key. -/
theorem searchName_none {base : String} {turns k : ℕ}
    (h : searchName repositories base turns (k + 2) (candidate base k) = none) :
    ∀ i < turns, containsKey (candidate base (k + i)) repositories = true := by
  induction turns generalizing k with
  | zero => simp
  | succ turns ih =>
    rw [searchName] at h
    split_ifs at h with hused
    intro i hi
    cases i with
    | zero => exact hused
    | succ i =>
      rw [show k + (i + 1) = k + 1 + i by omega]
      exact ih h i (by omega)

theorem containsKey_iff {key : String} : containsKey key repositories = true ↔ .string key ∈ repositories.map Prod.fst := by
  rw [← not_iff_not, ← Yaml.lookup_eq_none_iff, containsKey]
  simp

/-- **The search for a free name ends**: there are more names to try than keys. -/
theorem searchName_ends (repositories : List (Yaml × Yaml)) (base : String) :
    ∃ name, searchName repositories base (repositories.length + 1) 2 base = some name ∧
      containsKey name repositories = false := by
  cases hname : searchName repositories base (repositories.length + 1) 2 base with
  | some name => exact ⟨name, rfl, searchName_free hname⟩
  | none =>
    have hused := searchName_none (k := 0) hname
    have hnodup : ((List.range (repositories.length + 1)).map fun i => Yaml.string (candidate base i)).Nodup := by
      refine List.nodup_range.map fun i j h => ?_
      exact candidate_injective base (Yaml.string.inj h)
    have hsub : ((List.range (repositories.length + 1)).map fun i => Yaml.string (candidate base i)) ⊆
        repositories.map Prod.fst := by
      intro key hkey
      obtain ⟨i, hi, rfl⟩ := List.mem_map.mp hkey
      have hi := hused i (List.mem_range.mp hi)
      rw [Nat.zero_add] at hi
      exact containsKey_iff.mp hi
    have hlength := hnodup.length_le_of_subset hsub
    rw [List.length_map, List.length_range, List.length_map] at hlength
    omega

theorem freeName_free (repositories : List (Yaml × Yaml)) (base : String) :
    lookup (freeName repositories base) repositories = none := by
  obtain ⟨name, hname, hfree⟩ := searchName_ends repositories base
  rw [freeName, hname]
  simpa [containsKey] using hfree

end Search

/-! ### What a migration keeps -/

/-- The entries of `spec.repositories`. -/
def repositoriesOf (document : Yaml) : List (Yaml × Yaml) :=
  (((document.get "spec").bind (Yaml.get "repositories")).bind Yaml.asMapping).getD []

/-- The sources of a document. -/
def sourcesOf (document : Yaml) : List (Yaml × Yaml) :=
  (((document.get "spec").bind (Yaml.get "sources")).bind Yaml.asMapping).getD []

/-- Whether a source is current. -/
def isCurrent (source : Yaml) : Bool :=
  match source.asMapping with
  | some mapping => alreadyCurrent mapping
  | none => false

/-- The repository path of a source that is not current. -/
def migratedPath (definitionDir : PathBuf) (entry : Yaml × Yaml) : Option String := do
  let name ← entry.1.asStr
  let mapping ← entry.2.asMapping
  let path ← textAt "path" mapping
  if alreadyCurrent mapping then none else (repositoryPath machine definitionDir name path mapping).toOption

/-- The name a source refers to. -/
def repositoryOf (source : Yaml) : Option String := (source.get "repository").bind Yaml.asStr

/-- The clone of the entry that has a name. -/
def cloneAt (name : String) (repositories : List (Yaml × Yaml)) : Option String := (lookup name repositories).bind cloneOf

/-- A migration keeps repositories: the entries and the current sources are as they were, every other
source refers to an entry with the path of its repository, and two refer to the same one exactly if
those paths are equal; a new entry has a name that was not used, and the search for it ends. -/
structure KeepsRepositories (definitionDir : PathBuf) (before after : Yaml) : Prop where
  keys : (sourcesOf after).map Prod.fst = (sourcesOf before).map Prod.fst
  entries : ∀ entry ∈ repositoriesOf before, entry ∈ repositoriesOf after
  current : ∀ e e', (e, e') ∈ (sourcesOf before).zip (sourcesOf after) → isCurrent e.2 = true → e' = e
  migrated : ∀ e e', (e, e') ∈ (sourcesOf before).zip (sourcesOf after) → isCurrent e.2 = false →
    ∃ path name, migratedPath machine definitionDir e = some path ∧ e'.2.get "path" = e.2.get "path" ∧
      repositoryOf e'.2 = some name ∧ cloneAt name (repositoriesOf after) = some path
  same : ∀ e e' f f', (e, e') ∈ (sourcesOf before).zip (sourcesOf after) →
    (f, f') ∈ (sourcesOf before).zip (sourcesOf after) → isCurrent e.2 = false → isCurrent f.2 = false →
      (repositoryOf e'.2 = repositoryOf f'.2 ↔ migratedPath machine definitionDir e = migratedPath machine definitionDir f)
  fresh : ∀ entry ∈ repositoriesOf after, entry ∉ repositoriesOf before →
    ∃ name, entry.1 = .string name ∧ containsKey name (repositoriesOf before) = false
  search : ∀ (repositories : List (Yaml × Yaml)) (base : String),
    ∃ name, searchName repositories base (repositories.length + 1) 2 base = some name ∧
      containsKey name repositories = false

/-- An entry that is adopted for a source is found by the name it is adopted under. -/
def AdoptedFound (definitionDir : PathBuf) (document : Yaml) : Prop :=
  ∀ entry ∈ sourcesOf document, ∀ path, migratedPath machine definitionDir entry = some path →
    ∀ name, (adoptables (repositoriesOf document)).get? path = some name →
      cloneAt name (repositoriesOf document) = some path

/-! ### The loop over the sources -/

section Loop

variable {machine} {before : List (Yaml × Yaml)} {progress progress' : Progress} {dir : PathBuf}

/-- What is known of the repositories while the sources are gone through. -/
structure Reached (before : List (Yaml × Yaml)) (progress : Progress) : Prop where
  distinct : Yaml.Distinct progress.repositories
  entries : ∀ entry ∈ before, entry ∈ progress.repositories
  /-- What could be adopted at first is adopted under its name. -/
  first : ∀ path name, (adoptables before).get? path = some name → progress.adopted.get? path = some name
  /-- What is adopted otherwise was added. -/
  adopted : ∀ path name, progress.adopted.get? path = some name → (adoptables before).get? path = none →
    cloneAt name progress.repositories = some path
  /-- What was added has a new name, and a path that could not be adopted. -/
  fresh : ∀ entry ∈ progress.repositories, entry ∉ before → ∃ name path, entry.1 = .string name ∧
    cloneOf entry.2 = some path ∧ lookup name before = none ∧ (adoptables before).get? path = none

theorem Reached.start (h : Yaml.Distinct before) (changes : List String) :
    Reached before ⟨before, adoptables before, changes⟩ where
  distinct := h
  entries _ hentry := hentry
  first _ _ hname := hname
  adopted path name hname hnone := by
    rw [hnone] at hname
    cases hname
  fresh entry hentry hnot := absurd hentry hnot

/-- An entry that has been there keeps its name. -/
theorem Reached.lookup_of_before (h : Reached before progress) {name : String} {repository : Yaml}
    (hlookup : lookup name before = some repository) : lookup name progress.repositories = some repository :=
  Yaml.lookup_of_mem h.distinct (h.entries _ (Yaml.mem_of_lookup hlookup))

theorem cloneOf_new (path : String) : cloneOf (.mapping [(.string "clone", .string path)]) = some path := by
  simp [cloneOf, Yaml.get, Yaml.lookup, Yaml.isKey]

/-- A repository is adopted or added, and has its name from then on. -/
theorem Reached.adopt (h : Reached before progress) (path : String) :
    Reached before (adopt progress path).1 ∧ (adopt progress path).1.adopted.get? path = some (adopt progress path).2 ∧
      ∀ other name, progress.adopted.get? other = some name → (adopt progress path).1.adopted.get? other = some name := by
  unfold Migrate.adopt
  cases hadopted : progress.adopted.get? path with
  | some existing => exact ⟨h, hadopted, fun _ _ hother => hother⟩
  | none =>
    have hfree := freeName_free progress.repositories (migrationRepositoryName path)
    generalize freeName progress.repositories (migrationRepositoryName path) = name at hfree
    have hbefore : lookup name before = none := by
      rw [Yaml.lookup_eq_none_iff] at hfree ⊢
      intro hmem
      obtain ⟨entry, hentry, hkey⟩ := List.mem_map.mp hmem
      exact hfree (hkey ▸ List.mem_map_of_mem (h.entries entry hentry))
    have hnone : (adoptables before).get? path = none := by
      cases hfirst : (adoptables before).get? path with
      | none => rfl
      | some existing =>
        rw [h.first path existing hfirst] at hadopted
        cases hadopted
    have hkept : ∀ other existing, progress.adopted.get? other = some existing →
        (progress.adopted.insert path name).get? other = some existing := by
      intro other existing hother
      have hne : other ≠ path := by
        rintro rfl
        rw [hother] at hadopted
        cases hadopted
      rw [SortedMap.get?_insert, if_neg hne]
      exact hother
    have hinsert := Yaml.insert_of_lookup_none hfree (.mapping [(.string "clone", .string path)])
    dsimp only
    refine ⟨?_, by rw [SortedMap.get?_insert, if_pos rfl], hkept⟩
    constructor
    · rw [hinsert]
      exact Yaml.distinct_append_of_lookup_none h.distinct hfree _
    · intro entry hentry
      rw [hinsert]
      exact List.mem_append_left _ (h.entries entry hentry)
    · intro other existing hother
      exact hkept other existing (h.first other existing hother)
    · intro other existing hother hothernone
      rw [SortedMap.get?_insert] at hother
      split_ifs at hother with heq
      · obtain rfl := Option.some.inj hother
        rw [cloneAt, Yaml.lookup_insert_self, heq]
        exact cloneOf_new path
      · have hclone := h.adopted other existing hother hothernone
        have hne : existing ≠ name := by
          rintro rfl
          rw [cloneAt, hfree] at hclone
          cases hclone
        rw [cloneAt, Yaml.lookup_insert_of_ne hne]
        exact hclone
    · intro entry hentry hnot
      rw [hinsert] at hentry
      rcases List.mem_append.mp hentry with hentry | hentry
      · exact h.fresh entry hentry hnot
      · obtain rfl := List.mem_singleton.mp hentry
        exact ⟨name, path, rfl, cloneOf_new path, hbefore, hnone⟩

/-- What is made of a source, by what is adopted in the end. -/
def Moved (machine : Machine) (dir : PathBuf) (adopted : SortedMap String String) (e e' : Yaml × Yaml) : Prop :=
  e'.1 = e.1 ∧ (isCurrent e.2 = true ∧ e' = e ∨ isCurrent e.2 = false ∧ ∃ path name,
    migratedPath machine dir e = some path ∧ e'.2.get "path" = e.2.get "path" ∧ repositoryOf e'.2 = some name ∧
      adopted.get? path = some name)

theorem Moved.mono {adopted adopted' : SortedMap String String} {e e' : Yaml × Yaml} (h : Moved machine dir adopted e e')
    (hmono : ∀ path name, adopted.get? path = some name → adopted'.get? path = some name) :
    Moved machine dir adopted' e e' := by
  obtain ⟨hkey, hcurrent | ⟨hnot, path, name, hpath, hsame, hname, hadopted⟩⟩ := h
  · exact ⟨hkey, .inl hcurrent⟩
  · exact ⟨hkey, .inr ⟨hnot, path, name, hpath, hsame, hname, hmono path name hadopted⟩⟩

theorem require_ok_iff {α : Type} {text : String} {o : Option α} {a : α} : require text o = .ok a ↔ o = some a := by
  cases o <;> simp [require]

/-- One source: it is current and stays, or it refers to what is adopted. -/
theorem migrateSource_ok {key source source' : Yaml} (hsound : source.Sound) (hreached : Reached before progress)
    (h : migrateSource machine dir progress key source = .ok (progress', source')) :
    Reached before progress' ∧
      (∀ path name, progress.adopted.get? path = some name → progress'.adopted.get? path = some name) ∧
        Moved machine dir progress'.adopted (key, source) (key, source') := by
  simp only [migrateSource, bind_eq_ok_iff, require_ok_iff] at h
  obtain ⟨name, hname, mapping, hmapping, path, hpath, h⟩ := h
  have hcurrent : isCurrent source = alreadyCurrent mapping := by simp only [isCurrent, hmapping]
  by_cases halready : alreadyCurrent mapping = true
  · rw [if_pos halready] at h
    obtain ⟨rfl, rfl⟩ := Prod.mk.inj (Except.ok.inj h)
    exact ⟨hreached, fun _ _ hother => hother, rfl, .inl ⟨hcurrent.trans halready, rfl⟩⟩
  · rw [if_neg halready] at h
    obtain ⟨repository, hrepository, reference, -, h⟩ := by simpa only [bind_eq_ok_iff] using h
    obtain ⟨rfl, rfl⟩ := Prod.mk.inj (Except.ok.inj h)
    obtain ⟨hadopt, hadopted, hkept⟩ := hreached.adopt repository
    refine ⟨⟨hadopt.distinct, hadopt.entries, hadopt.first, hadopt.adopted, hadopt.fresh⟩, hkept, rfl,
      .inr ⟨?_, repository, _, ?_, ?_, ?_, hadopted⟩⟩
    · rw [hcurrent]
      exact Bool.eq_false_iff.mpr halready
    · simp only [migratedPath, hname, hmapping, hpath, Option.bind_eq_bind, Option.bind_some, halready]
      simp [hrepository, Except.toOption]
    · have hdistinct := (hsound.asMapping hmapping).1
      rw [Yaml.get_withMapping, Yaml.get_of_asMapping hmapping, Yaml.lookup_insert_of_ne (by decide),
        Yaml.lookup_insert_of_ne (by decide), Yaml.lookup_remove_of_ne hdistinct (by decide)]
    · rw [repositoryOf, Yaml.get_withMapping, Yaml.lookup_insert_of_ne (by decide), Yaml.lookup_insert_self]
      rfl

/-- The loop over the sources. -/
theorem migrateEach_ok {sources sources' : List (Yaml × Yaml)} (hsound : ∀ e ∈ sources, Yaml.Sound e.2)
    (hreached : Reached before progress) (h : migrateEach machine dir progress sources = .ok (progress', sources')) :
    Reached before progress' ∧
      (∀ path name, progress.adopted.get? path = some name → progress'.adopted.get? path = some name) ∧
        List.Forall₂ (Moved machine dir progress'.adopted) sources sources' := by
  induction sources generalizing progress sources' with
  | nil =>
    obtain ⟨rfl, rfl⟩ := Prod.mk.inj (Except.ok.inj h)
    exact ⟨hreached, fun _ _ hother => hother, .nil⟩
  | cons entry rest ih =>
    simp only [migrateEach, bind_eq_ok_iff] at h
    obtain ⟨⟨middle, source⟩, hsource, ⟨last, others⟩, hrest, h⟩ := h
    obtain ⟨rfl, rfl⟩ := Prod.mk.inj (Except.ok.inj h)
    obtain ⟨hmiddle, hkept, hmoved⟩ := migrateSource_ok (hsound entry List.mem_cons_self) hreached hsource
    obtain ⟨hlast, hkept', hothers⟩ := ih (fun e he => hsound e (List.mem_cons_of_mem _ he)) hmiddle hrest
    refine ⟨hlast, fun path name hname => hkept' path name (hkept path name hname), .cons (hmoved.mono hkept') hothers⟩

end Loop

/-! ### The document -/

section Document

variable {machine} {document document' : Yaml} {deployment : PathBuf} {changes changes' : List String}

theorem sourcesOf_eq (document : Yaml) : sourcesOf document =
    ((((document.get "spec").bind Yaml.asMapping).bind (lookup "sources")).bind Yaml.asMapping).getD [] := by
  rw [sourcesOf]
  cases document.get "spec" <;> rfl

theorem repositoriesOf_eq (document : Yaml) : repositoriesOf document =
    ((((document.get "spec").bind Yaml.asMapping).bind (lookup "repositories")).bind Yaml.asMapping).getD [] := by
  rw [repositoriesOf]
  cases document.get "spec" <;> rfl

/-- What a migration makes of a document: nothing where it has no sources, and otherwise what the loop
makes of its sources and repositories. -/
theorem migrateSources_ok (hsound : document.Sound)
    (h : migrateSources machine document deployment changes = .ok (document', changes')) :
    document' = document ∧ sourcesOf document = [] ∨
      ∃ progress sources, Yaml.Distinct (repositoriesOf document) ∧ (∀ e ∈ sourcesOf document, Yaml.Sound e.2) ∧
        migrateEach machine (definitionDir deployment)
            ⟨repositoriesOf document, adoptables (repositoriesOf document), changes⟩ (sourcesOf document) =
          .ok (progress, sources) ∧ sourcesOf document' = sources ∧ repositoriesOf document' = progress.repositories := by
  unfold migrateSources at h
  cases hfields : document.asMapping with
  | none =>
    simp only [hfields, Except.ok.injEq, Prod.mk.injEq] at h
    obtain ⟨rfl, rfl⟩ := h
    left
    simp [sourcesOf, Yaml.get, hfields]
  | some fields =>
    cases hspec : (document.get "spec").bind Yaml.asMapping with
    | none =>
      simp only [hfields, hspec, Except.ok.injEq, Prod.mk.injEq] at h
      obtain ⟨rfl, rfl⟩ := h
      left
      simp [sourcesOf_eq, hspec]
    | some spec =>
      obtain ⟨specValue, hspecValue, hspecMapping⟩ := Option.bind_eq_some_iff.mp hspec
      have hspecSound := hsound.get hspecValue
      have hspecDistinct := (hspecSound.asMapping hspecMapping).1
      cases hsources : lookup "sources" spec with
      | none =>
        simp only [hfields, hspec, hsources, Except.ok.injEq, Prod.mk.injEq] at h
        obtain ⟨rfl, rfl⟩ := h
        left
        simp [sourcesOf_eq, hspec, hsources]
      | some sourcesValue =>
        right
        simp only [hfields, hspec, hsources, bind_eq_ok_iff, require_ok_iff] at h
        obtain ⟨sources, hsourcesMapping, repositories, hrepositories, ⟨progress, sources'⟩, heach, h⟩ := h
        obtain ⟨rfl, -⟩ := Prod.mk.inj (Except.ok.inj h)
        have hlookup : lookup "repositories" (Yaml.remove "sources" spec) = lookup "repositories" spec :=
          Yaml.lookup_remove_of_ne hspecDistinct (by decide)
        rw [hlookup] at hrepositories
        have hsourcesOf : sourcesOf document = sources := by
          rw [sourcesOf_eq, hspec, Option.bind_some, hsources, Option.bind_some, hsourcesMapping]
          rfl
        have hrepositoriesOf : repositoriesOf document = repositories := by
          rw [repositoriesOf_eq, hspec, Option.bind_some]
          cases hvalue : lookup "repositories" spec with
          | none =>
            rw [hvalue] at hrepositories
            exact Option.some.inj hrepositories
          | some value =>
            rw [hvalue, Option.getD_some] at hrepositories
            rw [Option.bind_some, hrepositories]
            rfl
        have hdistinct : Yaml.Distinct repositories := by
          cases hvalue : lookup "repositories" spec with
          | none =>
            rw [hvalue] at hrepositories
            obtain rfl := Option.some.inj hrepositories
            exact List.nodup_nil
          | some value =>
            rw [hvalue, Option.getD_some] at hrepositories
            exact ((hspecSound.lookup hspecMapping hvalue).asMapping hrepositories).1
        have hafter : ∀ entries, ((document.withMapping (Yaml.insert "spec"
            (((document.get "spec").getD .null).withMapping entries) fields)).get "spec").bind Yaml.asMapping =
              some entries := by
          intro entries
          rw [Yaml.get_withMapping, Yaml.lookup_insert_self, Option.bind_some, Yaml.asMapping_withMapping]
        refine ⟨progress, sources', ?_, ?_, ?_, ?_, ?_⟩
        · rw [hrepositoriesOf]
          exact hdistinct
        · rw [hsourcesOf]
          exact ((hspecSound.lookup hspecMapping hsources).asMapping hsourcesMapping).2
        · rw [hrepositoriesOf, hsourcesOf]
          exact heach
        · rw [sourcesOf_eq, hafter, Option.bind_some, Yaml.lookup_insert_self, Option.bind_some,
            Yaml.asMapping_withMapping]
          rfl
        · rw [repositoriesOf_eq, hafter, Option.bind_some, Yaml.lookup_insert_of_ne (by decide),
            Yaml.lookup_insert_self]
          rfl

/-- Where nothing is to be migrated, everything is as it was. -/
theorem keepsRepositories_of_nothing (dir : PathBuf) (h : sourcesOf document = []) :
    KeepsRepositories machine dir document document where
  keys := rfl
  entries _ hentry := hentry
  current := by simp [h]
  migrated := by simp [h]
  same := by simp [h]
  fresh _ hentry hnot := absurd hentry hnot
  search := searchName_ends

/-- A source refers to an entry with its path exactly if what is adopted for it is found. -/
theorem Reached.cloneAt_iff {before : List (Yaml × Yaml)} {progress : Progress} (h : Reached before progress)
    (hdistinct : Yaml.Distinct before) {path name : String} (hname : progress.adopted.get? path = some name) :
    cloneAt name progress.repositories = some path ↔
      ∀ existing, (adoptables before).get? path = some existing → cloneAt existing before = some path := by
  cases hfirst : (adoptables before).get? path with
  | none => simpa using h.adopted path name hname hfirst
  | some existing =>
    obtain rfl : existing = name := Option.some.inj ((h.first path existing hfirst).symm.trans hname)
    simp only [Option.some.injEq, forall_eq']
    constructor
    · intro hclone
      obtain ⟨repository, hlookup, hpath⟩ := Option.bind_eq_some_iff.mp hclone
      have hentry := Yaml.mem_of_lookup hlookup
      by_cases hbefore : (Yaml.string existing, repository) ∈ before
      · rw [cloneAt, Yaml.lookup_of_mem hdistinct hbefore]
        exact hpath
      · obtain ⟨_, other, -, hother, -, hnone⟩ := h.fresh _ hentry hbefore
        rw [hpath] at hother
        rw [Option.some.inj hother, hnone] at hfirst
        cases hfirst
    · intro hclone
      obtain ⟨repository, hlookup, hpath⟩ := Option.bind_eq_some_iff.mp hclone
      rw [cloneAt, h.lookup_of_before hlookup]
      exact hpath

theorem migratedPath_of_current {dir : PathBuf} {entry : Yaml × Yaml} (h : isCurrent entry.2 = true) :
    migratedPath machine dir entry = none := by
  unfold isCurrent at h
  cases hmapping : entry.2.asMapping with
  | none => simp [hmapping] at h
  | some mapping =>
    rw [hmapping] at h
    simp only [migratedPath, hmapping, Option.bind_eq_bind, Option.bind_some, if_pos h]
    simp

variable (machine) in
/-- **When repositories are kept**: exactly if every entry that is adopted for a source is found by the
name it is adopted under. -/
theorem migrates_iff (document : Yaml.Document) (deployment : PathBuf) (changes changes' : List String)
    (after : Yaml) (h : migrateSources machine document.root deployment changes = .ok (after, changes')) :
    KeepsRepositories machine (definitionDir deployment) document.root after ↔
      AdoptedFound machine (definitionDir deployment) document.root := by
  rcases migrateSources_ok document.sound h with ⟨rfl, hnone⟩ | ⟨progress, sources, hdistinct, hsound, heach, rfl, hrepositories⟩
  · refine iff_of_true (keepsRepositories_of_nothing _ hnone) fun entry hentry => ?_
    rw [hnone] at hentry
    cases hentry
  · obtain ⟨hreached, -, hmoved⟩ := migrateEach_ok hsound (.start hdistinct changes) heach
    obtain ⟨hlength, hzip⟩ := List.forall₂_iff_zip.mp hmoved
    -- A source that is migrated is named what is adopted for its path.
    have hadopted : ∀ e e', (e, e') ∈ (sourcesOf document.root).zip (sourcesOf after) → isCurrent e.2 = false →
        ∃ path name, migratedPath machine (definitionDir deployment) e = some path ∧
          e'.2.get "path" = e.2.get "path" ∧ repositoryOf e'.2 = some name ∧
            progress.adopted.get? path = some name := by
      intro e e' hmem hnot
      rcases (hzip hmem).2 with ⟨hcurrent, -⟩ | ⟨-, hmigrated⟩
      · rw [hnot] at hcurrent
        cases hcurrent
      · exact hmigrated
    constructor
    · intro hkeeps entry hentry path hpath
      have hfst := @List.map_fst_zip _ _ (sourcesOf document.root) (sourcesOf after) hlength.le
      rw [← hfst] at hentry
      obtain ⟨⟨e, e'⟩, hmem, rfl⟩ := List.mem_map.mp hentry
      have hnot : isCurrent e.2 = false := by
        rw [Bool.eq_false_iff]
        intro hcurrent
        rw [migratedPath_of_current hcurrent] at hpath
        cases hpath
      obtain ⟨path', name', hpath', -, hname', hclone⟩ := hkeeps.migrated e e' hmem hnot
      obtain ⟨path'', name'', hpath'', -, hname'', hget⟩ := hadopted e e' hmem hnot
      obtain rfl : path' = path := Option.some.inj (hpath'.symm.trans hpath)
      obtain rfl : path'' = path' := Option.some.inj (hpath''.symm.trans hpath')
      obtain rfl : name'' = name' := Option.some.inj (hname''.symm.trans hname')
      rw [hrepositories] at hclone
      exact (hreached.cloneAt_iff hdistinct hget).mp hclone
    · intro hfound
      have hclone : ∀ e e', (e, e') ∈ (sourcesOf document.root).zip (sourcesOf after) → ∀ path name,
          migratedPath machine (definitionDir deployment) e = some path → progress.adopted.get? path = some name →
            cloneAt name (repositoriesOf after) = some path := by
        intro e e' hmem path name hpath hname
        rw [hrepositories, hreached.cloneAt_iff hdistinct hname]
        exact hfound e (List.of_mem_zip hmem).1 path hpath
      constructor
      · exact (map_eq_of_forall₂ hmoved fun e e' hmoved => hmoved.1.symm).symm
      · rw [hrepositories]
        exact hreached.entries
      · intro e e' hmem hcurrent
        rcases (hzip hmem).2 with ⟨-, hsame⟩ | ⟨hnot, -⟩
        · exact hsame
        · rw [hcurrent] at hnot
          cases hnot
      · intro e e' hmem hnot
        obtain ⟨path, name, hpath, hsame, hname, hget⟩ := hadopted e e' hmem hnot
        exact ⟨path, name, hpath, hsame, hname, hclone e e' hmem path name hpath hget⟩
      · intro e e' f f' he hf hnotE hnotF
        obtain ⟨path, name, hpath, -, hname, hget⟩ := hadopted e e' he hnotE
        obtain ⟨path', name', hpath', -, hname', hget'⟩ := hadopted f f' hf hnotF
        rw [hname, hname', hpath, hpath', Option.some.injEq, Option.some.injEq]
        constructor
        · rintro rfl
          have hsame := (hclone e e' he path name hpath hget).symm.trans (hclone f f' hf path' name hpath' hget')
          exact Option.some.inj hsame
        · rintro rfl
          exact Option.some.inj (hget.symm.trans hget')
      · intro entry hentry hnot
        rw [hrepositories] at hentry
        obtain ⟨name, path, hkey, -, hfree, -⟩ := hreached.fresh entry hentry hnot
        refine ⟨name, hkey, ?_⟩
        rw [containsKey, hfree]
        rfl
      · exact searchName_ends

end Document

/-! ### A name with a tag -/

/-- A machine without Git. -/
def offline : Machine where
  git _ _ := .error "No such file or directory (os error 2)"
  canonicalize path := .ok path

/-- A source of the older form. -/
def webSource : Yaml :=
  .mapping [(.string "type", .string "worktree"), (.string "repository", .string "../one"), (.string "ref", .string "main"),
    (.string "path", .string "sources/web")]

/-- The source as it is migrated. -/
def webMigrated (repository : String) : Yaml :=
  .mapping [(.string "path", .string "sources/web"), (.string "repository", .string repository),
    (.string "ref", .string "main")]

/-- A document with a source, and with repositories at two paths. -/
def withSource (source first : Yaml) : Yaml :=
  .mapping [(.string "spec", .mapping
    [(.string "repositories", .mapping [(first, .mapping [(.string "clone", .string "../one")]),
        (.string "main", .mapping [(.string "clone", .string "../two")])]),
      (.string "sources", .mapping [(.string "web", source)])])]

/-- The name of the first repository has a tag: its source comes to refer to the second one. -/
theorem tagged_name_taken : (withSource webSource (.tagged "!old" (.string "main"))).Sound ∧
    migrateSources offline (withSource webSource (.tagged "!old" (.string "main"))) ⟨"/srv/apmpr.yaml"⟩ [] =
      .ok (withSource (webMigrated "main") (.tagged "!old" (.string "main")),
        ["source `web` now references a declared adopted repository and ref"]) ∧
    ¬KeepsRepositories offline (definitionDir ⟨"/srv/apmpr.yaml"⟩)
      (withSource webSource (.tagged "!old" (.string "main")))
      (withSource (webMigrated "main") (.tagged "!old" (.string "main"))) := by
  refine ⟨by simp [withSource, webSource, Yaml.Distinct], by decide +kernel, fun h => ?_⟩
  obtain ⟨path, name, hpath, -, hname, hclone⟩ := h.migrated (.string "web", webSource) (.string "web", webMigrated "main")
    (by decide +kernel) (by decide +kernel)
  obtain rfl : path = "../one" := by
    have hone : migratedPath offline (definitionDir ⟨"/srv/apmpr.yaml"⟩) (.string "web", webSource) = some "../one" := by
      decide +kernel
    exact Option.some.inj (hpath.symm.trans hone)
  obtain rfl : name = "main" := by
    have hmain : repositoryOf (webMigrated "main") = some "main" := by decide +kernel
    exact Option.some.inj (hname.symm.trans hmain)
  have htwo : cloneAt "main" (repositoriesOf (withSource (webMigrated "main") (.tagged "!old" (.string "main")))) =
      some "../two" := by decide +kernel
  rw [htwo] at hclone
  exact absurd hclone (by decide)

/-- The name of the first repository has no tag. -/
theorem migrates_plain : KeepsRepositories offline (definitionDir ⟨"/srv/apmpr.yaml"⟩)
    (withSource webSource (.string "one")) (withSource (webMigrated "one") (.string "one")) := by
  refine (migrates_iff offline ⟨withSource webSource (.string "one"), by simp [withSource, webSource, Yaml.Distinct]⟩
    ⟨"/srv/apmpr.yaml"⟩ [] ["source `web` now references a declared adopted repository and ref"] _
    (by decide +kernel)).mpr ?_
  intro entry hentry path hpath name hname
  have hsources : sourcesOf (withSource webSource (.string "one")) = [(.string "web", webSource)] := by decide +kernel
  obtain rfl : entry = (.string "web", webSource) := by
    rw [hsources] at hentry
    exact List.mem_singleton.mp hentry
  obtain rfl : path = "../one" := by
    have hone : migratedPath offline (definitionDir ⟨"/srv/apmpr.yaml"⟩) (.string "web", webSource) = some "../one" := by
      decide +kernel
    exact Option.some.inj (hpath.symm.trans hone)
  obtain rfl : name = "one" := by
    have hadopted : (adoptables (repositoriesOf (withSource webSource (.string "one")))).get? "../one" = some "one" := by
      decide +kernel
    exact Option.some.inj (hname.symm.trans hadopted)
  decide +kernel

end Apmpr.Cli.Migrate
