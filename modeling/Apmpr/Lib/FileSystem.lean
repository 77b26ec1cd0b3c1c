import Mathlib.Data.List.Basic
import Mathlib.Data.List.Induction

/-!
# Paths in a file system with links

A path is where it starts and its parts, which is all that comparing and taking paths apart
goes by; inner dots and repeated separators are no parts. A location is the names on the
way to it from the root, none of them a link. A file system says what is at a location.

`walk` is how the kernel takes a path: it follows links, at most so many, and stops where
something is missing. `Leads` is where a path leads when what is missing is taken for a
directory that is still to be made; it is a relation, since links may lead in a circle.
`lexical` is where parts lead by their text alone, and `visited` what they name on the way.

## What is proved

* `LeadsFrom.unique`, `leadsFrom_append`: a path leads to one place, and part by part.
* `leads_of_canonicalize`: where the kernel comes to, the path leads.
* `walk_append`: after a directory the kernel goes on from there.
* `beneath_of_mem_visited`: parts that stay below a location name only what is beneath it.
* `makeDirs_spec`: where no links are named, what is made is named.
-/

namespace Apmpr

/-- Where a path starts: at the root, at a leading `.`, or at the working directory. -/
inductive PathStart where
  | root
  | dot
  | bare
  deriving DecidableEq

/-- A part of a path: `..` or a name. -/
inductive PathPart where
  | up
  | name (name : String)
  deriving DecidableEq

/-- A path. -/
structure Path where
  start : PathStart
  parts : List PathPart
  deriving DecidableEq

/-- A location: the names on the way to it. -/
abbrev Location := List String

/-- A location strictly below another one. -/
def Beneath (root location : Location) : Prop := root <+: location ∧ location ≠ root

theorem Beneath.below {root existing location : Location} (h : Beneath existing location) (hroot : root <+: existing) :
    Beneath root location := by
  refine ⟨hroot.trans h.1, fun heq => ?_⟩
  subst heq
  exact h.2 (hroot.eq_of_length (Nat.le_antisymm hroot.length_le h.1.length_le))

namespace Path

/-- `Path::parent`. -/
def parent (path : Path) : Option Path :=
  match path.parts with
  | [] =>
    match path.start with
    | .dot => some ⟨.bare, []⟩
    | .root | .bare => none
  | part :: rest => some ⟨path.start, (part :: rest).dropLast⟩

/-- `Path::file_name`. -/
def fileName (path : Path) : Option String :=
  match path.parts.getLast? with
  | some (.name name) => some name
  | _ => none

/-- `Path::join`. -/
def join (base path : Path) : Path :=
  match path.start with
  | .root => path
  | .dot | .bare => ⟨base.start, base.parts ++ path.parts⟩

/-- `Path::strip_prefix`. -/
def stripPrefix (path base : Path) : Option Path :=
  if path.start = base.start && base.parts.isPrefixOf path.parts then
    some ⟨.bare, path.parts.drop base.parts.length⟩
  else none

/-- `Path::starts_with`. -/
def startsWith (path base : Path) : Bool := path.start = base.start && base.parts.isPrefixOf path.parts

/-- The text of a path's components. -/
def display (path : Path) : String :=
  let parts := path.parts.map fun
    | .up => ".."
    | .name name => name
  match path.start with
  | .root => "/" ++ "/".intercalate parts
  | .dot => "/".intercalate ("." :: parts)
  | .bare => "/".intercalate parts

/-- The path of a location. -/
def canonical (location : Location) : Path := ⟨.root, location.map .name⟩

end Path

/-- What is at a location. -/
inductive Entry where
  | dir
  | file
  | link (target : Path)
  deriving DecidableEq

/-- A file system with a working directory, in which the kernel follows so many links. -/
structure FileSystem where
  entry : Location → Option Entry
  cwd : Location
  links : ℕ
  root_dir : entry [] = some .dir
  cwd_dir : entry cwd = some .dir
  above_dir : ∀ location name, entry (location ++ [name]) ≠ none → entry location = some .dir

/-- Where a path starts from, seen from a location. -/
def PathStart.from (location : Location) : PathStart → Location
  | .root => []
  | .dot | .bare => location

namespace FileSystem

variable (fs : FileSystem)

/-- The kernel's way along parts up to the next link, which `follow` takes; the last name may be
missing where a file is to be created. -/
def walkParts (create : Bool) (follow : Location → List PathPart → Option Location) :
    Location → List PathPart → Option Location
  | location, [] => some location
  | location, .up :: rest => walkParts create follow location.dropLast rest
  | location, .name name :: rest =>
    match fs.entry (location ++ [name]) with
    | none => if create && rest = [] then some (location ++ [name]) else none
    | some .dir => walkParts create follow (location ++ [name]) rest
    | some .file => if rest = [] then some (location ++ [name]) else none
    | some (.link target) => follow (target.start.from location) (target.parts ++ rest)

/-- The kernel's way along parts, over at most so many links. -/
def walk (create : Bool) : ℕ → Location → List PathPart → Option Location
  | 0 => fs.walkParts create fun _ _ => none
  | links + 1 => fs.walkParts create (walk create links)

/-- Where the kernel comes to along a path; the empty path is no path. -/
def resolve (create : Bool) (path : Path) : Option Location :=
  if path = ⟨.bare, []⟩ then none else fs.walk create fs.links (path.start.from fs.cwd) path.parts

/-- `canonicalize`. -/
def canonicalize (path : Path) : Option Location := fs.resolve false path

/-- `exists`. -/
def pathExists (path : Path) : Bool := (fs.canonicalize path).isSome

/-- The file system with something new at a location, where it can be. -/
def add (location : Location) (new : Entry) : FileSystem :=
  if h : location ≠ [] ∧ fs.entry location.dropLast = some .dir ∧ fs.entry location = none then
    { fs with
      entry := Function.update fs.entry location (some new)
      root_dir := by
        rw [Function.update_of_ne h.1.symm]
        exact fs.root_dir
      cwd_dir := by
        have hcwd : fs.cwd ≠ location := by
          rintro rfl
          rw [fs.cwd_dir] at h
          exact absurd h.2.2 nofun
        rw [Function.update_of_ne hcwd]
        exact fs.cwd_dir
      above_dir := by
        intro above name hentry
        by_cases hsame : above ++ [name] = location
        · subst hsame
          rw [Function.update_of_ne (by simp)]
          simpa using h.2.1
        rw [Function.update_of_ne hsame] at hentry
        have hdir := fs.above_dir above name hentry
        have hne : above ≠ location := by
          rintro rfl
          rw [hdir] at h
          exact absurd h.2.2 nofun
        rw [Function.update_of_ne hne]
        exact hdir }
  else fs

/-- `mkdir`. -/
def mkdir (location : Location) (name : String) : FileSystem := fs.add (location ++ [name]) .dir

/-- `write`: the file that is written, made if it is missing. -/
def writeFile (path : Path) : Option (FileSystem × Location) :=
  match fs.resolve true path with
  | none => none
  | some location =>
    match fs.entry location with
    | some .file => some (fs, location)
    | none => some (fs.add location .file, location)
    | some .dir | some (.link _) => none

/-- The directories along parts, made where they are missing, up to what is no directory. -/
def makeDirs : FileSystem → Location → List PathPart → FileSystem × Bool
  | fs, _, [] => (fs, true)
  | fs, location, .up :: rest => makeDirs fs location.dropLast rest
  | fs, location, .name name :: rest =>
    match fs.entry (location ++ [name]) with
    | none => makeDirs (fs.mkdir location name) (location ++ [name]) rest
    | some .dir => makeDirs fs (location ++ [name]) rest
    | some .file => (fs, false)
    | some (.link target) =>
      match fs.walk false fs.links (target.start.from location) target.parts with
      | none => (fs, false)
      | some final => if fs.entry final = some .dir then makeDirs fs final rest else (fs, false)

/-- `create_dir_all`: the file system, and whether the directories are there. -/
def createDirAll (path : Path) : FileSystem × Bool := fs.makeDirs (path.start.from fs.cwd) path.parts

/-- Where parts lead from a location: over every link that is there, and over what is not there
as over a directory that is still to be made. -/
inductive LeadsFrom : Location → List PathPart → Location → Prop where
  | done (location : Location) : LeadsFrom location [] location
  | up {location final : Location} {rest : List PathPart} (next : LeadsFrom location.dropLast rest final) :
      LeadsFrom location (.up :: rest) final
  | name {location final : Location} {name : String} {rest : List PathPart}
      (plain : ∀ target, fs.entry (location ++ [name]) ≠ some (.link target))
      (next : LeadsFrom (location ++ [name]) rest final) : LeadsFrom location (.name name :: rest) final
  | link {location final : Location} {name : String} {target : Path} {rest : List PathPart}
      (entry : fs.entry (location ++ [name]) = some (.link target))
      (next : LeadsFrom (target.start.from location) (target.parts ++ rest) final) :
      LeadsFrom location (.name name :: rest) final

/-- Where a path leads. -/
def Leads (path : Path) (final : Location) : Prop := fs.LeadsFrom (path.start.from fs.cwd) path.parts final

variable {fs} {create : Bool}

/-- A path leads to one place. -/
theorem LeadsFrom.unique {location final final' : Location} {parts : List PathPart}
    (h : fs.LeadsFrom location parts final) (h' : fs.LeadsFrom location parts final') : final = final' := by
  induction h with
  | done =>
    cases h'
    rfl
  | up _ ih =>
    cases h' with
    | up next => exact ih next
  | name plain _ ih =>
    cases h' with
    | name _ next => exact ih next
    | link entry _ => exact absurd entry (plain _)
  | link entry _ ih =>
    cases h' with
    | name plain _ => exact absurd entry (plain _)
    | link entry' next =>
      obtain rfl := Entry.link.inj (Option.some.inj (entry.symm.trans entry'))
      exact ih next

/-- A path leads part by part. -/
theorem leadsFrom_append {location final : Location} {before later : List PathPart} :
    fs.LeadsFrom location (before ++ later) final ↔
      ∃ middle, fs.LeadsFrom location before middle ∧ fs.LeadsFrom middle later final := by
  constructor
  · intro h
    generalize hparts : before ++ later = parts at h
    induction h generalizing before with
    | done location =>
      obtain ⟨rfl, rfl⟩ := List.append_eq_nil_iff.mp hparts
      exact ⟨location, .done _, .done _⟩
    | @up location final rest next ih =>
      cases before with
      | nil =>
        rw [List.nil_append] at hparts
        subst hparts
        exact ⟨location, .done _, .up next⟩
      | cons part before =>
        obtain ⟨rfl, hrest⟩ := List.cons.inj hparts
        obtain ⟨middle, hbefore, hlater⟩ := ih hrest
        exact ⟨middle, .up hbefore, hlater⟩
    | @name location final name rest plain next ih =>
      cases before with
      | nil =>
        rw [List.nil_append] at hparts
        subst hparts
        exact ⟨location, .done _, .name plain next⟩
      | cons part before =>
        obtain ⟨rfl, hrest⟩ := List.cons.inj hparts
        obtain ⟨middle, hbefore, hlater⟩ := ih hrest
        exact ⟨middle, .name plain hbefore, hlater⟩
    | @link location final name target rest entry next ih =>
      cases before with
      | nil =>
        rw [List.nil_append] at hparts
        subst hparts
        exact ⟨location, .done _, .link entry next⟩
      | cons part before =>
        obtain ⟨rfl, hrest⟩ := List.cons.inj hparts
        have htarget : (target.parts ++ before) ++ later = target.parts ++ rest := by
          rw [List.append_assoc, ← hrest]
          rfl
        obtain ⟨middle, hbefore, hlater⟩ := ih htarget
        exact ⟨middle, .link entry hbefore, hlater⟩
  · rintro ⟨middle, hbefore, hlater⟩
    induction hbefore with
    | done => exact hlater
    | up _ ih => exact .up (ih hlater)
    | name plain _ ih => exact .name plain (ih hlater)
    | link entry _ ih =>
      have hnext := ih hlater
      rw [List.append_assoc] at hnext
      exact .link entry hnext

/-! ### The kernel -/

/-- What follows a link comes where the path leads. -/
theorem leadsFrom_of_walkParts {follow : Location → List PathPart → Option Location}
    (hfollow : ∀ location parts final, follow location parts = some final → fs.LeadsFrom location parts final)
    {location final : Location} {parts : List PathPart} (h : fs.walkParts create follow location parts = some final) :
    fs.LeadsFrom location parts final := by
  induction parts generalizing location with
  | nil =>
    obtain rfl := Option.some.inj h
    exact .done _
  | cons part rest ih =>
    cases part with
    | up => exact .up (ih h)
    | name name =>
      rw [walkParts] at h
      cases hentry : fs.entry (location ++ [name]) with
      | none =>
        rw [hentry] at h
        dsimp only at h
        split_ifs at h with hcreate
        obtain rfl := Option.some.inj h
        obtain rfl : rest = [] := by simpa using (Bool.and_eq_true_iff.mp hcreate).2
        exact .name (by simp [hentry]) (.done _)
      | some entry =>
        rw [hentry] at h
        cases entry with
        | dir => exact .name (by simp [hentry]) (ih h)
        | file =>
          dsimp only at h
          split_ifs at h with hrest
          subst hrest
          obtain rfl := Option.some.inj h
          exact .name (by simp [hentry]) (.done _)
        | link target => exact .link hentry (hfollow _ _ _ h)

/-- Where the kernel comes to, the parts lead. -/
theorem leadsFrom_of_walk {links : ℕ} {location final : Location} {parts : List PathPart}
    (h : fs.walk create links location parts = some final) : fs.LeadsFrom location parts final := by
  induction links generalizing location parts final with
  | zero => exact leadsFrom_of_walkParts (by simp) h
  | succ links ih => exact leadsFrom_of_walkParts (fun _ _ _ => ih) h

/-- Along more parts the kernel goes on from where it is, or the link it has come to does. -/
theorem walkParts_append {follow : Location → List PathPart → Option Location} {location middle : Location}
    {before : List PathPart} (later : List PathPart) (h : fs.walkParts create follow location before = some middle)
    (hdir : fs.entry middle = some .dir) :
    fs.walkParts create follow location (before ++ later) = fs.walkParts create follow middle later ∨
      ∃ from' parts, follow from' parts = some middle ∧
        fs.walkParts create follow location (before ++ later) = follow from' (parts ++ later) := by
  induction before generalizing location with
  | nil =>
    obtain rfl := Option.some.inj h
    exact .inl rfl
  | cons part rest ih =>
    cases part with
    | up => exact ih h
    | name name =>
      rw [walkParts] at h
      rw [List.cons_append, walkParts]
      cases hentry : fs.entry (location ++ [name]) with
      | none =>
        rw [hentry] at h
        dsimp only at h
        split_ifs at h
        obtain rfl := Option.some.inj h
        rw [hentry] at hdir
        cases hdir
      | some entry =>
        rw [hentry] at h
        cases entry with
        | dir => exact ih h
        | file =>
          dsimp only at h
          split_ifs at h
          obtain rfl := Option.some.inj h
          rw [hentry] at hdir
          cases hdir
        | link target => exact .inr ⟨_, _, h, by rw [List.append_assoc]⟩

/-- After a directory the kernel goes on from there, over what links are left. -/
theorem walk_append {links : ℕ} {location middle : Location} {before : List PathPart} (later : List PathPart)
    (h : fs.walk create links location before = some middle) (hdir : fs.entry middle = some .dir) :
    ∃ left ≤ links, fs.walk create links location (before ++ later) = fs.walk create left middle later := by
  induction links generalizing location before with
  | zero =>
    rcases walkParts_append later h hdir with hwalk | ⟨from', parts, hfollow, -⟩
    · exact ⟨0, Nat.le_refl _, hwalk⟩
    · cases hfollow
  | succ links ih =>
    rcases walkParts_append later h hdir with hwalk | ⟨from', parts, hfollow, hwalk⟩
    · exact ⟨links + 1, Nat.le_refl _, hwalk⟩
    · obtain ⟨left, hle, hleft⟩ := ih hfollow
      exact ⟨left, Nat.le_succ_of_le hle, hwalk.trans hleft⟩

/-- What something is below is a directory. -/
theorem dir_of_below {location below : Location} (h : fs.entry (location ++ below) ≠ none) (hbelow : below ≠ []) :
    fs.entry location = some .dir := by
  induction below using List.reverseRecOn with
  | nil => exact absurd rfl hbelow
  | append_singleton below name ih =>
    rw [← List.append_assoc] at h
    have hdir := fs.above_dir _ _ h
    by_cases hnil : below = []
    · rwa [hnil, List.append_nil] at hdir
    · exact ih (by simp [hdir]) hnil

/-- Something is at a location that is no link. -/
def There (fs : FileSystem) (location : Location) : Prop :=
  fs.entry location = some .dir ∨ fs.entry location = some .file

theorem There.ne_none {location : Location} (h : fs.There location) : fs.entry location ≠ none := by
  rcases h with h | h <;> simp [h]

/-- A directory on the way to something, or the thing itself. -/
theorem There.above {location below : Location} (h : fs.There (location ++ below)) : fs.There location := by
  by_cases hbelow : below = []
  · rwa [hbelow, List.append_nil] at h
  · exact .inl (dir_of_below h.ne_none hbelow)

/-- Names on the way to something are followed there. -/
theorem walkParts_names {follow : Location → List PathPart → Option Location} {location names : Location}
    (h : fs.There (location ++ names)) :
    fs.walkParts create follow location (names.map .name) = some (location ++ names) := by
  induction names generalizing location with
  | nil => rw [List.append_nil]; rfl
  | cons name rest ih =>
    rw [List.append_cons] at h ⊢
    have hname : fs.There (location ++ [name]) := h.above
    rw [List.map_cons, walkParts]
    rcases hname with hentry | hentry
    · rw [hentry]
      exact ih h
    · rw [hentry]
      by_cases hrest : rest = []
      · subst hrest
        simp
      · have hdir := dir_of_below h.ne_none hrest
        rw [hentry] at hdir
        cases hdir

theorem walk_nil {links : ℕ} {location : Location} : fs.walk create links location [] = some location := by
  cases links <;> rfl

theorem walk_names {links : ℕ} {location names : Location} (h : fs.There (location ++ names)) :
    fs.walk create links location (names.map .name) = some (location ++ names) := by
  cases links <;> exact walkParts_names h

/-- The path of a location where something is is its own. -/
theorem canonicalize_canonical {location : Location} (h : fs.There location) :
    fs.canonicalize (.canonical location) = some location := by
  rw [canonicalize, resolve, if_neg (by simp [Path.canonical])]
  exact walk_names (show fs.There ([] ++ location) from h)

/-- The kernel comes to something that is there, from a directory. -/
theorem there_of_walkParts {follow : Location → List PathPart → Option Location}
    (hfollow : ∀ location parts final, fs.entry location = some .dir → follow location parts = some final → fs.There final)
    {location final : Location} {parts : List PathPart} (hdir : fs.entry location = some .dir)
    (h : fs.walkParts false follow location parts = some final) : fs.There final := by
  induction parts generalizing location with
  | nil =>
    obtain rfl := Option.some.inj h
    exact .inl hdir
  | cons part rest ih =>
    cases part with
    | up =>
      refine ih ?_ h
      rcases List.eq_nil_or_concat location with rfl | ⟨above, name, rfl⟩
      · exact fs.root_dir
      · rw [List.concat_eq_append, List.dropLast_concat]
        rw [List.concat_eq_append] at hdir
        exact fs.above_dir above name (by simp [hdir])
    | name name =>
      rw [walkParts] at h
      cases hentry : fs.entry (location ++ [name]) with
      | none =>
        rw [hentry] at h
        cases h
      | some entry =>
        rw [hentry] at h
        cases entry with
        | dir => exact ih hentry h
        | file =>
          dsimp only at h
          split_ifs at h
          obtain rfl := Option.some.inj h
          exact .inr hentry
        | link target =>
          refine hfollow _ _ _ ?_ h
          cases target.start with
          | root => exact fs.root_dir
          | dot => exact hdir
          | bare => exact hdir

theorem there_of_walk {links : ℕ} {location final : Location} {parts : List PathPart}
    (hdir : fs.entry location = some .dir) (h : fs.walk false links location parts = some final) : fs.There final := by
  induction links generalizing location parts final with
  | zero => exact there_of_walkParts (by simp) hdir h
  | succ links ih => exact there_of_walkParts (fun _ _ _ => ih) hdir h

/-- A path starts in a directory. -/
theorem from_dir (start : PathStart) : fs.entry (start.from fs.cwd) = some .dir := by
  cases start with
  | root => exact fs.root_dir
  | dot => exact fs.cwd_dir
  | bare => exact fs.cwd_dir

theorem there_of_canonicalize {path : Path} {location : Location} (h : fs.canonicalize path = some location) :
    fs.There location := by
  rw [canonicalize, resolve] at h
  split_ifs at h
  exact there_of_walk (from_dir _) h

/-- Where the kernel comes to, the path leads. -/
theorem leads_of_canonicalize {path : Path} {location : Location} (h : fs.canonicalize path = some location) :
    fs.Leads path location := by
  rw [canonicalize, resolve] at h
  split_ifs at h
  exact leadsFrom_of_walk h

/-- A file system of directories. -/
def ofDirs (dirs : List Location) (cwd : Location) (hroot : [] ∈ dirs) (hcwd : cwd ∈ dirs)
    (habove : ∀ dir ∈ dirs, dir.dropLast ∈ dirs) : FileSystem where
  entry location := if location ∈ dirs then some .dir else none
  cwd := cwd
  links := 40
  root_dir := if_pos hroot
  cwd_dir := if_pos hcwd
  above_dir location name hentry := by
    have hmem : location ++ [name] ∈ dirs := by
      by_contra hmem
      exact hentry (if_neg hmem)
    have habove' := habove _ hmem
    rw [List.dropLast_concat] at habove'
    exact if_pos habove'

/-! ### Parts without links -/

/-- Where parts lead if there are no links. -/
def lexical : Location → List PathPart → Location
  | location, [] => location
  | location, .up :: rest => lexical location.dropLast rest
  | location, .name name :: rest => lexical (location ++ [name]) rest

/-- The locations that parts name on their way. -/
def visited : Location → List PathPart → List Location
  | _, [] => []
  | location, .up :: rest => visited location.dropLast rest
  | location, .name name :: rest => (location ++ [name]) :: visited (location ++ [name]) rest

/-- Whether parts, from so many names below a location, name only what is below it: once they
are above it, they only go on upwards. -/
def staysBelow : ℕ → List PathPart → Bool
  | _, [] => true
  | 0, .up :: rest => rest.all (· = .up)
  | depth + 1, .up :: rest => staysBelow depth rest
  | depth, .name _ :: rest => staysBelow (depth + 1) rest

theorem lexical_append (location : Location) (before later : List PathPart) :
    lexical location (before ++ later) = lexical (lexical location before) later := by
  induction before generalizing location with
  | nil => rfl
  | cons part rest ih => cases part <;> exact ih _

theorem visited_append (location : Location) (before later : List PathPart) :
    visited location (before ++ later) = visited location before ++ visited (lexical location before) later := by
  induction before generalizing location with
  | nil => rfl
  | cons part rest ih =>
    cases part with
    | up => exact ih _
    | name name => exact congrArg _ (ih _)

theorem visited_ups {parts : List PathPart} (h : parts.all (· = .up) = true) (location : Location) :
    visited location parts = [] := by
  induction parts generalizing location with
  | nil => rfl
  | cons part rest ih =>
    simp only [List.all_cons, Bool.and_eq_true, decide_eq_true_eq] at h
    obtain ⟨rfl, hrest⟩ := h
    exact ih hrest _

/-- **Staying below.** Parts that stay below a location name only what is strictly beneath it. -/
theorem beneath_of_mem_visited {root below location : Location} {parts : List PathPart}
    (h : staysBelow below.length parts = true) (hmem : location ∈ visited (root ++ below) parts) :
    Beneath root location := by
  induction parts generalizing below with
  | nil => cases hmem
  | cons part rest ih =>
    cases part with
    | name name =>
      have hrest : staysBelow (below ++ [name]).length rest = true := by simpa [staysBelow] using h
      rw [visited, List.append_assoc] at hmem
      rcases List.mem_cons.mp hmem with rfl | hmem
      · exact ⟨List.prefix_append _ _, by simp⟩
      · exact ih hrest hmem
    | up =>
      rcases List.eq_nil_or_concat below with rfl | ⟨above, name, rfl⟩
      · rw [visited, visited_ups h] at hmem
        cases hmem
      · rw [List.concat_eq_append] at h hmem
        rw [List.length_append, List.length_singleton] at h
        rw [visited, ← List.append_assoc, List.dropLast_concat] at hmem
        exact ih h hmem

theorem dir_dropLast {location : Location} (h : fs.entry location = some .dir) :
    fs.entry location.dropLast = some .dir := by
  rcases List.eq_nil_or_concat location with rfl | ⟨above, name, rfl⟩
  · exact h
  · rw [List.concat_eq_append] at h ⊢
    rw [List.dropLast_concat]
    exact fs.above_dir above name (by simp [h])

/-- Over directories the kernel comes to where the parts lead, and goes on from there. -/
theorem walkParts_dirs {follow : Location → List PathPart → Option Location} {location : Location}
    {before : List PathPart} (hdirs : ∀ l ∈ visited location before, fs.entry l = some .dir) (later : List PathPart) :
    fs.walkParts create follow location (before ++ later) = fs.walkParts create follow (lexical location before) later := by
  induction before generalizing location with
  | nil => rfl
  | cons part rest ih =>
    cases part with
    | up => exact ih hdirs
    | name name =>
      rw [List.cons_append, walkParts, hdirs _ (List.mem_cons_self ..)]
      exact ih fun l hl => hdirs l (List.mem_cons_of_mem _ hl)

/-- Where no links are named, the kernel comes to where the parts lead: a directory, or the
last name. -/
theorem walkParts_plain {follow : Location → List PathPart → Option Location} {location final : Location}
    {parts : List PathPart} (hplain : ∀ l ∈ visited location parts, ∀ target, fs.entry l ≠ some (.link target))
    (hdir : fs.entry location = some .dir) (h : fs.walkParts create follow location parts = some final) :
    final = lexical location parts ∧ (fs.entry final = some .dir ∨ final ∈ visited location parts) := by
  induction parts generalizing location with
  | nil =>
    obtain rfl := Option.some.inj h
    exact ⟨rfl, .inl hdir⟩
  | cons part rest ih =>
    cases part with
    | up => exact ih hplain (dir_dropLast hdir) h
    | name name =>
      have hlater : ∀ l ∈ visited (location ++ [name]) rest, ∀ target, fs.entry l ≠ some (.link target) :=
        fun l hl => hplain l (List.mem_cons_of_mem _ hl)
      have hhere := hplain (location ++ [name]) (List.mem_cons_self ..)
      rw [walkParts] at h
      cases hentry : fs.entry (location ++ [name]) with
      | none =>
        rw [hentry] at h
        dsimp only at h
        split_ifs at h with hcreate
        obtain rfl := Option.some.inj h
        obtain rfl : rest = [] := by simpa using (Bool.and_eq_true_iff.mp hcreate).2
        exact ⟨rfl, .inr (List.mem_cons_self ..)⟩
      | some entry =>
        rw [hentry] at h
        cases entry with
        | dir =>
          obtain ⟨hfinal, hmem⟩ := ih hlater hentry h
          exact ⟨hfinal, hmem.imp_right (List.mem_cons_of_mem _)⟩
        | file =>
          dsimp only at h
          split_ifs at h with hrest
          subst hrest
          obtain rfl := Option.some.inj h
          exact ⟨rfl, .inr (List.mem_cons_self ..)⟩
        | link target => exact absurd hentry (hhere target)

/-- Where no links are named, all that is named on the way to a directory is a directory. -/
theorem dirs_of_walkParts {follow : Location → List PathPart → Option Location} {location final : Location}
    {parts : List PathPart} (hplain : ∀ l ∈ visited location parts, ∀ target, fs.entry l ≠ some (.link target))
    (h : fs.walkParts false follow location parts = some final) (hfinal : fs.entry final = some .dir) :
    ∀ l ∈ visited location parts, fs.entry l = some .dir := by
  induction parts generalizing location with
  | nil => simp [visited]
  | cons part rest ih =>
    cases part with
    | up => exact ih hplain h
    | name name =>
      have hlater : ∀ l ∈ visited (location ++ [name]) rest, ∀ target, fs.entry l ≠ some (.link target) :=
        fun l hl => hplain l (List.mem_cons_of_mem _ hl)
      have hhere := hplain (location ++ [name]) (List.mem_cons_self ..)
      rw [walkParts] at h
      cases hentry : fs.entry (location ++ [name]) with
      | none =>
        rw [hentry] at h
        cases h
      | some entry =>
        rw [hentry] at h
        cases entry with
        | dir =>
          intro l hl
          rcases List.mem_cons.mp hl with rfl | hl
          · exact hentry
          · exact ih hlater h l hl
        | file =>
          dsimp only at h
          split_ifs at h
          obtain rfl := Option.some.inj h
          rw [hentry] at hfinal
          cases hfinal
        | link target => exact absurd hentry (hhere target)

/-- What the kernel finds in one file system it finds in another that has the directories on
the way and the same thing at the end. -/
theorem walkParts_transfer {fs' : FileSystem} {follow follow' : Location → List PathPart → Option Location}
    {location final : Location} {parts : List PathPart}
    (hplain : ∀ l ∈ visited location parts, ∀ target, fs.entry l ≠ some (.link target))
    (hdirs : ∀ l ∈ visited location parts, fs.entry l = some .dir → fs'.entry l = some .dir)
    (hfinal : fs'.entry final = fs.entry final) (h : fs.walkParts false follow location parts = some final) :
    fs'.walkParts false follow' location parts = some final := by
  induction parts generalizing location with
  | nil => exact h
  | cons part rest ih =>
    cases part with
    | up => exact ih hplain hdirs h
    | name name =>
      have hlater : ∀ l ∈ visited (location ++ [name]) rest, ∀ target, fs.entry l ≠ some (.link target) :=
        fun l hl => hplain l (List.mem_cons_of_mem _ hl)
      have hlaterDirs : ∀ l ∈ visited (location ++ [name]) rest, fs.entry l = some .dir → fs'.entry l = some .dir :=
        fun l hl => hdirs l (List.mem_cons_of_mem _ hl)
      have hhere := hplain (location ++ [name]) (List.mem_cons_self ..)
      rw [walkParts] at h ⊢
      cases hentry : fs.entry (location ++ [name]) with
      | none =>
        rw [hentry] at h
        cases h
      | some entry =>
        rw [hentry] at h
        cases entry with
        | dir =>
          rw [hdirs _ (List.mem_cons_self ..) hentry]
          exact ih hlater hlaterDirs h
        | file =>
          dsimp only at h
          split_ifs at h with hrest
          obtain rfl := Option.some.inj h
          rw [hfinal, hentry]
          exact if_pos hrest
        | link target => exact absurd hentry (hhere target)

/-- The kernel's way along a path. -/
theorem resolve_eq {path : Path} (h : path.parts ≠ []) :
    ∃ follow, fs.resolve create path = fs.walkParts create follow (path.start.from fs.cwd) path.parts := by
  have hne : path ≠ ⟨.bare, []⟩ := by
    rintro rfl
    exact h rfl
  rw [resolve, if_neg hne]
  cases fs.links with
  | zero => exact ⟨_, rfl⟩
  | succ links => exact ⟨_, rfl⟩

/-! ### Part by part -/

theorem walk_up (links : ℕ) (location : Location) (rest : List PathPart) :
    fs.walk create links location (.up :: rest) = fs.walk create links location.dropLast rest := by
  cases links <;> rfl

theorem walk_name_dir {links : ℕ} {location : Location} {name : String} {rest : List PathPart}
    (h : fs.entry (location ++ [name]) = some .dir) :
    fs.walk create links location (.name name :: rest) = fs.walk create links (location ++ [name]) rest := by
  cases links <;> simp only [walk, walkParts, h]

/-- A file in the way, or at the end. -/
theorem walk_name_file {links : ℕ} {location : Location} {name : String} {rest : List PathPart}
    (h : fs.entry (location ++ [name]) = some .file) :
    fs.walk create links location (.name name :: rest) = if rest = [] then some (location ++ [name]) else none := by
  cases links <;> simp only [walk, walkParts, h]

theorem walk_name_none {links : ℕ} {location : Location} {name : String} {rest : List PathPart}
    (h : fs.entry (location ++ [name]) = none) :
    fs.walk create links location (.name name :: rest) = if create && rest = [] then some (location ++ [name]) else none := by
  cases links <;> simp only [walk, walkParts, h]

/-- What is behind a link is found with the links that are left. -/
theorem walk_name_link {links : ℕ} {location final : Location} {name : String} {target : Path} {rest : List PathPart}
    (h : fs.entry (location ++ [name]) = some (.link target))
    (hwalk : fs.walk create links location (.name name :: rest) = some final) :
    ∃ left, links = left + 1 ∧ fs.walk create left (target.start.from location) (target.parts ++ rest) = some final := by
  cases links with
  | zero =>
    simp only [walk, walkParts, h] at hwalk
    cases hwalk
  | succ left =>
    simp only [walk, walkParts, h] at hwalk
    exact ⟨left, rfl, hwalk⟩

/-- Over directories the kernel comes to where the parts lead. -/
theorem walk_dirs {links : ℕ} {location : Location} {before : List PathPart}
    (hdirs : ∀ l ∈ visited location before, fs.entry l = some .dir) (later : List PathPart) :
    fs.walk create links location (before ++ later) = fs.walk create links (lexical location before) later := by
  cases links <;> exact walkParts_dirs hdirs later

theorem makeDirs_dirs {location : Location} {before : List PathPart}
    (hdirs : ∀ l ∈ visited location before, fs.entry l = some .dir) (later : List PathPart) :
    fs.makeDirs location (before ++ later) = fs.makeDirs (lexical location before) later := by
  induction before generalizing location with
  | nil => rfl
  | cons part rest ih =>
    cases part with
    | up => exact ih hdirs
    | name name =>
      rw [List.cons_append, makeDirs, hdirs _ (List.mem_cons_self ..)]
      exact ih fun l hl => hdirs l (List.mem_cons_of_mem _ hl)

/-- What is found stays found where nothing goes away and links that were followed still are. -/
theorem walkParts_keeps {fs' : FileSystem} {follow follow' : Location → List PathPart → Option Location}
    (hkeeps : ∀ l entry, fs.entry l = some entry → fs'.entry l = some entry)
    (hfollow : ∀ l parts final, follow l parts = some final → follow' l parts = some final)
    {location final : Location} {parts : List PathPart} (h : fs.walkParts false follow location parts = some final) :
    fs'.walkParts false follow' location parts = some final := by
  induction parts generalizing location with
  | nil => exact h
  | cons part rest ih =>
    cases part with
    | up => exact ih h
    | name name =>
      rw [walkParts] at h ⊢
      cases hentry : fs.entry (location ++ [name]) with
      | none =>
        rw [hentry] at h
        cases h
      | some entry =>
        rw [hentry] at h
        rw [hkeeps _ _ hentry]
        cases entry with
        | dir => exact ih h
        | file => exact h
        | link target => exact hfollow _ _ _ h

/-- The same of the kernel, also with more links. -/
theorem walk_keeps {fs' : FileSystem} (hkeeps : ∀ l entry, fs.entry l = some entry → fs'.entry l = some entry)
    {links links' : ℕ} (hle : links ≤ links') {location final : Location} {parts : List PathPart}
    (h : fs.walk false links location parts = some final) : fs'.walk false links' location parts = some final := by
  induction links generalizing links' location parts final with
  | zero => cases links' <;> exact walkParts_keeps hkeeps (by simp) h
  | succ links ih =>
    cases links' with
    | zero => cases hle
    | succ links' => exact walkParts_keeps hkeeps (fun _ _ _ hfollow => ih (Nat.le_of_succ_le_succ hle) hfollow) h

theorem walkParts_create {follow follow' : Location → List PathPart → Option Location}
    (hfollow : ∀ l parts final, follow l parts = some final → follow' l parts = some final)
    {location final : Location} {parts : List PathPart} (h : fs.walkParts false follow location parts = some final) :
    fs.walkParts true follow' location parts = some final := by
  induction parts generalizing location with
  | nil => exact h
  | cons part rest ih =>
    cases part with
    | up => exact ih h
    | name name =>
      rw [walkParts] at h ⊢
      cases hentry : fs.entry (location ++ [name]) with
      | none =>
        rw [hentry] at h
        cases h
      | some entry =>
        rw [hentry] at h
        cases entry with
        | dir => exact ih h
        | file => exact h
        | link target => exact hfollow _ _ _ h

/-- What is found is found also where a file may be created. -/
theorem walk_create {links : ℕ} {location final : Location} {parts : List PathPart}
    (h : fs.walk false links location parts = some final) : fs.walk true links location parts = some final := by
  induction links generalizing location parts final with
  | zero => exact walkParts_create (by simp) h
  | succ links ih => exact walkParts_create (fun _ _ _ => ih) h

/-! ### What is new -/

/-- A file system is another one with something more: nothing that was there has changed. -/
structure Extends (new : Location → Entry → Prop) (fs fs' : FileSystem) : Prop where
  cwd : fs'.cwd = fs.cwd
  links : fs'.links = fs.links
  entry : ∀ location, fs'.entry location = fs.entry location ∨
    fs.entry location = none ∧ ∃ entry, fs'.entry location = some entry ∧ new location entry

namespace Extends

variable {fs' fs'' : FileSystem} {new new' : Location → Entry → Prop}

theorem refl : Extends new fs fs := ⟨rfl, rfl, fun _ => .inl rfl⟩

theorem mono (h : Extends new fs fs')
    (himp : ∀ location entry, fs.entry location = none → new location entry → new' location entry) :
    Extends new' fs fs' := by
  refine ⟨h.cwd, h.links, fun location => ?_⟩
  rcases h.entry location with hsame | ⟨hnone, entry, hentry, hnew⟩
  · exact .inl hsame
  · exact .inr ⟨hnone, entry, hentry, himp _ _ hnone hnew⟩

/-- What is there stays. -/
theorem keeps (h : Extends new fs fs') {location : Location} {entry : Entry} (hentry : fs.entry location = some entry) :
    fs'.entry location = some entry := by
  rcases h.entry location with hsame | ⟨hnone, -⟩
  · rw [hsame, hentry]
  · rw [hnone] at hentry
    cases hentry

theorem trans (h : Extends new fs fs') (h' : Extends new fs' fs'') : Extends new fs fs'' := by
  refine ⟨h'.cwd.trans h.cwd, h'.links.trans h.links, fun location => ?_⟩
  rcases h.entry location with hsame | ⟨hnone, entry, hentry, hnew⟩
  · rw [← hsame]
    exact h'.entry location
  · exact .inr ⟨hnone, entry, h'.keeps hentry, hnew⟩

/-- What is there afterwards was there, or is new. -/
theorem cases (h : Extends new fs fs') {location : Location} {entry : Entry} (hentry : fs'.entry location = some entry) :
    fs.entry location = some entry ∨ new location entry := by
  rcases h.entry location with hsame | ⟨-, entry', hentry', hnew⟩
  · exact .inl (hsame ▸ hentry)
  · obtain rfl := Option.some.inj (hentry.symm.trans hentry')
    exact .inr hnew

theorem add {location : Location} {entry : Entry} (hnew : new location entry) : Extends new fs (fs.add location entry) := by
  rw [FileSystem.add]
  split_ifs with h
  · refine ⟨rfl, rfl, fun l => ?_⟩
    by_cases hl : l = location
    · subst hl
      exact .inr ⟨h.2.2, entry, Function.update_self .., hnew⟩
    · exact .inl (Function.update_of_ne hl ..)
  · exact refl

end Extends

/-- A new directory, where there was nothing in a directory. -/
theorem entry_mkdir {location : Location} {name : String} (hdir : fs.entry location = some .dir)
    (hnone : fs.entry (location ++ [name]) = none) : (fs.mkdir location name).entry (location ++ [name]) = some .dir := by
  rw [mkdir, add, dif_pos ⟨by simp, by simpa using hdir, hnone⟩]
  exact Function.update_self ..

theorem add_keeps {location l : Location} {new entry : Entry} (h : fs.entry l = some entry) :
    (fs.add location new).entry l = some entry := (@Extends.add fs (fun _ _ => True) location new trivial).keeps h

/-- Making directories takes nothing away. -/
theorem makeDirs_keeps {location l : Location} {parts : List PathPart} {entry : Entry} (h : fs.entry l = some entry) :
    (fs.makeDirs location parts).1.entry l = some entry := by
  induction parts generalizing fs location with
  | nil => exact h
  | cons part rest ih =>
    cases part with
    | up => exact ih h
    | name name =>
      rw [makeDirs]
      cases fs.entry (location ++ [name]) with
      | none => exact ih (add_keeps h)
      | some entry =>
        cases entry with
        | dir => exact ih h
        | file => exact h
        | link target =>
          dsimp only
          cases fs.walk false fs.links (target.start.from location) target.parts with
          | none => exact h
          | some final =>
            dsimp only
            split_ifs
            · exact ih h
            · exact h

/-- **Making directories** where no links are named: what is new are directories that are named,
and if nothing is in the way all that is named is a directory. -/
theorem makeDirs_spec {location : Location} {parts : List PathPart}
    (hplain : ∀ l ∈ visited location parts, ∀ target, fs.entry l ≠ some (.link target))
    (hdir : fs.entry location = some .dir) :
    Extends (fun l entry => l ∈ visited location parts ∧ entry = .dir) fs (fs.makeDirs location parts).1 ∧
      ((fs.makeDirs location parts).2 = true →
        ∀ l ∈ visited location parts, (fs.makeDirs location parts).1.entry l = some .dir) := by
  induction parts generalizing fs location with
  | nil => exact ⟨.refl, by simp [visited]⟩
  | cons part rest ih =>
    cases part with
    | up => exact ih hplain (dir_dropLast hdir)
    | name name =>
      have hlater : ∀ l ∈ visited (location ++ [name]) rest, ∀ target, fs.entry l ≠ some (.link target) :=
        fun l hl => hplain l (List.mem_cons_of_mem _ hl)
      have hmono : ∀ (l : Location) (entry : Entry), l ∈ visited (location ++ [name]) rest ∧ entry = .dir →
          l ∈ visited location (.name name :: rest) ∧ entry = .dir := fun l entry h => ⟨List.mem_cons_of_mem _ h.1, h.2⟩
      rw [makeDirs]
      cases hentry : fs.entry (location ++ [name]) with
      | none =>
        have hmade := entry_mkdir hdir hentry
        have hfirst : Extends (fun l entry => l ∈ visited location (.name name :: rest) ∧ entry = .dir) fs
            (fs.mkdir location name) := .add ⟨List.mem_cons_self .., rfl⟩
        have hstill : ∀ l ∈ visited (location ++ [name]) rest, ∀ target,
            (fs.mkdir location name).entry l ≠ some (.link target) := by
          intro l hl target hlink
          rcases hfirst.cases hlink with hlink | hlink
          · exact hlater l hl target hlink
          · exact absurd hlink.2 nofun
        obtain ⟨hext, hall⟩ := ih hstill hmade
        refine ⟨hfirst.trans (hext.mono fun l entry _ => hmono l entry), fun hok l hl => ?_⟩
        rcases List.mem_cons.mp hl with rfl | hl
        · exact hext.keeps hmade
        · exact hall hok l hl
      | some entry =>
        cases entry with
        | dir =>
          obtain ⟨hext, hall⟩ := ih hlater hentry
          refine ⟨hext.mono fun l entry _ => hmono l entry, fun hok l hl => ?_⟩
          rcases List.mem_cons.mp hl with rfl | hl
          · exact hext.keeps hentry
          · exact hall hok l hl
        | file => exact ⟨.refl, by simp⟩
        | link target => exact absurd hentry (hplain _ (List.mem_cons_self ..) target)

/-- **Writing a file** where no links are named: it is where the path leads, and it is named. -/
theorem writeFile_spec {fs' : FileSystem} {path : Path} {location : Location}
    (hplain : ∀ l ∈ visited (path.start.from fs.cwd) path.parts, ∀ target, fs.entry l ≠ some (.link target))
    (h : fs.writeFile path = some (fs', location)) :
    location = lexical (path.start.from fs.cwd) path.parts ∧ location ∈ visited (path.start.from fs.cwd) path.parts ∧
      fs.entry location ≠ some .dir ∧ Extends (fun l entry => l = location ∧ entry = .file) fs fs' := by
  rw [writeFile] at h
  cases hresolve : fs.resolve true path with
  | none =>
    rw [hresolve] at h
    cases h
  | some final =>
    rw [hresolve] at h
    have hfinal : fs.entry final ≠ some .dir := by
      intro hdir
      simp only [hdir] at h
      cases h
    have hparts : path.parts ≠ [] := by
      intro hnil
      rw [resolve, hnil, walk_nil] at hresolve
      split_ifs at hresolve
      obtain rfl := Option.some.inj hresolve
      exact hfinal (from_dir _)
    obtain ⟨follow, hwalk⟩ := @resolve_eq fs true _ hparts
    obtain ⟨hlexical, hmem⟩ := walkParts_plain hplain (from_dir _) (hwalk.symm.trans hresolve)
    have hvisited := hmem.resolve_left hfinal
    cases hentry : fs.entry final with
    | none =>
      simp only [hentry] at h
      cases h
      exact ⟨hlexical, hvisited, hfinal, .add ⟨rfl, rfl⟩⟩
    | some entry =>
      cases entry with
      | dir => exact absurd hentry hfinal
      | file =>
        simp only [hentry] at h
        cases h
        exact ⟨hlexical, hvisited, hfinal, .refl⟩
      | link target => exact absurd hentry (hplain _ hvisited target)

theorem mem_visited_of_dropLast {location l : Location} {parts : List PathPart} (hl : l ∈ visited location parts.dropLast) :
    l ∈ visited location parts := by
  rcases List.eq_nil_or_concat parts with rfl | ⟨before, last, rfl⟩
  · exact hl
  · rw [List.concat_eq_append] at hl ⊢
    rw [List.dropLast_concat] at hl
    rw [visited_append]
    exact List.mem_append_left _ hl

/-- The parent of a path names what the path names before its last part. -/
theorem visited_parent {path parent : Path} (h : path.parent = some parent) {cwd l : Location}
    (hl : l ∈ visited (parent.start.from cwd) parent.parts) : l ∈ visited (path.start.from cwd) path.parts.dropLast := by
  rw [Path.parent] at h
  cases hparts : path.parts with
  | nil =>
    rw [hparts] at h
    cases hstart : path.start with
    | dot =>
      rw [hstart] at h
      obtain rfl := Option.some.inj h
      cases hl
    | root =>
      rw [hstart] at h
      cases h
    | bare =>
      rw [hstart] at h
      cases h
  | cons part rest =>
    rw [hparts] at h
    obtain rfl := Option.some.inj h
    exact hl

/-- Over directories the parts lead to a directory. -/
theorem lexical_dir {location : Location} {parts : List PathPart} (hdir : fs.entry location = some .dir)
    (hdirs : ∀ l ∈ visited location parts, fs.entry l = some .dir) : fs.entry (lexical location parts) = some .dir := by
  induction parts generalizing location with
  | nil => exact hdir
  | cons part rest ih =>
    cases part with
    | up => exact ih (dir_dropLast hdir) hdirs
    | name name => exact ih (hdirs _ (List.mem_cons_self ..)) fun l hl => hdirs l (List.mem_cons_of_mem _ hl)

/-- Where no links are named, all that is named before the last part is a directory. -/
theorem dirs_of_way {follow : Location → List PathPart → Option Location} {location final : Location}
    {parts : List PathPart} (hplain : ∀ l ∈ visited location parts, ∀ target, fs.entry l ≠ some (.link target))
    (h : fs.walkParts create follow location parts = some final) :
    ∀ l ∈ visited location parts.dropLast, fs.entry l = some .dir := by
  induction parts generalizing location with
  | nil => simp [visited]
  | cons part rest ih =>
    cases rest with
    | nil => simp [visited]
    | cons next rest =>
      rw [List.dropLast_cons_cons]
      cases part with
      | up => exact ih hplain h
      | name name =>
        have hlater : ∀ l ∈ visited (location ++ [name]) (next :: rest), ∀ target, fs.entry l ≠ some (.link target) :=
          fun l hl => hplain l (List.mem_cons_of_mem _ hl)
        rw [walkParts] at h
        cases hentry : fs.entry (location ++ [name]) with
        | none =>
          rw [hentry] at h
          simp at h
        | some entry =>
          rw [hentry] at h
          cases entry with
          | dir =>
            intro l hl
            rcases List.mem_cons.mp hl with rfl | hl
            · exact hentry
            · exact ih hlater h l hl
          | file => simp at h
          | link target => exact absurd hentry (hplain _ (List.mem_cons_self ..) target)

/-- Where no links are named, what is missing at the end is missing in a directory. -/
theorem above_of_missing {follow : Location → List PathPart → Option Location} {location final : Location}
    {parts : List PathPart} (hplain : ∀ l ∈ visited location parts, ∀ target, fs.entry l ≠ some (.link target))
    (hdir : fs.entry location = some .dir) (h : fs.walkParts create follow location parts = some final)
    (hnone : fs.entry final = none) : final ≠ [] ∧ fs.entry final.dropLast = some .dir := by
  induction parts generalizing location with
  | nil =>
    obtain rfl := Option.some.inj h
    rw [hdir] at hnone
    cases hnone
  | cons part rest ih =>
    cases part with
    | up => exact ih hplain (dir_dropLast hdir) h
    | name name =>
      have hlater : ∀ l ∈ visited (location ++ [name]) rest, ∀ target, fs.entry l ≠ some (.link target) :=
        fun l hl => hplain l (List.mem_cons_of_mem _ hl)
      rw [walkParts] at h
      cases hentry : fs.entry (location ++ [name]) with
      | none =>
        rw [hentry] at h
        dsimp only at h
        split_ifs at h
        obtain rfl := Option.some.inj h
        rw [List.dropLast_concat]
        exact ⟨by simp, hdir⟩
      | some entry =>
        rw [hentry] at h
        cases entry with
        | dir => exact ih hlater hentry h
        | file =>
          dsimp only at h
          split_ifs at h
          obtain rfl := Option.some.inj h
          rw [hentry] at hnone
          cases hnone
        | link target => exact absurd hentry (hplain _ (List.mem_cons_self ..) target)

/-- A file that was written is there, and what is named on the way to it is a directory. -/
theorem writeFile_there {fs' : FileSystem} {path : Path} {location : Location}
    (hplain : ∀ l ∈ visited (path.start.from fs.cwd) path.parts, ∀ target, fs.entry l ≠ some (.link target))
    (h : fs.writeFile path = some (fs', location)) :
    fs'.entry location = some .file ∧ ∀ l ∈ visited (path.start.from fs.cwd) path.parts.dropLast, fs.entry l = some .dir := by
  have hparts : path.parts ≠ [] := by
    intro hnil
    have hmem := (writeFile_spec hplain h).2.1
    rw [hnil] at hmem
    cases hmem
  rw [writeFile] at h
  cases hresolve : fs.resolve true path with
  | none =>
    rw [hresolve] at h
    cases h
  | some final =>
    rw [hresolve] at h
    obtain ⟨follow, hwalk⟩ := @resolve_eq fs true _ hparts
    have hway := hwalk.symm.trans hresolve
    refine ⟨?_, dirs_of_way hplain hway⟩
    cases hentry : fs.entry final with
    | none =>
      simp only [hentry] at h
      cases h
      obtain ⟨hne, habove⟩ := above_of_missing hplain (from_dir _) hway hentry
      rw [add, dif_pos ⟨hne, habove, hentry⟩]
      exact Function.update_self ..
    | some entry =>
      simp only [hentry] at h
      cases entry with
      | file =>
        cases h
        exact hentry
      | dir => cases h
      | link target => cases h

/-- Writing a file takes nothing away. -/
theorem writeFile_keeps {fs' : FileSystem} {path : Path} {location l : Location} {entry : Entry}
    (h : fs.writeFile path = some (fs', location)) (hentry : fs.entry l = some entry) : fs'.entry l = some entry := by
  rw [writeFile] at h
  cases hresolve : fs.resolve true path with
  | none =>
    rw [hresolve] at h
    cases h
  | some final =>
    rw [hresolve] at h
    cases hfinal : fs.entry final with
    | none =>
      simp only [hfinal] at h
      cases h
      exact add_keeps hentry
    | some there =>
      simp only [hfinal] at h
      cases there with
      | file =>
        cases h
        exact hentry
      | dir => cases h
      | link target => cases h

end FileSystem

end Apmpr
