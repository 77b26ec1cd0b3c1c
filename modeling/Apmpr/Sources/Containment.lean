import Apmpr.Lib.FileSystem
import Apmpr.Lib.Registry
import Apmpr.Lib.Text

/-!
# Containment of managed sources

`validate_containment` of the crate `apmpr-sources`, and the calls it guards: checkouts are
created below a managed root, and only what is below it is removed. A target that exists is
canonicalised. Of one that does not, the nearest existing ancestor is, and the missing part
is put after it as it is written and compared as text: a `..` in it, or a link whose target
is missing, is not followed, though the kernel will follow it once the directories are made.

What Git answers is the surroundings of a call, with the directory Git is run in: a relative
target is seen from there, and is checked from the working directory.

## What is proved

`stripped_spec` — what is left of a path after its nearest existing ancestor.
`contained_of_staysBelow` — an accepted target leads strictly below the root if its missing
part leads strictly below its nearest existing ancestor.
`containment` — for all roots that exist this is exact; and then checkouts are created, and
sources removed, below their roots.
-/

namespace Apmpr.Sources.Containment

open FileSystem

/-- `SourceError`. -/
structure SourceError where
  code : String
  message : String
  deriving DecidableEq

/-- `Mutation`. -/
inductive Mutation where
  | create
  | remove
  deriving DecidableEq

/-- `RegisteredSourceKind`. -/
inductive RegisteredSourceKind where
  | unmanaged
  | managed
  deriving DecidableEq

/-- `DirtyState`. -/
structure DirtyState where
  staged : ℕ
  unstaged : ℕ
  untracked : ℕ
  deriving DecidableEq

/-- `is_dirty`. -/
def DirtyState.isDirty (changes : DirtyState) : Bool :=
  changes.staged ≠ 0 || changes.unstaged ≠ 0 || changes.untracked ≠ 0

/-- An error of the file system. -/
def ioError : SourceError := ⟨"source_io", "No such file or directory (os error 2)"⟩

/-- A path that cannot be below a root. -/
def outside (message : String) : SourceError := ⟨"source_outside_managed_root", message⟩

/-! ### The check -/

/-- `nearest_existing`, on the parts in reverse: the parent is taken while nothing is there. -/
def nearestExistingFrom (fs : FileSystem) (start : PathStart) : List PathPart → Path
  | [] => if fs.pathExists ⟨start, []⟩ then ⟨start, []⟩ else ⟨.dot, []⟩
  | part :: above =>
    if fs.pathExists ⟨start, (part :: above).reverse⟩ then ⟨start, (part :: above).reverse⟩
    else nearestExistingFrom fs start above

/-- `nearest_existing`. -/
def nearestExisting (fs : FileSystem) (path : Path) : Path := nearestExistingFrom fs path.start path.parts.reverse

/-- What is left of a path after its nearest existing ancestor. -/
def stripped (fs : FileSystem) (path : Path) : Path := (path.stripPrefix (nearestExisting fs path)).getD path

/-- `canonicalize`, as a step that may fail. -/
def canonicalized (fs : FileSystem) (path : Path) : Except SourceError Location :=
  match fs.canonicalize path with
  | some location => .ok location
  | none => .error ioError

/-- The directories of a path, made where they are missing. -/
def created (fs : FileSystem) (path : Path) : Except SourceError FileSystem :=
  match fs.createDirAll path with
  | (fs, true) => .ok fs
  | (_, false) => .error ioError

/-- The canonical root, which is made if it does not exist. -/
def canonicalRoot (fs : FileSystem) (root : Path) : Except SourceError (FileSystem × Location) :=
  if fs.pathExists root then do
    return (fs, ← canonicalized fs root)
  else
    match root.parent with
    | none => .error (outside "managed root has no parent")
    | some parent => do
      let fs ← created fs parent
      let fs ← created fs root
      return (fs, ← canonicalized fs root)

/-- The canonical target, as far as it exists. -/
def canonicalTarget (fs : FileSystem) (target : Path) : Except SourceError Path :=
  if fs.pathExists target then do
    return .canonical (← canonicalized fs target)
  else
    match target.parent with
    | none => .error (outside "target has no parent")
    | some parent => do
      let existing ← canonicalized fs (nearestExisting fs parent)
      match target.fileName with
      | none => .error (outside "target has no file name")
      | some name => return ((Path.canonical existing).join (stripped fs parent)).join ⟨.bare, [.name name]⟩

/-- `validate_containment`: the file system with the root in place, if the target is below it. -/
def validateContainment (fs : FileSystem) (target root : Path) (mutation : Mutation) : Except SourceError FileSystem := do
  let (fs, canonicalRoot) ← canonicalRoot fs root
  let canonicalTarget ← canonicalTarget fs target
  if canonicalTarget = .canonical canonicalRoot || !canonicalTarget.startsWith (.canonical canonicalRoot) then
    let verb := match mutation with
      | .create => "creation"
      | .remove => "removal"
    .error (outside s!"{verb} target `{target.display}` is outside `{root.display}`")
  else return fs

/-! ### The calls -/

/-- `guard_mutation`; Git knows the changes of a source only where there is one. -/
def guardMutation (fs : FileSystem) (kind : Option RegisteredSourceKind) (target : Path) (mutation : Mutation)
    (allowDirty : Bool) (root : Path) (changes : Option DirtyState) : Except SourceError (FileSystem × DirtyState) := do
  if kind = some .unmanaged then .error ⟨"source_unmanaged", "unmanaged sources can only be deregistered"⟩
  else
    let fs ← validateContainment fs target root mutation
    match mutation with
    | .create =>
      if fs.pathExists target then .error ⟨"source_target_exists", s!"target `{target.display}` already exists"⟩
      else return (fs, ⟨0, 0, 0⟩)
    | .remove =>
      match if fs.pathExists target then changes else none with
      | none => .error ⟨"source_state_unknown", "cannot safely remove a source whose Git state is unknown"⟩
      | some changes =>
        if changes.isDirty && !allowDirty then
          .error ⟨"source_dirty", s!"source has {changes.staged} staged, {changes.unstaged} unstaged, and {changes.untracked} untracked path(s)"⟩
        else return (fs, changes)

/-- `SourceManager`. -/
structure SourceManager where
  workspaceRoot : Path
  worktreeRoot : Path
  cloneRoot : Path

/-- What Git does in a call: its checks before the file system is changed, the directory it is
run in, and the changes it reports of a source. -/
structure Git where
  checks : Except SourceError Unit
  directory : Location
  changes : Option DirtyState

/-- What a call comes to do to the file system. -/
inductive Change where
  /-- A checkout is made at a path, seen from a directory. -/
  | creates (directory : Location) (path : Path)
  /-- What is at a path is removed. -/
  | removes (path : Path)

/-- The name of a source as a path. -/
def namePath (name : String) : Path :=
  if name = "." then ⟨.dot, []⟩ else if name = ".." then ⟨.bare, [.up]⟩ else ⟨.bare, [.name name]⟩

/-- `validate_source_name`. -/
def validateSourceName (name : String) : Except SourceError Unit :=
  if name ≠ "" && name.toList.all fun c => Text.isAsciiAlphanumeric c || c = '-' || c = '_' || c = '.' then .ok ()
  else .error ⟨"invalid_source_name", "source names may contain only ASCII letters, digits, '.', '-', and '_'"⟩

/-- A call that may change the file system. -/
inductive Call where
  /-- `create_worktree_inner`. -/
  | createWorktree (name : String) (requestedPath : Option Path)
  /-- `clone_repository`, `clone_repository_browser`, and `ensure_managed_clone` without a clone. -/
  | cloneRepository (name : String)
  /-- `ensure_deployment_worktree`. -/
  | ensureDeploymentWorktree (target : Path)
  /-- `remove`, with the registered source. -/
  | remove (kind : RegisteredSourceKind) (path : Path) (linkedWorktree allowDirty : Bool)

/-- The target of a call. -/
def Call.target (manager : SourceManager) : Call → Path
  | .createWorktree name requestedPath => requestedPath.getD (manager.worktreeRoot.join (namePath name))
  | .cloneRepository name => manager.cloneRoot.join (namePath name)
  | .ensureDeploymentWorktree target => target
  | .remove _ path _ _ => path

/-- The root a call is to stay below. -/
def Call.root (manager : SourceManager) : Call → Path
  | .createWorktree _ _ => manager.worktreeRoot
  | .cloneRepository _ => manager.cloneRoot
  | .ensureDeploymentWorktree _ => manager.workspaceRoot
  | .remove _ _ linkedWorktree _ => if linkedWorktree then manager.worktreeRoot else manager.cloneRoot

/-- What a call comes to do, with the file system it does it in. -/
def Call.run (manager : SourceManager) (fs : FileSystem) (git : Git) (call : Call) :
    Except SourceError (FileSystem × Option Change) :=
  let target := call.target manager
  let root := call.root manager
  match call with
  | .createWorktree name _ => do
    validateSourceName name
    let (fs, _) ← guardMutation fs none target .create false root none
    git.checks
    return (fs, some (.creates git.directory target))
  | .cloneRepository name => do
    validateSourceName name
    let (fs, _) ← guardMutation fs none target .create false root none
    return (fs, some (.creates git.directory target))
  | .ensureDeploymentWorktree _ => do
    let fs ← validateContainment fs target root .create
    git.checks
    return (fs, if fs.pathExists target then none else some (.creates git.directory target))
  | .remove kind _ _ allowDirty => do
    let (fs, _) ← guardMutation fs (some kind) target .remove allowDirty root git.changes
    return (fs, some (.removes target))

/-! ### What containment is -/

/-- Whenever a target is accepted, it leads strictly below the canonical root. -/
def Contained (fs : FileSystem) (target root : Path) (mutation : Mutation) : Prop :=
  ∀ fs', validateContainment fs target root mutation = .ok fs' → ∀ canonicalRoot location,
    fs'.canonicalize root = some canonicalRoot → fs'.Leads target location → Beneath canonicalRoot location

/-- If a target does not exist, its missing part leads strictly below its nearest existing
ancestor. -/
def StaysBelow (fs : FileSystem) (target : Path) : Prop :=
  fs.pathExists target = false → ∀ parent name existing location, target.parent = some parent →
    target.fileName = some name → fs.canonicalize (nearestExisting fs parent) = some existing →
    fs.LeadsFrom existing ((stripped fs parent).parts ++ [.name name]) location → Beneath existing location

/-- Where a change takes place. What is removed at a path that ends in a name is what has that
name, though it be a link. -/
inductive Change.At (fs : FileSystem) : Change → Location → Prop where
  | creates {directory location : Location} {path : Path}
      (leads : fs.LeadsFrom (path.start.from directory) path.parts location) : At fs (.creates directory path) location
  | removesName {above : Location} {path : Path} {name : String} (fileName : path.fileName = some name)
      (leads : fs.LeadsFrom (path.start.from fs.cwd) path.parts.dropLast above) : At fs (.removes path) (above ++ [name])
  | removes {location : Location} {path : Path} (fileName : path.fileName = none) (leads : fs.Leads path location) :
      At fs (.removes path) location

/-- A change that is made where its path was checked: a target from the root, so that Git sees
it alike, with a missing part that stays below; or a path that is not itself a link. -/
def Change.Safe (fs : FileSystem) : Change → Prop
  | .creates _ path => path.start = .root ∧ StaysBelow fs path
  | .removes path => ∀ location target, Change.At fs (.removes path) location → fs.entry location ≠ some (.link target)

/-! ### The nearest existing ancestor -/

section
variable {fs : FileSystem}

/-- Where the parent is taken to: the parts are split, something is at the first ones, and
nothing at one part more. -/
theorem nearestExistingFrom_cases (fs : FileSystem) (start : PathStart) (above : List PathPart) :
    ∃ before missing, above.reverse = before ++ missing ∧
      (nearestExistingFrom fs start above = ⟨start, before⟩ ∧ fs.pathExists ⟨start, before⟩ = true ∨
        nearestExistingFrom fs start above = ⟨.dot, []⟩ ∧ start = .bare ∧ before = []) ∧
      ∀ part rest, missing = part :: rest → fs.pathExists ⟨start, before ++ [part]⟩ = false := by
  induction above with
  | nil =>
    refine ⟨[], [], rfl, ?_, by simp⟩
    by_cases hexists : fs.pathExists ⟨start, []⟩ = true
    · exact .inl ⟨if_pos hexists, hexists⟩
    · refine .inr ⟨if_neg hexists, ?_, rfl⟩
      cases start with
      | root => exact absurd (by simp [pathExists, canonicalize, resolve, walk_nil]) hexists
      | dot => exact absurd (by simp [pathExists, canonicalize, resolve, walk_nil]) hexists
      | bare => rfl
  | cons part above ih =>
    by_cases hexists : fs.pathExists ⟨start, (part :: above).reverse⟩ = true
    · exact ⟨(part :: above).reverse, [], (List.append_nil _).symm, .inl ⟨if_pos hexists, hexists⟩, by simp⟩
    · obtain ⟨before, missing, hsplit, hnearest, hmissing⟩ := ih
      refine ⟨before, missing ++ [part], by rw [List.reverse_cons, hsplit, List.append_assoc], ?_, ?_⟩
      · rw [nearestExistingFrom, if_neg hexists]
        exact hnearest
      · intro first rest hfirst
        cases missing with
        | nil =>
          obtain ⟨rfl, -⟩ := List.cons.inj hfirst
          rw [List.reverse_cons, hsplit, List.append_nil] at hexists
          exact Bool.eq_false_iff.mpr hexists
        | cons next missing =>
          obtain ⟨rfl, -⟩ := List.cons.inj hfirst
          exact hmissing next missing rfl

/-- **The missing part**: from the nearest existing ancestor it leads where the path does, and
nothing is at its first name. -/
theorem stripped_spec (fs : FileSystem) (path : Path) :
    ∃ existing, fs.canonicalize (nearestExisting fs path) = some existing ∧ (stripped fs path).start = .bare ∧
      (∀ location, fs.Leads path location ↔ fs.LeadsFrom existing (stripped fs path).parts location) ∧
      ∀ name rest, (stripped fs path).parts = .name name :: rest → ¬fs.There (existing ++ [name]) := by
  obtain ⟨start, parts⟩ := path
  obtain ⟨before, missing, hsplit, hnearest, hmissing⟩ := nearestExistingFrom_cases fs start parts.reverse
  rw [List.reverse_reverse] at hsplit
  subst hsplit
  have hstripped : stripped fs ⟨start, before ++ missing⟩ = ⟨.bare, missing⟩ := by
    rw [stripped, nearestExisting]
    rcases hnearest with ⟨hnear, -⟩ | ⟨hnear, rfl, rfl⟩
    · rw [hnear]
      simp [Path.stripPrefix]
    · rw [hnear]
      simp [Path.stripPrefix]
  obtain ⟨existing, hcanonical, hwalk⟩ : ∃ existing, fs.canonicalize (nearestExisting fs ⟨start, before ++ missing⟩) = some existing ∧
      fs.walk false fs.links (start.from fs.cwd) before = some existing := by
    rcases hnearest with ⟨hnear, hexists⟩ | ⟨hnear, rfl, rfl⟩
    · obtain ⟨existing, hexisting⟩ := Option.isSome_iff_exists.mp hexists
      refine ⟨existing, by rw [nearestExisting, hnear, hexisting], ?_⟩
      rw [canonicalize, resolve] at hexisting
      split_ifs at hexisting
      exact hexisting
    · refine ⟨fs.cwd, ?_, walk_nil⟩
      rw [nearestExisting, hnear]
      simp [canonicalize, resolve, walk_nil, PathStart.from]
  refine ⟨existing, hcanonical, by rw [hstripped], fun location => ?_, ?_⟩
  · rw [hstripped, Leads, leadsFrom_append]
    have hbefore := leadsFrom_of_walk hwalk
    constructor
    · rintro ⟨middle, hmiddle, hrest⟩
      rwa [hmiddle.unique hbefore] at hrest
    · intro hrest
      exact ⟨existing, hbefore, hrest⟩
  · intro name rest hname hthere
    rw [hstripped] at hname
    have hnone := hmissing (.name name) rest hname
    have hdir : fs.entry existing = some .dir := fs.above_dir existing name hthere.ne_none
    obtain ⟨left, -, hleft⟩ := walk_append [.name name] hwalk hdir
    have hfound : fs.walk false left existing [.name name] = some (existing ++ [name]) :=
      walk_names hthere
    rw [pathExists, canonicalize, resolve, if_neg (by simp), hleft, hfound] at hnone
    cases hnone

/-! ### Accepted targets -/

theorem canonicalized_eq_ok_iff {path : Path} {location : Location} :
    canonicalized fs path = .ok location ↔ fs.canonicalize path = some location := by
  rw [canonicalized]
  cases fs.canonicalize path <;> simp

/-- The canonical root is where the root leads, once it is in place. -/
theorem canonicalRoot_ok {fs' : FileSystem} {root : Path} {location : Location}
    (h : canonicalRoot fs root = .ok (fs', location)) : fs'.canonicalize root = some location := by
  rw [canonicalRoot] at h
  split_ifs at h with hexists
  · obtain ⟨location', hlocation, heq⟩ := bind_eq_ok_iff.mp h
    cases heq
    exact canonicalized_eq_ok_iff.mp hlocation
  · cases hparent : root.parent with
    | none =>
      rw [hparent] at h
      cases h
    | some parent =>
      rw [hparent] at h
      obtain ⟨fs₁, -, h⟩ := bind_eq_ok_iff.mp h
      obtain ⟨fs₂, -, h⟩ := bind_eq_ok_iff.mp h
      obtain ⟨location', hlocation, heq⟩ := bind_eq_ok_iff.mp h
      cases heq
      exact canonicalized_eq_ok_iff.mp hlocation

/-- A target that ends in a name. -/
theorem target_eq {target parent : Path} {name : String} (hparent : target.parent = some parent)
    (hname : target.fileName = some name) : target = ⟨parent.start, parent.parts ++ [.name name]⟩ := by
  obtain ⟨start, parts⟩ := target
  cases parts using List.reverseRecOn with
  | nil => cases hname
  | append_singleton parts part =>
    have hpart : part = .name name := by
      rw [Path.fileName] at hname
      simp only [List.getLast?_append, List.getLast?_singleton, Option.some_or] at hname
      cases part with
      | up => cases hname
      | name other => rw [Option.some.inj hname]
    subst hpart
    have hstart : parent = ⟨start, parts⟩ := by
      rw [Path.parent] at hparent
      cases hparts : parts ++ [PathPart.name name] with
      | nil => simp at hparts
      | cons first rest =>
        simp only [hparts, Option.some.injEq] at hparent
        rw [← hparent, ← hparts, List.dropLast_concat]
    rw [hstart]

/-- The canonical target: that of what exists, or the nearest existing ancestor with the missing
part behind it. -/
theorem canonicalTarget_cases {target canonical : Path} (h : canonicalTarget fs target = .ok canonical) :
    (∃ location, fs.canonicalize target = some location ∧ canonical = .canonical location) ∨
      fs.pathExists target = false ∧ ∃ parent name existing, target.parent = some parent ∧
        target.fileName = some name ∧ fs.canonicalize (nearestExisting fs parent) = some existing ∧
        canonical = ⟨.root, existing.map .name ++ ((stripped fs parent).parts ++ [.name name])⟩ := by
  rw [canonicalTarget] at h
  split_ifs at h with hexists
  · obtain ⟨location, hlocation, heq⟩ := bind_eq_ok_iff.mp h
    cases heq
    exact .inl ⟨location, canonicalized_eq_ok_iff.mp hlocation, rfl⟩
  · refine .inr ⟨Bool.eq_false_iff.mpr hexists, ?_⟩
    cases hparent : target.parent with
    | none =>
      rw [hparent] at h
      cases h
    | some parent =>
      rw [hparent] at h
      obtain ⟨existing, hexisting, h⟩ := bind_eq_ok_iff.mp h
      cases hname : target.fileName with
      | none =>
        rw [hname] at h
        cases h
      | some name =>
        rw [hname] at h
        cases h
        obtain ⟨-, -, hbare, -, -⟩ := stripped_spec fs parent
        refine ⟨parent, name, existing, rfl, rfl, canonicalized_eq_ok_iff.mp hexisting, ?_⟩
        simp only [Path.join, hbare, Path.canonical, List.append_assoc]

theorem canonicalTarget_missing {target parent : Path} {name : String} {existing : Location}
    (hexists : fs.pathExists target = false) (hparent : target.parent = some parent)
    (hname : target.fileName = some name) (hexisting : fs.canonicalize (nearestExisting fs parent) = some existing) :
    canonicalTarget fs target =
      .ok ⟨.root, existing.map .name ++ ((stripped fs parent).parts ++ [.name name])⟩ := by
  obtain ⟨-, -, hbare, -, -⟩ := stripped_spec fs parent
  rw [canonicalTarget, if_neg (by simp [hexists]), hparent, hname]
  simp only [canonicalized_eq_ok_iff.mpr hexisting, bind, Except.bind, pure, Except.pure, Path.join, hbare, Path.canonical,
    List.append_assoc]

/-- An accepted target is strictly below the root, as it is compared. -/
theorem validateContainment_ok {fs' : FileSystem} {target root : Path} {mutation : Mutation}
    (h : validateContainment fs target root mutation = .ok fs') :
    ∃ rootLocation canonical, canonicalRoot fs root = .ok (fs', rootLocation) ∧
      canonicalTarget fs' target = .ok canonical ∧ canonical ≠ .canonical rootLocation ∧
      canonical.startsWith (.canonical rootLocation) = true := by
  obtain ⟨⟨fs₁, rootLocation⟩, hroot, h⟩ := bind_eq_ok_iff.mp h
  obtain ⟨canonical, htarget, h⟩ := bind_eq_ok_iff.mp h
  dsimp only at h
  split_ifs at h with hbelow
  · cases h
    simp only [Bool.or_eq_true, decide_eq_true_eq, Bool.not_eq_true', not_or, Bool.not_eq_false] at hbelow
    exact ⟨rootLocation, canonical, hroot, htarget, hbelow.1, hbelow.2⟩

theorem validateContainment_of_below {fs' : FileSystem} {target root canonical : Path} {mutation : Mutation}
    {rootLocation : Location} (hroot : canonicalRoot fs root = .ok (fs', rootLocation))
    (htarget : canonicalTarget fs' target = .ok canonical) (hne : canonical ≠ .canonical rootLocation)
    (hstarts : canonical.startsWith (.canonical rootLocation) = true) :
    validateContainment fs target root mutation = .ok fs' := by
  unfold validateContainment
  rw [hroot]
  change (canonicalTarget fs' target >>= _) = _
  rw [htarget]
  exact if_neg (by simp [hne, hstarts])

/-! ### Containment -/

theorem map_name_prefix_iff {a b : Location} : a.map PathPart.name <+: b.map PathPart.name ↔ a <+: b := by
  constructor
  · intro h
    have hinj : Function.Injective PathPart.name := fun _ _ h => PathPart.name.inj h
    have htake := List.prefix_iff_eq_take.mp h
    rw [List.length_map, ← List.map_take] at htake
    exact List.prefix_iff_eq_take.mpr (hinj.list_map htake)
  · intro h
    exact h.map _

/-- A root that is there, and before a path behind an existing ancestor of which nothing more is
there, is before the ancestor. -/
theorem prefix_of_there {root existing : Location} {missing : List PathPart} {name : String}
    (hthere : fs.There root) (hmissing : ∀ first rest, missing = .name first :: rest → ¬fs.There (existing ++ [first]))
    (hbefore : root.map .name <+: existing.map .name ++ (missing ++ [.name name]))
    (hne : existing.map .name ++ (missing ++ [.name name]) ≠ root.map PathPart.name) : root <+: existing := by
  rcases le_or_gt root.length existing.length with hle | hlt
  · refine map_name_prefix_iff.mp (List.prefix_of_prefix_length_le hbefore (List.prefix_append ..) ?_)
    simpa using hle
  · exfalso
    have hexisting : existing <+: root := by
      refine map_name_prefix_iff.mp (List.prefix_of_prefix_length_le (List.prefix_append ..) hbefore ?_)
      simpa using hlt.le
    obtain ⟨below, rfl⟩ := hexisting
    cases below with
    | nil => simp at hlt
    | cons first below =>
      rw [List.map_append, List.prefix_append_right_inj] at hbefore
      cases missing with
      | nil =>
        obtain ⟨hfirst, hbelow⟩ := List.cons_prefix_cons.mp hbefore
        obtain rfl : below = [] := by simpa using hbelow
        exact hne (by simp [hfirst])
      | cons part rest =>
        obtain ⟨rfl, -⟩ := List.cons_prefix_cons.mp hbefore
        refine hmissing first rest rfl ?_
        rw [List.append_cons] at hthere
        exact hthere.above

/-- **Containment of one target**: it is enough that its missing part stays below its nearest
existing ancestor. -/
theorem contained_of_staysBelow {fs' : FileSystem} {target root : Path} {mutation : Mutation}
    {rootLocation location : Location} (h : validateContainment fs target root mutation = .ok fs')
    (hbelow : StaysBelow fs' target) (hroot : fs'.canonicalize root = some rootLocation)
    (hleads : fs'.Leads target location) : Beneath rootLocation location := by
  obtain ⟨rootLocation', canonical, hroot', htarget, hne, hstarts⟩ := validateContainment_ok h
  obtain rfl : rootLocation = rootLocation' := Option.some.inj (hroot.symm.trans (canonicalRoot_ok hroot'))
  simp only [Path.startsWith, Path.canonical, Bool.and_eq_true, List.isPrefixOf_iff_prefix] at hstarts
  rcases canonicalTarget_cases htarget with ⟨final, hfinal, rfl⟩ | ⟨hexists, parent, name, existing, hparent, hname, hexisting, rfl⟩
  · obtain rfl := (leads_of_canonicalize hfinal).unique hleads
    refine ⟨map_name_prefix_iff.mp hstarts.2, fun heq => hne ?_⟩
    rw [heq]
  · obtain ⟨existing', hexisting', -, hiff, hmissing⟩ := stripped_spec fs' parent
    obtain rfl : existing = existing' := Option.some.inj (hexisting.symm.trans hexisting')
    have hbefore : rootLocation <+: existing := by
      refine prefix_of_there (there_of_canonicalize hroot) hmissing hstarts.2 fun heq => hne ?_
      rw [Path.canonical, heq]
    have hfrom : fs'.LeadsFrom existing ((stripped fs' parent).parts ++ [.name name]) location := by
      rw [target_eq hparent hname, Leads, leadsFrom_append] at hleads
      obtain ⟨middle, hmiddle, hlast⟩ := hleads
      exact leadsFrom_append.mpr ⟨middle, (hiff middle).mp hmiddle, hlast⟩
    exact (hbelow hexists parent name existing location hparent hname hexisting hfrom).below hbefore

/-- A target that is contained in every root that exists stays below its nearest existing
ancestor: the ancestor is such a root. -/
theorem staysBelow_of_contained {target : Path}
    (h : ∀ root mutation, fs.pathExists root = true → Contained fs target root mutation) : StaysBelow fs target := by
  intro hexists parent name existing location hparent hname hexisting hleads
  have hroot := canonicalize_canonical (there_of_canonicalize hexisting)
  have hrootExists : fs.pathExists (.canonical existing) = true := by rw [pathExists, hroot]; rfl
  have hcanonicalRoot : canonicalRoot fs (.canonical existing) = .ok (fs, existing) := by
    rw [canonicalRoot, if_pos hrootExists, canonicalized_eq_ok_iff.mpr hroot]
    rfl
  have hvalid : validateContainment fs target (.canonical existing) .create = .ok fs := by
    have htarget := canonicalTarget_missing hexists hparent hname hexisting
    refine validateContainment_of_below hcanonicalRoot htarget ?_ ?_
    · simp [Path.canonical]
    · simp [Path.startsWith, Path.canonical]
  refine h _ .create hrootExists fs hvalid existing location hroot ?_
  obtain ⟨existing', hexisting', -, hiff, -⟩ := stripped_spec fs parent
  obtain rfl : existing = existing' := Option.some.inj (hexisting.symm.trans hexisting')
  obtain ⟨middle, hmiddle, hlast⟩ := leadsFrom_append.mp hleads
  rw [target_eq hparent hname, Leads, leadsFrom_append]
  exact ⟨middle, (hiff middle).mpr hmiddle, hlast⟩

/-! ### Calls -/

theorem guardMutation_ok {fs' : FileSystem} {kind : Option RegisteredSourceKind} {target root : Path} {mutation : Mutation}
    {allowDirty : Bool} {changes : Option DirtyState} {found : DirtyState}
    (h : guardMutation fs kind target mutation allowDirty root changes = .ok (fs', found)) :
    validateContainment fs target root mutation = .ok fs' ∧ (mutation = .remove → fs'.pathExists target = true) := by
  rw [guardMutation] at h
  split_ifs at h
  obtain ⟨fs₁, hvalid, h⟩ := bind_eq_ok_iff.mp h
  cases mutation with
  | create =>
    dsimp only at h
    split_ifs at h
    cases h
    exact ⟨hvalid, by simp⟩
  | remove =>
    dsimp only at h
    by_cases hexists : fs₁.pathExists target = true
    · rw [if_pos hexists] at h
      cases changes with
      | none => cases h
      | some changes =>
        dsimp only at h
        split_ifs at h
        cases h
        exact ⟨hvalid, fun _ => hexists⟩
    · rw [if_neg hexists] at h
      cases h

/-- What a call comes to do: it is at the call's target, which has been accepted. -/
theorem run_ok {manager : SourceManager} {git : Git} {call : Call} {fs' : FileSystem} {change : Change}
    (h : call.run manager fs git = .ok (fs', some change)) :
    (change = .creates git.directory (call.target manager) ∧
        validateContainment fs (call.target manager) (call.root manager) .create = .ok fs') ∨
      change = .removes (call.target manager) ∧ fs'.pathExists (call.target manager) = true ∧
        validateContainment fs (call.target manager) (call.root manager) .remove = .ok fs' := by
  cases call with
  | createWorktree name requestedPath =>
    obtain ⟨-, -, h⟩ := bind_eq_ok_iff.mp h
    obtain ⟨⟨fs₁, found⟩, hguard, h⟩ := bind_eq_ok_iff.mp h
    obtain ⟨-, -, h⟩ := bind_eq_ok_iff.mp h
    cases h
    exact .inl ⟨rfl, (guardMutation_ok hguard).1⟩
  | cloneRepository name =>
    obtain ⟨-, -, h⟩ := bind_eq_ok_iff.mp h
    obtain ⟨⟨fs₁, found⟩, hguard, h⟩ := bind_eq_ok_iff.mp h
    cases h
    exact .inl ⟨rfl, (guardMutation_ok hguard).1⟩
  | ensureDeploymentWorktree target =>
    obtain ⟨fs₁, hvalid, h⟩ := bind_eq_ok_iff.mp h
    obtain ⟨-, -, h⟩ := bind_eq_ok_iff.mp h
    by_cases hexists : fs₁.pathExists (Call.target manager (.ensureDeploymentWorktree target)) = true
    · rw [if_pos hexists] at h
      cases h
    · rw [if_neg hexists] at h
      cases h
      exact .inl ⟨rfl, hvalid⟩
  | remove kind path linkedWorktree allowDirty =>
    obtain ⟨⟨fs₁, found⟩, hguard, h⟩ := bind_eq_ok_iff.mp h
    cases h
    obtain ⟨hvalid, hexists⟩ := guardMutation_ok hguard
    exact .inr ⟨rfl, hexists rfl, hvalid⟩

/-- Where something is removed that is no link, the path leads. -/
theorem leads_of_removed {path : Path} {location : Location} (h : Change.At fs (.removes path) location)
    (hlink : ∀ target, fs.entry location ≠ some (.link target)) : fs.Leads path location := by
  cases h with
  | @removesName above _ name hname hleads =>
    have hparts : path.parts = path.parts.dropLast ++ [.name name] := by
      rw [Path.fileName] at hname
      cases hlast : path.parts.getLast? with
      | none =>
        rw [hlast] at hname
        cases hname
      | some part =>
        rw [hlast] at hname
        cases part with
        | up => cases hname
        | name other =>
          obtain rfl := Option.some.inj hname
          exact (List.dropLast_append_getLast? _ hlast).symm
    rw [Leads, hparts, leadsFrom_append]
    exact ⟨above, hleads, .name hlink (.done _)⟩
  | removes _ hleads => exact hleads

/-- **Calls.** A change that is safe takes place strictly below the call's root. -/
theorem change_beneath {manager : SourceManager} {git : Git} {call : Call} {fs' : FileSystem} {change : Change}
    {rootLocation location : Location} (h : call.run manager fs git = .ok (fs', some change)) (hsafe : change.Safe fs')
    (hroot : fs'.canonicalize (call.root manager) = some rootLocation) (hat : change.At fs' location) :
    Beneath rootLocation location := by
  rcases run_ok h with ⟨rfl, hvalid⟩ | ⟨rfl, hexists, hvalid⟩
  · obtain ⟨hstart, hbelow⟩ := hsafe
    cases hat with
    | creates hleads =>
      refine contained_of_staysBelow hvalid hbelow hroot ?_
      rw [Leads, hstart]
      rwa [hstart] at hleads
  · refine contained_of_staysBelow hvalid ?_ hroot (leads_of_removed hat fun target => hsafe location target hat)
    intro hmissing
    rw [hexists] at hmissing
    cases hmissing

end

/-- **Containment.** For every target in every file system: it is contained in every root that
exists exactly if it exists, or its missing part leads strictly below its nearest existing
ancestor. Where that is so once the root is in place, the target is contained in the root
whether the root existed or not; and every safe change of a call takes place strictly below
the call's root. -/
theorem containment (fs : FileSystem) (target : Path) :
    ((∀ root mutation, fs.pathExists root = true → Contained fs target root mutation) ↔ StaysBelow fs target) ∧
      (∀ root mutation, (∀ fs', validateContainment fs target root mutation = .ok fs' → StaysBelow fs' target) →
        Contained fs target root mutation) ∧
      ∀ (manager : SourceManager) (git : Git) (call : Call) (fs' : FileSystem) (change : Change)
        (rootLocation location : Location), call.run manager fs git = .ok (fs', some change) → change.Safe fs' →
        fs'.canonicalize (call.root manager) = some rootLocation → change.At fs' location →
        Beneath rootLocation location := by
  refine ⟨⟨staysBelow_of_contained, fun h root mutation hexists fs' hvalid rootLocation location => ?_⟩, ?_, ?_⟩
  · have hsame : fs' = fs := by
      obtain ⟨rootLocation', -, hroot, -⟩ := validateContainment_ok hvalid
      rw [canonicalRoot, if_pos hexists] at hroot
      obtain ⟨final, -, heq⟩ := bind_eq_ok_iff.mp hroot
      cases heq
      rfl
    subst hsame
    exact contained_of_staysBelow hvalid h
  · intro root mutation h fs' hvalid rootLocation location
    exact contained_of_staysBelow hvalid (h fs' hvalid)
  · intro manager git call fs' change rootLocation location hrun hsafe
    exact change_beneath hrun hsafe

/-- A workspace with its managed roots, beside a directory that is none of them. -/
def workspaceDirs : FileSystem :=
  ofDirs [[], ["srv"], ["srv", "outside"], ["srv", "shop"], ["srv", "shop", ".apmpr"],
    ["srv", "shop", ".apmpr", "clones"], ["srv", "shop", ".apmpr", "worktrees"]] ["srv", "shop"]
    (by decide) (by decide) (by decide)

/-- The source manager of the workspace. -/
def shopManager : SourceManager :=
  let workspaceRoot : Path := .canonical ["srv", "shop"]
  { workspaceRoot := workspaceRoot
    worktreeRoot := workspaceRoot.join ⟨.bare, [.name ".apmpr", .name "worktrees"]⟩
    cloneRoot := workspaceRoot.join ⟨.bare, [.name ".apmpr", .name "clones"]⟩ }

/-- `/srv/shop/.apmpr/worktrees/x/../../../../outside/y`. -/
def climbing : Path :=
  shopManager.worktreeRoot.join ⟨.bare, [.name "x", .up, .up, .up, .up, .name "outside", .name "y"]⟩

/-- A worktree whose missing part climbs is accepted and created outside its root. -/
theorem worktree_outside :
    validateContainment workspaceDirs climbing shopManager.worktreeRoot .create = .ok workspaceDirs ∧
      ¬Contained workspaceDirs climbing shopManager.worktreeRoot .create ∧
      ∃ git change, (Call.createWorktree "y" (some climbing)).run shopManager workspaceDirs git =
          .ok (workspaceDirs, some change) ∧ change.At workspaceDirs ["srv", "outside", "y"] := by
  have hplain : ∀ location target, workspaceDirs.entry location ≠ some (.link target) := by
    intro location target
    by_cases hmem : location ∈ [[], ["srv"], ["srv", "outside"], ["srv", "shop"], ["srv", "shop", ".apmpr"],
      ["srv", "shop", ".apmpr", "clones"], ["srv", "shop", ".apmpr", "worktrees"]]
    · rw [show workspaceDirs.entry location = some .dir from if_pos hmem]
      exact nofun
    · rw [show workspaceDirs.entry location = none from if_neg hmem]
      exact nofun
  have hleads : workspaceDirs.Leads climbing ["srv", "outside", "y"] :=
    .name (hplain _) (.name (hplain _) (.name (hplain _) (.name (hplain _) (.name (hplain _) (.up (.up (.up (.up
      (.name (hplain _) (.name (hplain _) (.done _)))))))))))
  have hvalid : validateContainment workspaceDirs climbing shopManager.worktreeRoot .create = .ok workspaceDirs := rfl
  refine ⟨hvalid, fun h => ?_, ⟨.ok (), ["srv", "shop"], none⟩, .creates ["srv", "shop"] climbing, rfl, .creates hleads⟩
  have hbeneath := h workspaceDirs hvalid ["srv", "shop", ".apmpr", "worktrees"] _ rfl hleads
  exact absurd hbeneath.1 (by decide)

end Apmpr.Sources.Containment
