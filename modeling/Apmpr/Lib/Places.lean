import Apmpr.Lib.FileSystem
import Mathlib.Logic.Function.Iterate

/-!
# Places, seen from a directory

A path that is joined to a directory leads to a place in it, or it leaves the directory and
leads to a place outside, which is where it left and the parts since. Where a place inside is
goes by its text; where a place outside is only the file system says.

## What is proved

* `makeDirs_places`: directories are made along places; nothing is made outside if what is
  named there is a directory, or if a file is in the way before.
* `locate_of_walk`, `walk_of_isDir`: the kernel comes to the place of the parts, if all that
  they name is a directory.
* `walk_file_in_way`: it does not pass a file.
* `makeDirs_there`: over directories that are there others are made from where the parts lead.
-/

namespace Apmpr

/-- A place, seen from a directory. -/
inductive Place where
  /-- A location below the directory, or the directory itself. -/
  | below (location : Location)
  /-- From so many directories above, or from the root, the parts since. -/
  | outside (above : Option ℕ) (since : List PathPart)
  deriving DecidableEq

namespace Place

open FileSystem

/-- One part further. -/
def go (place : Place) (part : PathPart) : Place :=
  match place, part with
  | below location, .name name => below (location ++ [name])
  | below location, .up => if location = [] then outside (some 1) [] else below location.dropLast
  | outside above since, part =>
    if since = [] ∧ part = .up then outside (above.map (· + 1)) [] else outside above (since ++ [part])

/-- The place that parts lead to. -/
def after (place : Place) (parts : List PathPart) : Place := parts.foldl go place

/-- The places that parts name on their way. -/
def named : Place → List PathPart → List Place
  | _, [] => []
  | place, .up :: rest => named (place.go .up) rest
  | place, .name name :: rest => place.go (.name name) :: named (place.go (.name name)) rest

/-- Whether a place is outside of the directory. -/
def isOutside : Place → Bool
  | below _ => false
  | outside _ _ => true

/-- Where the parts since start. -/
def base (root : Location) : Option ℕ → Location
  | none => []
  | some above => List.dropLast^[above] root

/-- Where a place is, if the kernel comes to it. -/
def locate (fs : FileSystem) (root : Location) : Place → Option Location
  | below location => some (root ++ location)
  | outside above since => fs.walk false fs.links (base root above) since

/-- There is a directory at a place. -/
def IsDir (fs : FileSystem) (root : Location) (place : Place) : Prop :=
  ∃ location, place.locate fs root = some location ∧ fs.entry location = some .dir

theorem base_up (root : Location) (above : Option ℕ) : base root (above.map (· + 1)) = (base root above).dropLast := by
  cases above with
  | none => rfl
  | some above => exact Function.iterate_succ_apply' ..

/-- Parts that have left the directory do not come back. -/
theorem isOutside_of_mem_named {above : Option ℕ} {since parts : List PathPart} {place : Place}
    (h : place ∈ (outside above since).named parts) : place.isOutside = true := by
  induction parts generalizing above since with
  | nil => cases h
  | cons part rest ih =>
    have hgo : ∀ part, ∃ above' since', (outside above since).go part = outside above' since' := by
      intro part
      rw [go]
      split_ifs
      · exact ⟨_, _, rfl⟩
      · exact ⟨_, _, rfl⟩
    cases part with
    | up =>
      obtain ⟨above', since', hup⟩ := hgo .up
      rw [named, hup] at h
      exact ih h
    | name name =>
      obtain ⟨above', since', hname⟩ := hgo (.name name)
      rw [named, hname] at h
      rcases List.mem_cons.mp h with rfl | h
      · rfl
      · exact ih h

theorem isDir_below {fs : FileSystem} {root location : Location} :
    (below location).IsDir fs root ↔ fs.entry (root ++ location) = some .dir := by
  simp [IsDir, locate]

section

variable {fs fs' : FileSystem} {root location : Location} {create : Bool}

/-- A directory stays where nothing but new things change. -/
theorem IsDir.extends {new : Location → Entry → Prop} {place : Place} (h : place.IsDir fs root) (hext : Extends new fs fs') :
    place.IsDir fs' root := by
  obtain ⟨location, hat, hdir⟩ := h
  refine ⟨location, ?_, hext.keeps hdir⟩
  cases place with
  | below below => exact hat
  | outside above since =>
    rw [locate, hext.links]
    exact walk_keeps (fun _ _ => hext.keeps) (Nat.le_refl _) hat

/-- A part upwards leads to the directory above. -/
theorem locate_up {place : Place} (hat : place.locate fs root = some location) (hdir : fs.entry location = some .dir) :
    (place.go .up).locate fs root = some location.dropLast := by
  cases place with
  | below below =>
    obtain rfl := Option.some.inj hat
    rw [go]
    split_ifs with hnil
    · subst hnil
      rw [List.append_nil]
      exact walk_nil
    · rw [List.dropLast_append_of_ne_nil hnil]
      rfl
  | outside above since =>
    rw [go]
    split_ifs with hnil
    · obtain ⟨rfl, -⟩ := hnil
      obtain rfl := Option.some.inj (walk_nil.symm.trans hat)
      rw [locate, base_up]
      exact walk_nil
    · obtain ⟨left, -, hleft⟩ := walk_append [.up] hat hdir
      rw [locate, hleft, walk_up]
      exact walk_nil

/-- All that is named is a directory, and so is what the parts lead to. -/
theorem isDir_after {place : Place} {parts : List PathPart} (h : place.IsDir fs root)
    (hnamed : ∀ q ∈ place.named parts, q.IsDir fs root) : (place.after parts).IsDir fs root := by
  induction parts generalizing place with
  | nil => exact h
  | cons part rest ih =>
    cases part with
    | up =>
      obtain ⟨location, hat, hdir⟩ := h
      exact ih ⟨_, locate_up hat hdir, dir_dropLast hdir⟩ hnamed
    | name name =>
      obtain ⟨hfirst, hrest⟩ := List.forall_mem_cons.mp hnamed
      exact ih hfirst hrest

theorem go_outside_name (above : Option ℕ) (since : List PathPart) (name : String) :
    (outside above since).go (.name name) = outside above (since ++ [.name name]) := by simp [go]

/-- One name further outside: the directory that is there, perhaps behind a link. -/
theorem makeDirs_outside {above : Option ℕ} {since rest : List PathPart} {name : String} {final : Location}
    (hat : (outside above since).locate fs root = some location) (hdir : fs.entry location = some .dir)
    (hfinal : (outside above (since ++ [.name name])).locate fs root = some final) (hfinalDir : fs.entry final = some .dir) :
    fs.makeDirs location (.name name :: rest) = fs.makeDirs final rest := by
  obtain ⟨left, hle, hleft⟩ := walk_append [.name name] hat hdir
  have hstep : fs.walk false left location [.name name] = some final := hleft.symm.trans hfinal
  rw [makeDirs]
  cases hentry : fs.entry (location ++ [name]) with
  | none =>
    rw [walk_name_none hentry] at hstep
    cases hstep
  | some entry =>
    cases entry with
    | dir =>
      rw [walk_name_dir hentry, walk_nil] at hstep
      obtain rfl := Option.some.inj hstep
      rfl
    | file =>
      rw [walk_name_file hentry] at hstep
      obtain rfl := Option.some.inj hstep
      rw [hentry] at hfinalDir
      cases hfinalDir
    | link target =>
      obtain ⟨left', rfl, hfollow⟩ := walk_name_link hentry hstep
      rw [List.append_nil] at hfollow
      have hthere := walk_keeps (fun _ _ h => h) (Nat.le_of_succ_le hle) hfollow
      simp only [hthere, hfinalDir, if_true]

/-- One name further: it is refused, or it leads to a directory, made just now if it was missing in
the directory itself. -/
theorem makeDirs_name {place : Place} {name : String} (rest : List PathPart)
    (hplain : ∀ l, root <+: l → ∀ target, fs.entry l ≠ some (.link target))
    (hat : place.locate fs root = some location) (hdir : fs.entry location = some .dir)
    (hout : (place.go (.name name)).isOutside = true → (place.go (.name name)).IsDir fs root) :
    fs.makeDirs location (.name name :: rest) = (fs, false) ∨
      ∃ fs' final, Extends (fun l entry => Beneath root l ∧ entry = .dir) fs fs' ∧
        (place.go (.name name)).locate fs' root = some final ∧ fs'.entry final = some .dir ∧
        fs.makeDirs location (.name name :: rest) = fs'.makeDirs final rest := by
  cases place with
  | outside above since =>
    rw [go_outside_name] at hout ⊢
    obtain ⟨final, hfinal, hfinalDir⟩ := hout rfl
    exact .inr ⟨fs, final, .refl, hfinal, hfinalDir, makeDirs_outside hat hdir hfinal hfinalDir⟩
  | below start =>
    obtain rfl := Option.some.inj hat
    have hlocation : root ++ start ++ [name] = root ++ (start ++ [name]) := List.append_assoc ..
    have hthere : ∀ fs' : FileSystem, ((below start).go (.name name)).locate fs' root = some (root ++ start ++ [name]) := by
      intro fs'
      rw [hlocation]
      rfl
    rw [makeDirs]
    cases hentry : fs.entry (root ++ start ++ [name]) with
    | none =>
      have hbeneath : Beneath root (root ++ start ++ [name]) := by
        rw [hlocation]
        exact ⟨List.prefix_append _ _, by simp⟩
      exact .inr ⟨fs.mkdir (root ++ start) name, _, .add ⟨hbeneath, rfl⟩, hthere _, entry_mkdir hdir hentry, rfl⟩
    | some entry =>
      cases entry with
      | dir => exact .inr ⟨fs, _, .refl, hthere _, hentry, rfl⟩
      | file => exact .inl rfl
      | link target =>
        rw [hlocation] at hentry
        exact absurd hentry (hplain _ (List.prefix_append _ _) target)

/-- Directories that can be made without making anything outside: a file is in the way before, or
what is outside is there already. -/
def Held (fs : FileSystem) (root : Location) (places : List Place) : Prop :=
  (∃ l, below l ∈ places ∧ fs.entry (root ++ l) = some .file) ∨ ∀ q ∈ places, q.isOutside = true → q.IsDir fs root

/-- Beyond a directory they still can. -/
theorem Held.tail {new : Location → Entry → Prop} {place : Place} {places : List Place} (h : Held fs root (place :: places))
    (hext : Extends new fs fs') (hdir : place.IsDir fs' root) : Held fs' root places := by
  rcases h with ⟨l, hl, hfile⟩ | hout
  · rcases List.mem_cons.mp hl with rfl | hl
    · rw [isDir_below, hext.keeps hfile] at hdir
      cases hdir
    · exact .inl ⟨l, hl, hext.keeps hfile⟩
  · exact .inr fun q hq hoff => (hout q (List.mem_cons_of_mem _ hq) hoff).extends hext

/-- **Making directories along places.** Nothing is made outside, if what is named there is a
directory already, or if a file is in the way before; and if nothing is in the way, all that is
named is a directory. -/
theorem makeDirs_places {place : Place} {parts : List PathPart}
    (hplain : ∀ l, root <+: l → ∀ target, fs.entry l ≠ some (.link target))
    (hat : place.locate fs root = some location) (hdir : fs.entry location = some .dir) (h : Held fs root (place.named parts)) :
    Extends (fun l entry => Beneath root l ∧ entry = .dir) fs (fs.makeDirs location parts).1 ∧
      ((fs.makeDirs location parts).2 = true →
        ∀ q ∈ place.named parts, q.IsDir (fs.makeDirs location parts).1 root) := by
  induction parts generalizing fs place location with
  | nil => exact ⟨.refl, by simp [named]⟩
  | cons part rest ih =>
    cases part with
    | up => exact ih hplain (locate_up hat hdir) (dir_dropLast hdir) h
    | name name =>
      have hout : (place.go (.name name)).isOutside = true → (place.go (.name name)).IsDir fs root := by
        intro hoff
        rcases h with ⟨l, hl, -⟩ | hout
        · obtain ⟨above, since, hgo⟩ : ∃ above since, place.go (.name name) = outside above since := by
            cases hgo : place.go (.name name) with
            | below l => rw [hgo] at hoff; cases hoff
            | outside above since => exact ⟨above, since, rfl⟩
          rw [named, hgo] at hl
          rcases List.mem_cons.mp hl with heq | hl
          · cases heq
          · cases isOutside_of_mem_named hl
        · exact hout _ (List.mem_cons_self ..) hoff
      rcases makeDirs_name rest hplain hat hdir hout with hrefused | ⟨fs', final, hext, hthere, hfinal, hmade⟩
      · rw [hrefused]
        exact ⟨.refl, by simp⟩
      · have hfirst : (place.go (.name name)).IsDir fs' root := ⟨final, hthere, hfinal⟩
        have hstill : ∀ l, root <+: l → ∀ target, fs'.entry l ≠ some (.link target) := by
          intro l hl target hlink
          rcases hext.cases hlink with hold | ⟨-, hnew⟩
          · exact hplain l hl target hold
          · cases hnew
        obtain ⟨hrest, hall⟩ := ih hstill hthere hfinal (h.tail hext hfirst)
        rw [hmade]
        refine ⟨hext.trans hrest, fun hok q hq => ?_⟩
        rcases List.mem_cons.mp hq with rfl | hq
        · exact hfirst.extends hrest
        · exact hall hok q hq

end

/-- Parts lead nowhere below from outside. -/
theorem isOutside_after {place : Place} (h : place.isOutside = true) (parts : List PathPart) :
    (place.after parts).isOutside = true := by
  induction parts generalizing place with
  | nil => exact h
  | cons part rest ih =>
    cases place with
    | below below => cases h
    | outside above since =>
      refine ih ?_
      rw [go]
      split_ifs
      · rfl
      · rfl

theorem not_outside_of_after {place : Place} {parts : List PathPart} (h : (place.after parts).isOutside = false) :
    ∀ q ∈ place.named parts, q.isOutside = false := by
  induction parts generalizing place with
  | nil => simp [named]
  | cons part rest ih =>
    cases part with
    | up => exact ih h
    | name name =>
      refine List.forall_mem_cons.mpr ⟨?_, ih h⟩
      by_contra hout
      have hafter := isOutside_after (by simpa using hout) rest
      have hsame : (place.go (.name name)).after rest = place.after (.name name :: rest) := rfl
      rw [hsame, h] at hafter
      cases hafter

/-- What is named is not the directory itself. -/
theorem ne_nil_of_mem_named {place : Place} {parts : List PathPart} {location : Location}
    (h : below location ∈ place.named parts) : location ≠ [] := by
  induction parts generalizing place with
  | nil => cases h
  | cons part rest ih =>
    cases part with
    | up => exact ih h
    | name name =>
      rcases List.mem_cons.mp h with heq | h
      · cases place with
        | below below =>
          obtain rfl := Place.below.inj heq
          simp
        | outside above since => simp [go] at heq
      · exact ih h

/-- Parts that end with a name lead to what they name last. -/
theorem after_mem_named (place : Place) (before : List PathPart) (name : String) :
    place.after (before ++ [.name name]) ∈ place.named (before ++ [.name name]) := by
  induction before generalizing place with
  | nil => exact List.mem_cons_self ..
  | cons part rest ih =>
    cases part with
    | up => exact ih _
    | name other => exact List.mem_cons_of_mem _ (ih _)

theorem named_append (place : Place) (before later : List PathPart) :
    place.named (before ++ later) = place.named before ++ (place.after before).named later := by
  induction before generalizing place with
  | nil => rfl
  | cons part rest ih =>
    cases part with
    | up => exact ih _
    | name name => exact congrArg _ (ih _)

theorem after_append (place : Place) (before later : List PathPart) :
    place.after (before ++ later) = (place.after before).after later := List.foldl_append

section
variable {fs : FileSystem} {root : Location} {create : Bool} {links : ℕ}

/-- What parts visit from a location they name from its place, if they name nothing outside. -/
theorem mem_named_of_visited {location l : Location} {parts : List PathPart}
    (h : ∀ q ∈ (below location).named parts, q.isOutside = false) (hl : l ∈ visited (root ++ location) parts) :
    ∃ l', l = root ++ l' ∧ below l' ∈ (below location).named parts := by
  induction parts generalizing location with
  | nil => cases hl
  | cons part rest ih =>
    cases part with
    | name name =>
      rw [visited, List.append_assoc] at hl
      rcases List.mem_cons.mp hl with rfl | hl
      · exact ⟨_, rfl, List.mem_cons_self ..⟩
      · obtain ⟨l', hl', hmem⟩ := ih (List.forall_mem_cons.mp h).2 hl
        exact ⟨l', hl', List.mem_cons_of_mem _ hmem⟩
    | up =>
      by_cases hnil : location = []
      · exfalso
        subst hnil
        have hups : ∀ (above : Option ℕ) (parts : List PathPart) (start : Location),
            (∀ q ∈ (outside above []).named parts, q.isOutside = false) → l ∉ visited start parts := by
          intro above parts
          induction parts generalizing above with
          | nil => exact fun _ _ => List.not_mem_nil
          | cons part rest ih =>
            intro start hall
            cases part with
            | up => exact ih (above.map (· + 1)) start.dropLast hall
            | name name => cases hall _ (List.mem_cons_self ..)
        exact hups (some 1) rest _ h hl
      · have hgo : (below location).go .up = below location.dropLast := if_neg hnil
        rw [visited, List.dropLast_append_of_ne_nil hnil] at hl
        rw [named, hgo] at h ⊢
        exact ih h hl

theorem lexical_of_after {location l : Location} {parts : List PathPart} (h : (below location).after parts = below l) :
    lexical (root ++ location) parts = root ++ l := by
  induction parts generalizing location with
  | nil =>
    obtain rfl := Place.below.inj h
    rfl
  | cons part rest ih =>
    cases part with
    | name name =>
      rw [lexical, List.append_assoc]
      exact ih h
    | up =>
      by_cases hnil : location = []
      · exfalso
        have hout : ((below location).go .up).isOutside = true := by
          rw [go, if_pos hnil]
          rfl
        have hafter := isOutside_after hout rest
        have hsame : ((below location).go .up).after rest = (below location).after (.up :: rest) := rfl
        rw [hsame, h] at hafter
        cases hafter
      · have hgo : (below location).go .up = below location.dropLast := if_neg hnil
        rw [lexical, List.dropLast_append_of_ne_nil hnil]
        refine ih ?_
        rw [← hgo]
        exact h

theorem after_outside {above : Option ℕ} {since : List PathPart} (hne : since ≠ []) (parts : List PathPart) :
    (outside above since).after parts = outside above (since ++ parts) := by
  induction parts generalizing since with
  | nil => rw [List.append_nil]; rfl
  | cons part rest ih =>
    have hgo : (outside above since).go part = outside above (since ++ [part]) := if_neg fun h => hne h.1
    have hstep : (outside above since).after (part :: rest) = ((outside above since).go part).after rest := rfl
    rw [hstep, hgo, ih (by simp), List.append_assoc]
    rfl

/-- From outside the kernel comes to the place of the parts. -/
theorem walk_outside {above above' : Option ℕ} {since parts : List PathPart}
    (h : (outside above []).after parts = outside above' since) :
    fs.walk create links (base root above) parts = fs.walk create links (base root above') since := by
  induction parts generalizing above with
  | nil =>
    obtain ⟨rfl, rfl⟩ := Place.outside.inj h
    rfl
  | cons part rest ih =>
    cases part with
    | up =>
      rw [walk_up, ← base_up]
      exact ih h
    | name name =>
      have hgo : (outside above []).after (.name name :: rest) = (outside above [.name name]).after rest := rfl
      rw [hgo, after_outside (by simp)] at h
      obtain ⟨rfl, rfl⟩ := Place.outside.inj h
      rfl

/-- Over directories the kernel leaves the directory as the parts do. -/
theorem walk_leaving {location : Location} {above : Option ℕ} {since parts : List PathPart}
    (hdirs : ∀ l, below l ∈ (below location).named parts → fs.entry (root ++ l) = some .dir)
    (h : (below location).after parts = outside above since) :
    fs.walk create links (root ++ location) parts = fs.walk create links (base root above) since := by
  induction parts generalizing location with
  | nil => cases h
  | cons part rest ih =>
    cases part with
    | name name =>
      have hdir := hdirs _ (List.mem_cons_self ..)
      rw [← List.append_assoc] at hdir
      rw [walk_name_dir hdir, List.append_assoc]
      exact ih (fun l hl => hdirs l (List.mem_cons_of_mem _ hl)) h
    | up =>
      by_cases hnil : location = []
      · subst hnil
        rw [walk_up, List.append_nil]
        exact @walk_outside fs root create links (some 1) above since rest h
      · have hgo : (below location).go .up = below location.dropLast := if_neg hnil
        have hstep : (below location).after (.up :: rest) = ((below location).go .up).after rest := rfl
        rw [hstep, hgo] at h
        rw [named, hgo] at hdirs
        rw [walk_up, List.dropLast_append_of_ne_nil hnil]
        exact ih hdirs h

/-- A file in the way. -/
theorem walk_file_in_way {location l : Location} {parts : List PathPart}
    (hplain : ∀ l, root <+: l → ∀ target, fs.entry l ≠ some (.link target))
    (hl : below l ∈ (below location).named parts.dropLast) (hfile : fs.entry (root ++ l) = some .file) :
    fs.walk create links (root ++ location) parts = none := by
  induction parts generalizing location with
  | nil => cases hl
  | cons part rest ih =>
    cases rest with
    | nil => cases hl
    | cons next rest =>
      rw [List.dropLast_cons_cons] at hl
      cases part with
      | up =>
        rw [named] at hl
        by_cases hnil : location = []
        · rw [go, if_pos hnil] at hl
          cases isOutside_of_mem_named hl
        · rw [go, if_neg hnil] at hl
          rw [walk_up, List.dropLast_append_of_ne_nil hnil]
          exact ih hl
      | name name =>
        cases hentry : fs.entry (root ++ location ++ [name]) with
        | none =>
          rw [walk_name_none hentry, if_neg (by simp)]
        | some entry =>
          cases entry with
          | dir =>
            rw [walk_name_dir hentry, List.append_assoc]
            rcases List.mem_cons.mp hl with heq | hl
            · obtain rfl := Place.below.inj heq
              rw [← List.append_assoc, hentry] at hfile
              cases hfile
            · exact ih hl
          | file => rw [walk_name_file hentry, if_neg (by simp)]
          | link target =>
            rw [List.append_assoc] at hentry
            exact absurd hentry (hplain _ (List.prefix_append _ _) target)

end

section
variable {fs : FileSystem} {root location : Location}

/-- A place from which parts can be followed by their text: one of the directory, or a directory
above. -/
def isOrigin : Place → Bool
  | below _ => true
  | outside _ since => since = []

theorem walk_eq_walkParts (create : Bool) (links : ℕ) (location : Location) (parts : List PathPart) :
    ∃ follow, fs.walk create links location parts = fs.walkParts create follow location parts := by
  cases links with
  | zero => exact ⟨_, rfl⟩
  | succ links => exact ⟨_, rfl⟩

/-- What is named is named before the last part, or it is where the parts lead. -/
theorem mem_named_dropLast {place q : Place} {parts : List PathPart} (h : q ∈ place.named parts) :
    q ∈ place.named parts.dropLast ∨ q = place.after parts := by
  rcases List.eq_nil_or_concat parts with rfl | ⟨before, last, rfl⟩
  · exact .inl h
  · rw [List.concat_eq_append] at h ⊢
    rw [List.dropLast_concat]
    rw [named_append] at h
    rcases List.mem_append.mp h with h | h
    · exact .inl h
    · cases last with
      | up => cases h
      | name name =>
        right
        rw [after_append]
        exact List.mem_singleton.mp h

theorem named_dropLast_subset {place q : Place} {parts : List PathPart} (h : q ∈ place.named parts.dropLast) :
    q ∈ place.named parts := by
  rcases List.eq_nil_or_concat parts with rfl | ⟨before, last, rfl⟩
  · exact h
  · rw [List.concat_eq_append] at h ⊢
    rw [List.dropLast_concat] at h
    rw [named_append]
    exact List.mem_append_left _ h

/-- Where the kernel comes to along parts is their place, if all they name on the way is a
directory. -/
theorem locate_of_walk {place : Place} {parts : List PathPart} {final : Location} (horigin : place.isOrigin = true)
    (hplain : ∀ l, root <+: l → ∀ target, fs.entry l ≠ some (.link target))
    (hat : place.locate fs root = some location) (hdir : fs.entry location = some .dir)
    (hway : ∀ q ∈ place.named parts.dropLast, q.IsDir fs root)
    (h : fs.walk false fs.links location parts = some final) : (place.after parts).locate fs root = some final := by
  cases place with
  | outside above since =>
    obtain rfl : since = [] := by simpa [isOrigin] using horigin
    obtain rfl := Option.some.inj (walk_nil.symm.trans hat)
    cases hafter : (outside above []).after parts with
    | below l =>
      have hout := isOutside_after (show (outside above []).isOutside = true from rfl) parts
      rw [hafter] at hout
      cases hout
    | outside above' since' =>
      rw [locate, ← walk_outside hafter]
      exact h
  | below start =>
    obtain rfl := Option.some.inj hat
    cases hafter : (below start).after parts with
    | outside above since =>
      rw [locate, ← walk_leaving (fun l hl => ?_) hafter]
      · exact h
      · rcases mem_named_dropLast hl with hl | heq
        · exact isDir_below.mp (hway _ hl)
        · rw [hafter] at heq
          cases heq
    | below l =>
      have hinside := not_outside_of_after (show ((below start).after parts).isOutside = false by rw [hafter]; rfl)
      have hvisited : ∀ v ∈ visited (root ++ start) parts, ∀ target, fs.entry v ≠ some (.link target) := by
        intro v hv
        obtain ⟨l', rfl, -⟩ := mem_named_of_visited hinside hv
        exact hplain _ (List.prefix_append _ _)
      obtain ⟨follow, hfollow⟩ := @walk_eq_walkParts fs false fs.links (root ++ start) parts
      obtain ⟨hfinal, -⟩ := walkParts_plain hvisited hdir (hfollow.symm.trans h)
      rw [hfinal, lexical_of_after hafter]
      rfl

/-- Along parts that name only directories the kernel comes to a directory. -/
theorem walk_of_isDir {place : Place} {parts : List PathPart} (horigin : place.isOrigin = true)
    (hat : place.locate fs root = some location) (hdir : fs.entry location = some .dir)
    (hall : ∀ q ∈ place.named parts, q.IsDir fs root) :
    ∃ final, fs.walk false fs.links location parts = some final ∧ fs.entry final = some .dir := by
  obtain ⟨final, hfinal, hfinalDir⟩ := isDir_after ⟨location, hat, hdir⟩ hall
  refine ⟨final, ?_, hfinalDir⟩
  cases place with
  | outside above since =>
    obtain rfl : since = [] := by simpa [isOrigin] using horigin
    obtain rfl := Option.some.inj (walk_nil.symm.trans hat)
    cases hafter : (outside above []).after parts with
    | below l =>
      have hout := isOutside_after (show (outside above []).isOutside = true from rfl) parts
      rw [hafter] at hout
      cases hout
    | outside above' since' =>
      rw [walk_outside hafter]
      rw [hafter] at hfinal
      exact hfinal
  | below start =>
    obtain rfl := Option.some.inj hat
    cases hafter : (below start).after parts with
    | outside above since =>
      rw [walk_leaving (fun l hl => isDir_below.mp (hall _ hl)) hafter]
      rw [hafter] at hfinal
      exact hfinal
    | below l =>
      have hinside := not_outside_of_after (show ((below start).after parts).isOutside = false by rw [hafter]; rfl)
      have hdirs : ∀ v ∈ visited (root ++ start) parts, fs.entry v = some .dir := by
        intro v hv
        obtain ⟨l', rfl, hl'⟩ := mem_named_of_visited hinside hv
        exact isDir_below.mp (hall _ hl')
      have hwalk := @walk_dirs fs false fs.links _ _ hdirs []
      rw [List.append_nil, walk_nil, lexical_of_after hafter] at hwalk
      rw [hafter] at hfinal
      exact hwalk.trans hfinal

end

/-- What parts name below from a place they visit from its location. -/
theorem visited_of_mem_named {root location l : Location} {parts : List PathPart} (h : below l ∈ (below location).named parts) :
    root ++ l ∈ visited (root ++ location) parts := by
  induction parts generalizing location with
  | nil => cases h
  | cons part rest ih =>
    cases part with
    | name name =>
      rw [visited, List.append_assoc]
      rcases List.mem_cons.mp h with heq | h
      · obtain rfl := Place.below.inj heq
        exact List.mem_cons_self ..
      · exact List.mem_cons_of_mem _ (ih h)
    | up =>
      rw [named, go] at h
      split_ifs at h with hnil
      · cases isOutside_of_mem_named h
      · rw [visited, List.dropLast_append_of_ne_nil hnil]
        exact ih h

theorem exists_below {place : Place} (h : place.isOutside = false) : ∃ l, place = below l := by
  cases place with
  | below l => exact ⟨l, rfl⟩
  | outside above since => cases h

/-- Whether a place is strictly beneath a location of the directory. -/
def isBeneath (dir : Location) : Place → Bool
  | below location => dir.isPrefixOf location && location ≠ dir
  | outside _ _ => false

theorem isBeneath_below {dir location : Location} : (below location).isBeneath dir = true ↔ Beneath dir location := by
  simp [isBeneath, Beneath]

theorem exists_of_isBeneath {dir : Location} {place : Place} (h : place.isBeneath dir = true) :
    ∃ location, place = below location ∧ Beneath dir location := by
  cases place with
  | below location => exact ⟨location, rfl, isBeneath_below.mp h⟩
  | outside above since => cases h

/-! ### What is there already -/

section

variable {fs fs' : FileSystem} {root location : Location}

/-- Where the kernel has come to it still comes to where nothing goes away. -/
theorem locate_extends {new : Location → Entry → Prop} {place : Place} (h : place.locate fs root = some location)
    (hext : Extends new fs fs') : place.locate fs' root = some location := by
  cases place with
  | below below => exact h
  | outside above since =>
    rw [locate, hext.links]
    exact walk_keeps (fun _ _ => hext.keeps) (Nat.le_refl _) h

/-- Over directories that are there others are made from where the parts lead. -/
theorem makeDirs_there {place : Place} {before : List PathPart} (rest : List PathPart)
    (hat : place.locate fs root = some location) (hdir : fs.entry location = some .dir)
    (hnamed : ∀ q ∈ place.named before, q.IsDir fs root) :
    ∃ final, (place.after before).locate fs root = some final ∧ fs.entry final = some .dir ∧
      fs.makeDirs location (before ++ rest) = fs.makeDirs final rest := by
  induction before generalizing place location with
  | nil => exact ⟨location, hat, hdir, rfl⟩
  | cons part before ih =>
    cases part with
    | up => exact ih (locate_up hat hdir) (dir_dropLast hdir) hnamed
    | name name =>
      obtain ⟨hfirst, hlater⟩ := List.forall_mem_cons.mp hnamed
      obtain ⟨next, hnext, hnextDir⟩ := hfirst
      obtain ⟨final, hfinal, hfinalDir, hmade⟩ := ih hnext hnextDir hlater
      refine ⟨final, hfinal, hfinalDir, ?_⟩
      rw [← hmade, List.cons_append]
      cases place with
      | outside above since =>
        rw [go_outside_name] at hnext
        exact makeDirs_outside hat hdir hnext hnextDir
      | below start =>
        obtain rfl := Option.some.inj hat
        obtain rfl : root ++ start ++ [name] = next := (List.append_assoc ..).trans (Option.some.inj hnext)
        rw [makeDirs, hnextDir]

/-- What is named is named after some of the parts. -/
theorem exists_split_of_mem_named {place q : Place} {parts : List PathPart} (h : q ∈ place.named parts) :
    ∃ before name rest, parts = before ++ .name name :: rest ∧ q = (place.after before).go (.name name) := by
  induction parts generalizing place with
  | nil => cases h
  | cons part parts ih =>
    cases part with
    | up =>
      obtain ⟨before, name, rest, rfl, rfl⟩ := ih h
      exact ⟨.up :: before, name, rest, rfl, rfl⟩
    | name name =>
      rcases List.mem_cons.mp h with rfl | h
      · exact ⟨[], name, parts, rfl, rfl⟩
      · obtain ⟨before, name', rest, rfl, rfl⟩ := ih h
        exact ⟨.name name :: before, name', rest, rfl, rfl⟩

/-- Outside, no name leads back to what was named before. -/
theorem not_mem_named_of_outside {place : Place} {before : List PathPart} {name : String}
    (hout : ((place.after before).go (.name name)).isOutside = true) :
    (place.after before).go (.name name) ∉ place.named before := by
  intro hmem
  obtain ⟨first, name', rest, rfl, heq⟩ := exists_split_of_mem_named hmem
  cases hstart : place.after first with
  | below start =>
    rw [hstart] at heq
    rw [heq] at hout
    cases hout
  | outside above since =>
    have hgone : place.after (first ++ .name name' :: rest) = outside above (since ++ [.name name'] ++ rest) := by
      rw [after_append, hstart]
      have hnext : (outside above since).after (.name name' :: rest) = ((outside above since).go (.name name')).after rest := rfl
      rw [hnext, go_outside_name, after_outside (by simp)]
    rw [hgone, hstart, go_outside_name, go_outside_name] at heq
    have hlength := congrArg List.length (Place.outside.inj heq).2
    simp at hlength

end

end Place

end Apmpr
