import Apmpr.Lib.Places
import Mathlib.Algebra.Order.BigOperators.Group.List
import Mathlib.Algebra.Order.Group.Nat
import Mathlib.Algebra.GroupWithZero.Nat

/-!
# File systems with exactly these directories

From places, seen from a directory, a file system in which these are directories and what is
named beyond them is missing, also where two texts would lead to one place: every place outside
is a directory of its own far away, and the name that leads to it is a link.

## What is proved

* `isDir_of_mem`: the places are directories.
* `walk_stands`: along them the kernel comes to where they stand.
* `beyond`: one name beyond them there is nothing, and that is not in the directory.
* `mem_of_walk`: if they are all in the directory the kernel comes to nothing else.
-/

namespace Apmpr

namespace Place

/-- How far a place is outside. -/
def extent : Place → ℕ
  | below _ => 0
  | outside above since => above.getD 0 + since.length

/-- The names on the way to a place outside. -/
def outerNames : Place → List String
  | below _ => []
  | outside _ since => since.filterMap fun
    | .up => none
    | .name name => some name

/-- A place all of whose way is among these. -/
def Anchored (dirs : List Place) : Place → Prop
  | below location => ∀ before name rest, location = before ++ name :: rest → below (before ++ [name]) ∈ dirs
  | outside above since =>
    (outside above []).after since = outside above since ∧ (∀ q ∈ (outside above []).named since, q ∈ dirs) ∧
      ∀ count, above = some count → 0 < count

theorem extent_go (place : Place) (part : PathPart) : (place.go part).extent ≤ place.extent + 1 := by
  cases place with
  | below location =>
    cases part with
    | name name => exact Nat.zero_le _
    | up =>
      rw [go]
      split_ifs
      · exact Nat.le_refl _
      · exact Nat.zero_le _
  | outside above since =>
    rw [go]
    split_ifs with h
    · obtain ⟨rfl, -⟩ := h
      cases above <;> simp [extent]
    · simp only [extent, List.length_append, List.length_singleton]
      omega

theorem Anchored.mono {dirs dirs' : List Place} {place : Place} (h : place.Anchored dirs) (hsub : ∀ q ∈ dirs, q ∈ dirs') :
    place.Anchored dirs' := by
  cases place with
  | below location => exact fun before name rest heq => hsub _ (h before name rest heq)
  | outside above since => exact ⟨h.1, fun q hq => hsub q (h.2.1 q hq), h.2.2⟩

theorem Anchored.go {dirs : List Place} {place : Place} (h : place.Anchored dirs) (part : PathPart)
    (hname : ∀ name, part = .name name → place.go part ∈ dirs) : (place.go part).Anchored dirs := by
  cases place with
  | below location =>
    cases part with
    | name name =>
      intro before last rest heq
      rcases List.eq_nil_or_concat rest with rfl | ⟨rest, last', rfl⟩
      · rw [← heq]
        exact hname name rfl
      · rw [List.concat_eq_append, ← List.cons_append, ← List.append_assoc] at heq
        exact h before last rest (List.append_inj_left' heq rfl)
    | up =>
      rw [Place.go]
      split_ifs with hnil
      · exact ⟨rfl, by simp [named], fun count hcount => by cases hcount; exact Nat.one_pos⟩
      · intro before name rest heq
        refine h before name (rest ++ [location.getLast hnil]) ?_
        calc location = location.dropLast ++ [location.getLast hnil] := (List.dropLast_append_getLast hnil).symm
          _ = before ++ name :: (rest ++ [location.getLast hnil]) := by rw [heq, List.append_assoc]; rfl
  | outside above since =>
    obtain ⟨hafter, hnamed, habove⟩ := h
    rw [Place.go]
    split_ifs with hup
    · refine ⟨rfl, by simp [named], fun count hcount => ?_⟩
      cases above with
      | none => cases hcount
      | some above =>
        cases hcount
        exact Nat.succ_pos _
    · have hgo : (outside above since).go part = outside above (since ++ [part]) := if_neg hup
      refine ⟨?_, fun q hq => ?_, habove⟩
      · rw [after_append, hafter, ← hgo]
        rfl
      · rw [named_append, hafter] at hq
        rcases List.mem_append.mp hq with hq | hq
        · exact hnamed q hq
        · cases part with
          | up => cases hq
          | name name =>
            rw [List.mem_singleton.mp hq]
            exact hname name rfl

/-- All that parts name from an anchored place is anchored in what they name. -/
theorem Anchored.of_named {dirs : List Place} {place q : Place} {parts : List PathPart} (h : place.Anchored dirs)
    (hnamed : ∀ q ∈ place.named parts, q ∈ dirs) (hq : q ∈ place.named parts) : q.Anchored dirs := by
  induction parts generalizing place with
  | nil => cases hq
  | cons part rest ih =>
    cases part with
    | up => exact ih (h.go .up fun name hname => by cases hname) hnamed hq
    | name name =>
      have hfirst := h.go (.name name) fun _ _ => hnamed _ (List.mem_cons_self ..)
      rcases List.mem_cons.mp hq with rfl | hq
      · exact hfirst
      · exact ih hfirst (fun q hq => hnamed q (List.mem_cons_of_mem _ hq)) hq

/-- Where parts lead from an anchored place is anchored in what they name. -/
theorem Anchored.after {dirs : List Place} {place : Place} {parts : List PathPart} (h : place.Anchored dirs)
    (hnamed : ∀ q ∈ place.named parts, q ∈ dirs) : (place.after parts).Anchored dirs := by
  induction parts generalizing place with
  | nil => exact h
  | cons part rest ih =>
    cases part with
    | up => exact ih (h.go .up fun name hname => by cases hname) hnamed
    | name name =>
      exact ih (h.go (.name name) fun _ _ => hnamed _ (List.mem_cons_self ..)) fun q hq => hnamed q (List.mem_cons_of_mem _ hq)

/-- Places that end with a name, with all their ways. -/
structure Closed (dirs : List Place) : Prop where
  ends : ∀ q ∈ dirs, ∃ (before : Place) (name : String), q = before.go (.name name)
  anchored : ∀ q ∈ dirs, q.Anchored dirs

/-- With what parts name from where nothing has to be there. -/
theorem Closed.named {dirs : List Place} (h : Closed dirs) {place : Place} (hplace : place.Anchored [])
    (parts : List PathPart) : Closed (place.named parts ++ dirs) := by
  refine ⟨fun q hq => ?_, fun q hq => ?_⟩
  · rcases List.mem_append.mp hq with hq | hq
    · obtain ⟨before, name, -, -, rfl⟩ := exists_split_of_mem_named hq
      exact ⟨_, name, rfl⟩
    · exact h.ends q hq
  · rcases List.mem_append.mp hq with hq | hq
    · exact (hplace.mono (by simp)).of_named (fun _ => List.mem_append_left _) hq
    · exact (h.anchored q hq).mono fun _ => List.mem_append_right _

/-- Without a place nothing is beneath. -/
theorem Closed.without {dirs : List Place} (h : Closed dirs) {dir : Location} (hnone : ∀ q ∈ dirs, q.isBeneath dir = false) :
    Closed (dirs.filter (· ≠ below dir)) := by
  refine ⟨fun q hq => h.ends q (List.mem_of_mem_filter hq), fun q hq => ?_⟩
  obtain ⟨hmem, hne⟩ := List.mem_filter.mp hq
  cases q with
  | below location =>
    intro before name rest heq
    refine List.mem_filter.mpr ⟨h.anchored _ hmem before name rest heq, ?_⟩
    rw [decide_eq_true_eq]
    intro hdir
    obtain rfl := below.inj hdir
    have hbeneath := Bool.eq_false_iff.mp (hnone _ hmem)
    refine hbeneath (isBeneath_below.mpr ⟨⟨rest, by rw [heq, List.append_assoc]; rfl⟩, ?_⟩)
    rintro rfl
    simp at hne
  | outside above since =>
    obtain ⟨hafter, hnamed, hpos⟩ := h.anchored _ hmem
    refine ⟨hafter, fun q' hq' => List.mem_filter.mpr ⟨hnamed q' hq', ?_⟩, hpos⟩
    rw [decide_eq_true_eq]
    rintro rfl
    cases isOutside_of_mem_named hq'

end Place

namespace FileSystem

theorem lexical_names (location names : Location) : lexical location (names.map .name) = location ++ names := by
  induction names generalizing location with
  | nil => exact (List.append_nil _).symm
  | cons name rest ih =>
    rw [List.map_cons, lexical, ih, List.append_assoc]
    rfl

/-- What names visit from the root is on the way to them. -/
theorem prefix_of_visited_names {names l : Location} (h : l ∈ visited [] (names.map .name)) : l <+: names := by
  suffices hgeneral : ∀ before : Location, l ∈ visited before (names.map .name) → l <+: before ++ names from hgeneral [] h
  clear h
  intro before h
  induction names generalizing before with
  | nil => cases h
  | cons name rest ih =>
    rcases List.mem_cons.mp h with rfl | h
    · exact ⟨rest, List.append_assoc ..⟩
    · have hbegins := ih _ h
      rwa [List.append_assoc] at hbegins

end FileSystem

open FileSystem

/-- What a file system is to have: the directories among places, and the files in the directory. -/
structure Landscape where
  dirs : List Place
  files : List Location
  size : ℕ
  depth : ℕ
  closed : Place.Closed dirs
  files_above : ∀ location name, location ++ [name] ∈ files → location = [] ∨ .below location ∈ dirs
  room : ∀ q ∈ dirs, q.extent < depth
  short : ∀ q ∈ dirs, ∀ name ∈ q.outerNames, name.length ≤ size
  depth_pos : 0 < depth

namespace Landscape

variable (land : Landscape)

/-- A name that no place has. -/
def tag (n : ℕ) : String := String.ofList (List.replicate (land.size + 1 + n) 'x')

/-- Where the directory is. -/
def home : Location := List.replicate land.depth (land.tag 0)

/-- Where a place outside is. -/
def hub (q : Place) : Location := List.replicate land.depth (land.tag (land.dirs.idxOf q + 1))

/-- Where a place stands, if it is one of the directories or above one of them. -/
inductive Stands : Place → Location → Prop
  | here : Stands (.below []) land.home
  | inner {location : Location} (h : .below location ∈ land.dirs) : Stands (.below location) (land.home ++ location)
  | top : Stands (.outside none []) []
  | higher {count : ℕ} (hpos : 0 < count) (h : count < land.depth) :
      Stands (.outside (some count) []) (List.replicate (land.depth - count) (land.tag 0))
  | outer {above : Option ℕ} {since : List PathPart} {climbs : ℕ} (h : .outside above since ∈ land.dirs)
      (hclimbs : climbs < land.depth) :
      Stands (.outside above (since ++ List.replicate climbs .up))
        (List.replicate (land.depth - climbs) (land.tag (land.dirs.idxOf (.outside above since) + 1)))

/-- The name that leads to a place outside. -/
def Door (q : Place) (location : Location) : Prop :=
  ∃ place at' name, land.Stands place at' ∧ place.isOutside = true ∧ q = place.go (.name name) ∧ location = at' ++ [name]

/-- A location that is the name of some place outside. -/
def IsDoor (location : Location) : Prop := ∃ q ∈ land.dirs, land.Door q location

/-- Whether a location is on the way to where some place outside is. -/
def onWay (location : Location) : Bool := land.dirs.any fun q => q.isOutside && location.isPrefixOf (land.hub q)

open Classical in
/-- What is at a location. -/
noncomputable def entry (location : Location) : Option Entry :=
  if location.isPrefixOf land.home = true then some .dir
  else if land.home.isPrefixOf location = true then
    if .below (location.drop land.depth) ∈ land.dirs then some .dir
    else if land.files.contains (location.drop land.depth) = true then some .file else none
  else if h : land.IsDoor location then some (.link (.canonical (land.hub h.choose)))
  else if land.onWay location = true then some .dir else none

theorem tag_length (n : ℕ) : (land.tag n).length = land.size + 1 + n := by simp [tag]

theorem tag_inj {n m : ℕ} (h : land.tag n = land.tag m) : n = m := by
  have hlength := congrArg String.length h
  rw [tag_length, tag_length] at hlength
  exact Nat.add_left_cancel hlength

/-- A short name is no tag. -/
theorem ne_tag {name : String} (h : name.length ≤ land.size) (n : ℕ) : name ≠ land.tag n := by
  rintro rfl
  rw [tag_length] at h
  omega

/-- What stands outside is made of one tag, of the first only if it is above the directory. -/
theorem Stands.replicate {place : Place} {location : Location} (h : land.Stands place location)
    (hout : place.isOutside = true) : ∃ count n, location = List.replicate count (land.tag n) ∧
      count ≤ land.depth ∧ (n = 0 → count < land.depth) := by
  cases h with
  | here => cases hout
  | inner h => cases hout
  | top => exact ⟨0, 0, rfl, Nat.zero_le _, fun _ => land.depth_pos⟩
  | higher hpos h => exact ⟨_, 0, rfl, Nat.sub_le .., fun _ => Nat.sub_lt land.depth_pos hpos⟩
  | outer h hclimbs => exact ⟨_, _, rfl, Nat.sub_le .., fun hzero => by cases hzero⟩

/-- The directory is not below what stands outside, nor below one name beyond. -/
theorem Stands.not_below {place : Place} {location : Location} (h : land.Stands place location)
    (hout : place.isOutside = true) {name : String} (hname : name.length ≤ land.size) : ¬land.home <+: location ++ [name] := by
  obtain ⟨count, n, rfl, hcount, hzero⟩ := h.replicate land hout
  intro hbegins
  rcases List.prefix_concat_iff.mp hbegins with heq | hbegins
  · have hmem : name ∈ land.home := by
      rw [heq]
      simp
    exact land.ne_tag hname 0 (List.eq_of_mem_replicate hmem)
  · have hle := hbegins.length_le
    rw [home, List.length_replicate, List.length_replicate] at hle
    have hfirst : land.tag 0 ∈ List.replicate count (land.tag n) := hbegins.subset (by
      rw [home, List.mem_replicate]
      exact ⟨land.depth_pos.ne', rfl⟩)
    have hn := land.tag_inj (List.eq_of_mem_replicate hfirst)
    have hlt := hzero hn.symm
    omega

/-- Where something stands outside says what it is. -/
theorem Stands.inj {place place' : Place} {location : Location} (h : land.Stands place location)
    (h' : land.Stands place' location) (hout : place.isOutside = true) (hout' : place'.isOutside = true) :
    place = place' := by
  have hfar : ∀ {climbs}, climbs < land.depth → land.depth - climbs ≠ 0 := by omega
  cases h with
  | here => cases hout
  | inner h => cases hout
  | top =>
    generalize hnil : ([] : Location) = location at h'
    cases h' with
    | here => cases hout'
    | inner h => cases hout'
    | top => rfl
    | higher hpos h => exact absurd (List.replicate_eq_nil_iff _ |>.mp hnil.symm) (hfar h)
    | outer h hclimbs => exact absurd (List.replicate_eq_nil_iff _ |>.mp hnil.symm) (hfar hclimbs)
  | higher hpos h =>
    generalize hsame : List.replicate _ _ = location at h'
    cases h' with
    | here => cases hout'
    | inner h => cases hout'
    | top => exact absurd (List.replicate_eq_nil_iff _ |>.mp hsame) (hfar h)
    | higher hpos' h' =>
      obtain ⟨hcount, -⟩ := List.replicate_inj.mp hsame
      congr 2
      omega
    | outer h' hclimbs =>
      obtain ⟨-, hzero | htag⟩ := List.replicate_inj.mp hsame
      · exact absurd hzero (hfar h)
      · cases land.tag_inj htag
  | outer h hclimbs =>
    generalize hsame : List.replicate (land.depth - _) _ = location at h'
    cases h' with
    | here => cases hout'
    | inner h => cases hout'
    | top => exact absurd (List.replicate_eq_nil_iff _ |>.mp hsame) (hfar hclimbs)
    | higher hpos' h' =>
      obtain ⟨-, hzero | htag⟩ := List.replicate_inj.mp hsame
      · exact absurd hzero (hfar hclimbs)
      · cases land.tag_inj htag
    | outer h' hclimbs' =>
      obtain ⟨hcount, hzero | htag⟩ := List.replicate_inj.mp hsame
      · exact absurd hzero (hfar hclimbs)
      · have hidx := Nat.succ.inj (land.tag_inj htag)
        obtain ⟨rfl, rfl⟩ := Place.outside.inj ((List.idxOf_inj h).mp hidx)
        congr 3
        omega

theorem Door.short {q : Place} {location : Location} (h : land.Door q location) (hq : q ∈ land.dirs) :
    ∃ place at' name, land.Stands place at' ∧ place.isOutside = true ∧ q = place.go (.name name) ∧ location = at' ++ [name] ∧
      name.length ≤ land.size := by
  obtain ⟨place, at', name, hstands, hout, rfl, rfl⟩ := h
  refine ⟨place, at', name, hstands, hout, rfl, rfl, land.short _ hq name ?_⟩
  cases place with
  | below location => cases hout
  | outside above since =>
    rw [Place.go_outside_name]
    simp [Place.outerNames]

/-- What ends with a short name is not on the way to the directory. -/
theorem not_prefix_home {location : Location} {name : String} (hname : name.length ≤ land.size) :
    ¬location ++ [name] <+: land.home := by
  intro hbegins
  have hmem : name ∈ land.home := hbegins.subset (by simp)
  exact land.ne_tag hname 0 (List.eq_of_mem_replicate hmem)

theorem onWay_iff {location : Location} :
    land.onWay location = true ↔ ∃ q ∈ land.dirs, q.isOutside = true ∧ location <+: land.hub q := by
  simp [onWay]

theorem entry_home {location : Location} (h : location <+: land.home) : land.entry location = some .dir :=
  if_pos (List.isPrefixOf_iff_prefix.mpr h)

/-- What is neither on the way to the directory nor in it. -/
theorem entry_off {location : Location} (hhome : ¬location <+: land.home) (hbelow : ¬land.home <+: location)
    (hdoor : ¬land.IsDoor location) : land.entry location = if land.onWay location = true then some .dir else none := by
  rw [entry, if_neg (mt List.isPrefixOf_iff_prefix.mp hhome), if_neg (mt List.isPrefixOf_iff_prefix.mp hbelow), dif_neg hdoor]

/-- What is in the directory. -/
theorem entry_inner {location : Location} (hne : location ≠ []) :
    land.entry (land.home ++ location) =
      if .below location ∈ land.dirs then some .dir else if location ∈ land.files then some .file else none := by
  have hnot : ¬land.home ++ location <+: land.home := by
    intro hbegins
    have hle := hbegins.length_le
    rw [List.length_append] at hle
    exact hne (List.length_eq_zero_iff.mp (by omega))
  have hdrop : (land.home ++ location).drop land.depth = location := List.drop_left' (List.length_replicate ..)
  rw [entry, if_neg (mt List.isPrefixOf_iff_prefix.mp hnot), if_pos (List.isPrefixOf_iff_prefix.mpr (List.prefix_append _ _)), hdrop]
  simp only [List.contains_iff_mem]

/-- The name that leads to a place outside is a link. -/
theorem entry_door {q : Place} {location : Location} (hq : q ∈ land.dirs) (h : land.Door q location) :
    land.entry location = some (.link (.canonical (land.hub q))) := by
  obtain ⟨place, at', name, hstands, hout, rfl, rfl, hname⟩ := h.short land hq
  have hexists : land.IsDoor (at' ++ [name]) := ⟨_, hq, h⟩
  rw [entry, if_neg (mt List.isPrefixOf_iff_prefix.mp (land.not_prefix_home hname)),
    if_neg (mt List.isPrefixOf_iff_prefix.mp (hstands.not_below land hout hname)), dif_pos hexists]
  obtain ⟨hmem, place', at'', name', hstands', hout', heq, hsame⟩ := hexists.choose_spec
  obtain ⟨rfl, hlast⟩ := List.append_inj' hsame rfl
  obtain rfl := (List.singleton_inj.mp hlast)
  rw [heq, hstands.inj land hstands' hout hout']

/-- On the way to a place outside there are directories. -/
theorem entry_outer {q : Place} {location : Location} (hq : q ∈ land.dirs) (hout : q.isOutside = true)
    (h : location <+: land.hub q) : land.entry location = some .dir := by
  by_cases hhome : location <+: land.home
  · exact land.entry_home hhome
  have hnot : ¬land.home <+: location := by
    intro hbegins
    have hfirst : land.tag 0 ∈ land.hub q := (hbegins.trans h).subset (by
      rw [home, List.mem_replicate]
      exact ⟨land.depth_pos.ne', rfl⟩)
    cases land.tag_inj (List.eq_of_mem_replicate hfirst)
  have hdoor : ¬land.IsDoor location := by
    rintro ⟨q', hq', hdoor⟩
    obtain ⟨place, at', name, -, -, -, rfl, hname⟩ := hdoor.short land hq'
    have hmem : name ∈ land.hub q := h.subset (by simp)
    exact land.ne_tag hname _ (List.eq_of_mem_replicate hmem)
  rw [land.entry_off hhome hnot hdoor, if_pos (land.onWay_iff.mpr ⟨q, hq, hout, h⟩)]

/-- Where a place stands there is a directory. -/
theorem entry_stands {place : Place} {location : Location} (h : land.Stands place location) :
    land.entry location = some .dir := by
  cases h with
  | here => exact land.entry_home (List.prefix_refl _)
  | inner h =>
    rename_i location
    by_cases hnil : location = []
    · rw [hnil, List.append_nil]
      exact land.entry_home (List.prefix_refl _)
    · rw [land.entry_inner hnil, if_pos h]
  | top => exact land.entry_home (List.nil_prefix ..)
  | higher hpos h =>
    refine land.entry_home (List.prefix_replicate_iff.mpr ?_)
    simp
  | outer h hclimbs =>
    refine land.entry_outer h rfl (List.prefix_replicate_iff.mpr ?_)
    simp

/-- One name beyond what stands outside there is nothing, if that is no place, and it is not in the
directory. -/
theorem entry_free {place : Place} {location : Location} {name : String} (h : land.Stands place location)
    (hout : place.isOutside = true) (hname : name.length ≤ land.size) (hnot : place.go (.name name) ∉ land.dirs) :
    land.entry (location ++ [name]) = none ∧ ¬Beneath land.home (location ++ [name]) := by
  have hbelow := h.not_below land hout hname
  have hdoor : ¬land.IsDoor (location ++ [name]) := by
    rintro ⟨q, hq, place', at', name', hstands, hout', rfl, hsame⟩
    obtain ⟨rfl, hlast⟩ := List.append_inj' hsame rfl
    obtain rfl := List.singleton_inj.mp hlast
    rw [← h.inj land hstands hout hout'] at hq
    exact hnot hq
  have hway : ¬land.onWay (location ++ [name]) = true := by
    rw [onWay_iff]
    rintro ⟨q, -, -, hbegins⟩
    have hmem : name ∈ land.hub q := hbegins.subset (by simp)
    exact land.ne_tag hname _ (List.eq_of_mem_replicate hmem)
  refine ⟨?_, fun hbeneath => hbelow hbeneath.1⟩
  rw [land.entry_off (land.not_prefix_home hname) hbelow hdoor, if_neg hway]

/-- What there is is in a directory. -/
theorem entry_above {location : Location} {name : String} (h : land.entry (location ++ [name]) ≠ none) :
    land.entry location = some .dir := by
  by_cases hhome : location ++ [name] <+: land.home
  · exact land.entry_home ((List.prefix_append _ _).trans hhome)
  by_cases hbelow : land.home <+: location ++ [name]
  · rcases List.prefix_concat_iff.mp hbelow with heq | ⟨below, rfl⟩
    · exact absurd (heq ▸ List.prefix_refl _) hhome
    rw [List.append_assoc, land.entry_inner (by simp)] at h
    by_cases hnil : below = []
    · rw [hnil, List.append_nil]
      exact land.entry_home (List.prefix_refl _)
    have hdir : .below below ∈ land.dirs := by
      split_ifs at h with hdir hfile
      · rcases List.eq_nil_or_concat below with rfl | ⟨before, last, rfl⟩
        · exact absurd rfl hnil
        · rw [List.concat_eq_append] at hdir ⊢
          exact land.closed.anchored _ hdir before last [name] (by simp)
      · exact (land.files_above below name hfile).resolve_left hnil
      · exact absurd rfl h
    rw [land.entry_inner hnil, if_pos hdir]
  by_cases hdoor : land.IsDoor (location ++ [name])
  · obtain ⟨q, -, place, at', name', hstands, -, -, hsame⟩ := hdoor
    obtain ⟨rfl, -⟩ := List.append_inj' hsame rfl
    exact land.entry_stands hstands
  rw [land.entry_off hhome hbelow hdoor] at h
  split_ifs at h with hway
  · obtain ⟨q, hq, hout, hbegins⟩ := land.onWay_iff.mp hway
    exact land.entry_outer hq hout ((List.prefix_append _ _).trans hbegins)
  · exact absurd rfl h

/-- The file system, with the directory as its working directory. -/
noncomputable def fs : FileSystem where
  entry := land.entry
  cwd := land.home
  links := land.depth
  root_dir := land.entry_home (List.nil_prefix ..)
  cwd_dir := land.entry_home (List.prefix_refl _)
  above_dir _ _ := land.entry_above

theorem Stands.up {place : Place} {location : Location} (h : land.Stands place location)
    (hroom : place.extent + 1 < land.depth) : land.Stands (place.go .up) location.dropLast := by
  have hhome : land.Stands (.outside (some 1) []) land.home.dropLast := by
    rw [home, List.dropLast_replicate]
    exact .higher Nat.one_pos (by omega)
  cases h with
  | here => exact hhome
  | inner h =>
    rename_i location
    rw [Place.go]
    split_ifs with hnil
    · rw [hnil, List.append_nil]
      exact hhome
    · rw [List.dropLast_append_of_ne_nil hnil]
      rcases List.eq_nil_or_concat location with rfl | ⟨before, last, rfl⟩
      · exact absurd rfl hnil
      rw [List.concat_eq_append, List.dropLast_concat]
      rcases List.eq_nil_or_concat before with rfl | ⟨before, last', rfl⟩
      · rw [List.append_nil]
        exact .here
      · rw [List.concat_eq_append] at h ⊢
        exact .inner (land.closed.anchored _ h before last' [last] (by simp))
  | top => exact .top
  | higher hpos h =>
    rw [List.dropLast_replicate, Nat.sub_sub]
    exact .higher (Nat.succ_pos _) hroom
  | outer h hclimbs =>
    rename_i above since climbs
    have hgo : (Place.outside above (since ++ List.replicate climbs .up)).go .up =
        .outside above (since ++ List.replicate (climbs + 1) .up) := by
      rw [Place.go, if_neg, List.replicate_succ', List.append_assoc]
      rintro ⟨hnil, -⟩
      obtain ⟨before, name, heq⟩ := land.closed.ends _ h
      rw [(List.append_eq_nil_iff.mp hnil).1] at heq
      cases before with
      | below location => cases heq
      | outside above' since' =>
        rw [Place.go_outside_name] at heq
        simp at heq
    rw [hgo, List.dropLast_replicate, Nat.sub_sub]
    refine .outer h ?_
    simp only [Place.extent, List.length_append, List.length_replicate] at hroom
    omega

/-- One name further along the places. -/
theorem Stands.name {place : Place} {location : Location} {name : String} (h : land.Stands place location)
    (hmem : place.go (.name name) ∈ land.dirs) :
    ∃ location', land.Stands (place.go (.name name)) location' ∧ ∀ create links rest,
      land.fs.walk create (links + 1) location (.name name :: rest) = land.fs.walk create (links + 1) location' rest ∨
        land.fs.walk create (links + 1) location (.name name :: rest) = land.fs.walk create links location' rest := by
  by_cases hout : place.isOutside = true
  · have hdoor : land.fs.entry (location ++ [name]) = some (.link (.canonical (land.hub (place.go (.name name))))) :=
      land.entry_door hmem ⟨place, location, name, h, hout, rfl, rfl⟩
    refine ⟨land.hub (place.go (.name name)), ?_, fun create links rest => .inr ?_⟩
    · cases place with
      | below location => cases hout
      | outside above since =>
        rw [Place.go_outside_name] at hmem ⊢
        have hstands := Stands.outer hmem land.depth_pos
        rwa [List.replicate_zero, List.append_nil] at hstands
    · have hgo : (place.go (.name name)).isOutside = true := by
        cases place with
        | below location => cases hout
        | outside above since =>
          rw [Place.go_outside_name]
          rfl
      have hdirs : ∀ l ∈ visited [] ((land.hub (place.go (.name name))).map .name), land.fs.entry l = some .dir := by
        intro l hl
        exact land.entry_outer hmem hgo (prefix_of_visited_names hl)
      have hwalk := @walk_dirs land.fs create links [] _ hdirs rest
      rw [lexical_names] at hwalk
      simp only [walk, walkParts, hdoor]
      exact hwalk
  · obtain ⟨start, rfl⟩ := Place.exists_below (Bool.eq_false_iff.mpr hout)
    have hstart : location = land.home ++ start := by
      cases h with
      | here => rw [List.append_nil]
      | inner h => rfl
    have hdir : land.fs.entry (location ++ [name]) = some .dir := by
      rw [hstart, List.append_assoc]
      exact (land.entry_inner (by simp)).trans (if_pos hmem)
    refine ⟨land.home ++ (start ++ [name]), .inner hmem, fun create links rest => .inl ?_⟩
    rw [walk_name_dir hdir, hstart, List.append_assoc]

/-- **Along the places.** The kernel comes to where the parts lead, from where a place stands. -/
theorem walk_stands {place : Place} {location : Location} {parts : List PathPart} {create : Bool} {links : ℕ}
    (h : land.Stands place location) (hroom : place.extent + parts.length < land.depth)
    (hnamed : ∀ q ∈ place.named parts, q ∈ land.dirs) (hlinks : parts.length ≤ links) :
    ∃ final, land.Stands (place.after parts) final ∧ land.fs.walk create links location parts = some final := by
  induction parts generalizing place location links with
  | nil => exact ⟨location, h, walk_nil⟩
  | cons part rest ih =>
    rw [List.length_cons] at hroom hlinks
    have hextent := place.extent_go part
    cases part with
    | up =>
      obtain ⟨final, hfinal, hwalk⟩ := ih (h.up land (by omega)) (by omega) hnamed (by omega : rest.length ≤ links)
      exact ⟨final, hfinal, (walk_up ..).trans hwalk⟩
    | name name =>
      obtain ⟨location', hstands, hstep⟩ := h.name land (hnamed _ (List.mem_cons_self ..))
      have hrest : ∀ q ∈ (place.go (.name name)).named rest, q ∈ land.dirs := fun q hq => hnamed q (List.mem_cons_of_mem _ hq)
      obtain ⟨links, rfl⟩ : ∃ left, links = left + 1 := ⟨links - 1, by omega⟩
      rcases hstep create links rest with hwalk | hwalk
      · obtain ⟨final, hfinal, hgoes⟩ := ih hstands (by omega) hrest (by omega : rest.length ≤ links + 1)
        exact ⟨final, hfinal, hwalk.trans hgoes⟩
      · obtain ⟨final, hfinal, hgoes⟩ := ih hstands (by omega) hrest (by omega : rest.length ≤ links)
        exact ⟨final, hfinal, hwalk.trans hgoes⟩

theorem base_home (count : ℕ) : Place.base land.home (some count) = List.replicate (land.depth - count) (land.tag 0) := by
  induction count with
  | zero => rfl
  | succ count ih =>
    have hup := Place.base_up land.home (some count)
    rw [ih, List.dropLast_replicate, Nat.sub_sub] at hup
    exact hup

/-- A place whose way is among the places stands somewhere, and the kernel comes to it. -/
theorem exists_stands {place : Place} (h : place.Anchored land.dirs) (hroom : place.extent < land.depth) :
    ∃ final, land.Stands place final ∧ place.locate land.fs land.home = some final := by
  cases place with
  | below location =>
    refine ⟨land.home ++ location, ?_, rfl⟩
    rcases List.eq_nil_or_concat location with rfl | ⟨before, last, rfl⟩
    · rw [List.append_nil]
      exact .here
    · rw [List.concat_eq_append] at h ⊢
      exact .inner (h before last [] rfl)
  | outside above since =>
    obtain ⟨hafter, hnamed, hpos⟩ := h
    have hstart : land.Stands (.outside above []) (Place.base land.home above) := by
      cases above with
      | none => exact .top
      | some count =>
        rw [base_home]
        refine .higher (hpos count rfl) ?_
        simp only [Place.extent, Option.getD_some] at hroom
        omega
    obtain ⟨final, hfinal, hwalk⟩ := @walk_stands land _ _ since false land.depth hstart
      (by simpa [Place.extent] using hroom) hnamed (by simp only [Place.extent] at hroom; omega)
    rw [hafter] at hfinal
    exact ⟨final, hfinal, hwalk⟩

/-- **The places are directories.** -/
theorem isDir_of_mem {q : Place} (h : q ∈ land.dirs) : q.IsDir land.fs land.home := by
  obtain ⟨final, hstands, hat⟩ := land.exists_stands (land.closed.anchored q h) (land.room q h)
  exact ⟨final, hat, land.entry_stands hstands⟩

/-- **Beyond the places.** One name beyond a place outside that is reached along the places there is
nothing, if that is no place, and it is not in the directory. -/
theorem beyond {place : Place} {name : String} (h : place.Anchored land.dirs) (hroom : place.extent < land.depth)
    (hout : place.isOutside = true) (hname : name.length ≤ land.size) (hnot : place.go (.name name) ∉ land.dirs) :
    ∃ location, place.locate land.fs land.home = some location ∧ land.fs.entry location = some .dir ∧
      land.fs.entry (location ++ [name]) = none ∧ ¬Beneath land.home (location ++ [name]) := by
  obtain ⟨final, hstands, hat⟩ := land.exists_stands h hroom
  obtain ⟨hnone, hoff⟩ := land.entry_free hstands hout hname hnot
  exact ⟨final, hat, land.entry_stands hstands, hnone, hoff⟩

/-- There are no links in the directory. -/
theorem plain {location : Location} (h : land.home <+: location) (target : Path) :
    land.fs.entry location ≠ some (.link target) := by
  obtain ⟨below, rfl⟩ := h
  by_cases hnil : below = []
  · rw [hnil, List.append_nil]
    intro hlink
    cases (land.entry_home (List.prefix_refl _)).symm.trans hlink
  · intro hlink
    have hinner := (land.entry_inner hnil).symm.trans hlink
    split_ifs at hinner
    · cases hinner
    · cases hinner

/-- **Only along the places.** If no place is outside, the kernel comes along places and at last to a
place or a file. -/
theorem mem_of_walk {place : Place} {location final : Location} {parts : List PathPart} {links : ℕ}
    (hinside : ∀ q ∈ land.dirs, q.isOutside = false) (h : land.Stands place location)
    (hroom : place.extent + parts.length < land.depth) (hshort : ∀ name, .name name ∈ parts → name.length ≤ land.size)
    (hwalk : land.fs.walk false links location parts = some final) :
    ∀ q ∈ place.named parts, q ∈ land.dirs ∨ ∃ l ∈ land.files, q = .below l := by
  induction parts generalizing place location with
  | nil => simp [Place.named]
  | cons part rest ih =>
    rw [List.length_cons] at hroom
    have hextent := place.extent_go part
    have hlater : ∀ name, .name name ∈ rest → name.length ≤ land.size := fun name hname => hshort name (List.mem_cons_of_mem _ hname)
    cases part with
    | up =>
      rw [walk_up] at hwalk
      exact ih (h.up land (by omega)) (by omega) hlater hwalk
    | name name =>
      have hname := hshort name (List.mem_cons_self ..)
      by_cases hout : place.isOutside = true
      · have hnot : place.go (.name name) ∉ land.dirs := by
          intro hmem
          cases place with
          | below location => cases hout
          | outside above since =>
            rw [Place.go_outside_name] at hmem
            cases hinside _ hmem
        have hnone : land.fs.entry (location ++ [name]) = none := (land.entry_free h hout hname hnot).1
        rw [walk_name_none hnone] at hwalk
        simp at hwalk
      · obtain ⟨start, rfl⟩ := Place.exists_below (Bool.eq_false_iff.mpr hout)
        obtain rfl : location = land.home ++ start := by
          cases h with
          | here => rw [List.append_nil]
          | inner h => rfl
        have hentry : land.fs.entry (land.home ++ start ++ [name]) = _ :=
          (congrArg land.entry (List.append_assoc ..)).trans (land.entry_inner (by simp))
        have hfew : rest.length < land.depth := by omega
        by_cases hmem : .below (start ++ [name]) ∈ land.dirs
        · rw [if_pos hmem] at hentry
          rw [walk_name_dir hentry, List.append_assoc] at hwalk
          exact List.forall_mem_cons.mpr ⟨.inl hmem, ih (.inner hmem) (Nat.lt_of_le_of_lt (Nat.zero_add _).le hfew) hlater hwalk⟩
        · rw [if_neg hmem] at hentry
          split_ifs at hentry with hfile
          · rw [walk_name_file hentry] at hwalk
            split_ifs at hwalk with hlast
            obtain rfl : rest = [] := by simpa using hlast
            exact List.forall_mem_cons.mpr ⟨.inr ⟨_, hfile, rfl⟩, by simp [Place.named]⟩
          · rw [walk_name_none hentry] at hwalk
            simp at hwalk

theorem extent_le_sum {dirs : List Place} {q : Place} (hq : q ∈ dirs) (far : ℕ) :
    q.extent < (dirs.map Place.extent).sum + far + 1 := by
  have hle : q.extent ≤ (dirs.map Place.extent).sum := List.le_sum_of_mem (List.mem_map_of_mem hq)
  omega

theorem length_le_sum {dirs : List Place} {q : Place} (hq : q ∈ dirs) {name : String} (hname : name ∈ q.outerNames) (long : ℕ) :
    name.length ≤ ((dirs.flatMap Place.outerNames).map String.length).sum + long := by
  have hle : name.length ≤ ((dirs.flatMap Place.outerNames).map String.length).sum :=
    List.le_sum_of_mem (List.mem_map_of_mem (List.mem_flatMap.mpr ⟨q, hq, hname⟩))
  omega

/-- The landscape of these places, with so much room beyond them. -/
def ofPlaces (dirs : List Place) (files : List Location) (long far : ℕ) (closed : Place.Closed dirs)
    (files_above : ∀ location name, location ++ [name] ∈ files → location = [] ∨ .below location ∈ dirs) : Landscape where
  dirs := dirs
  files := files
  size := ((dirs.flatMap Place.outerNames).map String.length).sum + long
  depth := (dirs.map Place.extent).sum + far + 1
  closed := closed
  files_above := files_above
  room _ hq := extent_le_sum hq far
  short _ hq _ hname := length_le_sum hq hname long
  depth_pos := Nat.succ_pos _

theorem ofPlaces_room {dirs : List Place} {files : List Location} {long far : ℕ} {closed files_above} :
    far < (ofPlaces dirs files long far closed files_above).depth ∧
      long ≤ (ofPlaces dirs files long far closed files_above).size := by
  simp only [ofPlaces]
  omega

end Landscape

end Apmpr
