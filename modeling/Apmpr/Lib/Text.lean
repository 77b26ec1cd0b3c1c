import Apmpr.Lib.MachineInt
import Mathlib.Data.String.Basic
import Mathlib.Data.List.Basic
import Mathlib.Data.List.Infix

/-!
# Text, paths and addresses

The string operations programs use on names, host names and paths, written over
the characters of a string so that they compute: splitting at a separator,
prefixes and suffixes, ASCII case, the components of a Unix path, and the
textual forms of IP addresses.

A byte-wise test that only ASCII bytes can pass is stated on characters: a
character outside ASCII is encoded by bytes that fail it.
-/

namespace Apmpr

/-! ### Strings -/

namespace Text

/-- Whether a string begins with another. -/
def startsWith (s pre : String) : Bool := pre.toList.isPrefixOf s.toList

/-- Whether a string ends with another. -/
def endsWith (s suf : String) : Bool := suf.toList.isSuffixOf s.toList

/-- What is left of a string after a beginning it must have. -/
def afterStart (pre s : String) : Option String :=
  if startsWith s pre then some (String.ofList (s.toList.drop pre.toList.length)) else none

/-- The characters before the first separator, and those after it. -/
def splitOnceChars (c : Char) : List Char → Option (List Char × List Char)
  | [] => none
  | a :: rest => if a = c then some ([], rest) else (splitOnceChars c rest).map fun p => (a :: p.1, p.2)

/-- Split at the first separator. -/
def splitOnce (c : Char) (s : String) : Option (String × String) :=
  (splitOnceChars c s.toList).map fun p => (String.ofList p.1, String.ofList p.2)

/-- The text before the last occurrence of a character, and the text after it. -/
def rsplitOnce (c : Char) (s : String) : Option (String × String) :=
  (splitOnceChars c s.toList.reverse).map fun (after, before) =>
    (String.ofList before.reverse, String.ofList after.reverse)

/-- Split at every separator; there is always a first part. -/
def splitChars (c : Char) : List Char → List (List Char)
  | [] => [[]]
  | a :: rest =>
    if a = c then [] :: splitChars c rest
    else match splitChars c rest with
      | [] => [[a]]
      | part :: parts => (a :: part) :: parts

/-- Split at every separator. -/
def split (c : Char) (s : String) : List String := (splitChars c s.toList).map String.ofList

/-- Whether a character is an ASCII lower-case letter. -/
def isAsciiLower (c : Char) : Bool := 'a' ≤ c && c ≤ 'z'

/-- Whether a character is an ASCII upper-case letter. -/
def isAsciiUpper (c : Char) : Bool := 'A' ≤ c && c ≤ 'Z'

/-- Whether a character is an ASCII digit. -/
def isAsciiDigit (c : Char) : Bool := '0' ≤ c && c ≤ '9'

/-- Whether a character is an ASCII letter or digit. -/
def isAsciiAlphanumeric (c : Char) : Bool := isAsciiLower c || isAsciiUpper c || isAsciiDigit c

/-- The lower-case form of an ASCII letter; other characters stay. -/
def asciiLowerChar (c : Char) : Char := if isAsciiUpper c then Char.ofNat (c.toNat + 32) else c

/-- The string with its ASCII letters in lower case. -/
def toAsciiLowercase (s : String) : String := String.ofList (s.toList.map asciiLowerChar)

/-- The string without the separators it ends with. -/
def trimEndMatches (c : Char) (s : String) : String :=
  String.ofList (s.toList.reverse.dropWhile (· = c)).reverse

/-- Whether a string contains another. -/
def containsChars (pat : List Char) : List Char → Bool
  | [] => pat.isEmpty
  | a :: rest => pat.isPrefixOf (a :: rest) || containsChars pat rest

/-- Whether a string contains another. -/
def contains (s pat : String) : Bool := containsChars pat.toList s.toList

/-- Replace a character by another. -/
def replaceChar (a b : Char) (s : String) : String :=
  String.ofList (s.toList.map fun c => if c = a then b else c)

/-- White space, of the kinds a name can hold. -/
def isWhitespace (c : Char) : Bool :=
  c = ' ' || ('\t' ≤ c && c ≤ '\r') || c = Char.ofNat 0x85 || c = Char.ofNat 0xA0 ||
    c = Char.ofNat 0x1680 || (Char.ofNat 0x2000 ≤ c && c ≤ Char.ofNat 0x200A) ||
    c = Char.ofNat 0x2028 || c = Char.ofNat 0x2029 || c = Char.ofNat 0x202F ||
    c = Char.ofNat 0x205F || c = Char.ofNat 0x3000

/-- Whether nothing but white space is in a string. -/
def isBlank (s : String) : Bool := s.toList.all isWhitespace

theorem splitChars_ne_nil (c : Char) (l : List Char) : splitChars c l ≠ [] := by
  cases l with
  | nil => simp [splitChars]
  | cons a l =>
    rw [splitChars]
    split_ifs
    · simp
    · split <;> simp

/-- Text without a separator is one part. -/
theorem splitChars_of_not_mem {c : Char} {l : List Char} (h : c ∉ l) : splitChars c l = [l] := by
  induction l with
  | nil => rfl
  | cons a l ih =>
    have ha : a ≠ c := fun ha => h (by rw [ha]; exact List.mem_cons_self ..)
    rw [splitChars, if_neg ha, ih fun hl => h (List.mem_cons_of_mem _ hl)]

/-- Text without a separator belongs to the first part of what follows it. -/
theorem splitChars_append {c : Char} {l r first : List Char} {parts : List (List Char)} (h : c ∉ l)
    (hr : splitChars c r = first :: parts) : splitChars c (l ++ r) = (l ++ first) :: parts := by
  induction l with
  | nil => exact hr
  | cons a l ih =>
    have ha : a ≠ c := fun ha => h (by rw [ha]; exact List.mem_cons_self ..)
    rw [List.cons_append, splitChars, if_neg ha, ih fun hl => h (List.mem_cons_of_mem _ hl)]
    rfl

/-- A part has only characters of the text. -/
theorem mem_of_mem_splitChars {c x : Char} {l part : List Char} (hpart : part ∈ splitChars c l) (hx : x ∈ part) :
    x ∈ l := by
  induction l generalizing part with
  | nil =>
    obtain rfl := List.mem_singleton.mp hpart
    cases hx
  | cons a l ih =>
    rw [splitChars] at hpart
    split_ifs at hpart
    · rcases List.mem_cons.mp hpart with rfl | hpart
      · cases hx
      · exact List.mem_cons_of_mem _ (ih hpart hx)
    · cases hsplit : splitChars c l with
      | nil => exact absurd hsplit (splitChars_ne_nil c l)
      | cons first parts =>
        rw [hsplit] at hpart ih
        rcases List.mem_cons.mp hpart with rfl | hpart
        · rcases List.mem_cons.mp hx with rfl | hx
          · exact List.mem_cons_self ..
          · exact List.mem_cons_of_mem _ (ih (List.mem_cons_self ..) hx)
        · exact List.mem_cons_of_mem _ (ih (List.mem_cons_of_mem _ hpart) hx)

/-- Text on both sides of a separator is split on its own. -/
theorem splitChars_append_cons (c : Char) (l r : List Char) :
    splitChars c (l ++ c :: r) = splitChars c l ++ splitChars c r := by
  induction l with
  | nil => simp [splitChars]
  | cons a l ih =>
    rw [List.cons_append, splitChars, splitChars, ih]
    split_ifs
    · rfl
    · cases h : splitChars c l with
      | nil => exact absurd h (splitChars_ne_nil c l)
      | cons part parts => rfl

/-- What has no separator stays with the last part. -/
theorem splitChars_append_last {c : Char} {r : List Char} (h : c ∉ r) (l : List Char) :
    ∃ before last, splitChars c (l ++ r) = before ++ [last ++ r] := by
  induction l with
  | nil => exact ⟨[], [], splitChars_of_not_mem h⟩
  | cons a l ih =>
    obtain ⟨before, last, hsplit⟩ := ih
    rw [List.cons_append, splitChars, hsplit]
    split_ifs
    · exact ⟨[] :: before, last, rfl⟩
    · cases before with
      | nil => exact ⟨[], a :: last, rfl⟩
      | cons part before => exact ⟨(a :: part) :: before, last, rfl⟩

theorem splitOnceChars_append {c : Char} {before after : List Char} (h : c ∉ before) :
    splitOnceChars c (before ++ c :: after) = some (before, after) := by
  induction before with
  | nil => simp [splitOnceChars]
  | cons a rest ih =>
    obtain ⟨ha, hrest⟩ := not_or.mp fun hmem => h (List.mem_cons.mpr hmem)
    rw [List.cons_append, splitOnceChars, if_neg fun heq => ha heq.symm, ih hrest]
    rfl

/-- Text is split at a character that does not come again. -/
theorem rsplitOnce_of_toList {c : Char} {s before after : String} (hs : s.toList = before.toList ++ c :: after.toList)
    (h : c ∉ after.toList) : rsplitOnce c s = some (before, after) := by
  have hreverse : s.toList.reverse = after.toList.reverse ++ c :: before.toList.reverse := by
    rw [hs]
    simp
  rw [rsplitOnce, hreverse, splitOnceChars_append (by simpa using h)]
  simp

theorem splitOnceChars_head {c : Char} {text before after : List Char} (h : splitOnceChars c text = some (before, after))
    {first : Char} (hfirst : text.head? = some first) (hne : first ≠ c) : before.head? = some first := by
  cases text with
  | nil => cases hfirst
  | cons a rest =>
    obtain rfl := Option.some.inj hfirst
    rw [splitOnceChars, if_neg hne, Option.map_eq_some_iff] at h
    obtain ⟨p, -, heq⟩ := h
    obtain ⟨rfl, -⟩ := Prod.mk.inj heq
    rfl

theorem splitOnceChars_of_eq_some {c : Char} {text before after : List Char}
    (h : splitOnceChars c text = some (before, after)) : c ∉ before ∧ text = before ++ c :: after := by
  induction text generalizing before with
  | nil => cases h
  | cons a rest ih =>
    rw [splitOnceChars] at h
    split_ifs at h with hsep
    · obtain ⟨rfl, rfl⟩ := Prod.mk.inj (Option.some.inj h)
      exact ⟨List.not_mem_nil, by rw [hsep, List.nil_append]⟩
    · obtain ⟨⟨before', after'⟩, hrest, heq⟩ := Option.map_eq_some_iff.mp h
      obtain ⟨rfl, rfl⟩ := Prod.mk.inj heq
      obtain ⟨hnot, rfl⟩ := ih hrest
      refine ⟨fun hmem => ?_, rfl⟩
      rcases List.mem_cons.mp hmem with rfl | hmem
      · exact hsep rfl
      · exact hnot hmem

/-- What is split at a separator has none before it. -/
theorem not_mem_of_splitOnce {c : Char} {text before after : String} (h : splitOnce c text = some (before, after)) :
    c ∉ before.toList := by
  obtain ⟨⟨chars, rest⟩, hchars, heq⟩ := Option.map_eq_some_iff.mp h
  obtain ⟨rfl, -⟩ := Prod.mk.inj heq
  rw [String.toList_ofList]
  exact (splitOnceChars_of_eq_some hchars).1

/-- Text joined by a slash is split there again. -/
theorem splitOnce_slash {before after : String} (h : '/' ∉ before.toList) :
    splitOnce '/' (before ++ "/" ++ after) = some (before, after) := by
  rw [splitOnce, show (before ++ "/" ++ after).toList = before.toList ++ '/' :: after.toList by simp,
    splitOnceChars_append h]
  simp

theorem contains_slash (before after : String) : contains (before ++ "/" ++ after) "/" = true := by
  have hchars : ∀ l r : List Char, containsChars ['/'] (l ++ '/' :: r) = true := by
    intro l r
    induction l with
    | nil => simp [containsChars]
    | cons a rest ih => simp [containsChars, ih]
  rw [contains, show (before ++ "/" ++ after).toList = before.toList ++ '/' :: after.toList by simp]
  exact hchars _ _

theorem afterStart_append (start rest : String) : afterStart start (start ++ rest) = some rest := by
  have hstart : startsWith (start ++ rest) start = true := by
    rw [startsWith, String.toList_append]
    exact List.isPrefixOf_iff_prefix.mpr (List.prefix_append _ _)
  rw [afterStart, if_pos hstart, String.toList_append, List.drop_left, String.ofList_toList]

end Text

/-! ### Paths -/

/-- A Unix path, as it is written. -/
structure PathBuf where
  /-- The text. -/
  text : String
  deriving DecidableEq, Repr

namespace PathBuf

/-- A component of a path. -/
inductive Component where
  /-- The leading `/`. -/
  | rootDir
  /-- A leading `.`. -/
  | curDir
  /-- `..`. -/
  | parentDir
  /-- A name. -/
  | normal (name : String)
  deriving DecidableEq, Repr

/-- The component a part between separators stands for; empty parts and inner dots
stand for none. -/
def component (part : String) : Option Component :=
  if part = "" ∨ part = "." then none
  else if part = ".." then some .parentDir
  else some (.normal part)

/-- The components of a path. -/
def components (p : PathBuf) : List Component :=
  let parts := Text.split '/' p.text
  let rest := parts.filterMap component
  if Text.startsWith p.text "/" then .rootDir :: rest
  else if parts.head? = some "." then .curDir :: rest
  else rest

/-- Paths are compared by their components. -/
instance : BEq PathBuf := ⟨fun p q => p.components = q.components⟩

theorem beq_iff (p q : PathBuf) : (p == q) = true ↔ p.components = q.components := by
  simp [BEq.beq]

/-- Whether a path has no text. -/
def isEmpty (p : PathBuf) : Bool := p.text = ""

/-- Whether a path starts at the root. -/
def isAbsolute (p : PathBuf) : Bool := Text.startsWith p.text "/"

/-- A path seen from another one: an absolute path replaces its base. -/
def join (base p : PathBuf) : PathBuf :=
  if p.isAbsolute then p
  else if base.text = "" ∨ Text.endsWith base.text "/" then ⟨base.text ++ p.text⟩
  else ⟨base.text ++ "/" ++ p.text⟩

/-- Whether the components of a path begin with those of another. -/
def startsWith (p base : PathBuf) : Bool := base.components.isPrefixOf p.components

/-- The text of a component. -/
def Component.text : Component → String
  | .rootDir => "/"
  | .curDir => "."
  | .parentDir => ".."
  | .normal name => name

/-- The path its components spell. -/
def ofComponents (components : List Component) : PathBuf :=
  match components with
  | .rootDir :: rest => ⟨"/" ++ "/".intercalate (rest.map Component.text)⟩
  | components => ⟨"/".intercalate (components.map Component.text)⟩

/-- The path without its last component; the root and the empty path have none. -/
def parent (p : PathBuf) : Option PathBuf :=
  match p.components with
  | [] => none
  | [.rootDir] => none
  | components => some (ofComponents components.dropLast)

/-- The name a path ends with. -/
def fileName (p : PathBuf) : Option String :=
  match p.components.getLast? with
  | some (.normal name) => some name
  | _ => none

example : (parent ⟨"/srv/shop/apmpr.yaml"⟩) = some ⟨"/srv/shop"⟩ := by decide

/-- A path and the paths above it, at most so many. -/
def ancestorsFrom : ℕ → PathBuf → List PathBuf
  | 0, p => [p]
  | n + 1, p => p :: (p.parent.toList.flatMap (ancestorsFrom n))

/-- A path and the paths above it. -/
def ancestors (p : PathBuf) : List PathBuf := ancestorsFrom p.components.length p

theorem isAbsolute_iff (p : PathBuf) : p.isAbsolute = true ↔ ∃ rest, p.text.toList = '/' :: rest := by
  have hslash : "/".toList = ['/'] := rfl
  rw [isAbsolute, Text.startsWith, hslash]
  cases p.text.toList with
  | nil => simp
  | cons c rest =>
    rw [List.isPrefixOf_cons_cons, List.isPrefixOf_nil_left, Bool.and_true, beq_iff_eq]
    constructor
    · rintro rfl
      exact ⟨rest, rfl⟩
    · rintro ⟨rest', h⟩
      exact (List.cons.inj h).1.symm

theorem components_of_isAbsolute {p : PathBuf} (h : p.isAbsolute = true) :
    p.components = .rootDir :: (Text.split '/' p.text).filterMap component := by
  rw [isAbsolute] at h
  rw [components, if_pos h]

theorem isAbsolute_ofComponents (rest : List Component) : (ofComponents (.rootDir :: rest)).isAbsolute = true := by
  rw [isAbsolute_iff]
  exact ⟨("/".intercalate (rest.map Component.text)).toList, by rw [ofComponents, String.toList_append]; rfl⟩

theorem isAbsolute_parent {p q : PathBuf} (h : p.isAbsolute = true) (hq : p.parent = some q) :
    q.isAbsolute = true := by
  rw [parent, components_of_isAbsolute h] at hq
  cases hrest : (Text.split '/' p.text).filterMap component with
  | nil => simp [hrest] at hq
  | cons c rest =>
    rw [hrest] at hq
    cases hq
    exact isAbsolute_ofComponents _

theorem isAbsolute_of_mem_ancestorsFrom {n : ℕ} {p q : PathBuf} (h : p.isAbsolute = true)
    (hq : q ∈ ancestorsFrom n p) : q.isAbsolute = true := by
  induction n generalizing p with
  | zero =>
    rw [List.mem_singleton.mp hq]
    exact h
  | succ n ih =>
    rcases List.mem_cons.mp hq with rfl | hq
    · exact h
    · obtain ⟨r, hr, hq⟩ := List.mem_flatMap.mp hq
      exact ih (isAbsolute_parent h (by simpa using hr)) hq

/-- What is below an absolute path is absolute. -/
theorem isAbsolute_join {base : PathBuf} (h : base.isAbsolute = true) (p : PathBuf) :
    (base.join p).isAbsolute = true := by
  obtain ⟨rest, hrest⟩ := (isAbsolute_iff base).mp h
  rw [join]
  split_ifs with hp hend
  · exact hp
  · exact (isAbsolute_iff _).mpr ⟨rest ++ p.text.toList, by simp [hrest]⟩
  · exact (isAbsolute_iff _).mpr ⟨rest ++ "/".toList ++ p.text.toList, by simp [hrest]⟩

/-- Joining a relative path puts it after a separator. -/
theorem join_toList {base p : PathBuf} (hbase : base.text ≠ "") (hp : p.isAbsolute = false) :
    ∃ l, (base.join p).text.toList = l ++ '/' :: p.text.toList := by
  rw [join, if_neg (by simp [hp])]
  split_ifs with hend
  · rcases hend with hempty | hend
    · exact absurd hempty hbase
    · obtain ⟨l, hl⟩ := List.isSuffixOf_iff_suffix.mp hend
      exact ⟨l, by rw [String.toList_append, ← hl, List.append_assoc]; rfl⟩
  · exact ⟨base.text.toList, by simp [String.toList_append]⟩

/-- A name that is a part of a path's text is one of its components. -/
theorem normal_mem_components {p : PathBuf} {name : String} (h : name ∈ Text.split '/' p.text)
    (hname : component name = some (.normal name)) : .normal name ∈ p.components := by
  have hmem : Component.normal name ∈ (Text.split '/' p.text).filterMap component :=
    List.mem_filterMap.mpr ⟨name, h, hname⟩
  rw [components]
  split_ifs
  · exact List.mem_cons_of_mem _ hmem
  · exact List.mem_cons_of_mem _ hmem
  · exact hmem

/-- A path has a name among its components exactly if the name is a part of its text. -/
theorem normal_mem_components_iff {p : PathBuf} {name : String} (hname : component name = some (.normal name)) :
    .normal name ∈ p.components ↔ name ∈ Text.split '/' p.text := by
  refine ⟨fun h => ?_, fun h => normal_mem_components h hname⟩
  have hmem : Component.normal name ∈ (Text.split '/' p.text).filterMap component := by
    rw [components] at h
    split_ifs at h
    · exact (List.mem_cons.mp h).resolve_left (by simp)
    · exact (List.mem_cons.mp h).resolve_left (by simp)
    · exact h
  obtain ⟨part, hpart, hcomponent⟩ := List.mem_filterMap.mp hmem
  rw [component] at hcomponent
  split_ifs at hcomponent
  · cases hcomponent
  · cases hcomponent
    exact hpart

/-- A name joined to a path comes after its components. -/
theorem components_join_name {base : PathBuf} {name : String} (hbase : base.text ≠ "")
    (hend : Text.endsWith base.text "/" = false) (hslash : '/' ∉ name.toList)
    (hname : component name = some (.normal name)) :
    (base.join ⟨name⟩).components = base.components ++ [.normal name] := by
  have hrel : isAbsolute ⟨name⟩ = false := by
    rw [Bool.eq_false_iff]
    intro habs
    obtain ⟨rest, hrest⟩ := (isAbsolute_iff _).mp habs
    exact hslash (hrest ▸ List.mem_cons_self ..)
  have hjoin : base.join ⟨name⟩ = ⟨base.text ++ "/" ++ name⟩ := by
    rw [join, if_neg (by simp [hrel]), if_neg (by simp [hbase, hend])]
  have hsplit : Text.split '/' (base.text ++ "/" ++ name) = Text.split '/' base.text ++ [name] := by
    have hlist : (base.text ++ "/" ++ name).toList = base.text.toList ++ '/' :: name.toList := by simp
    rw [Text.split, hlist, Text.splitChars_append_cons, Text.splitChars_of_not_mem hslash, List.map_append,
      List.map_singleton, String.ofList_toList, Text.split]
  have hstart : Text.startsWith (base.text ++ "/" ++ name) "/" = Text.startsWith base.text "/" := by
    obtain ⟨a, l, hl⟩ := List.exists_cons_of_ne_nil (fun h => hbase (String.toList_eq_nil_iff.mp h))
    simp [Text.startsWith, String.toList_append, hl, List.isPrefixOf]
  have hhead : (Text.split '/' base.text ++ [name]).head? = (Text.split '/' base.text).head? := by
    refine List.head?_append_of_ne_nil _ ?_
    rw [Text.split]
    simpa using Text.splitChars_ne_nil '/' base.text.toList
  rw [hjoin, components, components]
  simp only [hsplit, hstart, hhead, List.filterMap_append, List.filterMap_cons, List.filterMap_nil, hname]
  split_ifs <;> rfl

end PathBuf

/-! ### Addresses -/

/-- An IP address. -/
inductive IpAddr where
  /-- Four octets. -/
  | v4 (a b c d : Fin 256)
  /-- Eight groups. -/
  | v6 (groups : Vector (Fin 65536) 8)
  deriving DecidableEq, Repr

namespace IpAddr

/-- `127.0.0.1`. -/
def localhost : IpAddr := .v4 127 0 0 1

/-- `127.0.0.0/8`, and `::1`. -/
def isLoopback : IpAddr → Bool
  | .v4 a _ _ _ => a = 127
  | .v6 groups => groups = #v[0, 0, 0, 0, 0, 0, 0, 1]

/-- The value of a digit in a base up to sixteen. -/
def digitValue (base : ℕ) (c : Char) : Option ℕ :=
  let value :=
    if Text.isAsciiDigit c then c.toNat - 48
    else if 'a' ≤ c && c ≤ 'f' then c.toNat - 87
    else if 'A' ≤ c && c ≤ 'F' then c.toNat - 55
    else 16
  if value < base then some value else none

/-- The digits a number begins with, and what follows them. -/
def takeDigits (base : ℕ) : List Char → List ℕ × List Char
  | [] => ([], [])
  | c :: rest =>
    match digitValue base c with
    | some d => let r := takeDigits base rest; (d :: r.1, r.2)
    | none => ([], c :: rest)

/-- Read a number of at most `maxDigits` digits, below `bound`; without `zeroPrefix` no
number but `0` may begin with a zero. -/
def readNumber (base maxDigits bound : ℕ) (zeroPrefix : Bool) (s : List Char) :
    Option (ℕ × List Char) :=
  let r := takeDigits base s
  let value := r.1.foldl (fun acc d => acc * base + d) 0
  if r.1.isEmpty || decide (maxDigits < r.1.length) || decide (bound ≤ value) then none
  else if !zeroPrefix && r.1.head? = some 0 && decide (1 < r.1.length) then none
  else some (value, r.2)

/-- Read one character. -/
def readChar (c : Char) : List Char → Option (List Char)
  | [] => none
  | a :: rest => if a = c then some rest else none

/-- Read an item that must follow a separator unless it is the first one. -/
def readSeparated {α : Type} (c : Char) (index : ℕ) (read : List Char → Option (α × List Char))
    (s : List Char) : Option (α × List Char) :=
  if index = 0 then read s else (readChar c s).bind read

/-- Read four octets. -/
def readV4 (s : List Char) : Option ((Fin 256 × Fin 256 × Fin 256 × Fin 256) × List Char) := do
  let (a, s) ← readNumber 10 3 256 false s
  let (b, s) ← (readChar '.' s).bind (readNumber 10 3 256 false)
  let (c, s) ← (readChar '.' s).bind (readNumber 10 3 256 false)
  let (d, s) ← (readChar '.' s).bind (readNumber 10 3 256 false)
  return ((Fin.ofNat 256 a, Fin.ofNat 256 b, Fin.ofNat 256 c, Fin.ofNat 256 d), s)

/-- Read up to `fuel` groups, the last two perhaps as four octets: the groups, whether
they ended in octets, and what follows. -/
def readGroups : ℕ → ℕ → List Char → List (Fin 65536) × Bool × List Char
  | 0, _, s => ([], false, s)
  | fuel + 1, index, s =>
    match (if 0 < fuel then readSeparated ':' index readV4 s else none) with
    | some ((a, b, c, d), rest) =>
      ([Fin.ofNat 65536 (a * 256 + b), Fin.ofNat 65536 (c * 256 + d)], true, rest)
    | none =>
      match readSeparated ':' index (readNumber 16 4 65536 true) s with
      | some (g, rest) =>
        let r := readGroups fuel (index + 1) rest
        (Fin.ofNat 65536 g :: r.1, r.2)
      | none => ([], false, s)

/-- The address of eight groups. -/
def ofGroups (groups : List (Fin 65536)) : IpAddr :=
  .v6 (Vector.ofFn fun i => groups.getD i 0)

/-- Read eight groups, or fewer with one `::` standing for the missing ones. -/
def readV6 (s : List Char) : Option (IpAddr × List Char) :=
  match readGroups 8 0 s with
  | (front, octets, rest) =>
    if front.length = 8 then some (ofGroups front, rest)
    else if octets then none
    else
      match (readChar ':' rest).bind (readChar ':') with
      | none => none
      | some rest =>
        match readGroups (7 - front.length) 0 rest with
        | (back, _, rest) =>
          some (ofGroups (front ++ List.replicate (8 - front.length - back.length) 0 ++ back), rest)

/-- Read an address of either kind; eight groups are tried only where four octets fail. -/
def readIp (s : List Char) : Option (IpAddr × List Char) :=
  match readV4 s with
  | some ((a, b, c, d), rest) => some (.v4 a b c d, rest)
  | none => readV6 s

/-- The address a text stands for, if the whole text is one. -/
def parse (s : String) : Option IpAddr :=
  match readIp s.toList with
  | some (address, []) => some address
  | _ => none

/-- The longest run of zero groups: where it starts and how long it is, the first of equals. -/
def zeroRun (groups : List (Fin 65536)) : ℕ × ℕ :=
  let runs := groups.zipIdx.map fun (_, i) => (i, ((groups.drop i).takeWhile (· = 0)).length)
  runs.foldl (fun best run => if best.2 < run.2 then run else best) (0, 0)

/-- Groups as they are printed, in hexadecimal between colons. -/
def displayGroups (groups : List (Fin 65536)) : String :=
  ":".intercalate (groups.map fun g => String.ofList (Nat.toDigits 16 g))

/-- The text of an address; the longest run of two or more zero groups is `::`. -/
def display : IpAddr → String
  | .v4 a b c d => s!"{a}.{b}.{c}.{d}"
  | .v6 groups =>
    match groups.toList with
    | [0, 0, 0, 0, 0, 65535, g, h] => s!"::ffff:{g / 256}.{g % 256}.{h / 256}.{h % 256}"
    | groups =>
      match zeroRun groups with
      | (start, length) =>
        if 1 < length then
          displayGroups (groups.take start) ++ "::" ++ displayGroups (groups.drop (start + length))
        else displayGroups groups

example : parse "127.0.0.1" = some localhost := by decide

example : (parse "::1").map isLoopback = some true := by decide

example : parse "127.0.0.01" = none := by decide

example : (parse "fd7a:0:0:1::2").map display = some "fd7a:0:0:1::2" := by decide

end IpAddr

end Apmpr
