import Mathlib.Data.List.Basic
import Mathlib.Tactic

/-!
# Words of a shell command

How a shell reads a simple command as its words. Blanks separate words, single quotes keep
every character, double quotes and backslashes keep most of them. A command in which a
character outside of quotes would do something else (an operator, an expansion, a pattern, a
comment, an assignment before the name of the command) has no words here, so `words` says what
the shell runs and never more.

`Spells text word` is the property of a piece of a command that the rules are about: where
it stands, the shell reads the word. Pieces put side by side spell their words one after the
other, and a quoted text spells itself.
-/

namespace Apmpr.Shell

/-- What the next character is read as. -/
inductive Mode where
  /-- Outside of quotes. -/
  | plain
  /-- After a backslash. -/
  | escaped
  /-- Between single quotes. -/
  | single
  /-- Between double quotes. -/
  | double
  /-- Between double quotes, after a backslash. -/
  | doubleEscaped
  deriving DecidableEq

/-- The words that are read, and the one that is being read. -/
structure Reader where
  mode : Mode
  words : List (List Char)
  word : Option (List Char)
  deriving DecidableEq

def singleQuote : Char := Char.ofNat 39

def doubleQuote : Char := Char.ofNat 34

def backslash : Char := Char.ofNat 92

/-- The blanks between words. -/
def blank (c : Char) : Bool := c = ' ' || c = '\t'

/-- The characters with a meaning of their own outside of quotes. -/
def special (c : Char) : Bool :=
  "|&;<>()$*?[]#~%!^\n\r\x7b\x7d".toList.elem c || c = Char.ofNat 96

/-- The characters that a backslash keeps between double quotes. -/
def keptByBackslash (c : Char) : Bool := c = '$' || c = Char.ofNat 96 || c = doubleQuote || c = backslash

/-- The word that is being read grows. -/
def Reader.push (r : Reader) (mode : Mode) (chars : List Char) : Reader :=
  { r with mode, word := some (r.word.getD [] ++ chars) }

/-- The word that is being read ends. -/
def Reader.close (r : Reader) : Reader := ⟨.plain, r.words ++ r.word.toList, none⟩

/-- One character of a command. -/
def step (r : Reader) (c : Char) : Option Reader :=
  match r.mode with
  | .plain =>
    if blank c then some r.close
    else if c = singleQuote then some (r.push .single [])
    else if c = doubleQuote then some (r.push .double [])
    else if c = backslash then some (r.push .escaped [])
    else if special c then none
    -- before the name of a command this is an assignment
    else if c = '=' && r.words.isEmpty then none
    else some (r.push .plain [c])
  | .escaped => if c = '\n' then none else some (r.push .plain [c])
  | .single => if c = singleQuote then some (r.push .plain []) else some (r.push .single [c])
  | .double =>
    if c = doubleQuote then some (r.push .plain [])
    else if c = backslash then some (r.push .doubleEscaped [])
    else if c = '$' || c = Char.ofNat 96 || c = '!' then none
    else some (r.push .double [c])
  | .doubleEscaped =>
    if c = '\n' then none
    else if keptByBackslash c then some (r.push .double [c])
    else some (r.push .double [backslash, c])

/-- The characters of a command, one after the other. -/
def read (r : Reader) (text : List Char) : Option Reader := text.foldlM step r

/-- The words of a command. -/
def words (command : String) : Option (List String) :=
  (read ⟨.plain, [], none⟩ command.toList).bind fun r =>
    if r.mode = .plain then some (r.close.words.map String.ofList) else none

@[simp] theorem read_nil (r : Reader) : read r [] = some r := rfl

@[simp] theorem read_cons (r : Reader) (c : Char) (text : List Char) :
    read r (c :: text) = (step r c).bind (read · text) := rfl

theorem read_append (r : Reader) (text rest : List Char) :
    read r (text ++ rest) = (read r text).bind (read · rest) :=
  List.foldlM_append

@[simp] theorem push_push (r : Reader) (mode mode' : Mode) (chars more : List Char) :
    (r.push mode chars).push mode' more = r.push mode' (chars ++ more) := by
  simp [Reader.push]

/-! ### Pieces -/

/-- After the name of a command, the shell reads `word` from `text`. -/
def Spells (text word : List Char) : Prop :=
  ∀ r : Reader, r.mode = .plain → r.words ≠ [] → read r text = some (r.push .plain word)

/-- Pieces side by side are one word. -/
theorem Spells.append {text word rest more : List Char} (h : Spells text word) (hrest : Spells rest more) :
    Spells (text ++ rest) (word ++ more) := by
  intro r hmode hwords
  rw [read_append, h r hmode hwords, Option.bind_some, hrest (r.push .plain word) rfl hwords, push_push]

/-- A character that stands for itself. -/
def ordinary (c : Char) : Bool := !(blank c || special c || c = singleQuote || c = doubleQuote || c = backslash)

theorem step_ordinary {r : Reader} {c : Char} (hc : ordinary c = true) (hmode : r.mode = .plain)
    (hassign : c = '=' → r.words ≠ []) : step r c = some (r.push .plain [c]) := by
  simp only [ordinary, Bool.not_eq_true', Bool.or_eq_false_iff, decide_eq_false_iff_not] at hc
  obtain ⟨⟨⟨⟨hblank, hspecial⟩, hsingle⟩, hdouble⟩, hback⟩ := hc
  have hequals : (c = '=' && r.words.isEmpty) = false := by
    by_cases h : c = '='
    · simpa [h] using hassign h
    · simp [h]
  simp [step, hmode, hblank, hspecial, hsingle, hdouble, hback, hequals]

theorem read_ordinary {r : Reader} {first : Char} {text : List Char} (htext : ∀ c ∈ first :: text, ordinary c = true)
    (hmode : r.mode = .plain) (hassign : '=' ∈ first :: text → r.words ≠ []) :
    read r (first :: text) = some (r.push .plain (first :: text)) := by
  induction text generalizing r first with
  | nil =>
    rw [read_cons, step_ordinary (htext first (by simp)) hmode fun h => hassign (by simp [h])]
    rfl
  | cons c text ih =>
    rw [read_cons, step_ordinary (htext first (by simp)) hmode fun h => hassign (by simp [h]), Option.bind_some,
      @ih (r.push .plain [first]) c (fun d hd => htext d (List.mem_cons_of_mem _ hd)) rfl fun h =>
        hassign (List.mem_cons_of_mem _ h), push_push]
    rfl

/-- A text of ordinary characters spells itself. -/
theorem spells_ordinary {text : List Char} (hne : text ≠ []) (htext : text.all ordinary = true) : Spells text text := by
  intro r hmode hwords
  obtain ⟨first, text, rfl⟩ := List.exists_cons_of_ne_nil hne
  exact read_ordinary (List.all_eq_true.mp htext) hmode fun _ => hwords

/-! ### Quotes -/

/-- A text in single quotes, with another spelling for those inside of it. -/
def quote (escape text : List Char) : List Char :=
  singleQuote :: (text.flatMap fun c => if c = singleQuote then escape else [c]) ++ [singleQuote]

/-- Between single quotes the spelling is read as a single quote, and the quotes go on. -/
def Escapes (escape : List Char) : Prop :=
  ∀ r : Reader, r.mode = .single → read r escape = some (r.push .single [singleQuote])

theorem read_single {escape : List Char} (hescape : Escapes escape) {r : Reader} (hmode : r.mode = .single)
    (hword : r.word ≠ none) (text : List Char) :
    read r (text.flatMap fun c => if c = singleQuote then escape else [c]) = some (r.push .single text) := by
  induction text generalizing r with
  | nil =>
    obtain ⟨mode, ws, word⟩ := r
    obtain ⟨word, rfl⟩ := Option.ne_none_iff_exists'.mp hword
    simp_all [Reader.push]
  | cons c text ih =>
    have hfirst : read r (if c = singleQuote then escape else [c]) = some (r.push .single [c]) := by
      by_cases hc : c = singleQuote
      · rw [if_pos hc, hescape r hmode, hc]
      · rw [if_neg hc, read_cons, step, hmode]
        simp [hc]
    rw [List.flatMap_cons, read_append, hfirst, Option.bind_some, ih rfl (by simp [Reader.push]), push_push]
    rfl

/-- **A quoted text** spells itself, whatever it is. -/
theorem spells_quote {escape : List Char} (hescape : Escapes escape) (text : List Char) :
    Spells (quote escape text) text := by
  intro r hmode _
  have hopen : step r singleQuote = some (r.push .single []) := by
    rw [step, hmode]
    rfl
  rw [quote, List.cons_append, read_cons, hopen, Option.bind_some, read_append,
    read_single hescape rfl (by simp [Reader.push]), Option.bind_some, push_push]
  show some _ = _
  simp [Reader.push]

/-- Closed, in double quotes, and opened again. -/
theorem escapes_doubled : Escapes [singleQuote, doubleQuote, singleQuote, doubleQuote, singleQuote] := by
  rintro ⟨mode, ws, word⟩ rfl
  show some _ = _
  simp [Reader.push]

/-- Closed, after a backslash, and opened again. -/
theorem escapes_backslash : Escapes [singleQuote, backslash, singleQuote, singleQuote] := by
  rintro ⟨mode, ws, word⟩ rfl
  show some _ = _
  simp [Reader.push]

/-! ### Commands -/

/-- The words after the name of a command, each behind a blank. -/
theorem read_spelled {texts ws : List (List Char)} (h : List.Forall₂ Spells texts ws) {r : Reader}
    (hmode : r.mode = .plain) (hword : r.word ≠ none) :
    ∃ r', read r (texts.flatMap (' ' :: ·)) = some r' ∧ r'.mode = .plain ∧ r'.close.words = r.close.words ++ ws := by
  induction h generalizing r with
  | nil => exact ⟨r, rfl, hmode, (List.append_nil _).symm⟩
  | @cons text word texts ws htext _ ih =>
    obtain ⟨before, hbefore⟩ := Option.ne_none_iff_exists'.mp hword
    have hclose : step r ' ' = some r.close := by
      rw [step, hmode]
      rfl
    have hwords : r.close.words ≠ [] := by simp [Reader.close, hbefore]
    obtain ⟨r', hread, hmode', hclosed⟩ := @ih (r.close.push .plain word) rfl (by simp [Reader.push])
    refine ⟨r', ?_, hmode', ?_⟩
    · rw [List.flatMap_cons, List.cons_append, read_cons, hclose, Option.bind_some, read_append,
        htext r.close rfl hwords, Option.bind_some, hread]
    · rw [hclosed]
      simp [Reader.close, Reader.push]

/-- Pieces of a command, each behind a blank. -/
def arguments (texts : List String) : List Char := (texts.map String.toList).flatMap (' ' :: ·)

@[simp] theorem arguments_nil : arguments [] = [] := rfl

@[simp] theorem arguments_cons (text : String) (texts : List String) :
    arguments (text :: texts) = ' ' :: text.toList ++ arguments texts := rfl

theorem arguments_append (texts more : List String) : arguments (texts ++ more) = arguments texts ++ arguments more := by
  rw [arguments, List.map_append, List.flatMap_append]
  rfl

/-- Each piece spells its word. -/
def Spell : List String → List String → Prop := List.Forall₂ fun text word => Spells text.toList word.toList

/-- A piece that is written as it is. -/
theorem spell_self (texts : List String) (h : texts.all fun text => text.toList.all ordinary && text ≠ "") :
    Spell texts texts := by
  refine List.forall₂_same.mpr fun text htext => ?_
  have htext := Bool.and_eq_true_iff.mp (List.all_eq_true.mp h text htext)
  exact spells_ordinary (fun hnil => of_decide_eq_true htext.2 (String.toList_eq_nil_iff.mp hnil)) htext.1

/-- **The words of a command** are its name and what its pieces spell. -/
theorem words_command {command name : String} (texts : List String) {ws : List String}
    (hcommand : command.toList = name.toList ++ arguments texts)
    (hname : name.toList.all (fun c => ordinary c && c ≠ '=') = true ∧ name ≠ "") (h : Spell texts ws) :
    words command = some (name :: ws) := by
  obtain ⟨first, rest, hchars⟩ := List.exists_cons_of_ne_nil fun hnil => hname.2 (String.toList_eq_nil_iff.mp hnil)
  have hall := List.all_eq_true.mp hname.1
  have hread : read ⟨.plain, [], none⟩ name.toList = some ⟨.plain, [], some name.toList⟩ := by
    rw [hchars] at hall ⊢
    exact read_ordinary (fun c hc => (Bool.and_eq_true_iff.mp (hall c hc)).1) rfl fun hequals =>
      absurd rfl (of_decide_eq_true (Bool.and_eq_true_iff.mp (hall '=' hequals)).2)
  have hspelled : List.Forall₂ Spells (texts.map String.toList) (ws.map String.toList) :=
    List.forall₂_map_right_iff.mpr (List.forall₂_map_left_iff.mpr h)
  obtain ⟨r', htexts, hmode, hclosed⟩ := read_spelled hspelled (r := ⟨.plain, [], some name.toList⟩) rfl (by simp)
  rw [words, hcommand, read_append, hread, Option.bind_some, arguments, htexts, Option.bind_some, if_pos hmode, hclosed]
  simp [Reader.close, Function.comp_def]

end Apmpr.Shell
