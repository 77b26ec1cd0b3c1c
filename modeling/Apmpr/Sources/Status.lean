import Apmpr.Lib.Lines
import Apmpr.Lib.Utf8

/-!
# Counting changes

How a source's changes are counted: `git status --porcelain=v1` prints one line for each changed
path (`StatusLine`), `output_text` decodes and trims what Git has printed, and `parse_dirty`
reads two status characters from the front of each line that is left.

Trimming is harmless at the end, where it can take a path and the separator before it, but at
the front it takes the first status character where that is a space. **`dirtyCounts_iff`** says
that the counts are Git's exactly where the first line does not start with a space;
`dirtyCounts_shifted` is a repository with one unstaged change, which is counted as a staged
one.
-/

namespace Apmpr.Sources

open Text (SpaceAfter)

/-- `DirtyState`. -/
structure DirtyState where
  staged : ℕ := 0
  unstaged : ℕ := 0
  untracked : ℕ := 0
  deriving DecidableEq

/-- The output of a command that has ended, its texts already decoded. -/
structure Output where
  success : Bool
  stdout : String
  stderr : String

/-- `output_text`; an error has its code and its text. -/
def outputText (output : Output) (code : String) : Except (String × String) String :=
  if output.success then .ok (Text.trim output.stdout) else .error (code, Text.trim output.stderr)

/-- What the parser does with one line; it looks at bytes. -/
def DirtyState.addLine (state : DirtyState) (line : List Char) : DirtyState :=
  let bytes := Utf8.encode line
  if [63, 63].isPrefixOf bytes then { state with untracked := state.untracked + 1 }
  else
    { state with
      staged := state.staged + if bytes.head?.any (· ≠ 32) then 1 else 0
      unstaged := state.unstaged + if (bytes[1]?).any (· ≠ 32) then 1 else 0 }

/-- `parse_dirty`. -/
def parseDirty (status : String) : DirtyState := (Text.lines status.toList).foldl DirtyState.addLine {}

/-! ### The output of Git -/

/-- A status character is an ASCII character that is printed; a space says "unmodified". -/
def IsStatus (c : Char) : Prop := 32 ≤ c.toNat ∧ c.toNat < 127

/-- A line of `git status --porcelain=v1`: the status of a path in the index and in the working
tree. Only changed paths have one, and a path with a newline is quoted. -/
structure StatusLine where
  index : Char
  worktree : Char
  path : List Char
  index_status : IsStatus index
  worktree_status : IsStatus worktree
  changed : index ≠ ' ' ∨ worktree ≠ ' '
  path_line : '\n' ∉ path

namespace StatusLine

/-- The line as it is printed. -/
def text (line : StatusLine) : List Char := line.index :: line.worktree :: ' ' :: line.path

/-- The path is not known to Git. -/
def untracked (line : StatusLine) : Bool := line.index = '?' && line.worktree = '?'

end StatusLine

/-- What Git prints. -/
def printed (status : List StatusLine) : String := String.ofList (Text.terminated (status.map StatusLine.text))

/-- The counts that Git's lines say. -/
def gitCounts (status : List StatusLine) : DirtyState where
  staged := (status.filter fun line => !line.untracked && line.index ≠ ' ').length
  unstaged := (status.filter fun line => !line.untracked && line.worktree ≠ ' ').length
  untracked := (status.filter StatusLine.untracked).length

/-! ### One line -/

/-- What is counted of two lines, or of two lists of them. -/
def DirtyState.add (a b : DirtyState) : DirtyState :=
  ⟨a.staged + b.staged, a.unstaged + b.unstaged, a.untracked + b.untracked⟩

/-- What Git's line says. -/
def StatusLine.counts (line : StatusLine) : DirtyState where
  staged := if !line.untracked && line.index ≠ ' ' then 1 else 0
  unstaged := if !line.untracked && line.worktree ≠ ' ' then 1 else 0
  untracked := if line.untracked then 1 else 0

section Line

variable {state : DirtyState} {line : StatusLine}

theorem addLine_eq_add (state : DirtyState) (line : List Char) :
    state.addLine line = state.add (DirtyState.addLine {} line) := by
  unfold DirtyState.addLine DirtyState.add
  dsimp only
  split_ifs <;> simp

theorem foldl_addLine (state : DirtyState) (ls : List (List Char)) :
    ls.foldl DirtyState.addLine state = state.add (ls.foldl DirtyState.addLine {}) := by
  induction ls generalizing state with
  | nil => rfl
  | cons line ls ih =>
    rw [List.foldl_cons, List.foldl_cons, ih, ih (DirtyState.addLine {} line), addLine_eq_add]
    simp only [DirtyState.add, Nat.add_assoc]

theorem not_isWhitespace_of_isStatus {c : Char} (h : IsStatus c) (hspace : c ≠ ' ') : Text.isWhitespace c = false := by
  have hall : ∀ n < 127, 32 < n → Text.isWhitespace (Char.ofNat n) = false := by decide +kernel
  have hne : c.toNat ≠ 32 := fun heq => hspace (by rw [← Char.ofNat_toNat c, heq])
  rw [← Char.ofNat_toNat c]
  exact hall c.toNat h.2 (by have := h.1; omega)

theorem eq_space_of_isStatus {c : Char} (h : IsStatus c) (hspace : Text.isWhitespace c = true) : c = ' ' := by
  by_contra hne
  rw [not_isWhitespace_of_isStatus h hne] at hspace
  cases hspace

/-- A status character is one byte. -/
theorem encode_status {c : Char} (h : IsStatus c) (rest : List Char) :
    Utf8.encode (c :: rest) = UInt8.ofNat c.toNat :: Utf8.encode rest := by
  have hbyte : (UInt8.ofNat c.toNat).toNat = c.toNat := Utf8.toNat_ofNat (by have := h.2; omega)
  have hchar := @Utf8.encodeChar_of_ascii (UInt8.ofNat c.toNat) (by have := h.2; omega)
  rw [hbyte, Char.ofNat_toNat] at hchar
  rw [Utf8.encode_cons, hchar, List.singleton_append]

/-- The parser's comparisons of a byte are comparisons of the status character. -/
theorem statusByte_eq_iff {c : Char} (h : IsStatus c) {n : ℕ} (hn : n < 127) :
    UInt8.ofNat c.toNat = UInt8.ofNat n ↔ c = Char.ofNat n := by
  constructor
  · intro heq
    have hnat := congrArg UInt8.toNat heq
    rw [Utf8.toNat_ofNat (by have := h.2; omega), Utf8.toNat_ofNat (by omega)] at hnat
    rw [← hnat, Char.ofNat_toNat]
  · rintro rfl
    have hall : ∀ n < 127, (Char.ofNat n).toNat = n := by decide +kernel
    rw [hall n hn]

/-- The bytes the parser looks for are these characters. -/
theorem statusByte_iff {c : Char} (h : IsStatus c) :
    (UInt8.ofNat c.toNat = 63 ↔ c = '?') ∧ (UInt8.ofNat c.toNat = 32 ↔ c = ' ') :=
  ⟨statusByte_eq_iff h (by omega : 63 < 127), statusByte_eq_iff h (by omega : 32 < 127)⟩

/-- Two status characters are read as what they say, whatever comes after them. -/
theorem addLine_statuses {index worktree : Char} (hindex : IsStatus index) (hworktree : IsStatus worktree)
    (rest : List Char) : DirtyState.addLine {} (index :: worktree :: rest) =
      if index = '?' ∧ worktree = '?' then ⟨0, 0, 1⟩
      else ⟨if index = ' ' then 0 else 1, if worktree = ' ' then 0 else 1, 0⟩ := by
  obtain ⟨hquestion, hspace⟩ := statusByte_iff hindex
  obtain ⟨hquestion', hspace'⟩ := statusByte_iff hworktree
  have hprefix : [63, 63].isPrefixOf (Utf8.encode (index :: worktree :: rest)) =
      decide (index = '?' ∧ worktree = '?') := by
    rw [encode_status hindex, encode_status hworktree, Bool.eq_iff_iff]
    simp only [List.isPrefixOf, Bool.and_true, Bool.and_eq_true, beq_iff_eq, decide_eq_true_eq]
    rw [@eq_comm _ 63, @eq_comm _ 63, hquestion, hquestion']
  unfold DirtyState.addLine
  dsimp only
  rw [ hprefix, encode_status hindex, encode_status hworktree]
  by_cases huntracked : index = '?' ∧ worktree = '?'
  · simp [huntracked]
  · simp [huntracked, hspace, hspace']

/-- So is one status character alone, and then the other one is not counted. -/
theorem addLine_status {index : Char} (hindex : IsStatus index) (hspace : index ≠ ' ') :
    DirtyState.addLine {} [index] = ⟨1, 0, 0⟩ := by
  have hbyte := (statusByte_iff hindex).2
  have hprefix : [63, 63].isPrefixOf (Utf8.encode [index]) = false := by
    rw [encode_status hindex]
    simp [List.isPrefixOf, Utf8.encode]
  unfold DirtyState.addLine
  dsimp only
  rw [ hprefix, encode_status hindex]
  simp [hbyte, hspace, Utf8.encode]

/-- What was only trimmed behind is counted as Git's line. -/
theorem addLine_of_spaceAfter {kept : List Char} (h : SpaceAfter kept line.text) :
    DirtyState.addLine {} kept = line.counts := by
  obtain ⟨space, htext, hspace⟩ := h
  have hcounts : line.counts = if line.index = '?' ∧ line.worktree = '?' then ⟨0, 0, 1⟩
      else ⟨if line.index = ' ' then 0 else 1, if line.worktree = ' ' then 0 else 1, 0⟩ := by
    by_cases huntracked : line.index = '?' ∧ line.worktree = '?'
    · simp [StatusLine.counts, StatusLine.untracked, huntracked]
    · have huntracked' : line.untracked = false := by
        rw [StatusLine.untracked, ← Bool.decide_and]
        exact decide_eq_false huntracked
      simp [StatusLine.counts, huntracked', huntracked]
  rw [StatusLine.text] at htext
  cases kept with
  | nil =>
    -- nothing is left of a line only if both of its characters are spaces
    rw [List.nil_append] at htext
    subst htext
    have hindex := eq_space_of_isStatus line.index_status (hspace _ (by simp))
    have hworktree := eq_space_of_isStatus line.worktree_status (hspace _ (by simp))
    exact absurd hworktree (line.changed.resolve_left (not_not_intro hindex))
  | cons index kept =>
    rw [List.cons_append] at htext
    obtain ⟨rfl, hrest⟩ := List.cons.inj htext
    cases kept with
    | nil =>
      rw [List.nil_append] at hrest
      subst hrest
      have hworktree := eq_space_of_isStatus line.worktree_status (hspace _ (by simp))
      have hindex := line.changed.resolve_right (not_not_intro hworktree)
      rw [addLine_status line.index_status hindex, hcounts, hworktree]
      simp [hindex]
    | cons worktree kept =>
      obtain ⟨rfl, -⟩ := List.cons.inj hrest
      rw [addLine_statuses line.index_status line.worktree_status, hcounts]

/-- A line without its first space is one with something in the index. -/
theorem addLine_of_dropped (hindex : line.index = ' ') {kept : List Char}
    (h : SpaceAfter kept (line.text.dropWhile Text.isWhitespace)) : DirtyState.addLine {} kept = ⟨1, 0, 0⟩ := by
  obtain ⟨space, htext, hspace⟩ := h
  have hworktree := line.changed.resolve_left (not_not_intro hindex)
  have hnone := not_isWhitespace_of_isStatus line.worktree_status hworktree
  have hblank : IsStatus ' ' := ⟨by decide, by decide⟩
  rw [StatusLine.text, hindex, List.dropWhile_cons_of_pos (by decide), List.dropWhile_cons_of_neg (by simp [hnone])]
    at htext
  cases kept with
  | nil =>
    rw [List.nil_append] at htext
    subst htext
    rw [hspace _ List.mem_cons_self] at hnone
    cases hnone
  | cons worktree kept =>
    rw [List.cons_append] at htext
    obtain ⟨rfl, hrest⟩ := List.cons.inj htext
    cases kept with
    | nil => exact addLine_status line.worktree_status hworktree
    | cons separator kept =>
      obtain ⟨rfl, -⟩ := List.cons.inj hrest
      rw [addLine_statuses line.worktree_status hblank]
      simp [hworktree]

theorem text_not_blank (line : StatusLine) : ∃ c ∈ line.text, Text.isWhitespace c = false := by
  by_cases hindex : line.index = ' '
  · have hworktree := line.changed.resolve_left (not_not_intro hindex)
    exact ⟨_, by simp [StatusLine.text], not_isWhitespace_of_isStatus line.worktree_status hworktree⟩
  · exact ⟨_, by simp [StatusLine.text], not_isWhitespace_of_isStatus line.index_status hindex⟩

theorem newline_not_mem_text (line : StatusLine) : '\n' ∉ line.text := by
  have hstatus : ∀ {c : Char}, IsStatus c → '\n' ≠ c := by
    rintro _ h rfl
    exact absurd h.1 (by decide)
  simp [StatusLine.text, hstatus line.index_status, hstatus line.worktree_status, line.path_line]

end Line

/-! ### All of them -/

section Counts

variable {status : List StatusLine}

theorem gitCounts_cons (line : StatusLine) (status : List StatusLine) :
    gitCounts (line :: status) = line.counts.add (gitCounts status) := by
  have hlength : ∀ p : StatusLine → Bool, ((line :: status).filter p).length =
      (if p line then 1 else 0) + (status.filter p).length := by
    intro p
    rw [List.filter_cons]
    split_ifs
    · rw [List.length_cons, Nat.add_comm]
    · rw [Nat.zero_add]
  simp only [gitCounts, StatusLine.counts, DirtyState.add, hlength]

/-- Lines that were only trimmed behind are counted as Git's. -/
theorem foldl_addLine_of_spaceAfter {kept : List (List Char)}
    (h : List.Forall₂ SpaceAfter kept (status.map StatusLine.text)) :
    kept.foldl DirtyState.addLine {} = gitCounts status := by
  rw [List.forall₂_map_right_iff] at h
  induction h with
  | nil => rfl
  | cons hline _ ih => rw [List.foldl_cons, foldl_addLine, ih, addLine_of_spaceAfter hline, gitCounts_cons]

/-- What is counted: the first line without its space, and the others as Git says. -/
theorem parseDirty_printed (first : StatusLine) (status : List StatusLine) :
    parseDirty (Text.trim (printed (first :: status))) =
      if first.index = ' ' then DirtyState.add ⟨1, 0, 0⟩ (gitCounts status) else gitCounts (first :: status) := by
  have hline : ∀ line ∈ first.text :: status.map StatusLine.text, '\n' ∉ line := by
    rw [← List.map_cons, List.forall_mem_map]
    exact fun line _ => newline_not_mem_text line
  have hblank : ∀ line ∈ first.text :: status.map StatusLine.text, ∃ c ∈ line, Text.isWhitespace c = false := by
    rw [← List.map_cons, List.forall_mem_map]
    exact fun line _ => text_not_blank line
  obtain ⟨kept, others, hkept, hothers, hlines⟩ := List.forall₂_cons_right_iff.mp (Text.lines_trim hline hblank)
  rw [parseDirty, printed, List.map_cons, hlines, List.foldl_cons, foldl_addLine, foldl_addLine_of_spaceAfter hothers]
  split_ifs with hindex
  · rw [addLine_of_dropped hindex hkept]
  · have hfirst := not_isWhitespace_of_isStatus first.index_status hindex
    rw [StatusLine.text, List.dropWhile_cons_of_neg (by simp [hfirst])] at hkept
    rw [addLine_of_spaceAfter hkept, gitCounts_cons]

/-- **The counts of changes are Git's exactly where its first line does not start with a
space.** -/
theorem dirtyCounts_iff (status : List StatusLine) (stderr code : String) :
    (outputText ⟨true, printed status, stderr⟩ code).map parseDirty = .ok (gitCounts status) ↔
      ∀ line ∈ status.head?, line.index ≠ ' ' := by
  rw [outputText, if_pos rfl, Except.map, Except.ok.injEq]
  cases status with
  | nil => exact iff_of_true rfl (by simp)
  | cons first rest =>
    rw [parseDirty_printed, List.head?_cons]
    simp only [Option.mem_def, Option.some.injEq, forall_eq']
    split_ifs with hindex
    · refine iff_of_false (fun h => ?_) (not_not_intro hindex)
      have hworktree := first.changed.resolve_left (not_not_intro hindex)
      have hunstaged := congrArg DirtyState.unstaged h
      rw [gitCounts_cons] at hunstaged
      simp [DirtyState.add, StatusLine.counts, StatusLine.untracked, hindex, hworktree] at hunstaged
    · exact iff_of_true rfl hindex

end Counts

/-- A file that was changed and not added. -/
def unstagedLine : StatusLine where
  index := ' '
  worktree := 'M'
  path := "src/lib.rs".toList
  index_status := by unfold IsStatus; decide
  worktree_status := by unfold IsStatus; decide
  changed := by decide
  path_line := by decide

/-- One unstaged change is counted as a staged one. -/
theorem dirtyCounts_shifted :
    (outputText ⟨true, printed [unstagedLine], ""⟩ "source_not_repository").map parseDirty = .ok ⟨1, 0, 0⟩ ∧
      gitCounts [unstagedLine] = ⟨0, 1, 0⟩ := by
  decide +kernel

end Apmpr.Sources
