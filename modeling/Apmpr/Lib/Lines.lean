import Apmpr.Lib.Text
import Mathlib.Data.List.DropRight
import Mathlib.Data.List.Forall2

/-!
# Lines

A text as lines that end with a newline (`terminated`), the way `str::lines` takes it apart,
and `str::trim`, which takes white space away from both ends of the whole text. `lines_trim`
says what a reader of lines sees of trimmed lines: white space is gone from the front of the
first one and from the back of some, and nothing else has changed.
-/

namespace Apmpr.Text

/-- `str::trim`. -/
def trim (s : String) : String := String.ofList ((s.toList.dropWhile isWhitespace).rdropWhile isWhitespace)

/-- A line without the carriage return at its end. -/
def withoutReturn (line : List Char) : List Char :=
  if line.getLast? = some '\r' then line.dropLast else line

/-- The lines of a text that was split at newlines; only the last part did not end with one. -/
def endedLines : List (List Char) → List (List Char)
  | [] => []
  | [last] => if last = [] then [] else [last]
  | line :: next :: rest => withoutReturn line :: endedLines (next :: rest)

/-- `str::lines`. -/
def lines (text : List Char) : List (List Char) := endedLines (splitChars '\n' text)

/-- Lines, each with a newline after it. -/
def terminated (ls : List (List Char)) : List Char := ls.flatMap (· ++ ['\n'])

theorem terminated_cons (line : List Char) (ls : List (List Char)) :
    terminated (line :: ls) = line ++ '\n' :: terminated ls := by
  simp [terminated]

theorem terminated_append (ls more : List (List Char)) : terminated (ls ++ more) = terminated ls ++ terminated more :=
  List.flatMap_append

/-- What is read back of lines and of a text after the last newline. -/
theorem lines_terminated {ls : List (List Char)} (hlines : ∀ line ∈ ls, '\n' ∉ line) {last : List Char}
    (hlast : '\n' ∉ last) :
    lines (terminated ls ++ last) = ls.map withoutReturn ++ if last = [] then [] else [last] := by
  rw [lines]
  induction ls with
  | nil => rw [terminated, List.flatMap_nil, List.nil_append, splitChars_of_not_mem hlast, endedLines]; rfl
  | cons line ls ih =>
    obtain ⟨hline, hlines⟩ := List.forall_mem_cons.mp hlines
    rw [terminated_cons, List.append_assoc, List.cons_append, splitChars_append_cons, splitChars_of_not_mem hline]
    obtain ⟨first, parts, hparts⟩ := List.exists_cons_of_ne_nil (splitChars_ne_nil '\n' (terminated ls ++ last))
    have hrest := ih hlines
    rw [hparts] at hrest ⊢
    rw [List.singleton_append, endedLines, hrest, List.map_cons, List.cons_append]

/-! ### Trimming -/

/-- Text that is trimmed begins with no white space. -/
theorem dropWhile_trimmed {α : Type} (p : α → Bool) (l : List α) :
    ((l.dropWhile p).rdropWhile p).dropWhile p = (l.dropWhile p).rdropWhile p := by
  cases htrim : (l.dropWhile p).rdropWhile p with
  | nil => rfl
  | cons a rest =>
    have hhead : (l.dropWhile p).head? = some a := by
      obtain ⟨more, hmore⟩ := htrim ▸ List.rdropWhile_prefix p (l.dropWhile p)
      rw [← hmore]
      rfl
    have hnot := List.head?_dropWhile_not p l
    rw [hhead] at hnot
    exact List.dropWhile_cons_of_neg (by simpa using hnot)

/-- White space around a text is trimmed once. -/
theorem trim_trim (s : String) : trim (trim s) = trim s := by
  rw [trim, trim, String.toList_ofList, dropWhile_trimmed, List.rdropWhile_idempotent]

/-- Text without white space is trimmed already. -/
theorem trim_of_not_whitespace {s : String} (h : ∀ c ∈ s.toList, isWhitespace c = false) : trim s = s := by
  have hleft : s.toList.dropWhile isWhitespace = s.toList := by
    cases hs : s.toList with
    | nil => rfl
    | cons c rest => exact List.dropWhile_cons_of_neg (by simp [h c (hs ▸ List.mem_cons_self ..)])
  have hright : s.toList.rdropWhile isWhitespace = s.toList :=
    List.rdropWhile_eq_self_iff.mpr fun hne => by simp [h _ (List.getLast_mem hne)]
  rw [trim, hleft, hright, String.ofList_toList]

/-- A text that is another one with white space after it. -/
def SpaceAfter (kept text : List Char) : Prop := ∃ space, text = kept ++ space ∧ ∀ c ∈ space, isWhitespace c = true

theorem SpaceAfter.refl (text : List Char) : SpaceAfter text text :=
  ⟨[], by rw [List.append_nil], by simp⟩

theorem spaceAfter_withoutReturn (line : List Char) : SpaceAfter (withoutReturn line) line := by
  rw [withoutReturn]
  split_ifs with h
  · refine ⟨['\r'], (List.dropLast_append_getLast? '\r' h).symm, fun c hc => ?_⟩
    rw [List.mem_singleton.mp hc]
    decide
  · exact .refl line

theorem spaceAfter_rdropWhile (text : List Char) : SpaceAfter (text.rdropWhile isWhitespace) text :=
  ⟨text.rtakeWhile isWhitespace, (List.rdropWhile_append_rtakeWhile ..).symm, fun _ hc => List.mem_rtakeWhile_imp hc⟩

/-- White space after a text that has something else is all that is taken away from behind. -/
theorem rdropWhile_append {l r : List Char} (hr : ∃ c ∈ r, isWhitespace c = false) :
    (l ++ r).rdropWhile isWhitespace = l ++ r.rdropWhile isWhitespace := by
  have hne : r.reverse.dropWhile isWhitespace ≠ [] := by
    obtain ⟨c, hc, hspace⟩ := hr
    intro hnil
    have hall := List.dropWhile_eq_nil_iff.mp hnil c (List.mem_reverse.mpr hc)
    simp [hspace] at hall
  rw [List.rdropWhile, List.rdropWhile, List.reverse_append, List.dropWhile_append]
  simp [hne]

theorem rdropWhile_append_space {l space : List Char} (h : ∀ c ∈ space, isWhitespace c = true) :
    (l ++ space).rdropWhile isWhitespace = l.rdropWhile isWhitespace := by
  rw [List.rdropWhile, List.rdropWhile, List.reverse_append,
    List.dropWhile_append_of_pos fun c hc => h c (List.mem_reverse.mp hc)]

theorem dropWhile_append_of_exists {l r : List Char} (hl : ∃ c ∈ l, isWhitespace c = false) :
    (l ++ r).dropWhile isWhitespace = l.dropWhile isWhitespace ++ r := by
  have hne : l.dropWhile isWhitespace ≠ [] := by
    obtain ⟨c, hc, hspace⟩ := hl
    intro hnil
    simpa [hspace] using List.dropWhile_eq_nil_iff.mp hnil c hc
  rw [List.dropWhile_append]
  simp [hne]

/-- A line without white space in front has what else it had. -/
theorem exists_mem_dropWhile {l : List Char} (h : ∃ c ∈ l, isWhitespace c = false) :
    ∃ c ∈ l.dropWhile isWhitespace, isWhitespace c = false := by
  obtain ⟨c, hc, hspace⟩ := h
  rw [← List.takeWhile_append_dropWhile (p := isWhitespace) (l := l)] at hc
  rcases List.mem_append.mp hc with hc | hc
  · simp [List.mem_takeWhile_imp hc] at hspace
  · exact ⟨c, hc, hspace⟩

/-- **The lines of a text that was trimmed**: of lines that are not blank, the first has lost the
white space in front, and every one at most some white space behind. -/
theorem lines_trim {first : List Char} {ls : List (List Char)} (hline : ∀ line ∈ first :: ls, '\n' ∉ line)
    (hblank : ∀ line ∈ first :: ls, ∃ c ∈ line, isWhitespace c = false) :
    List.Forall₂ SpaceAfter (lines (trim (String.ofList (terminated (first :: ls)))).toList)
      (first.dropWhile isWhitespace :: ls) := by
  obtain ⟨hfirst, hrest⟩ := List.forall_mem_cons.mp hblank
  obtain ⟨hfirst', hrest'⟩ := List.forall_mem_cons.mp hline
  have hdropped : '\n' ∉ first.dropWhile isWhitespace := fun hmem => hfirst' ((List.dropWhile_sublist _).mem hmem)
  have hstart : (terminated (first :: ls)).dropWhile isWhitespace =
      terminated (first.dropWhile isWhitespace :: ls) := by
    rw [terminated_cons, terminated_cons, dropWhile_append_of_exists hfirst]
  rw [trim, String.toList_ofList, String.toList_ofList, hstart]
  -- of the lines that are left, the last one loses its newline and the white space behind
  have hall : ∀ line ∈ first.dropWhile isWhitespace :: ls, '\n' ∉ line ∧ ∃ c ∈ line, isWhitespace c = false := by
    refine List.forall_mem_cons.mpr ⟨⟨hdropped, exists_mem_dropWhile hfirst⟩, fun line hmem => ?_⟩
    exact ⟨hrest' line hmem, hrest line hmem⟩
  obtain ⟨before, last, hlines⟩ := (List.eq_nil_or_concat
    (first.dropWhile isWhitespace :: ls)).resolve_left (List.cons_ne_nil _ _)
  rw [List.concat_eq_append] at hlines
  rw [hlines] at hall ⊢
  obtain ⟨hlast, hnonblank⟩ := hall last (List.mem_append_right _ List.mem_cons_self)
  have hend : (terminated (before ++ [last])).rdropWhile isWhitespace =
      terminated before ++ last.rdropWhile isWhitespace := by
    have hnewline : ∀ c ∈ ['\n'], isWhitespace c = true := List.forall_mem_singleton.mpr (by decide)
    rw [terminated_append, terminated_cons, ← rdropWhile_append hnonblank, ← List.append_assoc]
    exact rdropWhile_append_space hnewline
  have hkept : last.rdropWhile isWhitespace ≠ [] := by
    obtain ⟨c, hc, hspace⟩ := hnonblank
    intro hnil
    simpa [hspace] using List.rdropWhile_eq_nil_iff.mp hnil c hc
  rw [hend, lines_terminated (fun line hmem => (hall line (List.mem_append_left _ hmem)).1)
    (fun hmem => hlast ((List.rdropWhile_prefix _ _).mem hmem)), if_neg hkept]
  refine List.rel_append ?_ (List.Forall₂.cons (spaceAfter_rdropWhile last) .nil)
  rw [List.forall₂_map_left_iff]
  exact List.forall₂_same.mpr fun line _ => spaceAfter_withoutReturn line

end Apmpr.Text
