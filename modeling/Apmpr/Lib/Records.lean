import Mathlib.Data.List.Basic
import Mathlib.Tactic

/-!
# Records of a stream

A stream of records that end with two delimiters, read as it comes in: what was read and not yet
used is kept, and each piece that is read is put behind it. A handler says of each record
whether it was the one that is waited for.

How a stream is cut into pieces does not change what comes of it (`feed_eq`), so it is enough to
know what comes of the whole stream (`consume_records`).
-/

namespace Apmpr.Records

variable {α ε : Type*} [DecidableEq α]

/-- The first record, and what follows its delimiters. -/
def splitRecord (d : α) : List α → Option (List α × List α)
  | [] | [_] => none
  | a :: b :: rest =>
    if a = d ∧ b = d then some ([], rest) else (splitRecord d (b :: rest)).map fun (record, rest) => (a :: record, rest)

/-- The records at hand, up to the one that is waited for: whether it was among them, and what is
left. -/
def consumeUpTo (d : α) (handle : List α → Except ε Bool) : ℕ → List α → Except ε (Bool × List α)
  | 0, pending => .ok (false, pending)
  | fuel + 1, pending =>
    match splitRecord d pending with
    | none => .ok (false, pending)
    | some (record, rest) =>
      match handle record with
      | .error e => .error e
      | .ok true => .ok (true, rest)
      | .ok false => consumeUpTo d handle fuel rest

/-- All records at hand. -/
def consume (d : α) (handle : List α → Except ε Bool) (pending : List α) : Except ε (Bool × List α) :=
  consumeUpTo d handle pending.length pending

/-- The pieces of a stream, one after the other. -/
def feed (d : α) (handle : List α → Except ε Bool) : List α → List (List α) → Except ε (Bool × List α)
  | pending, [] => .ok (false, pending)
  | pending, piece :: pieces =>
    match consume d handle (pending ++ piece) with
    | .error e => .error e
    | .ok (true, rest) => .ok (true, rest)
    | .ok (false, rest) => feed d handle rest pieces

variable {d : α} {handle : List α → Except ε Bool}

/-! ### The first record -/

theorem length_of_splitRecord {text record rest : List α} (h : splitRecord d text = some (record, rest)) :
    rest.length < text.length := by
  fun_induction splitRecord d text generalizing record with
  | case1 => cases h
  | case2 => cases h
  | case3 a b tail heq =>
    obtain ⟨rfl, rfl⟩ := Prod.mk.inj (Option.some.inj h)
    simp only [List.length_cons]
    omega
  | case4 a b tail hne ih =>
    obtain ⟨⟨first, more⟩, hsplit, hpair⟩ := Option.map_eq_some_iff.mp h
    obtain ⟨rfl, rfl⟩ := Prod.mk.inj hpair
    exact (ih hsplit).trans (Nat.lt_succ_self _)

/-- What comes later does not change the first record. -/
theorem splitRecord_append {text record rest : List α} (h : splitRecord d text = some (record, rest)) (more : List α) :
    splitRecord d (text ++ more) = some (record, rest ++ more) := by
  fun_induction splitRecord d text generalizing record with
  | case1 => cases h
  | case2 => cases h
  | case3 a b tail heq =>
    obtain ⟨rfl, rfl⟩ := Prod.mk.inj (Option.some.inj h)
    exact if_pos heq
  | case4 a b tail hne ih =>
    obtain ⟨⟨first, after⟩, hsplit, hpair⟩ := Option.map_eq_some_iff.mp h
    obtain ⟨rfl, rfl⟩ := Prod.mk.inj hpair
    have hmore := ih hsplit
    rw [List.cons_append] at hmore
    rw [List.cons_append, List.cons_append, splitRecord, if_neg hne, hmore]
    rfl

/-- A record that ends where its delimiters stand. -/
def Whole (d : α) (record : List α) : Prop := splitRecord d (record ++ [d]) = none

theorem splitRecord_whole {record : List α} (h : Whole d record) (rest : List α) :
    splitRecord d (record ++ d :: d :: rest) = some (record, rest) := by
  induction record with
  | nil => simp [splitRecord]
  | cons a record ih =>
    have hrest : Whole d record ∧ ¬(a = d ∧ (record ++ [d]).head? = some d) := by
      cases record with
      | nil =>
        rw [Whole, List.cons_append, List.nil_append, splitRecord] at h
        split_ifs at h with heq
        exact ⟨rfl, by simpa using heq⟩
      | cons b record =>
        rw [Whole, List.cons_append, List.cons_append, splitRecord] at h
        split_ifs at h with heq
        exact ⟨by simpa [Whole] using h, by simpa using heq⟩
    have hmore := ih hrest.1
    cases record with
    | nil =>
      have hne : ¬(a = d ∧ d = d) := by simpa using hrest.2
      rw [List.cons_append, List.nil_append, splitRecord, if_neg hne]
      rw [List.nil_append] at hmore
      rw [hmore]
      rfl
    | cons b record =>
      have hne : ¬(a = d ∧ b = d) := by simpa using hrest.2
      rw [List.cons_append, List.cons_append, splitRecord, if_neg hne, ← List.cons_append, hmore]
      rfl

/-- A line of a record, where another line or the end follows. -/
theorem splitRecord_line {line more : List α} (hline : d ∉ line) (hne : line ≠ []) (hmore : splitRecord d more = none)
    (hhead : more.head? ≠ some d) : splitRecord d (line ++ d :: more) = none := by
  have hlast : splitRecord d (d :: more) = none := by
    cases more with
    | nil => rfl
    | cons b more =>
      have hb : ¬(d = d ∧ b = d) := by simpa using hhead
      rw [splitRecord, if_neg hb, hmore, Option.map_none]
  induction line with
  | nil => exact absurd rfl hne
  | cons a line ih =>
    rw [List.mem_cons, not_or] at hline
    have ha (b : α) : ¬(a = d ∧ b = d) := fun h => hline.1 h.1.symm
    cases line with
    | nil => rw [List.cons_append, List.nil_append, splitRecord, if_neg (ha d), hlast, Option.map_none]
    | cons b line =>
      have hrest := ih hline.2 (by simp)
      rw [List.cons_append] at hrest
      rw [List.cons_append, List.cons_append, splitRecord, if_neg (ha b), hrest, Option.map_none]

/-- Lines that are not empty are no more than a record. -/
theorem splitRecord_lines {ls : List (List α)} (h : ∀ line ∈ ls, d ∉ line ∧ line ≠ []) :
    splitRecord d (ls.flatMap (· ++ [d])) = none := by
  induction ls with
  | nil => rfl
  | cons line ls ih =>
    obtain ⟨⟨hline, hne⟩, hrest⟩ := List.forall_mem_cons.mp h
    have hhead : (ls.flatMap (· ++ [d])).head? ≠ some d := by
      cases ls with
      | nil => simp
      | cons next ls =>
        obtain ⟨hnext, hnextNe⟩ := hrest next (List.mem_cons_self ..)
        obtain ⟨b, tail, rfl⟩ := List.exists_cons_of_ne_nil hnextNe
        intro heq
        exact hnext (Option.some.inj heq ▸ List.mem_cons_self ..)
    have hsplit := splitRecord_line hline hne (ih hrest) hhead
    rwa [List.flatMap_cons, List.append_assoc, List.singleton_append]

/-! ### The records at hand -/

theorem consumeUpTo_eq {fuel : ℕ} {pending : List α} (h : pending.length ≤ fuel) :
    consumeUpTo d handle fuel pending = consume d handle pending := by
  induction hlength : pending.length using Nat.strongRecOn generalizing pending fuel with
  | ind n ih =>
    rw [consume, hlength]
    cases fuel with
    | zero => rw [show n = 0 by omega]
    | succ fuel =>
      cases n with
      | zero => rw [List.length_eq_zero_iff.mp hlength]; rfl
      | succ n =>
        rw [consumeUpTo, consumeUpTo]
        cases hsplit : splitRecord d pending with
        | none => rfl
        | some pair =>
          obtain ⟨record, rest⟩ := pair
          have hlt := length_of_splitRecord hsplit
          dsimp only
          rw [ih rest.length (by omega) (by omega) rfl, ih rest.length (by omega) (by omega) rfl]

/-- One record after the other. -/
theorem consume_eq (pending : List α) : consume d handle pending =
    match splitRecord d pending with
    | none => .ok (false, pending)
    | some (record, rest) =>
      match handle record with
      | .error e => .error e
      | .ok true => .ok (true, rest)
      | .ok false => consume d handle rest := by
  cases hsplit : splitRecord d pending with
  | none =>
    rw [consume]
    cases pending.length with
    | zero => rfl
    | succ n => rw [consumeUpTo, hsplit]
  | some pair =>
    obtain ⟨record, rest⟩ := pair
    have hlt := length_of_splitRecord hsplit
    rw [consume]
    cases hlength : pending.length with
    | zero => omega
    | succ n =>
      rw [consumeUpTo, hsplit]
      dsimp only
      rw [consumeUpTo_eq (by omega)]

theorem consume_of_none {pending : List α} (h : splitRecord d pending = none) :
    consume d handle pending = .ok (false, pending) := by
  rw [consume_eq, h]

/-- Nothing is left of the records at hand. -/
theorem splitRecord_of_consume {pending rest : List α} (h : consume d handle pending = .ok (false, rest)) :
    splitRecord d rest = none := by
  induction hlength : pending.length using Nat.strongRecOn generalizing pending with
  | ind n ih =>
    rw [consume_eq] at h
    cases hsplit : splitRecord d pending with
    | none =>
      rw [hsplit] at h
      obtain ⟨-, rfl⟩ := Prod.mk.inj (Except.ok.inj h)
      exact hsplit
    | some pair =>
      obtain ⟨record, tail⟩ := pair
      rw [hsplit] at h
      dsimp only at h
      split at h
      · cases h
      · cases h
      · exact ih tail.length (hlength ▸ length_of_splitRecord hsplit) h rfl

/-- **What comes later** is used after the records at hand. -/
theorem consume_append (pending more : List α) : consume d handle (pending ++ more) =
    match consume d handle pending with
    | .error e => .error e
    | .ok (true, rest) => .ok (true, rest ++ more)
    | .ok (false, rest) => consume d handle (rest ++ more) := by
  induction hlength : pending.length using Nat.strongRecOn generalizing pending with
  | ind n ih =>
    cases hsplit : splitRecord d pending with
    | none => rw [consume_of_none hsplit]
    | some pair =>
      obtain ⟨record, rest⟩ := pair
      rw [consume_eq (pending ++ more), splitRecord_append hsplit, consume_eq pending, hsplit]
      dsimp only
      cases handle record with
      | error e => rfl
      | ok found =>
        cases found with
        | true => rfl
        | false => exact ih rest.length (hlength ▸ length_of_splitRecord hsplit) rest rfl

/-- **However a stream is cut**, what comes of its pieces is what comes of the whole. -/
theorem feed_eq {pending : List α} (h : splitRecord d pending = none) (pieces : List (List α)) :
    (feed d handle pending pieces).map Prod.fst = (consume d handle (pending ++ pieces.flatten)).map Prod.fst := by
  induction pieces generalizing pending with
  | nil =>
    rw [List.flatten_nil, List.append_nil, consume_of_none h]
    rfl
  | cons piece pieces ih =>
    rw [List.flatten_cons, ← List.append_assoc, consume_append (pending ++ piece), feed]
    cases hconsume : consume d handle (pending ++ piece) with
    | error e => rfl
    | ok result =>
      obtain ⟨found, rest⟩ := result
      cases found with
      | true => rfl
      | false => exact ih (splitRecord_of_consume hconsume)

/-! ### A stream of whole records -/

/-- The records of a list, up to the one that is waited for. -/
def search (handle : List α → Except ε Bool) : List (List α) → Except ε Bool
  | [] => .ok false
  | record :: records =>
    match handle record with
    | .error e => .error e
    | .ok true => .ok true
    | .ok false => search handle records

/-- **What comes of a stream of records** and of a last piece without an end. -/
theorem consume_records {records : List (List α)} (hrecords : ∀ record ∈ records, Whole d record) {last : List α}
    (hlast : splitRecord d last = none) :
    (consume d handle (records.flatMap (· ++ [d, d]) ++ last)).map Prod.fst = search handle records := by
  induction records with
  | nil =>
    rw [List.flatMap_nil, List.nil_append, consume_of_none hlast]
    rfl
  | cons record records ih =>
    obtain ⟨hrecord, hrest⟩ := List.forall_mem_cons.mp hrecords
    have htext : (record :: records).flatMap (· ++ [d, d]) ++ last =
        record ++ d :: d :: (records.flatMap (· ++ [d, d]) ++ last) := by simp
    rw [htext, consume_eq, splitRecord_whole hrecord, search]
    dsimp only
    cases handle record with
    | error e => rfl
    | ok found =>
      cases found with
      | true => rfl
      | false => exact ih hrest

end Apmpr.Records
