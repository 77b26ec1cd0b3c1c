import Mathlib.Data.Fin.Basic
import Mathlib.Data.List.TakeWhile
import Apmpr.Lib.Text

/-!
# Texts of addresses

The text an address is printed as is read back as the address (`IpAddr.parse_display`): four
octets between dots, or groups in hexadecimal between colons, where the longest run of zero
groups is left out.
-/

namespace Apmpr.IpAddr

/-! ### Numbers -/

theorem digitValue_digitChar {base d : ℕ} (hbase : base ≤ 16) (hd : d < base) :
    digitValue base (Nat.digitChar d) = some d := by
  have hall : ∀ base < 17, ∀ d < base, digitValue base (Nat.digitChar d) = some d := by decide +kernel
  exact hall base (by omega) d hd

/-- The digits of a number, as numbers. -/
theorem exists_digits {base : ℕ} (hbase : 1 < base) (n : ℕ) : ∃ ds : List ℕ,
    Nat.toDigits base n = ds.map Nat.digitChar ∧ (∀ d ∈ ds, d < base) ∧ ds.foldl (fun acc d => acc * base + d) 0 = n := by
  induction n using Nat.strongRecOn with
  | ind n ih =>
    rcases Nat.lt_or_ge n base with hlt | hle
    · exact ⟨[n], by simp [Nat.toDigits_of_lt_base hlt], by simpa using hlt, by simp⟩
    · obtain ⟨ds, hds, hbound, hvalue⟩ := ih (n / base) (Nat.div_lt_self (by omega) hbase)
      refine ⟨ds ++ [n % base], ?_, ?_, ?_⟩
      · rw [Nat.toDigits_of_base_le hbase hle, hds, List.map_append]
        rfl
      · intro d hd
        rcases List.mem_append.mp hd with hd | hd
        · exact hbound d hd
        · rw [List.mem_singleton.mp hd]
          exact Nat.mod_lt n (by omega)
      · rw [List.foldl_append, hvalue]
        exact Nat.div_add_mod' n base

/-- What follows a number does not go on with a digit. -/
def EndsNumber (base : ℕ) (rest : List Char) : Prop := ∀ c ∈ rest.head?, digitValue base c = none

theorem takeDigits_of_endsNumber {base : ℕ} {rest : List Char} (h : EndsNumber base rest) :
    takeDigits base rest = ([], rest) := by
  cases rest with
  | nil => rfl
  | cons c rest => rw [takeDigits, h c rfl]

theorem takeDigits_append {base : ℕ} (hbase : base ≤ 16) {ds : List ℕ} (hds : ∀ d ∈ ds, d < base) {rest : List Char}
    (h : EndsNumber base rest) : takeDigits base (ds.map Nat.digitChar ++ rest) = (ds, rest) := by
  induction ds with
  | nil => exact takeDigits_of_endsNumber h
  | cons d ds ih =>
    rw [List.forall_mem_cons] at hds
    rw [List.map_cons, List.cons_append, takeDigits, digitValue_digitChar hbase hds.1, ih hds.2]

/-- A printed number is read back, whatever follows it. -/
theorem readNumber_toDigits {base maxDigits bound n : ℕ} (hbase : 1 < base) (hbase' : base ≤ 16) (hn : n < bound)
    (hdigits : (Nat.toDigits base n).length ≤ maxDigits) {zeroPrefix : Bool}
    (hzero : zeroPrefix = true ∨ (Nat.toDigits base n).head? ≠ some '0' ∨ (Nat.toDigits base n).length = 1)
    {rest : List Char} (h : EndsNumber base rest) :
    readNumber base maxDigits bound zeroPrefix (Nat.toDigits base n ++ rest) = some (n, rest) := by
  obtain ⟨ds, htext, hds, hvalue⟩ := exists_digits hbase n
  have hne : ds ≠ [] := by
    rintro rfl
    exact Nat.toDigits_ne_nil htext
  rw [htext, List.length_map] at hdigits
  rw [htext] at hzero
  have hprefix : (!zeroPrefix && decide (ds.head? = some 0) && decide (1 < ds.length)) = false := by
    rcases hzero with rfl | hhead | hlength
    · rfl
    · cases ds with
      | nil => exact absurd rfl hne
      | cons d ds =>
        have hd : d ≠ 0 := by
          rintro rfl
          exact hhead rfl
        simp [hd]
    · rw [List.length_map] at hlength
      simp [hlength]
  have hfits : (ds.isEmpty || decide (maxDigits < ds.length) || decide (bound ≤ n)) = false := by
    simp [hne, hdigits, hn]
  unfold readNumber
  rw [htext, takeDigits_append hbase' hds h]
  dsimp only
  rw [hvalue, hfits, hprefix]
  rfl

/-- A printed octet is read back. -/
theorem readNumber_octet (a : Fin 256) {rest : List Char} (h : EndsNumber 10 rest) :
    readNumber 10 3 256 false (Nat.toDigits 10 a ++ rest) = some (a.val, rest) := by
  refine readNumber_toDigits (by decide) (by decide) a.isLt
    ((Nat.length_toDigits_le_iff (by decide) (by decide)).mpr (lt_of_lt_of_le a.isLt (by decide))) (.inr ?_) h
  have hall : ∀ a : Fin 256, (Nat.toDigits 10 a).head? ≠ some '0' ∨ (Nat.toDigits 10 a).length = 1 := by decide +kernel
  exact hall a

/-- A printed group is read back. -/
theorem readNumber_group (g : Fin 65536) {rest : List Char} (h : EndsNumber 16 rest) :
    readNumber 16 4 65536 true (Nat.toDigits 16 g ++ rest) = some (g.val, rest) :=
  readNumber_toDigits (by decide) (by decide) g.isLt
    ((Nat.length_toDigits_le_iff (by decide) (by decide)).mpr (lt_of_lt_of_le g.isLt (by decide))) (.inl rfl) h

/-! ### Four octets -/

theorem endsNumber_dot (rest : List Char) : EndsNumber 10 ('.' :: rest) := by
  rintro c ⟨⟩
  decide

theorem readV4_display (a b c d : Fin 256) {rest : List Char} (h : EndsNumber 10 rest) :
    readV4 (Nat.toDigits 10 a ++ '.' :: (Nat.toDigits 10 b ++ '.' :: (Nat.toDigits 10 c ++ '.' ::
      (Nat.toDigits 10 d ++ rest)))) = some ((a, b, c, d), rest) := by
  simp only [readV4, readNumber_octet _ (endsNumber_dot _), readNumber_octet _ h, readChar, if_true, Option.bind_some,
    Option.bind_eq_bind]
  simp

/-- Four octets are read only where there is a dot. -/
theorem dot_mem_of_readV4 {s : List Char} (h : (readV4 s).isSome = true) : '.' ∈ s := by
  have hsuffix : ∀ base (s : List Char), (takeDigits base s).2 <:+ s := by
    intro base s
    induction s with
    | nil => exact List.suffix_rfl
    | cons c rest ih =>
      rw [takeDigits]
      split
      · exact ih.trans (List.suffix_cons c rest)
      · exact List.suffix_rfl
  unfold readV4 at h
  cases hnumber : readNumber 10 3 256 false s with
  | none => simp [hnumber] at h
  | some r =>
    obtain ⟨a, rest⟩ := r
    have hrest : rest <:+ s := by
      unfold readNumber at hnumber
      dsimp only at hnumber
      split_ifs at hnumber
      obtain ⟨-, rfl⟩ := Prod.mk.inj (Option.some.inj hnumber)
      exact hsuffix 10 s
    cases rest with
    | nil => simp [hnumber, readChar] at h
    | cons c rest =>
      by_cases hc : c = '.'
      · subst hc
        exact hrest.subset (List.mem_cons_self ..)
      · simp [hnumber, readChar, hc] at h

/-! ### Groups -/

/-- Groups that follow others, each after a colon. -/
def tailChars (groups : List (Fin 65536)) : List Char := groups.flatMap fun g => ':' :: Nat.toDigits 16 g.val

/-- The characters of printed groups. -/
def groupChars : List (Fin 65536) → List Char
  | [] => []
  | g :: rest => Nat.toDigits 16 g ++ tailChars rest

theorem toList_displayGroups (groups : List (Fin 65536)) : (displayGroups groups).toList = groupChars groups := by
  induction groups with
  | nil => simp [displayGroups, groupChars]
  | cons g rest ih =>
    cases rest with
    | nil => simp [displayGroups, groupChars, tailChars]
    | cons h rest =>
      have hcons : displayGroups (g :: h :: rest) =
          String.ofList (Nat.toDigits 16 g) ++ ":" ++ displayGroups (h :: rest) := String.intercalate_cons_cons
      rw [hcons, String.toList_append, String.toList_append, String.toList_ofList, ih]
      simp [groupChars, tailChars]

theorem dot_not_mem_toDigits (n : ℕ) : '.' ∉ Nat.toDigits 16 n := by
  obtain ⟨ds, hds, hbound, -⟩ := exists_digits (show 1 < 16 by decide) n
  rw [hds, List.mem_map]
  rintro ⟨d, hd, heq⟩
  have hall : ∀ d < 16, Nat.digitChar d ≠ '.' := by decide
  exact hall d (hbound d hd) heq

theorem dot_not_mem_tailChars (groups : List (Fin 65536)) : '.' ∉ tailChars groups := by
  rw [tailChars, List.mem_flatMap]
  rintro ⟨g, -, hg⟩
  rcases List.mem_cons.mp hg with hg | hg
  · exact absurd hg (by decide)
  · exact dot_not_mem_toDigits g hg

theorem dot_not_mem_groupChars (groups : List (Fin 65536)) : '.' ∉ groupChars groups := by
  cases groups with
  | nil => exact List.not_mem_nil
  | cons g rest =>
    rw [groupChars, List.mem_append, not_or]
    exact ⟨dot_not_mem_toDigits g, dot_not_mem_tailChars rest⟩

/-- What follows printed groups: nothing, or two colons. -/
def Stops (rest : List Char) : Prop := rest = [] ∨ ∃ more, rest = ':' :: ':' :: more

theorem endsNumber_of_stops {rest : List Char} (h : Stops rest) : EndsNumber 16 rest := by
  rcases h with rfl | ⟨more, rfl⟩
  · rintro c ⟨⟩
  · rintro c ⟨⟩
    decide

theorem endsNumber_tailChars (groups : List (Fin 65536)) {rest : List Char} (h : Stops rest) :
    EndsNumber 16 (tailChars groups ++ rest) := by
  cases groups with
  | nil => exact endsNumber_of_stops h
  | cons g groups =>
    rintro c ⟨⟩
    decide

theorem readNumber_of_endsNumber {s : List Char} (h : EndsNumber 16 s) : readNumber 16 4 65536 true s = none := by
  simp [readNumber, takeDigits_of_endsNumber h]

theorem readV4_of_dot_not_mem {s : List Char} (h : '.' ∉ s) : readV4 s = none := by
  cases hread : readV4 s with
  | none => rfl
  | some r => exact absurd (dot_mem_of_readV4 (by rw [hread]; rfl)) h

/-- Without a dot no octets are read. -/
theorem readSeparated_readV4 {s : List Char} (h : '.' ∉ s) (index : ℕ) : readSeparated ':' index readV4 s = none := by
  rw [readSeparated]
  split_ifs
  · exact readV4_of_dot_not_mem h
  · cases s with
    | nil => rfl
    | cons c rest =>
      rw [readChar]
      split_ifs
      · exact readV4_of_dot_not_mem fun hmem => h (List.mem_cons_of_mem _ hmem)
      · rfl

/-- One round of `readGroups` where no octets can be read. -/
theorem readGroups_succ {s : List Char} (h : '.' ∉ s) (fuel index : ℕ) :
    readGroups (fuel + 1) index s =
      match readSeparated ':' index (readNumber 16 4 65536 true) s with
      | some (g, rest) => (Fin.ofNat 65536 g :: (readGroups fuel (index + 1) rest).1, (readGroups fuel (index + 1) rest).2)
      | none => ([], false, s) := by
  have hoctets : (if 0 < fuel then readSeparated ':' index readV4 s else none) = none := by
    rw [readSeparated_readV4 h, ite_self]
  cases hread : readSeparated ':' index (readNumber 16 4 65536 true) s with
  | none => simp [readGroups, hoctets, hread]
  | some read => simp [readGroups, hoctets, hread]

/-- No group is read where groups stop. -/
theorem readGroups_stops {rest : List Char} (h : Stops rest) (hdot : '.' ∉ rest) (fuel index : ℕ) :
    readGroups fuel index rest = ([], false, rest) := by
  cases fuel with
  | zero => rfl
  | succ fuel =>
    have hnone : readSeparated ':' index (readNumber 16 4 65536 true) rest = none := by
      rw [readSeparated]
      split_ifs
      · exact readNumber_of_endsNumber (endsNumber_of_stops h)
      · rcases h with rfl | ⟨more, rfl⟩
        · rfl
        · have hends : EndsNumber 16 (':' :: more) := by
            rintro c ⟨⟩
            decide
          exact readNumber_of_endsNumber hends
    rw [readGroups_succ hdot, hnone]

theorem readGroups_tail (groups : List (Fin 65536)) {rest : List Char} (h : Stops rest) (hdot : '.' ∉ rest) {fuel : ℕ}
    (hfuel : groups.length ≤ fuel) (index : ℕ) :
    readGroups fuel (index + 1) (tailChars groups ++ rest) = (groups, false, rest) := by
  induction groups generalizing fuel index with
  | nil => exact readGroups_stops h hdot fuel (index + 1)
  | cons g groups ih =>
    cases fuel with
    | zero => cases hfuel
    | succ fuel =>
      have hread : readSeparated ':' (index + 1) (readNumber 16 4 65536 true) (tailChars (g :: groups) ++ rest) =
          some (g.val, tailChars groups ++ rest) := by
        rw [readSeparated, if_neg (Nat.succ_ne_zero index), tailChars, List.flatMap_cons, List.append_assoc]
        exact readNumber_group g (endsNumber_tailChars groups h)
      have hdots : '.' ∉ tailChars (g :: groups) ++ rest := by
        rw [List.mem_append, not_or]
        exact ⟨dot_not_mem_tailChars _, hdot⟩
      rw [readGroups_succ hdots, hread]
      dsimp only
      rw [ih (Nat.le_of_succ_le_succ hfuel) (index + 1), Fin.ofNat_val_eq_self]

/-- Printed groups are read back. -/
theorem readGroups_groupChars (groups : List (Fin 65536)) {rest : List Char} (h : Stops rest) (hdot : '.' ∉ rest) {fuel : ℕ}
    (hfuel : groups.length ≤ fuel) : readGroups fuel 0 (groupChars groups ++ rest) = (groups, false, rest) := by
  cases groups with
  | nil => exact readGroups_stops h hdot fuel 0
  | cons g groups =>
    cases fuel with
    | zero => cases hfuel
    | succ fuel =>
      have hdots : '.' ∉ groupChars (g :: groups) ++ rest := by
        rw [List.mem_append, not_or]
        exact ⟨dot_not_mem_groupChars _, hdot⟩
      rw [readGroups_succ hdots, readSeparated, if_pos rfl, groupChars, List.append_assoc,
        readNumber_group g (endsNumber_tailChars groups h)]
      dsimp only
      rw [readGroups_tail groups h hdot (Nat.le_of_succ_le_succ hfuel) 0, Fin.ofNat_val_eq_self]

/-! ### Runs of zeros -/

/-- The run that is left out consists of zeros. -/
theorem zeroRun_spec (groups : List (Fin 65536)) :
    groups.take (zeroRun groups).1 ++ List.replicate (zeroRun groups).2 0 ++
      groups.drop ((zeroRun groups).1 + (zeroRun groups).2) = groups := by
  unfold zeroRun
  dsimp only
  refine List.foldlRecOn (motive := fun best : ℕ × ℕ =>
    groups.take best.1 ++ List.replicate best.2 0 ++ groups.drop (best.1 + best.2) = groups) _ _ (by simp) ?_
  intro best hbest run hrun
  split_ifs
  · obtain ⟨⟨g, i⟩, -, rfl⟩ := List.mem_map.mp hrun
    dsimp only
    have hzeros : List.replicate ((groups.drop i).takeWhile (· = 0)).length 0 = (groups.drop i).takeWhile (· = 0) := by
      refine (List.eq_replicate_of_mem fun g hg => ?_).symm
      have hzero := List.mem_takeWhile_imp hg
      simpa using hzero
    have hrest : groups.drop (i + ((groups.drop i).takeWhile (· = 0)).length) = (groups.drop i).dropWhile (· = 0) := by
      rw [← List.drop_drop]
      nth_rewrite 2 [← List.takeWhile_append_dropWhile (p := (· = 0)) (l := groups.drop i)]
      exact List.drop_left
    rw [hzeros, hrest, List.append_assoc, List.takeWhile_append_dropWhile, List.take_append_drop]
  · exact hbest

theorem ofGroups_toList (groups : Vector (Fin 65536) 8) : ofGroups groups.toList = .v6 groups := by
  rw [ofGroups]
  congr 1
  ext i hi
  simp

/-! ### Addresses -/

theorem readV6_groups {groups : Vector (Fin 65536) 8} : readV6 (groupChars groups.toList) = some (.v6 groups, []) := by
  have hread := readGroups_groupChars groups.toList (Or.inl rfl) List.not_mem_nil (show groups.toList.length ≤ 8 by simp)
  rw [List.append_nil] at hread
  rw [readV6, hread]
  simp [ofGroups_toList]

/-- Groups around two colons are read back as groups around zeros. -/
theorem readV6_run {front back : List (Fin 65536)} (h : front.length + back.length ≤ 6) :
    readV6 (groupChars front ++ ':' :: ':' :: groupChars back) =
      some (ofGroups (front ++ List.replicate (8 - front.length - back.length) 0 ++ back), []) := by
  have hdot : '.' ∉ ':' :: ':' :: groupChars back := by
    rw [List.mem_cons, List.mem_cons, not_or, not_or]
    exact ⟨by decide, by decide, dot_not_mem_groupChars back⟩
  have hfront := readGroups_groupChars front (Or.inr ⟨groupChars back, rfl⟩) hdot (show front.length ≤ 8 by omega)
  have hback := readGroups_groupChars back (Or.inl rfl) List.not_mem_nil (show back.length ≤ 7 - front.length by omega)
  rw [List.append_nil] at hback
  rw [readV6, hfront]
  dsimp only
  rw [if_neg (by omega), if_neg Bool.false_ne_true]
  simp only [readChar, if_true, Option.bind_some, hback]

/-- The halves of a group, as octets. -/
theorem mapped_octets (g : Fin 65536) :
    ∃ high low : Fin 256, (g / 256 : Fin 65536).val = high.val ∧ (g % 256 : Fin 65536).val = low.val ∧
      Fin.ofNat 65536 (high.val * 256 + low.val) = g := by
  have hhigh : (g / 256 : Fin 65536).val = g.val / 256 := rfl
  have hlow : (g % 256 : Fin 65536).val = g.val % 256 := rfl
  refine ⟨⟨g.val / 256, by omega⟩, ⟨g.val % 256, by omega⟩, hhigh, hlow, Fin.ext ?_⟩
  simp only [Fin.ofNat]
  omega

/-- The text of an address that is mapped from four octets is read back. -/
theorem readV6_mapped (g h : Fin 65536) :
    readV6 (s!"::ffff:{g / 256}.{g % 256}.{h / 256}.{h % 256}".toList) =
      some (ofGroups [0, 0, 0, 0, 0, 65535, g, h], []) := by
  obtain ⟨a, b, ha, hb, hg⟩ := mapped_octets g
  obtain ⟨c, d, hc, hd, hh⟩ := mapped_octets h
  have hdigits : ∀ n : Fin 65536, (toString n).toList = Nat.toDigits 10 n.val := fun n => Nat.toList_repr
  have htext : (s!"::ffff:{g / 256}.{g % 256}.{h / 256}.{h % 256}").toList =
      ':' :: ':' :: (['f', 'f', 'f', 'f'] ++ ':' :: (Nat.toDigits 10 a ++ '.' :: (Nat.toDigits 10 b ++ '.' ::
        (Nat.toDigits 10 c ++ '.' :: (Nat.toDigits 10 d ++ []))))) := by
    have hcolons : (toString "::ffff:").toList = [':', ':', 'f', 'f', 'f', 'f', ':'] := by decide
    have hdot : (toString ".").toList = ['.'] := by decide
    simp only [String.toList_append, hdigits, ha, hb, hc, hd, hcolons, hdot]
    simp
  have hoctets : readV4 (Nat.toDigits 10 a ++ '.' :: (Nat.toDigits 10 b ++ '.' :: (Nat.toDigits 10 c ++ '.' ::
      (Nat.toDigits 10 d ++ [])))) = some ((a, b, c, d), []) := by
    refine readV4_display a b c d ?_
    rintro _ ⟨⟩
  rw [htext]
  generalize Nat.toDigits 10 a ++ '.' :: (Nat.toDigits 10 b ++ '.' :: (Nat.toDigits 10 c ++ '.' ::
      (Nat.toDigits 10 d ++ []))) = octets at hoctets ⊢
  have hmapped : readV4 (['f', 'f', 'f', 'f'] ++ ':' :: octets) = none := rfl
  have hffff : readNumber 16 4 65536 true (['f', 'f', 'f', 'f'] ++ ':' :: octets) = some (65535, ':' :: octets) := by
    have hends : EndsNumber 16 (':' :: octets) := by
      rintro _ ⟨⟩
      decide
    exact readNumber_group 65535 hends
  have hlast : readGroups 6 1 (':' :: octets) = ([g, h], true, []) := by
    simp only [readGroups, readSeparated, readChar, if_true, Option.bind_some, hoctets, Nat.succ_ne_zero, if_false,
      Nat.zero_lt_succ, hg, hh]
  have hgroups : readGroups 7 0 (['f', 'f', 'f', 'f'] ++ ':' :: octets) = ([65535, g, h], true, []) := by
    rw [readGroups]
    simp only [readSeparated, if_true, hmapped, hffff, ite_self, hlast]
    rfl
  have hnone : readGroups 8 0 (':' :: ':' :: (['f', 'f', 'f', 'f'] ++ ':' :: octets)) =
      ([], false, ':' :: ':' :: (['f', 'f', 'f', 'f'] ++ ':' :: octets)) := rfl
  rw [readV6, hnone]
  simp only [List.length_nil, OfNat.zero_ne_ofNat, if_false, Bool.false_eq_true, readChar, if_true,
    Option.bind_some, Nat.sub_zero, hgroups]
  rfl

/-- **A printed address is read back.** -/
theorem parse_display (address : IpAddr) : parse address.display = some address := by
  cases address with
  | v4 a b c d =>
    have hdigits : ∀ n : Fin 256, (toString n).toList = Nat.toDigits 10 n.val := fun n => Nat.toList_repr
    have hdot : (toString ".").toList = ['.'] := by decide
    have htext : (display (.v4 a b c d)).toList = Nat.toDigits 10 a ++ '.' :: (Nat.toDigits 10 b ++ '.' ::
        (Nat.toDigits 10 c ++ '.' :: (Nat.toDigits 10 d ++ []))) := by
      simp only [display, String.toList_append, hdigits, hdot]
      simp
    have hread := readV4_display a b c d (show EndsNumber 10 [] from by rintro _ ⟨⟩)
    rw [parse, readIp, htext, hread]
  | v6 groups =>
    have hread : ∀ text : String, readV4 text.toList = none → readV6 text.toList = some (.v6 groups, []) →
        parse text = some (.v6 groups) := by
      intro text hv4 hv6
      rw [parse, readIp, hv4, hv6]
    rw [display]
    split
    · rename_i g h hgroups
      have hcolon : ∀ text : String, readV4 (toString "::ffff:" ++ text).toList = none := by
        intro text
        rw [String.toList_append]
        rfl
      refine hread _ (by simpa only [String.append_assoc] using hcolon _) ?_
      rw [readV6_mapped, ← hgroups, ofGroups_toList]
    · dsimp only
      have hrun := zeroRun_spec groups.toList
      have hlength := congrArg List.length hrun
      rw [List.length_append, List.length_append, List.length_replicate, Vector.length_toList] at hlength
      split_ifs with hlong
      · have htext : (displayGroups (groups.toList.take (zeroRun groups.toList).1) ++ "::" ++
            displayGroups (groups.toList.drop ((zeroRun groups.toList).1 + (zeroRun groups.toList).2))).toList =
            groupChars (groups.toList.take (zeroRun groups.toList).1) ++ ':' :: ':' ::
              groupChars (groups.toList.drop ((zeroRun groups.toList).1 + (zeroRun groups.toList).2)) := by
          simp [String.toList_append, toList_displayGroups]
        generalize groups.toList.take (zeroRun groups.toList).1 = front at *
        generalize groups.toList.drop ((zeroRun groups.toList).1 + (zeroRun groups.toList).2) = back at *
        have hcount : 8 - front.length - back.length = (zeroRun groups.toList).2 := by omega
        refine hread _ (readV4_of_dot_not_mem ?_) ?_
        · rw [htext, List.mem_append, List.mem_cons, List.mem_cons, not_or, not_or, not_or]
          exact ⟨dot_not_mem_groupChars front, by decide, by decide, dot_not_mem_groupChars back⟩
        · rw [htext, readV6_run (by omega), hcount, hrun, ofGroups_toList]
      · refine hread _ (readV4_of_dot_not_mem ?_) ?_
        · rw [toList_displayGroups]
          exact dot_not_mem_groupChars _
        · rw [toList_displayGroups, readV6_groups]

end Apmpr.IpAddr
