/-
Moments of time, written and read again.

A number padded to a width is read back by a reader of so many digits, whatever follows (`number?_padded`), and by one
that takes all digits when something else follows. So every part of a moment is read back from where it was written, and
every moment is the one its text names (`Timestamp.read?_write`).

A local time that is shifted to UTC stays a moment unless it leaves the years in range (`Calendar.valid_minusOffset`), so
a reader that refuses the fields of no moment refuses nothing else.
-/
import Mathlib.Algebra.Group.Nat.Defs
import TestTrail.Timestamp

namespace TestTrail

namespace Text

theorem isDigit_eq (c : Char) : isDigit c = c.isDigit := rfl

theorem isBlank_of_isDigit {c : Char} (h : isDigit c = true) : isBlank c = false := by
  rw [isDigit_eq, Char.isDigit_iff_toNat] at h
  have hbounds : 48 ≤ c.toNat ∧ c.toNat ≤ 57 := h
  simp only [isBlank, Bool.or_eq_false_iff, Bool.and_eq_false_iff, decide_eq_false_iff_not, beq_eq_false_iff_ne]
  omega

/-! ## Padded numbers -/

theorem toList_pushn (s : String) (c : Char) (n : Nat) : (s.pushn c n).toList = s.toList ++ List.replicate n c := by
  rw [String.pushn_eq_repeat_push]
  induction n with
  | zero => simp [Nat.repeat]
  | succ n ih => rw [Nat.repeat, String.toList_push, ih, List.append_assoc, ← List.replicate_succ']

theorem toList_padded (width n : Nat) :
    (padded width n).toList = List.replicate (width - (Nat.toDigits 10 n).length) '0' ++ Nat.toDigits 10 n := by
  unfold padded
  rw [String.toList_append, toList_pushn, String.toList_empty, List.nil_append, ← String.length_toList,
    Nat.toString_eq_repr, Nat.toList_repr]

theorem isDigit_of_mem_padded {width n : Nat} {c : Char} (h : c ∈ (padded width n).toList) : isDigit c = true := by
  rw [toList_padded, List.mem_append] at h
  rcases h with h | h
  · rw [List.eq_of_mem_replicate h]
    rfl
  · exact Nat.isDigit_of_mem_toDigits (by decide) (by decide) h

theorem digitsValue_padded (width n : Nat) : digitsValue (padded width n).toList = n := by
  have hvalue : ∀ cs, digitsValue cs = Nat.ofDigitChars 10 cs 0 := fun _ => rfl
  rw [hvalue, toList_padded, Nat.ofDigitChars_append, Nat.ofDigitChars_replicate_zero, Nat.mul_zero,
    Nat.ofDigitChars_ten_toDigits]

theorem padded_ne_nil (width n : Nat) : (padded width n).toList ≠ [] := by
  rw [toList_padded]
  exact List.append_ne_nil_of_right_ne_nil _ Nat.toDigits_ne_nil

theorem length_padded {width n : Nat} (hwidth : 0 < width) (h : n < 10 ^ width) :
    (padded width n).toList.length = width := by
  have hdigits : (Nat.toDigits 10 n).length ≤ width := (Nat.length_toDigits_le_iff (by decide) hwidth).2 h
  rw [toList_padded, List.length_append, List.length_replicate]
  omega

theorem takeWhile_padded (width n : Nat) (rest : List Char) :
    ((padded width n).toList ++ rest).takeWhile isDigit = (padded width n).toList ++ rest.takeWhile isDigit :=
  List.takeWhile_append_of_pos fun _ => isDigit_of_mem_padded

theorem dropBlanks_padded (width n : Nat) (rest : List Char) :
    dropBlanks ((padded width n).toList ++ rest) = (padded width n).toList ++ rest := by
  rcases hdigits : (padded width n).toList with _ | ⟨c, cs⟩
  · exact absurd hdigits (padded_ne_nil width n)
  · exact dropBlanks_cons (isBlank_of_isDigit (isDigit_of_mem_padded (hdigits ▸ List.mem_cons_self))) _

end Text

/-! ## Calendar fields -/

namespace Calendar

theorem daysIn_bounds (year : Int) (month : Nat) : 28 ≤ daysIn year month ∧ daysIn year month ≤ 31 := by
  unfold daysIn
  split
  · split <;> decide
  all_goals decide

/-- month and day name a day of the year -/
def Dated (c : Calendar) : Prop := (1 ≤ c.month ∧ c.month ≤ 12) ∧ 1 ≤ c.day ∧ c.day ≤ daysIn c.year c.month

theorem valid_iff {c : Calendar} :
    c.valid = true ↔ yearInRange c.year = true ∧ c.Dated ∧ c.hour < 24 ∧ c.minute < 60 ∧ c.second ≤ 60 ∧
      c.nanos < 1000000000 := by
  simp only [valid, Dated, Bool.and_eq_true, decide_eq_true_eq, and_assoc]

/-- the next day is one, and the time of day stays -/
theorem Dated.nextDay {c : Calendar} (h : c.Dated) :
    c.nextDay.Dated ∧ c.nextDay.second = c.second ∧ c.nextDay.nanos = c.nanos := by
  obtain ⟨hmonth, hday⟩ := h
  have hfirst : ∀ year month, 1 ≤ daysIn year month := fun year month =>
    Nat.le_trans (by decide) (daysIn_bounds year month).1
  unfold Calendar.nextDay Dated
  split
  · exact ⟨⟨hmonth, Nat.succ_pos _, ‹_›⟩, rfl, rfl⟩
  split
  · exact ⟨⟨⟨Nat.succ_pos _, ‹_›⟩, Nat.le_refl 1, hfirst _ _⟩, rfl, rfl⟩
  · exact ⟨⟨⟨Nat.le_refl 1, Nat.le_add_left 1 11⟩, Nat.le_refl 1, hfirst _ _⟩, rfl, rfl⟩

/-- the day before is one, and the time of day stays -/
theorem Dated.previousDay {c : Calendar} (h : c.Dated) :
    c.previousDay.Dated ∧ c.previousDay.second = c.second ∧ c.previousDay.nanos = c.nanos := by
  obtain ⟨hmonth, hday⟩ := h
  have hlast := daysIn_bounds c.year (c.month - 1)
  unfold Calendar.previousDay Dated
  split
  · exact ⟨⟨hmonth, Nat.le_sub_one_of_lt ‹_›, Nat.le_trans (Nat.sub_le _ _) hday.2⟩, rfl, rfl⟩
  split
  · refine ⟨⟨⟨?_, ?_⟩, ?_, Nat.le_refl _⟩, rfl, rfl⟩ <;> dsimp only <;> omega
  · exact ⟨⟨⟨Nat.le_add_left 1 11, Nat.le_refl 12⟩, Nat.le_add_left 1 30, Nat.le_refl 31⟩, rfl, rfl⟩

/-- what a moment is shifted to is a moment, unless it leaves the years in range -/
theorem valid_minusOffset {c : Calendar} (h : c.valid = true) {minutes : Int} (hlow : -1440 < minutes)
    (hhigh : minutes < 1440) : (c.minusOffset minutes).valid = yearInRange (c.minusOffset minutes).year := by
  obtain ⟨-, hdated, hhour, hminute, hsecond, hnanos⟩ := valid_iff.1 h
  have hkept : (c.minusOffset minutes).Dated ∧ (c.minusOffset minutes).hour < 24 ∧
      (c.minusOffset minutes).minute < 60 ∧ (c.minusOffset minutes).second ≤ 60 ∧
      (c.minusOffset minutes).nanos < 1000000000 := by
    unfold minusOffset
    dsimp only
    by_cases hbefore : 60 * (c.hour : Int) + c.minute - minutes < 0
    · obtain ⟨hday, hsame, hsame'⟩ := hdated.previousDay
      rw [if_pos hbefore]
      exact ⟨hday, by omega, by omega, hsame ▸ hsecond, hsame' ▸ hnanos⟩
    rw [if_neg hbefore]
    by_cases hafter : 1440 ≤ 60 * (c.hour : Int) + c.minute - minutes
    · obtain ⟨hday, hsame, hsame'⟩ := hdated.nextDay
      rw [if_pos hafter]
      exact ⟨hday, by omega, by omega, hsame ▸ hsecond, hsame' ▸ hnanos⟩
    · rw [if_neg hafter]
      exact ⟨hdated, by omega, by omega, hsecond, hnanos⟩
  rw [Bool.eq_iff_iff, valid_iff]
  exact and_iff_left hkept

theorem minusOffset_zero {c : Calendar} (hhour : c.hour < 24) (hminute : c.minute < 60) :
    c.minusOffset 0 = c := by
  have htotal : (60 * (c.hour : Int) + c.minute - 0).toNat = 60 * c.hour + c.minute := by omega
  unfold minusOffset
  dsimp only
  rw [if_neg (by omega), if_neg (by omega)]
  dsimp only
  rw [htotal]
  rw [show (60 * c.hour + c.minute) / 60 = c.hour by omega, show (60 * c.hour + c.minute) % 60 = c.minute by omega]

end Calendar

namespace Timestamp

open Text

/-! ## The parts of a moment -/

theorem mark?_cons (mark : Char) (h : isBlank mark = false) (rest : List Char) :
    mark? mark (mark :: rest) = some rest := by
  unfold mark?
  rw [dropBlanks_cons h]
  exact if_pos rfl

/-- a number of so many places is read whatever follows -/
theorem number?_padded (width : Nat) {n : Nat} (hwidth : 0 < width) (h : n < 10 ^ width) (rest : List Char) :
    number? width ((padded width n).toList ++ rest) = some (n, rest) := by
  have hlength := length_padded hwidth h
  have htake : ((padded width n).toList ++ rest.takeWhile isDigit).take width = (padded width n).toList := by
    rw [List.take_append_of_le_length (Nat.le_of_eq hlength.symm), List.take_of_length_le (Nat.le_of_eq hlength)]
  unfold number?
  simp only [dropBlanks_padded, takeWhile_padded, htake]
  rw [if_neg (by simpa using padded_ne_nil width n), digitsValue_padded, List.drop_left]

/-- all digits up to something else are one number -/
theorem takeWhile_padded_cons {c : Char} (h : isDigit c = false) (width n : Nat) (rest : List Char) :
    ((padded width n).toList ++ c :: rest).takeWhile isDigit = (padded width n).toList := by
  rw [takeWhile_padded, List.takeWhile_cons_of_neg (Bool.eq_false_iff.1 h), List.append_nil]

/-- a year without a sign has four digits -/
theorem year?_of_isDigit {c : Char} (h : isDigit c = true) (rest : List Char) :
    year? (c :: rest) = (number? 4 (c :: rest)).map fun (n, rest) => ((n : Int), rest) := by
  unfold year?
  rw [dropBlanks_cons (isBlank_of_isDigit h)]
  split
  · rename_i heq
    rw [(List.cons.inj heq).1] at h
    cases h
  · rename_i heq
    rw [(List.cons.inj heq).1] at h
    cases h
  · rfl

theorem year?_minus (cs : List Char) :
    year? ("-".toList ++ cs) =
      if (cs.takeWhile isDigit).isEmpty then none
      else some (-1 * (digitsValue (cs.takeWhile isDigit) : Int), cs.drop (cs.takeWhile isDigit).length) := rfl

theorem year?_plus (cs : List Char) :
    year? ("+".toList ++ cs) =
      if (cs.takeWhile isDigit).isEmpty then none
      else some (1 * (digitsValue (cs.takeWhile isDigit) : Int), cs.drop (cs.takeWhile isDigit).length) := rfl

/-- behind a sign, all digits up to the dash are the year -/
theorem signed_padded (sign : Int) (n : Nat) (rest : List Char) :
    (if (((padded 4 n).toList ++ '-' :: rest).takeWhile isDigit).isEmpty then none
      else some (sign * (digitsValue (((padded 4 n).toList ++ '-' :: rest).takeWhile isDigit) : Int),
        ((padded 4 n).toList ++ '-' :: rest).drop (((padded 4 n).toList ++ '-' :: rest).takeWhile isDigit).length)) =
      some (sign * (n : Int), '-' :: rest) := by
  have hempty : (padded 4 n).toList.isEmpty = false := List.isEmpty_eq_false_iff.2 (padded_ne_nil 4 n)
  rw [takeWhile_padded_cons rfl, hempty, digitsValue_padded, List.drop_left]
  rfl

theorem year?_plain {year : Int} (h : 0 ≤ year ∧ year ≤ 9999) (rest : List Char) :
    year? ((padded 4 year.toNat).toList ++ '-' :: rest) = some (year, '-' :: rest) := by
  have hfour := number?_padded 4 (n := year.toNat) (by decide) (by omega) ('-' :: rest)
  rcases hdigits : (padded 4 year.toNat).toList with _ | ⟨c, cs⟩
  · exact absurd hdigits (padded_ne_nil 4 year.toNat)
  · rw [hdigits] at hfour
    have hdigit : isDigit c = true := isDigit_of_mem_padded (hdigits ▸ List.mem_cons_self)
    rw [List.cons_append, year?_of_isDigit hdigit, ← List.cons_append, hfour, Option.map_some]
    exact congrArg (fun y => some (y, '-' :: rest)) (Int.toNat_of_nonneg h.1)

theorem year?_yearText (year : Int) (rest : List Char) :
    year? ((yearText year).toList ++ '-' :: rest) = some (year, '-' :: rest) := by
  unfold yearText
  by_cases hplain : 0 ≤ year ∧ year ≤ 9999
  · rw [if_pos hplain, year?_plain hplain]
  · rw [if_neg hplain, String.toList_append, List.append_assoc]
    by_cases hneg : year < 0
    · rw [if_pos hneg, year?_minus, signed_padded, show (-1 : Int) * year.natAbs = year by omega]
    · rw [if_neg hneg, year?_plus, signed_padded, show (1 : Int) * year.natAbs = year by omega]

/-- fewer than nine places stand for the ones in front -/
theorem fraction?_places {width n : Nat} (hwidth : 0 < width) (hplaces : width ≤ 9) (h : n < 10 ^ width) :
    fraction? ('.' :: ((padded width n).toList ++ ['Z'])) = some (n * 10 ^ (9 - width), ['Z']) := by
  have hlength := length_padded hwidth h
  have hkept : (padded width n).toList.take 9 = (padded width n).toList :=
    List.take_of_length_le (Nat.le_trans (Nat.le_of_eq hlength) hplaces)
  unfold fraction?
  simp only [takeWhile_padded_cons (c := 'Z') rfl, hkept, digitsValue_padded]
  rw [if_neg (by simpa using padded_ne_nil width n), List.drop_left, hlength]
  rfl

theorem fraction?_fractionText {nanos : Nat} (h : nanos < 1000000000) :
    fraction? ((fractionText nanos).toList ++ ['Z']) = some (nanos, ['Z']) := by
  have hpoint : ∀ s : String, ("." ++ s).toList = '.' :: s.toList := fun s => by simp
  unfold fractionText
  by_cases hnone : nanos = 0
  · rw [if_pos hnone, hnone]
    rfl
  rw [if_neg hnone]
  by_cases hmillis : nanos % 1000000 = 0
  · rw [if_pos hmillis, hpoint, List.cons_append, fraction?_places (by decide) (by decide) (by omega)]
    exact congrArg (fun n => some (n, ['Z'])) (Nat.div_mul_cancel (Nat.dvd_of_mod_eq_zero hmillis))
  rw [if_neg hmillis]
  by_cases hmicros : nanos % 1000 = 0
  · rw [if_pos hmicros, hpoint, List.cons_append, fraction?_places (by decide) (by decide) (by omega)]
    exact congrArg (fun n => some (n, ['Z'])) (Nat.div_mul_cancel (Nat.dvd_of_mod_eq_zero hmicros))
  · rw [if_neg hmicros, hpoint, List.cons_append, fraction?_places (by decide) (by decide) (by omega)]
    exact congrArg (fun n => some (n, ['Z'])) (Nat.mul_one nanos)

theorem toList_write (t : Timestamp) :
    t.write.toList = (yearText t.year).toList ++ '-' :: ((padded 2 t.month).toList ++ '-' :: ((padded 2 t.day).toList ++
      'T' :: ((padded 2 t.hour).toList ++ ':' :: ((padded 2 t.minute).toList ++ ':' :: ((padded 2 t.second).toList ++
        ((fractionText t.nanos).toList ++ ['Z'])))))) := by
  simp [write, writeLocal]

theorem bind_of_eq_some {α β : Type} {x : Option α} {a : α} (h : x = some a) {f : α → Option β} : (x >>= f) = f a := by
  rw [h]
  rfl

/-- a text is read part by part, and what is read is checked at the end -/
theorem readChars?_of_parts {c : Calendar} {minutes : Int} {c₀ c₁ c₂ c₃ c₄ c₅ c₆ c₇ c₈ c₉ c₁₀ c₁₁ rest : List Char}
    (hyear : year? c₀ = some (c.year, c₁)) (hdash : mark? '-' c₁ = some c₂) (hmonth : number? 2 c₂ = some (c.month, c₃))
    (hdash' : mark? '-' c₃ = some c₄) (hday : number? 2 c₄ = some (c.day, 'T' :: c₅))
    (hhour : number? 2 c₅ = some (c.hour, c₆)) (hcolon : mark? ':' c₆ = some c₇)
    (hminute : number? 2 c₇ = some (c.minute, c₈)) (hcolon' : mark? ':' c₈ = some c₉)
    (hsecond : number? 2 c₉ = some (c.second, c₁₀)) (hnanos : fraction? c₁₀ = some (c.nanos, c₁₁))
    (hzone : offset? (dropBlanks c₁₁) = some (minutes, rest)) :
    readChars? c₀ =
      if (dropBlanks rest).isEmpty && c.valid then ofCalendar? (c.minusOffset minutes) else none := by
  unfold readChars?
  refine (bind_of_eq_some hyear).trans ?_
  refine (bind_of_eq_some hdash).trans ?_
  refine (bind_of_eq_some hmonth).trans ?_
  refine (bind_of_eq_some hdash').trans ?_
  refine (bind_of_eq_some hday).trans ?_
  refine (if_pos (Or.inr (Or.inl rfl))).trans ?_
  refine (bind_of_eq_some hhour).trans ?_
  refine (bind_of_eq_some hcolon).trans ?_
  refine (bind_of_eq_some hminute).trans ?_
  refine (bind_of_eq_some hcolon').trans ?_
  refine (bind_of_eq_some hsecond).trans ?_
  refine (bind_of_eq_some hnanos).trans ?_
  exact bind_of_eq_some hzone

@[simp] theorem ofCalendar?_toCalendar (t : Timestamp) : ofCalendar? t.toCalendar = some t := dif_pos t.valid

/-- **A moment is read back from its text**, with its year of any length and its fraction of a second. -/
@[simp] theorem read?_write (t : Timestamp) : read? t.write = some t := by
  obtain ⟨-, ⟨hmonth, hday⟩, hhour, hminute, hsecond, hnanos⟩ := Calendar.valid_iff.1 t.valid
  have hdays := Calendar.daysIn_bounds t.year t.month
  have hread := readChars?_of_parts (year?_yearText t.year _) (mark?_cons '-' rfl _)
    (number?_padded 2 (by decide) (by omega) _) (mark?_cons '-' rfl _) (number?_padded 2 (by decide) (by omega) _)
    (number?_padded 2 (by decide) (by omega) _) (mark?_cons ':' rfl _) (number?_padded 2 (by decide) (by omega) _)
    (mark?_cons ':' rfl _) (number?_padded 2 (by decide) (by omega) _) (fraction?_fractionText hnanos)
    (show offset? (dropBlanks ['Z']) = some (0, []) from rfl)
  rw [Calendar.minusOffset_zero hhour hminute, t.valid, ofCalendar?_toCalendar] at hread
  unfold read?
  rw [toList_write, hread]
  rfl

end Timestamp

end TestTrail
