/-
Values of the command line, displayed and read again.

The text of a scalar is not quoted, and a list has a comma behind each of its items, the last one included. A reader takes
the brackets off, cuts at the commas, trims, drops what is empty, and then guesses the kind of every entry. A scalar is
plain when the guess is right and nothing in its text is lost on the way: a text must be an entry of a comma list and must
not look like any other value, while nothing, truth values and numbers of 64 bits are always plain.

`Reads` is what the reader needs to know about the text of a scalar. It holds of all plain scalars (`Plain.reads`, the
numbers by `signedChars?_toString`), and a list is read back item by item (`ofText_display`).
-/
import Mathlib.Data.List.Basic
import TestTrail.Argument.Reading
import TestTrail.Proofs.Text.Moments

namespace TestTrail

open TestTrail.Text TestTrail.Decimal

namespace Text

/-! ## Whole numbers -/

theorem naturalChars?_toDigits (n : Nat) : naturalChars? (Nat.toDigits 10 n) = some n := by
  have hempty : (Nat.toDigits 10 n).isEmpty = false := List.isEmpty_eq_false_iff.2 Nat.toDigits_ne_nil
  have hdigits : (Nat.toDigits 10 n).all isDigit = true :=
    List.all_eq_true.2 fun _ hc => Nat.isDigit_of_mem_toDigits (by decide) (by decide) hc
  have hvalue : digitsValue (Nat.toDigits 10 n) = n := Nat.ofDigitChars_ten_toDigits
  rw [naturalChars?, hempty, hdigits, hvalue]
  rfl

/-- the text of a number: its digits, behind a minus sign below zero -/
theorem toList_toString_int (i : Int) :
    (toString i).toList = (if i < 0 then ['-'] else []) ++ Nat.toDigits 10 i.natAbs := by
  cases i with
  | ofNat n =>
    rw [if_neg (show ¬Int.ofNat n < 0 from Int.not_lt.2 (Int.natCast_nonneg n))]
    exact Nat.toList_repr
  | negSucc n =>
    rw [if_pos (Int.negSucc_lt_zero n)]
    change ("-" ++ Nat.repr (n + 1)).toList = _
    rw [String.toList_append, Nat.toList_repr]
    rfl

theorem mem_toString_int {i : Int} {c : Char} (h : c ∈ (toString i).toList) : isDigit c = true ∨ c = '-' := by
  rw [toList_toString_int, List.mem_append] at h
  rcases h with h | h
  · split at h
    · exact .inr (List.mem_singleton.1 h)
    · cases h
  · exact .inl (Nat.isDigit_of_mem_toDigits (by decide) (by decide) h)

/-- a whole number as one of 64 bits, if it is in their range -/
def within64 (i : Int) : Option Int64 :=
  ((some i).filter fun i => decide (-9223372036854775808 ≤ i ∧ i < 9223372036854775808)).map Int64.ofInt

theorem within64_toInt (i : Int64) : within64 i.toInt = some i := by
  have hrange : decide (-9223372036854775808 ≤ i.toInt ∧ i.toInt < 9223372036854775808) = true :=
    decide_eq_true ⟨Int64.le_toInt i, Int64.toInt_lt i⟩
  simp only [within64, Option.filter_some, hrange, if_true, Option.map_some, Int64.ofInt_toInt]

theorem signedChars?_minus {ds : List Char} {n : Nat} (h : naturalChars? ds = some n) :
    signedChars? ('-' :: ds) = within64 (-(n : Int)) := by
  simp only [signedChars?, h]
  rfl

/-- a number that begins with a digit has no sign -/
theorem signedChars?_digit {c : Char} {cs : List Char} {n : Nat} (hc : isDigit c = true)
    (h : naturalChars? (c :: cs) = some n) : signedChars? (c :: cs) = within64 n := by
  unfold signedChars?
  split
  · rename_i heq
    rw [(List.cons.inj heq).1] at hc
    cases hc
  · rename_i heq
    rw [(List.cons.inj heq).1] at hc
    cases hc
  · rw [h]
    rfl

/-- every number of 64 bits is read back, the smallest one included -/
theorem signedChars?_toString (i : Int64) : signedChars? (toString i.toInt).toList = some i := by
  have hdigits := naturalChars?_toDigits i.toInt.natAbs
  rw [toList_toString_int]
  by_cases hneg : i.toInt < 0
  · rw [if_pos hneg, List.singleton_append, signedChars?_minus hdigits,
      show -(i.toInt.natAbs : Int) = i.toInt by omega, within64_toInt]
  · rw [if_neg hneg, List.nil_append]
    rcases hshape : Nat.toDigits 10 i.toInt.natAbs with _ | ⟨c, cs⟩
    · exact absurd hshape Nat.toDigits_ne_nil
    · have hc : isDigit c = true := Nat.isDigit_of_mem_toDigits (by decide) (by decide) (hshape ▸ List.mem_cons_self)
      rw [hshape] at hdigits
      rw [signedChars?_digit hc hdigits, show (i.toInt.natAbs : Int) = i.toInt by omega, within64_toInt]

theorem isEntry_toString_int (i : Int) : CommaList.IsEntry (toString i).toList := by
  refine CommaList.isEntry_of_no_blank ?_ (fun hcomma => ?_) (List.any_eq_false.2 fun c hc => ?_)
  · rw [toList_toString_int]
    exact List.append_ne_nil_of_right_ne_nil _ Nat.toDigits_ne_nil
  · rcases mem_toString_int hcomma with hdigit | hminus
    · cases hdigit
    · cases hminus
  · rcases mem_toString_int hc with hdigit | rfl
    · rw [isBlank_of_isDigit hdigit]
      exact Bool.false_ne_true
    · decide

end Text

namespace Value

/-! ## Plain scalars -/

/-- a text that no reader takes for anything else -/
structure PlainText (s : String) : Prop where
  entry : CommaList.IsEntry s.toList
  no_brackets : ∀ inner, s ≠ "[" ++ inner ++ "]"
  no_null : s ≠ "null"
  no_true : s ≠ "true"
  no_false : s ≠ "false"
  no_int : signed? s = none
  no_float : Binary64.read? s = none

/-- the scalars that keep their kind without quotes -/
def Plain : Value → Prop
  | null => True
  | bool _ => True
  | int _ => True
  | float _ => False
  | text s => PlainText s
  | list _ => False

/-- what the reader finds in the text of a scalar -/
structure Reads (cs : List Char) (v : Value) : Prop where
  entry : CommaList.IsEntry cs
  no_brackets : bracketed? cs = none
  scalar : ofScalarChars cs = v

theorem bracketed?_eq_some {cs inner : List Char} (h : bracketed? cs = some inner) : cs = '[' :: inner ++ [']'] := by
  unfold bracketed? at h
  split at h
  · split at h
    · rename_i rest hlast
      cases h
      exact congrArg ('[' :: ·) (List.dropLast_append_getLast? _ hlast).symm
    · cases h
  · cases h

theorem bracketed?_brackets (inner : List Char) : bracketed? ('[' :: inner ++ [']']) = some inner := by
  simp [bracketed?]

theorem reads_int (i : Int64) : Reads (int i).display.toList (int i) := by
  have hsigned := signedChars?_toString i
  have hword : ∀ {word : String}, signed? word = none → String.ofList (toString i.toInt).toList ≠ word := by
    intro word hnone heq
    rw [← heq, signed?, String.toList_ofList, hsigned] at hnone
    cases hnone
  refine ⟨isEntry_toString_int i.toInt, ?_, ?_⟩
  · cases hbrackets : bracketed? (int i).display.toList with
    | none => rfl
    | some inner =>
      have hbracket : '[' ∈ (toString i.toInt).toList := by
        rw [show (toString i.toInt).toList = _ from bracketed?_eq_some hbrackets]
        exact List.mem_cons_self
      rcases mem_toString_int hbracket with hdigit | hminus
      · cases hdigit
      · cases hminus
  · unfold ofScalarChars
    dsimp only [display]
    rw [if_neg (hword rfl), if_neg (hword rfl), if_neg (hword rfl), hsigned]

theorem PlainText.reads {s : String} (h : PlainText s) : Reads s.toList (text s) := by
  have hint : signedChars? s.toList = none := h.no_int
  have hfloat : Binary64.readChars? s.toList = none := h.no_float
  refine ⟨h.entry, ?_, ?_⟩
  · cases hbrackets : bracketed? s.toList with
    | none => rfl
    | some inner =>
      refine absurd ?_ (h.no_brackets (String.ofList inner))
      rw [← String.toList_inj, bracketed?_eq_some hbrackets]
      simp
  · unfold ofScalarChars
    simp only [String.ofList_toList, if_neg h.no_null, if_neg h.no_true, if_neg h.no_false, hint, hfloat]

theorem Plain.reads {v : Value} (h : v.Plain) : Reads v.display.toList v := by
  have hword : ∀ {cs : List Char}, cs = "null".toList ∨ cs = "true".toList ∨ cs = "false".toList →
      CommaList.IsEntry cs ∧ bracketed? cs = none := by
    rintro cs (rfl | rfl | rfl)
    all_goals exact ⟨CommaList.isEntry_of_no_blank (by decide) (by decide) (by decide), by decide⟩
  cases v with
  | null => exact ⟨(hword (.inl rfl)).1, (hword (.inl rfl)).2, rfl⟩
  | bool b =>
    cases b with
    | true => exact ⟨(hword (.inr (.inl rfl))).1, (hword (.inr (.inl rfl))).2, rfl⟩
    | false => exact ⟨(hword (.inr (.inr rfl))).1, (hword (.inr (.inr rfl))).2, rfl⟩
  | int i => exact reads_int i
  | text s => exact PlainText.reads h
  | float x => exact h.elim
  | list items => exact h.elim

/-! ## Reading back -/

/-- without brackets, a value is a scalar at any depth -/
theorem Reads.ofCharsWithin {cs : List Char} {v : Value} (h : Reads cs v) (depth : Nat) :
    Value.ofCharsWithin depth cs = v := by
  cases depth with
  | zero => exact h.scalar
  | succ depth => rw [Value.ofCharsWithin, h.no_brackets]; exact h.scalar

/-- the entries of a list's text are the texts of its items: the piece behind the last comma is empty -/
theorem entriesChars_displayItems {items : List Value} (h : ∀ v ∈ items, v.Plain) :
    CommaList.entriesChars (displayItems items).toList = items.map fun v => v.display.toList := by
  induction items with
  | nil => rfl
  | cons v items ih =>
    have hfirst := (h v List.mem_cons_self).reads.entry
    have htext : (displayItems (v :: items)).toList = v.display.toList ++ ',' :: (displayItems items).toList := by
      simp [displayItems]
    rw [htext, CommaList.entriesChars_append_comma hfirst, ih fun w hw => h w (List.mem_cons_of_mem v hw), List.map_cons]

/-- **The command line reads back what is displayed**, for plain scalars and for lists of them: of any length, with the
numbers over the whole range of 64 bits. -/
theorem ofText_display {v : Value} (h : v.Plain ∨ ∃ items, v = .list items ∧ ∀ w ∈ items, w.Plain) :
    ofText v.display = v := by
  rcases h with hscalar | ⟨items, rfl, hitems⟩
  · exact hscalar.reads.ofCharsWithin _
  · have htext : (list items).display.toList = '[' :: (displayItems items).toList ++ [']'] := by
      simp [display]
    have hread : ∀ depth, (items.map fun w => w.display.toList).map (ofCharsWithin depth) = items := fun depth => by
      rw [List.map_map]
      exact (List.map_congr_left fun w hw => (hitems w hw).reads.ofCharsWithin depth).trans (List.map_id' items)
    rw [ofText, ofChars, htext, List.cons_append, List.length_cons, ofCharsWithin, ← List.cons_append,
      bracketed?_brackets]
    dsimp only
    rw [entriesChars_displayItems hitems, hread]

/-- a list with the smallest number of 64 bits, and with a text that holds a blank and an opening bracket -/
theorem ofText_display_mixed :
    ofText (list [int Int64.minValue, text "[log in", null, bool true]).display =
      list [int Int64.minValue, text "[log in", null, bool true] := by
  have htext : PlainText "[log in" := by
    have hentry : CommaList.IsEntry "[log in".toList := by
      refine ⟨by decide, by decide, fun c hc => ?_, fun c hc => ?_⟩
      · obtain rfl : '[' = c := Option.some.inj hc
        decide
      · obtain rfl : 'n' = c := Option.some.inj hc
        decide
    refine ⟨hentry, fun inner h => ?_, by decide, by decide, by decide, rfl, rfl⟩
    have hlast := congrArg (fun s : String => s.toList.getLast?) h
    simp [List.getLast?_cons, List.getLast?_append] at hlast
  refine ofText_display (.inr ⟨_, rfl, ?_⟩)
  simp [Plain, htext]

end Value

end TestTrail
