/-
Blank characters and trimming.

A character is blank when Unicode gives it the White_Space property (25 code points). `trim` takes the blanks off both
ends of a text and leaves those inside. The functions on characters lists carry the theory; those on `String` wrap them.
`isBlank_of_isWhitespace` says that the ASCII blanks of the core library are among ours, and `trimChars_eq_self` that a
text without blanks at its ends stays as it is.
-/

namespace TestTrail.Text

/-- the 25 code points with the property White_Space -/
def isBlank (c : Char) : Bool :=
  let n := c.toNat
  (9 ≤ n && n ≤ 13) || n == 0x20 || n == 0x85 || n == 0xa0 || n == 0x1680 || (0x2000 ≤ n && n ≤ 0x200a) ||
    n == 0x2028 || n == 0x2029 || n == 0x202f || n == 0x205f || n == 0x3000

/-- drops the blanks at the front -/
def dropBlanks (cs : List Char) : List Char := cs.dropWhile isBlank

/-- drops the blanks at the end -/
def dropTrailingBlanks (cs : List Char) : List Char := (dropBlanks cs.reverse).reverse

/-- drops the blanks at both ends -/
def trimChars (cs : List Char) : List Char := dropTrailingBlanks (dropBlanks cs)

def trim (s : String) : String := String.ofList (trimChars s.toList)

def trimEnd (s : String) : String := String.ofList (dropTrailingBlanks s.toList)

theorem isBlank_of_isWhitespace {c : Char} (h : c.isWhitespace = true) : isBlank c = true := by
  simp only [Char.isWhitespace, Bool.or_eq_true, decide_eq_true_eq] at h
  rcases h with ((h | h) | h) | h <;> subst h <;> decide

theorem dropBlanks_cons {c : Char} (h : isBlank c = false) (cs : List Char) : dropBlanks (c :: cs) = c :: cs :=
  List.dropWhile_cons_of_neg (Bool.eq_false_iff.1 h)

theorem dropBlanks_eq_self {cs : List Char} (h : ∀ c ∈ cs.head?, isBlank c = false) : dropBlanks cs = cs := by
  cases cs with
  | nil => rfl
  | cons c cs => exact dropBlanks_cons (h c rfl) cs

theorem trimChars_eq_self {cs : List Char} (hfront : ∀ c ∈ cs.head?, isBlank c = false)
    (hback : ∀ c ∈ cs.getLast?, isBlank c = false) : trimChars cs = cs := by
  rw [← List.head?_reverse] at hback
  rw [trimChars, dropBlanks_eq_self hfront, dropTrailingBlanks, dropBlanks_eq_self hback, List.reverse_reverse]

end TestTrail.Text
