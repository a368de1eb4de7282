/-
Masking: every occurrence of a secret in a text gives way to six stars.

The secrets are listed first: empty ones are left out, longer ones come before shorter ones, and of neighbours that are the
same only one stays (`listed`). Then the text is read once from left to right. Where secrets of the list start, the first of
them is replaced and reading goes on behind it; any other character stays. `maskFrom` carries the number of characters of
the current secret that are still to be passed over, so stars that were written are never read again.
-/

namespace TestTrail.Text

/-- what stands in place of a secret -/
def stars : List Char := ['*', '*', '*', '*', '*', '*']

/-- the length of a text in bytes -/
def byteLength : List Char → Nat
  | [] => 0
  | c :: cs => c.utf8Size + byteLength cs

/-- puts a secret in front of those that are not longer -/
def insertByLength (s : List Char) : List (List Char) → List (List Char)
  | [] => [s]
  | t :: rest => if byteLength t ≤ byteLength s then s :: t :: rest else t :: insertByLength s rest

/-- the secrets to look for, the longest first -/
def listed (secrets : List (List Char)) : List (List Char) :=
  ((secrets.filter fun s => !s.isEmpty).foldr insertByLength []).eraseReps

/-- the first secret of a list that starts the text -/
def firstMatch? (list : List (List Char)) (text : List Char) : Option (List Char) :=
  list.find? fun s => s.isPrefixOf text

def maskFrom (list : List (List Char)) : Nat → List Char → List Char
  | _, [] => []
  | skip + 1, _ :: cs => maskFrom list skip cs
  | 0, c :: cs =>
    match firstMatch? list (c :: cs) with
    | none => c :: maskFrom list 0 cs
    | some s => stars ++ maskFrom list (s.length - 1) cs

def maskChars (secrets : List (List Char)) (text : List Char) : List Char := maskFrom (listed secrets) 0 text

/-- the text with every secret masked -/
def mask (secrets : List String) (text : String) : String :=
  String.ofList (maskChars (secrets.map String.toList) text.toList)

/-- masks when masking is on -/
def maskWhen (enabled : Bool) (secrets : List String) (text : String) : String :=
  if enabled then mask secrets text else text

/-- without secrets nothing changes -/
theorem maskChars_nil (text : List Char) : maskChars [] text = text := by
  unfold maskChars
  induction text with
  | nil => rfl
  | cons c cs ih => exact congrArg (c :: ·) ih

end TestTrail.Text
