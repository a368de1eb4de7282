/-
A screen as people look at it: rows of colours, the colours in use, and drawings in text.

The palette lists the colours in order of first use, row by row. `paletteRows` writes every pixel as the place of its
colour in the palette, a digit to base 36; `inkRows` writes the rows that differ from the ground colour, four pixels to a
hexadecimal digit, the leftmost pixel at its high bit.
-/
import TestTrail.Json
import TestTrail.Json.Writer
import TestTrail.Screen.Framebuffer

namespace TestTrail.Screen

def hexByte (n : UInt8) : String := String.ofList [Json.hexLetter (n.toNat / 16), Json.hexLetter (n.toNat % 16)]

/-- red, green and blue in hexadecimal -/
def Color.text (c : Color) : String := hexByte c.red ++ hexByte c.green ++ hexByte c.blue

namespace Framebuffer

def row (fb : Framebuffer) (y : Nat) : List Color :=
  (List.range fb.width.toNat).map fun x => fb.getPixel (UInt32.ofNat x) (UInt32.ofNat y)

def rows (fb : Framebuffer) : List (List Color) := (List.range fb.height.toNat).map fb.row

def addColors (seen : List Color) (row : List Color) : List Color :=
  row.foldl (fun seen c => if seen.contains c then seen else seen ++ [c]) seen

def palette (fb : Framebuffer) : List Color := fb.rows.foldl addColors []

/-- a digit to base 36 -/
def digit36 (n : Nat) : Char := if n < 10 then Char.ofNat (48 + n) else Char.ofNat (87 + n)

def paletteRows (fb : Framebuffer) : List String :=
  let palette := fb.palette
  fb.rows.map fun row => String.ofList (row.map fun c => digit36 (palette.idxOf c % 36))

/-- the colour of the lower right corner -/
def ground (fb : Framebuffer) : Color := fb.getPixel (fb.width - 1) (fb.height - 1)

/-- four pixels a digit; a rest of less than four is left out -/
def inkDigits : List Bool → List Char
  | a :: b :: c :: d :: rest => Json.hexLetter (8 * a.toNat + 4 * b.toNat + 2 * c.toNat + d.toNat) :: inkDigits rest
  | _ => []

/-- the rows with ink, with their numbers -/
def inkRows (fb : Framebuffer) : List (Nat × String) :=
  (fb.rows.zipIdx.filter fun r => r.1.any (· != fb.ground)).map fun r =>
    (r.2, String.ofList (inkDigits (r.1.map (· != fb.ground))))

end Framebuffer

end TestTrail.Screen
