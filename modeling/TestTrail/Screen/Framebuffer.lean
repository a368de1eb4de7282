/-
A screen of coloured pixels, written pixel by pixel or with text.

The pixels lie row by row in one array of bytes, three bytes each. Writing outside the screen changes nothing, reading
outside gives black. Text is drawn with a font of eight by eight pixels; drawing stops at the first character that
starts beyond the right edge. Coordinates are numbers of 32 bits.
-/
import TestTrail.Screen.Font

namespace TestTrail.Screen

structure Color where
  red : UInt8
  green : UInt8
  blue : UInt8
  deriving DecidableEq, Repr

def Color.black : Color := ⟨0, 0, 0⟩

structure Framebuffer where
  width : UInt32
  height : UInt32
  bytes : Array UInt8
  deriving DecidableEq, Repr

namespace Framebuffer

/-- a screen filled with one colour -/
def filled (width height : UInt32) (c : Color) : Framebuffer :=
  let bytes := ((width * height * 3).toNat / 3).fold (fun _ _ a => ((a.push c.red).push c.green).push c.blue) #[]
  ⟨width, height, bytes⟩

/-- where the three bytes of a pixel start -/
def offset (fb : Framebuffer) (x y : UInt32) : Nat := ((y * fb.width + x) * 3).toNat

def inside (fb : Framebuffer) (x y : UInt32) : Bool := decide (x < fb.width) && decide (y < fb.height)

def getPixel (fb : Framebuffer) (x y : UInt32) : Color :=
  if fb.inside x y then
    let i := fb.offset x y
    ⟨fb.bytes.getD i 0, fb.bytes.getD (i + 1) 0, fb.bytes.getD (i + 2) 0⟩
  else .black

def setPixel (fb : Framebuffer) (x y : UInt32) (c : Color) : Framebuffer :=
  if fb.inside x y then
    let i := fb.offset x y
    match fb with
    | ⟨w, h, bytes⟩ =>
      ⟨w, h, ((bytes.setIfInBounds i c.red).setIfInBounds (i + 1) c.green).setIfInBounds (i + 2) c.blue⟩
  else fb

/-- the pixels of a glyph, row by row -/
def glyphPixels : List (Nat × Nat) := (List.range 8).flatMap fun row => (List.range 8).map fun column => (row, column)

/-- draws one character with its upper left corner at a place -/
def drawChar (fb : Framebuffer) (font : Font) (x y : UInt32) (c : Char) (ink : Color) : Framebuffer :=
  glyphPixels.foldl
    (fun fb p =>
      if font.hasInk c p.1 p.2 then fb.setPixel (x + UInt32.ofNat p.2) (y + UInt32.ofNat p.1) ink else fb)
    fb

def drawChars (fb : Framebuffer) (font : Font) (x y : UInt32) (ink : Color) : List Char → Framebuffer
  | [] => fb
  | c :: cs => if x < fb.width then drawChars (fb.drawChar font x y c ink) font (x + 8) y ink cs else fb

def drawText (fb : Framebuffer) (font : Font) (x y : UInt32) (text : String) (ink : Color) : Framebuffer :=
  fb.drawChars font x y ink text.toList

end Framebuffer

end TestTrail.Screen
