/-
Drawing on a screen, stroke by stroke.

A stroke is one pixel or one line of text. Drawing it comes to a list of pixels that are written one after the other
(`draw_eq_putAll`). As long as no coordinate leaves 32 bits (`Stroke.Fits`), a text writes the pixels where its font gives
ink to one of the characters that start left of the right edge (`mem_textWrites`), so characters behind the edge do not
matter (`textWrites_congr`). Together with what writes leave on a screen this says what strokes leave on it, in any font
(`drawAll_clipped`).
-/
import Mathlib.Tactic.SplitIfs
import TestTrail.Proofs.Screen.Pixels

namespace TestTrail.Screen

inductive Stroke where
  | pixel (x y : UInt32) (c : Color)
  | text (x y : UInt32) (t : String) (ink : Color)

variable {font : Font}

/-! ## The pixels of a text -/

/-- the font has a glyph for the character, with ink at a row and a column of it -/
def Font.Inked (font : Font) (c : Char) (row column : Nat) : Prop :=
  row < 8 ∧ column < 8 ∧ ∃ g, font.glyph? c = some g ∧ g.toNat.testBit (56 - 8 * row + column) = true

theorem Font.inked_iff {c : Char} {row column : Nat} :
    font.Inked c row column ↔ row < 8 ∧ column < 8 ∧ font.hasInk c row column = true := by
  rw [Inked, hasInk, glyph]
  cases font.glyph? c with
  | none => simp
  | some g => simp

/-- no coordinate leaves 32 bits while a text is drawn: neither where the next character starts nor where there is ink -/
def CharsFit (font : Font) (width x y : Nat) (cs : List Char) : Prop :=
  ∀ i c, cs[i]? = some c → x + 8 * i < width →
    x + 8 * i + 8 < Word.limit32 ∧ ∀ row column, font.Inked c row column → y + row < Word.limit32

/-- the pixels that are written for one character -/
def charWrites (font : Font) (x y : UInt32) (ink : Color) (c : Char) : List Write :=
  (Framebuffer.glyphPixels.filter fun p => font.hasInk c p.1 p.2).map fun p =>
    ⟨x + UInt32.ofNat p.2, y + UInt32.ofNat p.1, ink⟩

/-- the pixels that are written for a text on a screen of some width -/
def textWrites (font : Font) (width y : UInt32) (ink : Color) : UInt32 → List Char → List Write
  | _, [] => []
  | x, c :: cs => if x < width then charWrites font x y ink c ++ textWrites font width y ink (x + 8) cs else []

theorem mem_glyphPixels {row column : Nat} : (row, column) ∈ Framebuffer.glyphPixels ↔ row < 8 ∧ column < 8 := by
  simp [Framebuffer.glyphPixels]

theorem toNat_add_ofNat {a : UInt32} {n : Nat} (h : a.toNat + n < Word.limit32) :
    (a + UInt32.ofNat n).toNat = a.toNat + n := by
  rw [Word.limit32] at h
  rw [UInt32.toNat_add, UInt32.toNat_ofNat', Nat.mod_eq_of_lt (show n < 2 ^ 32 by omega), Nat.mod_eq_of_lt (by omega)]

theorem mem_charWrites {x y : UInt32} {ink : Color} {c : Char} (hx : x.toNat + 8 < Word.limit32)
    (hy : ∀ row column, font.Inked c row column → y.toNat + row < Word.limit32) (p : Write) :
    p ∈ charWrites font x y ink c ↔
      p.color = ink ∧
        ∃ row column, font.Inked c row column ∧ p.x.toNat = x.toNat + column ∧ p.y.toNat = y.toNat + row := by
  constructor
  · intro h
    obtain ⟨⟨row, column⟩, hmem, rfl⟩ := List.mem_map.1 h
    obtain ⟨hplace, hink⟩ := List.mem_filter.1 hmem
    obtain ⟨hrow, hcolumn⟩ := mem_glyphPixels.1 hplace
    have hinked : font.Inked c row column := Font.inked_iff.2 ⟨hrow, hcolumn, hink⟩
    exact ⟨rfl, row, column, hinked, toNat_add_ofNat (by omega), toNat_add_ofNat (hy row column hinked)⟩
  · rintro ⟨rfl, row, column, hinked, hpx, hpy⟩
    obtain ⟨hrow, hcolumn, hink⟩ := Font.inked_iff.1 hinked
    refine List.mem_map.2 ⟨(row, column), List.mem_filter.2 ⟨mem_glyphPixels.2 ⟨hrow, hcolumn⟩, hink⟩, ?_⟩
    have hpx' : x + UInt32.ofNat column = p.x := by
      rw [← UInt32.toNat_inj, toNat_add_ofNat (by omega), hpx]
    have hpy' : y + UInt32.ofNat row = p.y := by
      rw [← UInt32.toNat_inj, toNat_add_ofNat (hy row column hinked), hpy]
    rw [hpx', hpy']

/-- behind a character that is drawn, the place of the next one is exact, and the rest fits there -/
theorem CharsFit.next {width x y : UInt32} {c : Char} {cs : List Char}
    (h : CharsFit font width.toNat x.toNat y.toNat (c :: cs)) (hx : x < width) :
    (x + 8).toNat = x.toNat + 8 ∧ CharsFit font width.toNat (x + 8).toNat y.toNat cs := by
  have hcursor : (x + 8).toNat = x.toNat + 8 := toNat_add_ofNat (h 0 c rfl (UInt32.lt_iff_toNat_lt.1 hx)).1
  refine ⟨hcursor, fun i d hd hi => ?_⟩
  rw [hcursor] at hi ⊢
  have hlater := h (i + 1) d hd (by omega)
  rwa [show x.toNat + 8 * (i + 1) = x.toNat + 8 + 8 * i by omega] at hlater

/-- where a text has ink: in the glyph of a character that starts left of the edge -/
def TextInk (font : Font) (width x y : Nat) (cs : List Char) (u v : Nat) : Prop :=
  ∃ i c row column,
    cs[i]? = some c ∧ x + 8 * i < width ∧ font.Inked c row column ∧ u = x + 8 * i + column ∧ v = y + row

theorem textInk_cons {width x y u v : Nat} {c : Char} {cs : List Char} (hx : x < width) :
    TextInk font width x y (c :: cs) u v ↔
      (∃ row column, font.Inked c row column ∧ u = x + column ∧ v = y + row) ∨ TextInk font width (x + 8) y cs u v := by
  constructor
  · rintro ⟨i, d, row, column, hd, hi, hinked, hu, hv⟩
    cases i with
    | zero =>
      obtain rfl : c = d := Option.some.inj hd
      exact .inl ⟨row, column, hinked, hu, hv⟩
    | succ i => exact .inr ⟨i, d, row, column, hd, by omega, hinked, by omega, hv⟩
  · rintro (⟨row, column, hinked, hu, hv⟩ | ⟨i, d, row, column, hd, hi, hinked, hu, hv⟩)
    · exact ⟨0, c, row, column, rfl, by omega, hinked, by omega, hv⟩
    · exact ⟨i + 1, d, row, column, hd, by omega, hinked, by omega, hv⟩

/-- **A text is drawn where it has ink**, on the screen and beyond its right and lower edges. -/
theorem mem_textWrites {width x y : UInt32} {ink : Color} {cs : List Char}
    (h : CharsFit font width.toNat x.toNat y.toNat cs) (p : Write) :
    p ∈ textWrites font width y ink x cs ↔
      p.color = ink ∧ TextInk font width.toNat x.toNat y.toNat cs p.x.toNat p.y.toNat := by
  induction cs generalizing x with
  | nil => simp [textWrites, TextInk]
  | cons c cs ih =>
    rw [textWrites]
    by_cases hx : x < width
    · have hx' : x.toNat < width.toNat := UInt32.lt_iff_toNat_lt.1 hx
      obtain ⟨hnext, hrows⟩ := h 0 c rfl hx'
      obtain ⟨hcursor, htail⟩ := h.next hx
      rw [if_pos hx, List.mem_append, mem_charWrites hnext hrows, ih htail, hcursor, textInk_cons hx', and_or_left]
    · have hx' : ¬x.toNat < width.toNat := mt UInt32.lt_iff_toNat_lt.2 hx
      rw [if_neg hx]
      refine iff_of_false List.not_mem_nil ?_
      rintro ⟨-, i, d, row, column, -, hi, -⟩
      omega

/-- how many characters start left of the right edge: one for every eight pixels up to there, and for what is left -/
def room (width x : Nat) : Nat := (width - x + 7) / 8

theorem room_of_lt {width x : Nat} (hx : x < width) : room width x = room width (x + 8) + 1 := by
  unfold room
  omega

theorem textWrites_of_not_lt {width x : UInt32} (hx : ¬x < width) (y : UInt32) (ink : Color) (cs : List Char) :
    textWrites font width y ink x cs = [] := by
  cases cs with
  | nil => rfl
  | cons c cs => rw [textWrites, if_neg hx]

/-- characters that start at the right edge or behind it do not matter -/
theorem textWrites_congr {width x y : UInt32} {cs ds : List Char} (h : CharsFit font width.toNat x.toNat y.toNat cs)
    (hagree : cs.take (room width.toNat x.toNat) = ds.take (room width.toNat x.toNat)) (ink : Color) :
    textWrites font width y ink x cs = textWrites font width y ink x ds := by
  induction cs generalizing x ds with
  | nil =>
    by_cases hx : x < width
    · rw [room_of_lt (UInt32.lt_iff_toNat_lt.1 hx)] at hagree
      cases ds with
      | nil => rfl
      | cons d ds => cases hagree
    · rw [textWrites_of_not_lt hx, textWrites_of_not_lt hx]
  | cons c cs ih =>
    by_cases hx : x < width
    · rw [room_of_lt (UInt32.lt_iff_toNat_lt.1 hx)] at hagree
      cases ds with
      | nil => cases hagree
      | cons d ds =>
        obtain ⟨rfl, hothers⟩ := List.cons.inj hagree
        obtain ⟨hcursor, htail⟩ := h.next hx
        rw [← hcursor] at hothers
        rw [textWrites, textWrites, ih htail hothers]
    · rw [textWrites_of_not_lt hx, textWrites_of_not_lt hx]

/-! ## Strokes as writes -/

namespace Stroke

/-- no coordinate leaves 32 bits while the stroke is drawn in a font on a screen of some width -/
def Fits (font : Font) (width : UInt32) : Stroke → Prop
  | pixel _ _ _ => True
  | text x y t _ => CharsFit font width.toNat x.toNat y.toNat t.toList

/-- the pixels that are written, in this order -/
def writes (font : Font) (width : UInt32) : Stroke → List Write
  | pixel x y c => [⟨x, y, c⟩]
  | text x y t ink => textWrites font width y ink x t.toList

end Stroke

namespace Framebuffer

def draw (fb : Framebuffer) (font : Font) : Stroke → Framebuffer
  | .pixel x y c => fb.setPixel x y c
  | .text x y t ink => fb.drawText font x y t ink

def drawAll (fb : Framebuffer) (font : Font) (strokes : List Stroke) : Framebuffer :=
  strokes.foldl (fun fb s => fb.draw font s) fb

theorem putAll_append (fb : Framebuffer) (ws vs : List Write) : fb.putAll (ws ++ vs) = (fb.putAll ws).putAll vs :=
  List.foldl_append

theorem drawChar_eq_putAll (fb : Framebuffer) (x y : UInt32) (c : Char) (ink : Color) :
    fb.drawChar font x y c ink = fb.putAll (charWrites font x y ink c) := by
  rw [drawChar, putAll, charWrites, List.foldl_map, List.foldl_filter]
  rfl

theorem drawChars_eq_putAll (fb : Framebuffer) (x y : UInt32) (ink : Color) (cs : List Char) :
    fb.drawChars font x y ink cs = fb.putAll (textWrites font fb.width y ink x cs) := by
  induction cs generalizing fb x with
  | nil => rfl
  | cons c cs ih =>
    rw [drawChars, textWrites]
    split_ifs with hx
    · rw [ih, drawChar_eq_putAll, width_putAll, putAll_append]
    · rfl

theorem draw_eq_putAll (fb : Framebuffer) (s : Stroke) : fb.draw font s = fb.putAll (s.writes font fb.width) := by
  cases s with
  | pixel x y c => rfl
  | text x y t ink => exact drawChars_eq_putAll fb x y ink t.toList

theorem drawAll_eq_putAll (fb : Framebuffer) (strokes : List Stroke) :
    fb.drawAll font strokes = fb.putAll (strokes.flatMap (Stroke.writes font fb.width)) := by
  induction strokes generalizing fb with
  | nil => rfl
  | cons s strokes ih =>
    calc fb.drawAll font (s :: strokes) = (fb.draw font s).drawAll font strokes := rfl
      _ = (fb.putAll (s.writes font fb.width)).putAll (strokes.flatMap (Stroke.writes font fb.width)) := by
          rw [ih, draw_eq_putAll, width_putAll]
      _ = fb.putAll ((s :: strokes).flatMap (Stroke.writes font fb.width)) := by rw [List.flatMap_cons, putAll_append]

/-- **A screen is a clipped map of its pixels.** Strokes write pixels one by one. At every moment of that the buffer has
its three bytes for each pixel, no write leaves it, a pixel inside shows its last write or else the ground, and writes
outside change nothing. A text writes the pixels where its font has ink; so texts that agree on all characters that start
left of the right edge draw the same picture. -/
theorem drawAll_clipped (font : Font) {w h : UInt32} (hsize : 3 * w.toNat * h.toNat < Word.limit32) (ground : Color)
    {strokes : List Stroke} (hfits : ∀ s ∈ strokes, s.Fits font w) :
    let ws := strokes.flatMap (Stroke.writes font w)
    (filled w h ground).drawAll font strokes = (filled w h ground).putAll ws ∧
      (∀ part, part <+: ws → ((filled w h ground).putAll part).Shows w h ground part) ∧
      ∀ x y t ink, .text x y t ink ∈ strokes →
        (∀ p, p ∈ (Stroke.text x y t ink).writes font w ↔
          p.color = ink ∧ TextInk font w.toNat x.toNat y.toNat t.toList p.x.toNat p.y.toNat) ∧
        ∀ (fb : Framebuffer) (other : String), fb.width = w →
          t.toList.take (room w.toNat x.toNat) = other.toList.take (room w.toNat x.toNat) →
            fb.drawText font x y t ink = fb.drawText font x y other ink := by
  refine ⟨drawAll_eq_putAll _ strokes, fun part _ => shows_putAll hsize ground part, fun x y t ink htext => ?_⟩
  have hchars : CharsFit font w.toNat x.toNat y.toNat t.toList := hfits _ htext
  refine ⟨mem_textWrites hchars, fun fb other hwidth hagree => ?_⟩
  rw [drawText, drawText, drawChars_eq_putAll, drawChars_eq_putAll, hwidth, textWrites_congr hchars hagree]

def dusk : Color := ⟨32, 32, 48⟩

def chalk : Color := ⟨230, 230, 230⟩

/-- a greeting in the lower right corner of a small screen, which it reaches over, and a pixel on top of it -/
def greeting : List Stroke := [.text 13 6 "Hi" chalk, .pixel 14 6 .black]

/-- the letter begins with two pixels of ink and one without; the second was written again -/
theorem greeting_clipped :
    let fb := (filled 20 12 dusk).drawAll .basic greeting
    fb.bytes.size = 720 ∧ fb.getPixel 13 6 = chalk ∧ fb.getPixel 14 6 = .black ∧ fb.getPixel 15 6 = dusk ∧
      fb.drawText .basic 13 6 "Hi" chalk = fb.drawText .basic 13 6 "Hello" chalk := by
  have hfits : ∀ s ∈ greeting, s.Fits .basic 20 := by
    refine List.forall_mem_cons.2 ⟨fun i c _ hi => ⟨?_, fun row column hinked => ?_⟩,
      List.forall_mem_singleton.2 trivial⟩
    · have hright : 13 + 8 * i < 20 := hi
      exact (show 13 + 8 * i + 8 < 4294967296 by omega)
    · have hrow : row < 8 := hinked.1
      exact (show 6 + row < 4294967296 by omega)
  obtain ⟨hdraw, hmoments, htexts⟩ := drawAll_clipped .basic (w := 20) (h := 12) (by decide) dusk hfits
  have hshows := hmoments _ (List.prefix_refl _)
  rw [← hdraw] at hshows
  refine ⟨hshows.size, ?_, ?_, ?_, (htexts 13 6 "Hi" chalk List.mem_cons_self).2 _ "Hello" hshows.width (by decide)⟩
  · rw [hshows.pixel 13 6 (by decide) (by decide)]
    decide +kernel
  · rw [hshows.pixel 14 6 (by decide) (by decide)]
    decide +kernel
  · rw [hshows.pixel 15 6 (by decide) (by decide)]
    decide +kernel

end Framebuffer

end TestTrail.Screen
