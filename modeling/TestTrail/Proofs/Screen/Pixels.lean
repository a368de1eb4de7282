/-
Pixels in the bytes of a screen.

The pixels of a screen are numbered row by row (`cell`), differently for different pixels (`cell_inj`). A screen is sound
when it has three bytes for every pixel and so few of them that their numbers have 32 bits. Then the arithmetic of
`offset` is exact (`Sound.offset_eq`) and the three bytes of a pixel inside lie in the buffer (`Sound.offset_lt`). So a
written pixel is read back and every other one stays as it was (`getPixel_setPixel`), and after any number of writes a
pixel shows the last one that hit it, or else the ground (`shows_putAll`).
-/
import Mathlib.Data.List.Induction
import Mathlib.Tactic.SplitIfs
import TestTrail.Screen.Framebuffer
import TestTrail.Word

namespace TestTrail.Screen

/-! ## Three bytes -/

/-- the colour whose bytes start at a place -/
def triple (bytes : Array UInt8) (i : Nat) : Color := ⟨bytes.getD i 0, bytes.getD (i + 1) 0, bytes.getD (i + 2) 0⟩

def setTriple (bytes : Array UInt8) (i : Nat) (c : Color) : Array UInt8 :=
  ((bytes.setIfInBounds i c.red).setIfInBounds (i + 1) c.green).setIfInBounds (i + 2) c.blue

theorem size_setTriple (bytes : Array UInt8) (i : Nat) (c : Color) : (setTriple bytes i c).size = bytes.size := by
  simp [setTriple]

theorem triple_congr {as bs : Array UInt8} {i : Nat} (h : ∀ j < 3, as.getD (i + j) 0 = bs.getD (i + j) 0) :
    triple as i = triple bs i := by
  have h0 : as.getD i 0 = bs.getD i 0 := h 0 (by decide)
  rw [triple, triple, h0, h 1 (by decide), h 2 (by decide)]

theorem triple_setTriple_self {bytes : Array UInt8} {i : Nat} (h : i + 2 < bytes.size) (c : Color) :
    triple (setTriple bytes i c) i = c := by
  have h0 : i < bytes.size := by omega
  have h1 : i + 1 < bytes.size := by omega
  simp [triple, setTriple, Array.getD_eq_getD_getElem?, h, h0, h1]

theorem triple_setTriple_of_ne {k m : Nat} (h : k ≠ m) (bytes : Array UInt8) (c : Color) :
    triple (setTriple bytes (3 * k) c) (3 * m) = triple bytes (3 * m) := by
  refine triple_congr fun j hj => ?_
  simp only [setTriple, Array.getD_eq_getD_getElem?, Array.getElem?_setIfInBounds]
  rw [if_neg (by omega), if_neg (by omega), if_neg (by omega)]

namespace Framebuffer

variable {fb : Framebuffer} {x y u v : UInt32}

theorem inside_iff : fb.inside x y = true ↔ x < fb.width ∧ y < fb.height := by
  simp [inside]

theorem getPixel_of_inside (h : fb.inside x y = true) : fb.getPixel x y = triple fb.bytes (fb.offset x y) := if_pos h

theorem setPixel_of_inside (h : fb.inside x y = true) (c : Color) :
    fb.setPixel x y c = ⟨fb.width, fb.height, setTriple fb.bytes (fb.offset x y) c⟩ := if_pos h

theorem setPixel_of_outside (h : ¬(x < fb.width ∧ y < fb.height)) (c : Color) : fb.setPixel x y c = fb :=
  if_neg (mt inside_iff.1 h)

theorem width_setPixel (fb : Framebuffer) (x y : UInt32) (c : Color) : (fb.setPixel x y c).width = fb.width := by
  unfold setPixel
  split <;> rfl

theorem height_setPixel (fb : Framebuffer) (x y : UInt32) (c : Color) : (fb.setPixel x y c).height = fb.height := by
  unfold setPixel
  split <;> rfl

theorem size_setPixel (fb : Framebuffer) (x y : UInt32) (c : Color) :
    (fb.setPixel x y c).bytes.size = fb.bytes.size := by
  by_cases h : fb.inside x y = true
  · rw [setPixel_of_inside h, size_setTriple]
  · rw [setPixel_of_outside (mt inside_iff.2 h)]

/-! ## Places of pixels -/

/-- three bytes for every pixel, with numbers of 32 bits -/
structure Sound (fb : Framebuffer) : Prop where
  size : fb.bytes.size = 3 * fb.width.toNat * fb.height.toNat
  small : 3 * fb.width.toNat * fb.height.toNat < Word.limit32

theorem Sound.setPixel (h : fb.Sound) (x y : UInt32) (c : Color) : (fb.setPixel x y c).Sound := by
  constructor
  · rw [size_setPixel, width_setPixel, height_setPixel, h.size]
  · rw [width_setPixel, height_setPixel]
    exact h.small

/-- the number of a pixel, row by row -/
def cell (fb : Framebuffer) (x y : UInt32) : Nat := y.toNat * fb.width.toNat + x.toNat

theorem cell_lt (hin : fb.inside x y = true) : fb.cell x y < fb.width.toNat * fb.height.toNat := by
  obtain ⟨hx, hy⟩ := inside_iff.1 hin
  rw [UInt32.lt_iff_toNat_lt] at hx hy
  calc y.toNat * fb.width.toNat + x.toNat < (y.toNat + 1) * fb.width.toNat := by rw [Nat.succ_mul]; omega
    _ ≤ fb.height.toNat * fb.width.toNat := Nat.mul_le_mul_right _ hy
    _ = fb.width.toNat * fb.height.toNat := Nat.mul_comm _ _

/-- column and row of a pixel are remainder and quotient of its number -/
theorem cell_inj (hin : fb.inside x y = true) (hin' : fb.inside u v = true) (h : fb.cell x y = fb.cell u v) :
    x = u ∧ y = v := by
  have hx := UInt32.lt_iff_toNat_lt.1 (inside_iff.1 hin).1
  have hu := UInt32.lt_iff_toNat_lt.1 (inside_iff.1 hin').1
  have hmod := congrArg (· % fb.width.toNat) h
  have hdiv := congrArg (· / fb.width.toNat) h
  simp only [cell, Nat.mul_add_mod', Nat.mod_eq_of_lt hx, Nat.mod_eq_of_lt hu] at hmod
  simp only [cell, Nat.add_comm _ x.toNat, Nat.add_comm _ u.toNat, Nat.add_mul_div_right _ _ (Nat.zero_lt_of_lt hx),
    Nat.div_eq_of_lt hx, Nat.div_eq_of_lt hu, Nat.zero_add] at hdiv
  exact ⟨UInt32.toNat_inj.1 hmod, UInt32.toNat_inj.1 hdiv⟩

/-- no step of the arithmetic leaves 32 bits -/
theorem Sound.offset_eq (h : fb.Sound) (hin : fb.inside x y = true) : fb.offset x y = 3 * fb.cell x y := by
  have hcell := cell_lt hin
  have hsmall := h.small
  rw [Nat.mul_assoc, Word.limit32] at hsmall
  rw [cell] at hcell ⊢
  have hmul : (y * fb.width).toNat = y.toNat * fb.width.toNat := by
    rw [UInt32.toNat_mul, Nat.mod_eq_of_lt (by omega)]
  have hadd : (y * fb.width + x).toNat = y.toNat * fb.width.toNat + x.toNat := by
    rw [UInt32.toNat_add, hmul, Nat.mod_eq_of_lt (by omega)]
  rw [offset, UInt32.toNat_mul, hadd, Nat.mul_comm]
  exact Nat.mod_eq_of_lt (by rw [show (3 : UInt32).toNat = 3 from rfl]; omega)

theorem Sound.offset_lt (h : fb.Sound) (hin : fb.inside x y = true) : fb.offset x y + 2 < fb.bytes.size := by
  have hcell := cell_lt hin
  rw [h.offset_eq hin, h.size, Nat.mul_assoc]
  omega

theorem getPixel_setPixel (h : fb.Sound) (hin : fb.inside u v = true) (x y : UInt32) (c : Color) :
    (fb.setPixel x y c).getPixel u v = if x = u ∧ y = v then c else fb.getPixel u v := by
  by_cases hxy : fb.inside x y = true
  · have hread : (fb.setPixel x y c).getPixel u v = triple (setTriple fb.bytes (fb.offset x y) c) (fb.offset u v) := by
      rw [setPixel_of_inside hxy]
      exact getPixel_of_inside hin
    rw [hread]
    split_ifs with heq
    · obtain ⟨rfl, rfl⟩ := heq
      exact triple_setTriple_self (h.offset_lt hin) c
    · rw [getPixel_of_inside hin, h.offset_eq hxy, h.offset_eq hin, triple_setTriple_of_ne (mt (cell_inj hxy hin) heq)]
  · have hne : ¬(x = u ∧ y = v) := by
      rintro ⟨rfl, rfl⟩
      exact hxy hin
    rw [if_neg hne, setPixel_of_outside (mt inside_iff.2 hxy)]

/-! ## A ground of one colour -/

/-- as many pixels of one colour as asked for -/
def fill (c : Color) (n : Nat) : Array UInt8 := n.fold (fun _ _ a => ((a.push c.red).push c.green).push c.blue) #[]

theorem fill_succ (c : Color) (n : Nat) : fill c (n + 1) = (((fill c n).push c.red).push c.green).push c.blue :=
  Nat.fold_succ ..

theorem size_fill (c : Color) (n : Nat) : (fill c n).size = 3 * n := by
  induction n with
  | zero => rfl
  | succ n ih =>
    rw [fill_succ, Array.size_push, Array.size_push, Array.size_push, ih]
    omega

theorem triple_fill (c : Color) {n k : Nat} (h : k < n) : triple (fill c n) (3 * k) = c := by
  induction n with
  | zero => exact absurd h (Nat.not_lt_zero k)
  | succ n ih =>
    have hsize := size_fill c n
    rw [fill_succ]
    by_cases hk : k = n
    · subst hk
      simp only [triple, Array.getD_eq_getD_getElem?, Array.getElem?_push, Array.size_push, hsize]
      rw [if_neg (by omega), if_neg (by omega), if_pos trivial, if_neg (by omega), if_pos trivial, if_pos trivial]
      rfl
    · refine (triple_congr fun j hj => ?_).trans (ih (by omega))
      simp only [Array.getD_eq_getD_getElem?, Array.getElem?_push, Array.size_push, hsize]
      rw [if_neg (by omega), if_neg (by omega), if_neg (by omega)]

variable {w h : UInt32}

theorem filled_eq (hsize : 3 * w.toNat * h.toNat < Word.limit32) (c : Color) :
    filled w h c = ⟨w, h, fill c (w.toNat * h.toNat)⟩ := by
  rw [Nat.mul_assoc, Word.limit32] at hsize
  have hmul : (w * h).toNat = w.toNat * h.toNat := by
    rw [UInt32.toNat_mul, Nat.mod_eq_of_lt (by omega)]
  have hbytes : (w * h * 3).toNat = w.toNat * h.toNat * 3 := by
    rw [UInt32.toNat_mul, hmul]
    exact Nat.mod_eq_of_lt (by rw [show (3 : UInt32).toNat = 3 from rfl]; omega)
  rw [filled, hbytes, Nat.mul_div_cancel _ (by decide)]
  rfl

theorem sound_filled (hsize : 3 * w.toNat * h.toNat < Word.limit32) (c : Color) : (filled w h c).Sound := by
  rw [filled_eq hsize]
  exact ⟨by rw [size_fill, Nat.mul_assoc], hsize⟩

theorem getPixel_filled (hsize : 3 * w.toNat * h.toNat < Word.limit32) (hx : x < w) (hy : y < h) (c : Color) :
    (filled w h c).getPixel x y = c := by
  have hsound := sound_filled hsize c
  have hin : (filled w h c).inside x y = true := inside_iff.2 ⟨hx, hy⟩
  rw [getPixel_of_inside hin, hsound.offset_eq hin]
  rw [filled_eq hsize] at hin ⊢
  exact triple_fill c (cell_lt hin)

end Framebuffer

/-! ## Writes -/

/-- a pixel that is written, inside of the screen or not -/
structure Write where
  x : UInt32
  y : UInt32
  color : Color
  deriving DecidableEq

/-- the colour of the last write at a place, or else the ground -/
def lastColor (ground : Color) (ws : List Write) (x y : UInt32) : Color :=
  ((ws.filter fun p => p.x = x ∧ p.y = y).getLast?.map Write.color).getD ground

theorem lastColor_concat (ground : Color) (ws : List Write) (p : Write) (x y : UInt32) :
    lastColor ground (ws ++ [p]) x y = if p.x = x ∧ p.y = y then p.color else lastColor ground ws x y := by
  rw [lastColor, List.filter_append]
  split_ifs with h
  · rw [List.filter_cons_of_pos (by simpa using h), List.filter_nil, List.getLast?_concat]
    rfl
  · rw [List.filter_cons_of_neg (by simpa using h), List.filter_nil, List.append_nil]
    rfl

namespace Framebuffer

def put (fb : Framebuffer) (p : Write) : Framebuffer := fb.setPixel p.x p.y p.color

def putAll (fb : Framebuffer) (ws : List Write) : Framebuffer := ws.foldl put fb

variable {fb : Framebuffer} {ws : List Write}

theorem putAll_concat (fb : Framebuffer) (ws : List Write) (p : Write) :
    fb.putAll (ws ++ [p]) = (fb.putAll ws).setPixel p.x p.y p.color := by
  rw [putAll, List.foldl_append]
  rfl

theorem width_putAll (fb : Framebuffer) (ws : List Write) : (fb.putAll ws).width = fb.width := by
  induction ws using List.reverseRecOn with
  | nil => rfl
  | append_singleton ws p ih => rw [putAll_concat, width_setPixel, ih]

theorem height_putAll (fb : Framebuffer) (ws : List Write) : (fb.putAll ws).height = fb.height := by
  induction ws using List.reverseRecOn with
  | nil => rfl
  | append_singleton ws p ih => rw [putAll_concat, height_setPixel, ih]

theorem Sound.putAll (h : fb.Sound) (ws : List Write) : (fb.putAll ws).Sound := by
  induction ws using List.reverseRecOn with
  | nil => exact h
  | append_singleton ws p ih =>
    rw [putAll_concat]
    exact ih.setPixel p.x p.y p.color

theorem getPixel_putAll {x y : UInt32} (h : fb.Sound) (hin : fb.inside x y = true) (ws : List Write) :
    (fb.putAll ws).getPixel x y = lastColor (fb.getPixel x y) ws x y := by
  induction ws using List.reverseRecOn with
  | nil => rfl
  | append_singleton ws p ih =>
    have hin' : (fb.putAll ws).inside x y = true := by
      rw [inside_iff, width_putAll, height_putAll]
      exact inside_iff.1 hin
    rw [putAll_concat, getPixel_setPixel (h.putAll ws) hin', ih, lastColor_concat]

/-- what a screen is after some writes on a ground of one colour -/
structure Shows (fb : Framebuffer) (w h : UInt32) (ground : Color) (ws : List Write) : Prop where
  width : fb.width = w
  height : fb.height = h
  size : fb.bytes.size = 3 * w.toNat * h.toNat
  /-- the three bytes that are read or written for a pixel inside are in the buffer -/
  offset_lt : ∀ x y, x < w → y < h → fb.offset x y + 2 < fb.bytes.size
  pixel : ∀ x y, x < w → y < h → fb.getPixel x y = lastColor ground ws x y
  outside : ∀ x y c, ¬(x < w ∧ y < h) → fb.setPixel x y c = fb

/-- **A pixel shows its last write**, or else the ground, and no write leaves the buffer. -/
theorem shows_putAll {w h : UInt32} (hsize : 3 * w.toNat * h.toNat < Word.limit32) (ground : Color) (ws : List Write) :
    ((filled w h ground).putAll ws).Shows w h ground ws := by
  have hground := sound_filled hsize ground
  have hsound := hground.putAll ws
  have hw : ((filled w h ground).putAll ws).width = w := width_putAll ..
  have hh : ((filled w h ground).putAll ws).height = h := height_putAll ..
  have hin : ∀ x y, x < w → y < h → ((filled w h ground).putAll ws).inside x y = true := fun x y hx hy =>
    inside_iff.2 ⟨hw.symm ▸ hx, hh.symm ▸ hy⟩
  exact {
    width := hw
    height := hh
    size := by rw [hsound.size, hw, hh]
    offset_lt := fun x y hx hy => hsound.offset_lt (hin x y hx hy)
    pixel := fun x y hx hy => by
      rw [getPixel_putAll hground (inside_iff.2 ⟨hx, hy⟩), getPixel_filled hsize hx hy]
    outside := fun x y c hout => setPixel_of_outside (by rwa [hw, hh]) c }

end Framebuffer

end TestTrail.Screen
