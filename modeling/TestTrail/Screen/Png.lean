/-
PNG files of screens.

`encode` writes true colour with eight bits a channel: the rows, each behind a filter byte of zero, in stored blocks of
the compressed format, with the checksums that the format asks for. `decode` reads such files back and refuses any
other. An image without pixels cannot be written.
-/
import TestTrail.Failure
import TestTrail.Screen.Framebuffer

namespace TestTrail.Screen.Png

def signature : List UInt8 := [0x89, 0x50, 0x4e, 0x47, 0x0d, 0x0a, 0x1a, 0x0a]

/-- a number of 32 bits, most significant byte first -/
def word (n : UInt32) : List UInt8 :=
  [(n >>> 24).toUInt8, (n >>> 16).toUInt8, (n >>> 8).toUInt8, n.toUInt8]

def readWord (a b c d : UInt8) : UInt32 :=
  (a.toUInt32 <<< 24) ||| (b.toUInt32 <<< 16) ||| (c.toUInt32 <<< 8) ||| d.toUInt32

/-- one bit of the cyclic redundancy check -/
def crcBit (c : UInt32) : UInt32 := if c &&& 1 = 1 then (c >>> 1) ^^^ 0xedb88320 else c >>> 1

def crcByte (c : UInt32) (b : UInt8) : UInt32 :=
  crcBit (crcBit (crcBit (crcBit (crcBit (crcBit (crcBit (crcBit (c ^^^ b.toUInt32))))))))

def crc (bytes : List UInt8) : UInt32 := (bytes.foldl crcByte 0xffffffff) ^^^ 0xffffffff

/-- the checksum of the compressed format -/
def adler (bytes : List UInt8) : UInt32 :=
  let (a, b) := bytes.foldl (fun (a, b) x => let a := (a + x.toNat) % 65521; (a, (b + a) % 65521)) (1, 0)
  UInt32.ofNat (b * 65536 + a)

def chunk (kind : List UInt8) (data : List UInt8) : List UInt8 :=
  word (UInt32.ofNat data.length) ++ kind ++ data ++ word (crc (kind ++ data))

/-- data in stored blocks of at most 65535 bytes -/
def storedBlocks : Nat → List UInt8 → List UInt8
  | 0, _ => []
  | fuel + 1, data =>
    let part := data.take 65535
    let rest := data.drop 65535
    let n := part.length
    let sizes := [UInt8.ofNat n, UInt8.ofNat (n / 256), 255 - UInt8.ofNat n, 255 - UInt8.ofNat (n / 256)]
    if rest.isEmpty then (1 :: sizes) ++ part else (0 :: sizes) ++ part ++ storedBlocks fuel rest

def compressed (data : List UInt8) : List UInt8 :=
  [0x78, 0x01] ++ storedBlocks (data.length + 1) data ++ word (adler data)

/-- rows of `size` bytes, each behind a filter byte -/
def filteredRows (size : Nat) : Nat → List UInt8 → List UInt8
  | 0, _ => []
  | rows + 1, bytes => (0 :: bytes.take size) ++ filteredRows size rows (bytes.drop size)

def headerKind : List UInt8 := [0x49, 0x48, 0x44, 0x52]

def dataKind : List UInt8 := [0x49, 0x44, 0x41, 0x54]

def endKind : List UInt8 := [0x49, 0x45, 0x4e, 0x44]

def header (fb : Framebuffer) : List UInt8 := word fb.width ++ word fb.height ++ [8, 2, 0, 0, 0]

/-- the file of a screen -/
def encode (fb : Framebuffer) : Except Failure (List UInt8) :=
  if fb.bytes.size < 3 * fb.width.toNat * fb.height.toNat then .error ⟨.driver, "framebuffer size mismatch"⟩
  else if fb.width = 0 then .error ⟨.driver, "Failed to encode PNG: Zero width not allowed"⟩
  else if fb.height = 0 then .error ⟨.driver, "Failed to encode PNG: Zero height not allowed"⟩
  else
    let rows := filteredRows (3 * fb.width.toNat) fb.height.toNat fb.bytes.toList
    .ok (signature ++ chunk headerKind (header fb) ++ chunk dataKind (compressed rows) ++ chunk endKind [])

/-! ## Reading -/

/-- takes one chunk off the front, when its checksum is right -/
def chunk? (bytes : List UInt8) : Option (List UInt8 × List UInt8 × List UInt8) :=
  match bytes with
  | a :: b :: c :: d :: rest =>
    let size := (readWord a b c d).toNat
    let kind := rest.take 4
    let data := (rest.drop 4).take size
    match rest.drop (4 + size) with
    | e :: f :: g :: h :: rest =>
      if readWord e f g h = crc (kind ++ data) then some (kind, data, rest) else none
    | _ => none
  | _ => none

/-- the content of stored blocks and what follows them -/
def readBlocks : Nat → List UInt8 → Option (List UInt8 × List UInt8)
  | 0, _ => none
  | fuel + 1, bytes =>
    match bytes with
    | final :: n0 :: n1 :: m0 :: m1 :: rest =>
      let size := n0.toNat + 256 * n1.toNat
      if m0 = 255 - n0 ∧ m1 = 255 - n1 ∧ size ≤ rest.length then
        let part := rest.take size
        let rest := rest.drop size
        if final = 1 then some (part, rest)
        else if final = 0 then (readBlocks fuel rest).map fun (more, rest) => (part ++ more, rest)
        else none
      else none
    | _ => none

def expand (bytes : List UInt8) : Option (List UInt8) :=
  match bytes with
  | 0x78 :: 0x01 :: rest =>
    match readBlocks (rest.length + 1) rest with
    | some (data, [a, b, c, d]) => if readWord a b c d = adler data then some data else none
    | _ => none
  | _ => none

def unfilteredRows (size : Nat) : Nat → List UInt8 → Option (List UInt8)
  | 0, [] => some []
  | 0, _ => none
  | rows + 1, 0 :: bytes =>
    if size ≤ bytes.length then (unfilteredRows size rows (bytes.drop size)).map (bytes.take size ++ ·) else none
  | _ + 1, _ => none

/-- the screen in a file that `encode` writes -/
def decode (bytes : List UInt8) : Option Framebuffer := do
  if bytes.take 8 ≠ signature then none
  let (kind, head, rest) ← chunk? (bytes.drop 8)
  match kind, head with
  | [0x49, 0x48, 0x44, 0x52], [w0, w1, w2, w3, h0, h1, h2, h3, 8, 2, 0, 0, 0] =>
    let width := readWord w0 w1 w2 w3
    let height := readWord h0 h1 h2 h3
    let (kind, data, rest) ← chunk? rest
    if kind ≠ dataKind then none
    let rows ← (expand data).bind (unfilteredRows (3 * width.toNat) height.toNat)
    let (kind, _, rest) ← chunk? rest
    if kind = endKind ∧ rest = [] then some ⟨width, height, rows.toArray⟩ else none
  | _, _ => none

end TestTrail.Screen.Png
