import MultiClock.Picture.Framebuffer
import MultiClock.Text.Lossy

/-! Pictures as PNG files. The image data is stored without compression, which every reader of the
format accepts. -/

namespace MultiClock.Png

open Text

/-- One bit of the cyclic redundancy check. -/
def checkBit (value : UInt32) : UInt32 :=
  if value % 2 = 0 then value >>> 1 else (value >>> 1) ^^^ 0xEDB88320

def checkTable : Vector UInt32 256 :=
  Vector.ofFn fun i => Nat.repeat checkBit 8 (UInt32.ofNat i)

/-- The cyclic redundancy check of a chunk. -/
def check (bytes : Array UInt8) : UInt32 :=
  let table := checkTable.toArray
  let step (value : UInt32) (byte : UInt8) : UInt32 :=
    table.getD ((value ^^^ byte.toUInt32) % 256).toNat 0 ^^^ (value >>> 8)
  bytes.foldl step 0xFFFFFFFF ^^^ 0xFFFFFFFF

/-- The checksum of the image data. -/
def checksum (bytes : Array UInt8) : UInt32 :=
  let (a, b) := bytes.foldl (fun (a, b) byte =>
    let a := (a + byte.toUInt32) % 65521
    (a, (b + a) % 65521)) ((1, 0) : UInt32 × UInt32)
  (b <<< 16) ||| a

/-- A word with the most significant byte first. -/
def word (value : UInt32) : Array UInt8 :=
  #[(value >>> 24).toUInt8, (value >>> 16).toUInt8, (value >>> 8).toUInt8, value.toUInt8]

def chunk (kind : String) (data : Array UInt8) : Array UInt8 :=
  let body := utf8Bytes kind ++ data
  word (UInt32.ofNat data.size) ++ body ++ word (check body)

/-- The most bytes of a stored block. -/
def blockSize : Nat := 0xFFFF

/-- The stored blocks of the data from `start` on. -/
def storedBlocks (data : Array UInt8) : (blocks start : Nat) → Array UInt8 → Array UInt8
  | 0, _, result => result
  | blocks + 1, start, result =>
    let block := data.extract start (start + blockSize)
    let size := UInt16.ofNat block.size
    let head := #[if blocks = 0 then 1 else 0, size.toUInt8, (size >>> 8).toUInt8,
      (~~~size).toUInt8, (~~~size >>> 8).toUInt8]
    storedBlocks data blocks (start + blockSize) (result ++ head ++ block)

/-- Uncompressed data in the form in which a chunk holds it. -/
def stored (data : Array UInt8) : Array UInt8 :=
  storedBlocks data (data.size / blockSize + 1) 0 #[0x78, 0x01] ++ word (checksum data)

/-- The rows of a picture, each after a byte that says that it is not filtered. -/
def scanlines (picture : Framebuffer) : Array UInt8 :=
  let pixels := picture.toRgba
  (List.range Framebuffer.height).foldl (fun bytes y =>
    (List.range Framebuffer.width).foldl (fun bytes x =>
      let pixel := pixels.toArray.getD (y * Framebuffer.width + x) default
      (((bytes.push pixel.red).push pixel.green).push pixel.blue).push pixel.alpha)
      (bytes.push 0)) #[]

def encode (picture : Framebuffer) : Array UInt8 :=
  let size (n : Nat) := word (UInt32.ofNat n)
  let header := size Framebuffer.width ++ size Framebuffer.height ++ #[8, 6, 0, 0, 0]
  #[0x89, 0x50, 0x4E, 0x47, 0x0D, 0x0A, 0x1A, 0x0A] ++ chunk "IHDR" header ++
    chunk "IDAT" (stored (scanlines picture)) ++ chunk "IEND" #[]

end MultiClock.Png
