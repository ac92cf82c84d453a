import MultiClock.Picture.Png

/-! Pictures in the QOI format. Each pixel is written as a repetition of the one before, as the
place of a pixel that was seen, as a small difference, or in full. -/

namespace MultiClock.Qoi

open Text

/-- What is kept between pixels. -/
structure State where
  /-- The pixel before. -/
  before : Rgba32
  /-- How often it was repeated and not written yet. -/
  run : Nat
  /-- The last pixels that were seen, each at the place that its channels give. -/
  seen : Array Rgba32
  /-- Whether the pixel before is among them. -/
  known : Bool

def place (pixel : Rgba32) : UInt8 :=
  (pixel.red * 3 + pixel.green * 5 + pixel.blue * 7 + pixel.alpha * 11) % 64

/-- The most repetitions that are written at once. -/
def runLimit : Nat := 62

/-- Appends the repetitions. A single one is a pixel that was seen. -/
def writeRun (state : State) (bytes : Array UInt8) : Array UInt8 :=
  if state.run = 0 then bytes
  else if state.run = 1 && state.known then bytes.push (place state.before)
  else bytes.push (0xC0 ||| UInt8.ofNat (state.run - 1))

/-- Appends a pixel by its difference to the one before, or in full if that is too large. -/
def writeDifference (before pixel : Rgba32) (bytes : Array UInt8) : Array UInt8 :=
  let red := pixel.red - before.red
  let green := pixel.green - before.green
  let blue := pixel.blue - before.blue
  let red8 := red - green + 8
  let blue8 := blue - green + 8
  if pixel.alpha ≠ before.alpha then
    bytes ++ #[0xFF, pixel.red, pixel.green, pixel.blue, pixel.alpha]
  else if red + 2 < 4 && green + 2 < 4 && blue + 2 < 4 then
    bytes.push ((red + 2) <<< 4 ||| (green + 2) <<< 2 ||| blue + 2 ||| 0x40)
  else if green + 32 < 64 && red8 < 16 && blue8 < 16 then
    (bytes.push (green + 32 ||| 0x80)).push (red8 <<< 4 ||| blue8)
  else bytes ++ #[0xFE, pixel.red, pixel.green, pixel.blue]

def writePixel (pixel : Rgba32) (state : State) (bytes : Array UInt8) : State × Array UInt8 :=
  let ⟨before, run, seen, known⟩ := state
  if pixel = before then
    if run + 1 = runLimit then
      (⟨before, 0, seen, known⟩, bytes.push (0xC0 ||| UInt8.ofNat run))
    else (⟨before, run + 1, seen, known⟩, bytes)
  else
    let bytes := writeRun state bytes
    let index := (place pixel).toNat
    if seen[index]? = some pixel then
      (⟨pixel, 0, seen, true⟩, bytes.push (place pixel))
    else
      (⟨pixel, 0, seen.setIfInBounds index pixel, true⟩, writeDifference before pixel bytes)

def header : Array UInt8 :=
  let size (n : Nat) := Png.word (UInt32.ofNat n)
  utf8Bytes "qoif" ++ size Framebuffer.width ++ size Framebuffer.height ++ #[4, 0]

def encode (picture : Framebuffer) : Array UInt8 :=
  let start : State := ⟨⟨0, 0, 0, 255⟩, 0, Array.replicate 64 ⟨0, 0, 0, 0⟩, false⟩
  let (state, bytes) := picture.toRgba.toArray.foldl (fun (state, bytes) pixel =>
    writePixel pixel state bytes) (start, header)
  let rest :=
    if state.run = 0 then #[] else #[0xC0 ||| UInt8.ofNat (state.run - 1)]
  bytes ++ rest ++ #[0, 0, 0, 0, 0, 0, 0, 1]

end MultiClock.Qoi
