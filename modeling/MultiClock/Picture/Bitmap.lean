import MultiClock.Picture.Framebuffer
import MultiClock.Text.Lossy
import MultiClock.Word

/-! Pictures as bitmap files: a file header, an information header that says where the channels are,
and the rows from the last to the first. -/

namespace MultiClock.Bitmap

open Text

def fileHeaderSize : Nat := 14

def informationSize : Nat := 108

/-- The bits of each channel in a pixel: red, green, blue and alpha. -/
def masks : List Nat := [0xFF0000, 0xFF00, 0xFF, 0xFF000000]

/-- The mark of the usual color space. -/
def colorSpace : Nat := 0x73524742

def encode (picture : Framebuffer) : Array UInt8 :=
  let pixels := picture.toRgba.toArray
  let start := fileHeaderSize + informationSize
  let words (values : List Nat) := values.foldl (fun bytes value => pushBytes 4 value bytes) #[]
  let header :=
    utf8Bytes "BM" ++ words [start + 4 * pixels.size, 0, start] ++
    words [informationSize, Framebuffer.width, Framebuffer.height] ++
    pushBytes 2 32 (pushBytes 2 1 #[]) ++
    words ([3, 4 * pixels.size, 0, 0, 0, 0] ++ masks ++ [colorSpace] ++ List.replicate 12 0)
  (List.range Framebuffer.height).reverse.foldl (fun bytes y =>
    let row := pixels.extract (y * Framebuffer.width) ((y + 1) * Framebuffer.width)
    row.foldl (fun bytes pixel =>
      (((bytes.push pixel.blue).push pixel.green).push pixel.red).push pixel.alpha) bytes) header

end MultiClock.Bitmap
