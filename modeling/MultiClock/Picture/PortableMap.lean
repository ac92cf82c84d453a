import MultiClock.Picture.Framebuffer
import MultiClock.Text.Lossy

/-! Pictures as portable maps: a header of lines of text, then the channels of one pixel after the
other. -/

namespace MultiClock.PortableMap

open Text

def header : String :=
  "P7\nWIDTH " ++ toString Framebuffer.width ++ "\nHEIGHT " ++ toString Framebuffer.height ++
    "\nDEPTH 4\nMAXVAL 255\nTUPLTYPE RGB_ALPHA\nENDHDR\n"

def encode (picture : Framebuffer) : Array UInt8 :=
  picture.toRgba.toArray.foldl (fun bytes pixel =>
    (((bytes.push pixel.red).push pixel.green).push pixel.blue).push pixel.alpha)
    (utf8Bytes header)

end MultiClock.PortableMap
