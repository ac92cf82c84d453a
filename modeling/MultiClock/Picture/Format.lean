import MultiClock.Picture.Bitmap
import MultiClock.Picture.PortableMap
import MultiClock.Picture.Qoi
import MultiClock.Picture.Targa

/-! The formats of picture files. What shows pictures goes by their first bytes and not by their
names, so that one format may stand in for another. -/

namespace MultiClock

inductive PictureFormat
  | png
  | bitmap
  | portableMap
  | qoi
  | targa
deriving DecidableEq, Repr

namespace PictureFormat

/-- The format for an extension in small letters. PNG stands in for formats that would pack the
pixels in another way. -/
def ofExtension? : String → Option PictureFormat
  | "png" | "apng" | "avif" | "gif" | "ico" | "tif" | "tiff" | "webp" => some png
  | "bmp" => some bitmap
  | "pbm" | "pam" | "ppm" | "pgm" | "pnm" => some portableMap
  | "qoi" => some qoi
  | "tga" => some targa
  | _ => none

/-- Extensions of formats without an alpha channel of eight bits. They are known, but no picture is
written in them. -/
def unfit : List String := ["jpg", "jpeg", "jfif", "dds", "hdr", "exr", "ff", "pcx"]

def encode (picture : Framebuffer) : PictureFormat → Array UInt8
  | png => Png.encode picture
  | bitmap => Bitmap.encode picture
  | portableMap => PortableMap.encode picture
  | qoi => Qoi.encode picture
  | targa => Targa.encode picture

end PictureFormat
end MultiClock
