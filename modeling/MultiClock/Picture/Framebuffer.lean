import MultiClock.Serial.Serializer

/-! Pictures. The display processor draws with five bits per channel; hosts usually want eight and
an opaque alpha channel. -/

namespace MultiClock

/-- A color with red in the low five bits, then green, then blue. -/
structure Rgb15 where
  bits : UInt16
deriving DecidableEq, Repr, Inhabited

/-- A color with eight bits per channel. -/
structure Rgba32 where
  red : UInt8
  green : UInt8
  blue : UInt8
  alpha : UInt8
deriving DecidableEq, Repr, Inhabited

namespace Rgb15

/-- Stretches 0 to 31 over 0 to 255, rounding down. -/
def widen (channel : Nat) : UInt8 := UInt8.ofNat (channel * 255 / 31)

def toRgba (color : Rgb15) : Rgba32 :=
  let bits := color.bits.toNat
  ⟨widen (bits % 32), widen (bits / 32 % 32), widen (bits / 1024 % 32), 255⟩

instance : Serializable Rgb15 where
  serialize color := do return ⟨← Serializer.word color.bits⟩

end Rgb15

/-- The visible picture, row by row. -/
structure Framebuffer where
  pixels : Vector Rgb15 57344
deriving DecidableEq

namespace Framebuffer

def width : Nat := 256

def height : Nat := 224

def black : Framebuffer := ⟨Vector.replicate 57344 ⟨0⟩⟩

instance : Inhabited Framebuffer := ⟨black⟩

theorem position_lt {x y : Nat} (hx : x < 256) (hy : y < 224) : x + y * 256 < 57344 := by omega

def get (buffer : Framebuffer) (x : Fin 256) (y : Fin 224) : Rgb15 :=
  buffer.pixels.get ⟨x.val + y.val * 256, position_lt x.isLt y.isLt⟩

def set (buffer : Framebuffer) (x : Fin 256) (y : Fin 224) (color : Rgb15) : Framebuffer :=
  ⟨buffer.pixels.set (x.val + y.val * 256) color (position_lt x.isLt y.isLt)⟩

def toRgba (buffer : Framebuffer) : Vector Rgba32 57344 := buffer.pixels.map Rgb15.toRgba

/-- The size of the picture. -/
def describe : String := "Framebuffer(" ++ toString width ++ "x" ++ toString height ++ ")"

instance : Serializable Framebuffer where
  serialize buffer := do return ⟨← Serializer.array buffer.pixels⟩

end Framebuffer
end MultiClock
