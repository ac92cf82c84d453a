import MultiClock.Text.Lossy

/-! Text in a field of fixed width. The bytes of a shorter text are padded with zeros, those of a
longer one are cut off, wherever that falls. Reading stops at the first zero byte. -/

namespace MultiClock.FixedText

open Text

def encode (width : Nat) (text : String) : Vector UInt8 width :=
  let bytes := utf8Bytes text
  Vector.ofFn fun i => bytes.getD i 0

def decode (field : Array UInt8) : String := lossy (field.toList.takeWhile (· != 0))

end MultiClock.FixedText
