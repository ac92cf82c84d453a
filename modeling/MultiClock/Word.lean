import MultiClock.Fault

/-! Words are integers of a fixed number of bytes. A word is written as the natural number of its
bit pattern, least significant byte first, so that every kind of word shares one encoding. Counters
grow by checked additions: a sum that does not fit is a fault, never a wrapped number. -/

namespace MultiClock

class Word (α : Type) where
  size : Nat
  toNat : α → Nat
  ofNat : Nat → α
  toNat_lt : ∀ value, toNat value < Nat.pow 256 size
  ofNat_toNat : ∀ value, ofNat (toNat value) = value

namespace Word

instance : Word UInt8 where
  size := 1
  toNat := UInt8.toNat
  ofNat := UInt8.ofNat
  toNat_lt value := by simpa using value.toNat_lt
  ofNat_toNat _ := UInt8.ofNat_toNat

instance : Word UInt16 where
  size := 2
  toNat := UInt16.toNat
  ofNat := UInt16.ofNat
  toNat_lt value := by simpa using value.toNat_lt
  ofNat_toNat _ := UInt16.ofNat_toNat

instance : Word UInt32 where
  size := 4
  toNat := UInt32.toNat
  ofNat := UInt32.ofNat
  toNat_lt value := by simpa using value.toNat_lt
  ofNat_toNat _ := UInt32.ofNat_toNat

instance : Word UInt64 where
  size := 8
  toNat := UInt64.toNat
  ofNat := UInt64.ofNat
  toNat_lt value := by simpa using value.toNat_lt
  ofNat_toNat _ := UInt64.ofNat_toNat

instance : Word Int8 where
  size := 1
  toNat value := value.toUInt8.toNat
  ofNat bits := (UInt8.ofNat bits).toInt8
  toNat_lt value := by simpa using value.toUInt8.toNat_lt
  ofNat_toNat value := by simp

instance : Word Int16 where
  size := 2
  toNat value := value.toUInt16.toNat
  ofNat bits := (UInt16.ofNat bits).toInt16
  toNat_lt value := by simpa using value.toUInt16.toNat_lt
  ofNat_toNat value := by simp

instance : Word Int32 where
  size := 4
  toNat value := value.toUInt32.toNat
  ofNat bits := (UInt32.ofNat bits).toInt32
  toNat_lt value := by simpa using value.toUInt32.toNat_lt
  ofNat_toNat value := by simp

instance : Word Int64 where
  size := 8
  toNat value := value.toUInt64.toNat
  ofNat bits := (UInt64.ofNat bits).toInt64
  toNat_lt value := by simpa using value.toUInt64.toNat_lt
  ofNat_toNat value := by simp

end Word

/-- Appends the `size` low bytes of a number, least significant first. -/
def pushBytes : (size : Nat) → Nat → Array UInt8 → Array UInt8
  | 0, _, bytes => bytes
  | size + 1, value, bytes => pushBytes size (value / 256) (bytes.push (UInt8.ofNat value))

/-- The number in `size` bytes from `start` on. Bytes past the end count as zero. -/
def readBytes (bytes : Array UInt8) : (size start : Nat) → Nat
  | 0, _ => 0
  | size + 1, start => (bytes.getD start 0).toNat + 256 * readBytes bytes size (start + 1)

namespace Checked

def add8 (first second : UInt8) : Except Fault UInt8 :=
  if first + second < first then .error .counterOverflow else .ok (first + second)

def add16 (first second : UInt16) : Except Fault UInt16 :=
  if first + second < first then .error .counterOverflow else .ok (first + second)

def add32 (first second : UInt32) : Except Fault UInt32 :=
  if first + second < first then .error .counterOverflow else .ok (first + second)

/-- The word with a given value. -/
def int32 (value : Int) : Except Fault Int32 :=
  if Int32.minValue.toInt ≤ value ∧ value ≤ Int32.maxValue.toInt then .ok (Int32.ofInt value)
  else .error .counterOverflow

end Checked
end MultiClock
