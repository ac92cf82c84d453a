import MultiClock.Word

/-! One visitor per type measures, saves and loads it. A visitor passes every field through the
serializer in a fixed order and gets the field back: unchanged while measuring or saving, and read
from the buffer while loading. Words are little-endian, booleans take one byte, and reading past
the end of the buffer yields zeros and is remembered. -/

namespace MultiClock

namespace Serializer

/-- What the visitors are used for. -/
inductive Mode
  | measure
  | save
  | load
deriving DecidableEq, Repr

def Mode.name : Mode → String
  | measure => "Measure"
  | save => "Save"
  | load => "Load"

end Serializer

structure Serializer where
  mode : Serializer.Mode
  buffer : Array UInt8
  /-- Bytes measured, written or read so far. While loading it may pass the end of the buffer. -/
  cursor : Nat
  /-- A load went past the end of the buffer. -/
  overrun : Bool
  /-- The first field that a loading visitor could not represent. -/
  invalid : Option String
deriving DecidableEq, Repr

/-- A pass over one value that yields the value as it is afterwards. -/
abbrev Visit (α : Type) := StateM Serializer α

/-- Implementations pass the same fields in the same order in every mode. -/
class Serializable (α : Type) where
  serialize : α → Visit α

namespace Serializer

/-- Counts bytes and leaves the buffer empty. -/
def measure : Serializer := ⟨.measure, #[], 0, false, none⟩

def save : Serializer := ⟨.save, #[], 0, false, none⟩

def load (data : Array UInt8) : Serializer := ⟨.load, data, 0, false, none⟩

def size (s : Serializer) : Nat := s.cursor

/-- Marks the loaded data as unusable. The first reported field is kept. -/
def reject (field : String) : Visit Unit :=
  modify fun s => if s.mode = .load ∧ s.invalid.isNone then { s with invalid := some field } else s

/-- Puts the default in place of a value that does not satisfy a condition, and reports the
field. -/
def require (field : String) (holds : Bool) (value default : α) : Visit α := do
  if holds then return value
  reject field
  return default

@[specialize] def word [Word α] (value : α) : Visit α := fun s =>
  match s.mode with
  | .measure => (value, { s with cursor := s.cursor + Word.size α })
  | .save =>
    (value, { s with
      buffer := pushBytes (Word.size α) (Word.toNat value) s.buffer
      cursor := s.cursor + Word.size α })
  | .load =>
    (Word.ofNat (readBytes s.buffer (Word.size α) s.cursor), { s with
      cursor := s.cursor + Word.size α
      overrun := s.overrun || s.buffer.size < s.cursor + Word.size α })

/-- Any byte but zero loads as true. -/
def boolean (value : Bool) : Visit Bool := do
  let byte : UInt8 ← word (if value then 1 else 0)
  let s ← get
  return if s.mode = .load then byte != 0 else value

/-- Visits the elements in order. -/
@[specialize] def array [Serializable α] (values : Vector α n) : Visit (Vector α n) :=
  values.mapM Serializable.serialize

/-- Raw bytes, in one piece. A load copies the bytes that are left and fills up with zeros. -/
def bytes (data : Vector UInt8 n) : Visit (Vector UInt8 n) := fun s =>
  match s.mode with
  | .measure => (data, { s with cursor := s.cursor + n })
  | .save => (data, { s with buffer := s.buffer ++ data.toArray, cursor := s.cursor + n })
  | .load =>
    let start := min s.cursor s.buffer.size
    let available := min (s.buffer.size - start) n
    let copied := s.buffer.extract start (start + available)
    (⟨copied ++ Array.replicate (n - available) 0, by grind⟩, { s with
      cursor := s.cursor + n
      overrun := s.overrun || available < n })

end Serializer

/-- A word is visited as itself. -/
instance [Word α] : Serializable α where
  serialize := Serializer.word

instance : Serializable Bool where
  serialize := Serializer.boolean

instance [Serializable α] : Serializable (Vector α n) where
  serialize := Serializer.array

end MultiClock
