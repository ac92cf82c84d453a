import MultiClock.Memory.KeyStream

/-! What memory and registers hold when the machine powers on. Entropy only concerns freshly
powered state: a loaded snapshot overwrites everything that was seeded. -/

namespace MultiClock

/-- How uninitialized memory is filled at power-on. -/
inductive Entropy
  /-- With zeros. -/
  | none
  /-- From a fixed seed, so that every power-on is alike. -/
  | low
  /-- From a seed that the host picks anew. -/
  | high
deriving DecidableEq, Repr

namespace Entropy

def name : Entropy → String
  | none => "None"
  | low => "Low"
  | high => "High"

def all : List Entropy := [none, low, high]

def parse? (text : String) : Option Entropy := all.find? (·.name == text)

/-- The seed of low entropy. -/
def fixedSeed : UInt64 := 0x5352455300000001

end Entropy

/-- The source of power-on contents. Without a stream everything is zero. -/
structure Seeding where
  stream : Option KeyStream
deriving Repr

namespace Seeding

/-- `hostSeed` only counts for high entropy. -/
def ofEntropy (entropy : Entropy) (hostSeed : UInt64) : Seeding :=
  match entropy with
  | .none => ⟨none⟩
  | .low => ⟨some (KeyStream.ofSeed Entropy.fixedSeed)⟩
  | .high => ⟨some (KeyStream.ofSeed hostSeed)⟩

def bytes (seeding : Seeding) (count : Nat) : Array UInt8 × Seeding :=
  match seeding.stream with
  | none => (Array.replicate count 0, seeding)
  | some stream =>
    let (bytes, stream) := stream.pushBytes count #[]
    (bytes, ⟨some stream⟩)

/-- The contents of a memory of fixed size. -/
def memory (seeding : Seeding) (size : Nat) : Vector UInt8 size × Seeding :=
  let (bytes, seeding) := seeding.bytes size
  (if h : bytes.size = size then ⟨bytes, h⟩ else Vector.ofFn fun i => bytes.getD i 0, seeding)

/-- The low half of the next word. -/
def next16 (seeding : Seeding) : UInt16 × Seeding :=
  match seeding.stream with
  | none => (0, seeding)
  | some stream =>
    let (word, stream) := stream.next
    (word.toUInt16, ⟨some stream⟩)

end Seeding
end MultiClock
