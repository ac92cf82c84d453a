import MultiClock.Serial.Serializer

/-! The shared bus: work memory and the latched ports. It is the only state that more than one chip
can observe; chips never reach into each other's registers. -/

namespace MultiClock

/-- A pair of four-byte mailboxes between the reference processor and one other chip. The processor
writes the input and reads the output, the other chip does the opposite. Writing the command port,
input 0, raises the strobe until the other chip acknowledges it. -/
structure Latch where
  input : Vector UInt8 4
  output : Vector UInt8 4
  strobe : Bool
deriving DecidableEq, Repr

namespace Latch

def empty : Latch := ⟨#v[0, 0, 0, 0], #v[0, 0, 0, 0], false⟩

instance : Inhabited Latch := ⟨empty⟩

/-- Port numbers repeat after four. -/
def port (number : Nat) : Fin 4 := ⟨number % 4, Nat.mod_lt _ (by decide)⟩

def writeInput (latch : Latch) (number : Nat) (value : UInt8) : Latch :=
  { latch with
    input := latch.input.set (port number) value
    strobe := latch.strobe || port number == 0 }

def readInput (latch : Latch) (number : Nat) : UInt8 := latch.input[port number]

def writeOutput (latch : Latch) (number : Nat) (value : UInt8) : Latch :=
  { latch with output := latch.output.set (port number) value }

def readOutput (latch : Latch) (number : Nat) : UInt8 := latch.output[port number]

/-- Acknowledges the strobe. -/
def takeStrobe (latch : Latch) : Bool × Latch := (latch.strobe, { latch with strobe := false })

instance : Serializable Latch where
  serialize latch := do
    let input ← Serializer.bytes latch.input
    let output ← Serializer.bytes latch.output
    let strobe ← Serializer.boolean latch.strobe
    return { input, output, strobe }

end Latch

structure Bus where
  wram : Vector UInt8 0x2000
  /-- Between the reference processor and the audio processor. -/
  apu : Latch
  /-- Between the reference processor and each coprocessor, in the order of their threads. -/
  coprocessors : Array Latch
deriving Repr

namespace Bus

def wramSize : Nat := 0x2000

def new (coprocessors : Nat) : Bus :=
  ⟨Vector.replicate 0x2000 0, Latch.empty, Array.replicate coprocessors Latch.empty⟩

/-- Empties every latch and keeps the memory. -/
def reset (bus : Bus) : Bus :=
  { bus with apu := Latch.empty, coprocessors := bus.coprocessors.map fun _ => Latch.empty }

/-- Work memory repeats through the whole address space. -/
def wramIndex (address : UInt16) : Fin 0x2000 :=
  ⟨address.toNat % 0x2000, Nat.mod_lt _ (by decide)⟩

def readWram (bus : Bus) (address : UInt16) : UInt8 := bus.wram[wramIndex address]

def writeWram (bus : Bus) (address : UInt16) (value : UInt8) : Bus :=
  { bus with wram := bus.wram.set (wramIndex address) value }

/-- The contents of work memory with bytes laid over its beginning. -/
def overlay (bytes : Array UInt8) (wram : Vector UInt8 0x2000) : Vector UInt8 0x2000 :=
  Vector.ofFn fun i => bytes.getD i wram[i]

def modifyCoprocessor (bus : Bus) (index : Nat) (change : Latch → Latch) : Bus :=
  { bus with coprocessors := bus.coprocessors.modify index change }

instance : Serializable Bus where
  serialize bus := do
    let wram ← Serializer.bytes bus.wram
    let apu ← Serializable.serialize bus.apu
    let coprocessors ← bus.coprocessors.mapM Serializable.serialize
    return { wram, apu, coprocessors }

end Bus
end MultiClock
