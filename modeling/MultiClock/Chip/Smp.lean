import MultiClock.Chip

/-! The audio processor. It runs a program of its own in a private memory, mixes into an accumulator
and emits a sample after every so many oscillator cycles. It lets the reference catch up before it
touches the shared ports, and whenever it is more than a millisecond ahead. -/

namespace MultiClock

namespace Smp

/-- Oscillator cycles of one instruction cycle. -/
def cycleUnits : UInt32 := 24

/-- Oscillator cycles of one sample. -/
def sampleUnits : UInt32 := 768

/-- Samples per second. -/
def sampleRate : UInt32 := Clock.smpFrequency / sampleUnits

/-- Oscillator cycles that the audio processor may be ahead after an instruction. -/
def aheadUnits : UInt32 := Clock.smpFrequency / 1000

/-- Samples that are kept between two frames. -/
def sampleCapacity : Nat := 2048

inductive Opcode
  | mix
  | portRead
  | portWrite
  | store
deriving DecidableEq, Repr

namespace Opcode

def code : Opcode → UInt8
  | mix => 0
  | portRead => 1
  | portWrite => 2
  | store => 3

/-- Only the low two bits count, and every value of them is an opcode. -/
def decode (byte : UInt8) : Opcode :=
  match (byte % 4).toNat with
  | 0 => mix
  | 1 => portRead
  | 2 => portWrite
  | _ => store

def ofCode? (code : UInt8) : Option Opcode := if code < 4 then some (decode code) else none

theorem ofCode?_code (opcode : Opcode) : ofCode? opcode.code = some opcode := by
  cases opcode <;> rfl

def cycles : Opcode → UInt8
  | mix | store => 2
  | portRead | portWrite => 3

def accessesPorts : Opcode → Bool
  | portRead | portWrite => true
  | mix | store => false

end Opcode

/-- Progress through the current instruction. -/
inductive Continuation
  /-- In front of the next instruction. -/
  | idle
  /-- Spending the cycles of an instruction, so many of them left. -/
  | execute (opcode : Opcode) (operand cycles : UInt8)
  /-- All cycles are spent. `synchronized` once the reference had the chance to catch up. -/
  | access (opcode : Opcode) (operand : UInt8) (synchronized : Bool)
deriving DecidableEq, Repr

namespace Continuation

/-- A tag, an opcode, an operand and one more number. -/
def encode : Continuation → UInt8 × UInt8 × UInt8 × UInt8
  | idle => (0, 0, 0, 0)
  | execute opcode operand cycles => (1, opcode.code, operand, cycles)
  | access opcode operand synchronized => (2, opcode.code, operand, if synchronized then 1 else 0)

def decode? (tag code operand extra : UInt8) : Option Continuation :=
  match tag.toNat with
  | 0 => some idle
  | 1 => (Opcode.ofCode? code).map fun opcode => execute opcode operand extra
  | 2 => (Opcode.ofCode? code).map fun opcode => access opcode operand (extra != 0)
  | _ => none

def serialize (continuation : Continuation) : Visit Continuation := do
  let (tag, code, operand, extra) := continuation.encode
  let tag ← Serializer.word tag
  let code ← Serializer.word code
  let operand ← Serializer.word operand
  let extra ← Serializer.word extra
  match decode? tag code operand extra with
  | some continuation => return continuation
  | none =>
    Serializer.reject "smp continuation"
    return idle

end Continuation
end Smp

structure Smp where
  ram : Vector UInt8 0x1000
  a : UInt8
  /-- A position in the private memory, which repeats through the address space. -/
  pc : Fin 0x1000
  mix : Int32
  /-- Oscillator cycles since the last sample. -/
  elapsed : UInt32
  /-- Samples since the host last took them, of which only the first `sampleCount` count. -/
  buffer : Vector Int16 2048
  sampleCount : UInt16
  continuation : Smp.Continuation

namespace Smp

def new : Smp := ⟨Vector.replicate 0x1000 0, 0, 0, 0, 0, Vector.replicate 2048 0, 0, .idle⟩

instance : Inhabited Smp := ⟨new⟩

/-- The samples since the host last took them. -/
def samples (smp : Smp) : Array Int16 := smp.buffer.toArray.extract 0 smp.sampleCount.toNat

def clearSamples (smp : Smp) : Smp := { smp with sampleCount := 0 }

/-- The accumulator, limited to what a sample can hold. -/
def sample (mix : Int32) : Int16 := Int16.ofInt (max (-32768) (min 32767 mix.toInt))

/-- Appends a sample. Samples that do not fit are dropped. -/
def emit (smp : Smp) : Smp :=
  if h : smp.sampleCount.toNat < 2048 then
    { smp with
      buffer := smp.buffer.set smp.sampleCount.toNat (sample smp.mix)
      sampleCount := smp.sampleCount + 1 }
  else smp

def address (number : Nat) : Fin 0x1000 := ⟨number % 0x1000, Nat.mod_lt _ (by decide)⟩

/-- Takes the next instruction from memory. -/
def fetch (smp : Smp) : Smp :=
  let opcode := Opcode.decode smp.ram[smp.pc]
  let operand := smp.ram[smp.pc + 1]
  { smp with pc := smp.pc + 2, continuation := .execute opcode operand opcode.cycles }

/-- Where an operand makes the mixer read. -/
def inputAddress (operand a : UInt8) : Fin 0x1000 := address (operand.toNat * 16 + a.toNat % 16)

/-- Where an operand makes a store write: the upper half of the memory. -/
def storeAddress (operand a : UInt8) : Fin 0x1000 :=
  address (0x800 + operand.toNat * 8 + a.toNat % 8)

/-- The accumulator loses an eighth of its value and gains a multiple of the input. -/
def mixed (mix : Int32) (input : Int8) : Except Fault Int32 :=
  Checked.int32 (mix.toInt - mix.toInt / 8 + input.toInt * 32)

/-- The effect of an instruction on the registers, the private memory and the bus. -/
def perform (smp : Smp) (opcode : Opcode) (operand : UInt8) (bus : Bus) :
    Except Fault (Smp × Bus) := do
  match opcode with
  | .mix =>
    let mix ← mixed smp.mix smp.ram[inputAddress operand smp.a].toInt8
    return ({ smp with mix }, bus)
  | .portRead => return ({ smp with a := bus.apu.readInput operand.toNat }, bus)
  | .portWrite =>
    let value := smp.a ^^^ (smp.mix >>> 8).toUInt32.toUInt8
    return (smp, { bus with apu := bus.apu.writeOutput operand.toNat value })
  | .store =>
    let value := smp.a + smp.mix.toUInt32.toUInt8
    return ({ smp with ram := smp.ram.set (storeAddress operand smp.a) value }, bus)

/-- Performs an instruction, goes on to the next one, and lets the reference catch up if it is too
far behind. -/
def complete (smp : Smp) (opcode : Opcode) (operand : UInt8) (cx : Context) :
    Except Fault (Smp × Context) := do
  let ⟨bus, scheduler, thread, notices⟩ := cx
  let (smp, bus) ← smp.perform opcode operand bus
  let (_, cx) ← Context.synchronizeAhead ⟨bus, scheduler, thread, notices⟩ aheadUnits
  return ({ smp with continuation := .idle }, cx)

/-- Counts oscillator cycles and emits a sample when it is due. -/
def elapse (smp : Smp) (units : UInt32) : Except Fault Smp := do
  let elapsed ← Checked.add32 smp.elapsed units
  if elapsed < sampleUnits then return { smp with elapsed }
  return { smp with elapsed := elapsed - sampleUnits }.emit

def slice (smp : Smp) (cx : Context) : Except Fault (Smp × Context) := do
  match smp.continuation with
  | .idle =>
    let (passed, cx) ← cx.synchronizePoint
    return if passed then (smp.fetch, cx) else (smp, cx)
  | .execute opcode operand cycles =>
    let cx ← cx.step cycleUnits
    let smp ← smp.elapse cycleUnits
    let continuation :=
      if 1 < cycles then Continuation.execute opcode operand (cycles - 1)
      else .access opcode operand false
    return ({ smp with continuation }, cx)
  | .access opcode operand synchronized =>
    if synchronized || !opcode.accessesPorts then return ← smp.complete opcode operand cx
    let (resumed, cx) ← cx.synchronizeCpu
    if resumed then return ({ smp with continuation := .access opcode operand true }, cx)
    smp.complete opcode operand cx

def power (seeding : Seeding) : Smp × Seeding :=
  let (ram, seeding) := seeding.memory 0x1000
  ({ new with ram }, seeding)

def serialize (smp : Smp) : Visit Smp := do
  let ⟨ram, a, pc, mix, elapsed, buffer, sampleCount, continuation⟩ := smp
  let ram ← Serializer.bytes ram
  let a ← Serializer.word a
  let pc ← Serializer.word (UInt16.ofNat pc)
  let mix ← Serializer.word mix
  let elapsed ← Serializer.word elapsed
  let buffer ← Serializer.array buffer
  let sampleCount ← Serializer.word sampleCount
  let sampleCount ← Serializer.require "smp sample count" (sampleCount.toNat ≤ sampleCapacity)
    sampleCount 0
  let elapsed ← Serializer.require "smp sample units" (elapsed < sampleUnits) elapsed 0
  return ⟨ram, a, address pc.toNat, mix, elapsed, buffer, sampleCount, continuation⟩

instance : Chip Smp where
  frequency _ := Clock.smpFrequency
  power _ := power
  slice := slice
  serialize := serialize
  serializeStack smp := do return { smp with continuation := ← smp.continuation.serialize }
  atBoundary smp := smp.continuation == .idle

end Smp
end MultiClock
