import MultiClock.Chip
import MultiClock.Text.Numeral

/-! The main processor, the reference that every other clock is measured against. It executes a
pseudo-program from work memory, scrambled by a shift register, and talks to the other chips through
their latches. It gives a chip the chance to catch up right before it touches that chip's ports, and
makes all of them catch up once per scanline. -/

namespace MultiClock

open Text

namespace Cpu

/-- Clock units of one cycle. -/
def cycleUnits : UInt32 := 8

/-- Clock units after which all dependents have to catch up. -/
def catchupThreshold : UInt32 := 1364

inductive Opcode
  | add
  | store
  | apuWrite
  | apuRead
  | copWrite
  | copRead
  | shift
  | wait
deriving DecidableEq, Repr

namespace Opcode

def code : Opcode → UInt8
  | add => 0
  | store => 1
  | apuWrite => 2
  | apuRead => 3
  | copWrite => 4
  | copRead => 5
  | shift => 6
  | wait => 7

/-- Only the low three bits count, and every value of them is an opcode. -/
def decode (byte : UInt8) : Opcode :=
  match (byte % 8).toNat with
  | 0 => add
  | 1 => store
  | 2 => apuWrite
  | 3 => apuRead
  | 4 => copWrite
  | 5 => copRead
  | 6 => shift
  | _ => wait

def ofCode? (code : UInt8) : Option Opcode := if code < 8 then some (decode code) else none

theorem ofCode?_code (opcode : Opcode) : ofCode? opcode.code = some opcode := by
  cases opcode <;> rfl

/-- Only waiting depends on the operand. -/
def cycles (opcode : Opcode) (operand : UInt8) : UInt8 :=
  match opcode with
  | add | shift => 1
  | store => 3
  | apuWrite | apuRead | copWrite | copRead => 2
  | wait => operand % 16 + 1

end Opcode

/-- Progress through the current instruction. -/
inductive Continuation
  /-- In front of the next instruction. -/
  | idle
  /-- Spending the cycles of an instruction, so many of them left. -/
  | execute (opcode : Opcode) (operand cycles : UInt8)
  /-- All cycles are spent. `synchronized` once the accessed chip had the chance to catch up. -/
  | access (opcode : Opcode) (operand : UInt8) (synchronized : Bool)
  /-- Making the dependents catch up, from number `next` on. -/
  | catchup (next : UInt8)
deriving DecidableEq, Repr

namespace Continuation

/-- A tag, an opcode, an operand and one more number. -/
def encode : Continuation → UInt8 × UInt8 × UInt8 × UInt8
  | idle => (0, 0, 0, 0)
  | execute opcode operand cycles => (1, opcode.code, operand, cycles)
  | access opcode operand synchronized => (2, opcode.code, operand, if synchronized then 1 else 0)
  | catchup next => (3, 0, 0, next)

def decode? (tag code operand extra : UInt8) : Option Continuation :=
  match tag.toNat with
  | 0 => some idle
  | 1 => (Opcode.ofCode? code).map fun opcode => execute opcode operand extra
  | 2 => (Opcode.ofCode? code).map fun opcode => access opcode operand (extra != 0)
  | 3 => some (catchup extra)
  | _ => none

def serialize (continuation : Continuation) : Visit Continuation := do
  let (tag, code, operand, extra) := continuation.encode
  let tag ← Serializer.word tag
  let code ← Serializer.word code
  let operand ← Serializer.word operand
  let extra ← Serializer.word extra
  match decode? tag code operand extra with
  | some continuation => return continuation
  | none =>
    Serializer.reject "cpu continuation"
    return idle

end Continuation
end Cpu

structure Cpu where
  a : UInt16
  x : UInt16
  pc : UInt16
  /-- The shift register. -/
  lfsr : UInt16
  /-- Clock units since the dependents last had to catch up. -/
  catchupUnits : UInt32
  instructions : UInt64
  /-- How many coprocessors there are to keep in step. -/
  coprocessors : UInt8
  continuation : Cpu.Continuation
deriving DecidableEq, Repr

namespace Cpu

def new (coprocessors : UInt8) : Cpu := ⟨0, 0, 0, 1, 0, 0, coprocessors, .idle⟩

/-- The registers as text. -/
def describe (cpu : Cpu) : String :=
  "A:" ++ hexUpper 4 cpu.a.toNat ++ " X:" ++ hexUpper 4 cpu.x.toNat ++ " PC:" ++
    hexUpper 4 cpu.pc.toNat ++ " R:" ++ hexUpper 4 cpu.lfsr.toNat ++ " I:" ++
    toString cpu.instructions.toNat

/-- The chips that are kept in step, in the order in which they catch up. -/
def dependents (cpu : Cpu) : List ThreadId :=
  .smp :: .ppu :: (List.range cpu.coprocessors.toNat).map fun i => .coprocessor (UInt8.ofNat i)

def shifted (lfsr : UInt16) : UInt16 :=
  (lfsr >>> 1) ^^^ (if lfsr % 2 = 0 then 0 else 0xB400)

/-- The coprocessor that an operand selects. -/
def selected (cpu : Cpu) (operand : UInt8) : Option UInt8 :=
  if cpu.coprocessors = 0 then none else some ((operand >>> 2) % cpu.coprocessors)

/-- The chip whose ports an instruction touches. -/
def accessed (cpu : Cpu) (opcode : Opcode) (operand : UInt8) : Option ThreadId :=
  match opcode with
  | .apuWrite | .apuRead => some .smp
  | .copWrite | .copRead => (cpu.selected operand).map .coprocessor
  | _ => none

/-- Takes the next instruction from memory. -/
def fetch (cpu : Cpu) (bus : Bus) : Cpu :=
  let lfsr := shifted cpu.lfsr
  let opcode := Opcode.decode (bus.readWram cpu.pc ^^^ lfsr.toUInt8)
  let operand := bus.readWram (cpu.pc + 1)
  let continuation := Continuation.execute opcode operand (opcode.cycles operand)
  { cpu with lfsr, pc := cpu.pc + 2, continuation }

/-- The effect of an instruction on the registers and the bus. -/
def perform (cpu : Cpu) (opcode : Opcode) (operand : UInt8) (bus : Bus) : Cpu × Bus :=
  match opcode with
  | .add => ({ cpu with a := cpu.a + (bus.readWram cpu.x).toUInt16 }, bus)
  | .store => ({ cpu with x := cpu.x + 1 }, bus.writeWram cpu.x cpu.a.toUInt8)
  | .apuWrite =>
    (cpu, { bus with apu := bus.apu.writeInput operand.toNat cpu.a.toUInt8 })
  | .apuRead =>
    ({ cpu with a := (cpu.a <<< 8) ||| (bus.apu.readOutput operand.toNat).toUInt16 }, bus)
  | .copWrite =>
    match cpu.selected operand with
    | some index => (cpu, bus.modifyCoprocessor index.toNat fun latch =>
        latch.writeInput operand.toNat cpu.a.toUInt8)
    | none => (cpu, bus)
  | .copRead =>
    match (cpu.selected operand).bind fun index => bus.coprocessors[index.toNat]? with
    | some latch => ({ cpu with a := cpu.a ^^^ (latch.readOutput operand.toNat).toUInt16 }, bus)
    | none => (cpu, bus)
  | .shift => ({ cpu with a := ((cpu.a <<< 1) ||| (cpu.a >>> 15)) ^^^ cpu.lfsr }, bus)
  | .wait => (cpu, bus)

/-- Performs an instruction and goes on to the next one, or to the catching up that is due. -/
def complete (cpu : Cpu) (opcode : Opcode) (operand : UInt8) (cx : Context) : Cpu × Context :=
  let ⟨bus, scheduler, thread, notices⟩ := cx
  let (cpu, bus) := cpu.perform opcode operand bus
  let cpu := { cpu with instructions := cpu.instructions + 1 }
  let cpu :=
    if catchupThreshold ≤ cpu.catchupUnits then
      { cpu with catchupUnits := 0, continuation := .catchup 0 }
    else { cpu with continuation := .idle }
  (cpu, ⟨bus, scheduler, thread, notices⟩)

/-- Visits the remaining dependents and resumes the first one that is behind. -/
def catchUp (cpu : Cpu) (next : UInt8) : List ThreadId → Context → Except Fault (Cpu × Context)
  | [], cx => .ok ({ cpu with continuation := .idle }, cx)
  | dependent :: rest, cx => do
    let next ← Checked.add8 next 1
    let (resumed, cx) ← cx.synchronize dependent
    if resumed then return ({ cpu with continuation := .catchup next }, cx)
    catchUp cpu next rest cx

def slice (cpu : Cpu) (cx : Context) : Except Fault (Cpu × Context) := do
  match cpu.continuation with
  | .idle =>
    let (passed, cx) ← cx.synchronizePoint
    return if passed then (cpu.fetch cx.bus, cx) else (cpu, cx)
  | .execute opcode operand cycles =>
    let cx ← cx.step cycleUnits
    let catchupUnits ← Checked.add32 cpu.catchupUnits cycleUnits
    let continuation :=
      if 1 < cycles then Continuation.execute opcode operand (cycles - 1)
      else .access opcode operand false
    return ({ cpu with catchupUnits, continuation }, cx)
  | .access opcode operand synchronized =>
    match if synchronized then none else cpu.accessed opcode operand with
    | none => return cpu.complete opcode operand cx
    | some other =>
      let (resumed, cx) ← cx.synchronize other
      if resumed then return ({ cpu with continuation := .access opcode operand true }, cx)
      return cpu.complete opcode operand cx
  | .catchup next => cpu.catchUp next (cpu.dependents.drop next.toNat) cx

def power (cpu : Cpu) (seeding : Seeding) : Cpu × Seeding :=
  let (a, seeding) := seeding.next16
  let (x, seeding) := seeding.next16
  let (lfsr, seeding) := seeding.next16
  (⟨a, x, 0, lfsr ||| 1, 0, 0, cpu.coprocessors, .idle⟩, seeding)

def serialize (cpu : Cpu) : Visit Cpu := do
  let a ← Serializer.word cpu.a
  let x ← Serializer.word cpu.x
  let pc ← Serializer.word cpu.pc
  let lfsr ← Serializer.word cpu.lfsr
  let catchupUnits ← Serializer.word cpu.catchupUnits
  let instructions ← Serializer.word cpu.instructions
  let catchupUnits ← Serializer.require "cpu catch-up units" (catchupUnits ≤ 2 * catchupThreshold)
    catchupUnits 0
  return { cpu with a, x, pc, lfsr, catchupUnits, instructions }

instance : Chip Cpu where
  frequency _ := Clock.cpuFrequency
  power := power
  slice := slice
  serialize := serialize
  serializeStack cpu := do return { cpu with continuation := ← cpu.continuation.serialize }
  atBoundary cpu := cpu.continuation == .idle

end Cpu
end MultiClock
