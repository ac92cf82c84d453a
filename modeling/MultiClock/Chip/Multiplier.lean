import MultiClock.Chip

/-! A unit that multiplies and divides, with a fixed latency. A command with an even number
multiplies two bytes; one with an odd number divides a word by a byte. While a command executes, the
last output byte shows that the unit is busy. -/

namespace MultiClock

namespace Multiplier

/-- Frequency of the clock domain in Hz. -/
def frequency : UInt32 := 10738636

/-- Cycles between a command and its result. -/
def latency : UInt8 := 8

/-- Cycles spent at a time while there is no command. -/
def idleCycles : UInt32 := 8

/-- What the last output byte holds while a command executes. -/
def busyStatus : UInt8 := 0x80

inductive Continuation
  | idle
  /-- Idle cycles are spent, and the reference may catch up next. -/
  | waited
  /-- So many cycles of a command are left. -/
  | busy (remaining : UInt8)
  /-- The result is due. -/
  | complete
deriving DecidableEq, Repr

namespace Continuation

/-- A tag and the remaining cycles. -/
def encode : Continuation → UInt8 × UInt8
  | idle => (0, 0)
  | waited => (1, 0)
  | busy remaining => (2, remaining)
  | complete => (3, 0)

def decode? (tag remaining : UInt8) : Option Continuation :=
  match tag.toNat with
  | 0 => some idle
  | 1 => some waited
  | 2 => some (busy remaining)
  | 3 => some complete
  | _ => none

def serialize (continuation : Continuation) : Visit Continuation := do
  let (tag, remaining) := continuation.encode
  let tag ← Serializer.word tag
  let remaining ← Serializer.word remaining
  match decode? tag remaining with
  | some continuation => return continuation
  | none =>
    Serializer.reject "multiplier continuation"
    return idle

end Continuation
end Multiplier

structure Multiplier where
  /-- The number of its latch. -/
  index : UInt8
  /-- The command and its operands as they were taken. -/
  operands : Vector UInt8 4
  /-- Commands completed since power-on. -/
  operations : UInt32
  continuation : Multiplier.Continuation
deriving DecidableEq, Repr

namespace Multiplier

def new (index : UInt8) : Multiplier := ⟨index, Vector.replicate 4 0, 0, .idle⟩

/-- The low and the high byte of a word. -/
def halves (word : Nat) : UInt8 × UInt8 := (UInt8.ofNat word, UInt8.ofNat (word / 256))

/-- The result of a command. Dividing by zero yields the largest quotient and the low byte of the
dividend. -/
def result (operands : Vector UInt8 4) : Vector UInt8 4 :=
  let a := operands[1].toNat
  let b := operands[2].toNat
  let divisor := operands[3].toNat
  if operands[0] % 2 = 0 then
    let (low, high) := halves (a * b)
    #v[low, high, 0, 0]
  else
    let dividend := a + 256 * b
    let (quotient, remainder) :=
      if divisor = 0 then (0xFFFF, dividend) else (dividend / divisor, dividend % divisor)
    let (low, high) := halves quotient
    #v[low, high, UInt8.ofNat remainder, 0]

/-- A latch with a pending command, after the command was taken. -/
def taken (latch : Latch) : Latch :=
  { latch with strobe := false, output := latch.output.set 3 busyStatus }

def slice (unit : Multiplier) (cx : Context) : Except Fault (Multiplier × Context) := do
  let index := unit.index.toNat
  match unit.continuation with
  | .idle =>
    let (passed, cx) ← cx.synchronizePoint
    if !passed then return (unit, cx)
    match (cx.latch? index).filter (·.strobe) with
    | some latch =>
      let cx := cx.report (.command unit.index latch.input)
      return ({ unit with operands := latch.input, continuation := .busy latency },
        { cx with bus := cx.bus.modifyCoprocessor index taken })
    | none =>
      let cx ← cx.step idleCycles
      return ({ unit with continuation := .waited }, cx)
  | .waited =>
    let (_, cx) ← cx.synchronizeCpu
    return ({ unit with continuation := .idle }, cx)
  | .busy remaining =>
    let cx ← cx.step 1
    let continuation := if 1 < remaining then Continuation.busy (remaining - 1) else .complete
    return ({ unit with continuation }, cx)
  | .complete =>
    let output := result unit.operands
    let cx := { cx with bus := cx.bus.modifyCoprocessor index fun latch => { latch with output } }
    let (_, cx) ← cx.synchronizeCpu
    return ({ unit with operations := unit.operations + 1, continuation := .idle }, cx)

def serialize (unit : Multiplier) : Visit Multiplier := do
  let operands ← Serializer.bytes unit.operands
  let operations ← Serializer.word unit.operations
  return { unit with operands, operations }

instance : Chip Multiplier where
  frequency _ := frequency
  power unit seeding := (new unit.index, seeding)
  slice := slice
  serialize := serialize
  serializeStack unit := do return { unit with continuation := ← unit.continuation.serialize }
  atBoundary unit := unit.continuation == .idle

end Multiplier
end MultiClock
