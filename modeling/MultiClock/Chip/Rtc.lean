import MultiClock.Chip

/-! A clock that counts seconds. Its output ports always hold the counter; one command sets it. -/

namespace MultiClock

namespace Rtc

/-- Frequency of the clock domain in Hz: so many ticks make a second. -/
def frequency : UInt32 := 32768

/-- The command that sets the counter from the other three input ports. -/
def setCommand : UInt8 := 1

end Rtc

structure Rtc where
  /-- The number of its latch. -/
  index : UInt8
  /-- Ticks since the last full second. -/
  ticks : UInt16
  seconds : UInt32
  /-- A tick is done, and the reference may catch up next. -/
  ticked : Bool
deriving DecidableEq, Repr

namespace Rtc

def new (index : UInt8) : Rtc := ⟨index, 0, 0, false⟩

/-- The bytes of the counter, least significant first. -/
def display (seconds : UInt32) : Vector UInt8 4 :=
  #v[seconds.toUInt8, (seconds >>> 8).toUInt8, (seconds >>> 16).toUInt8, (seconds >>> 24).toUInt8]

/-- Counts one tick. -/
def tick (clock : Rtc) : Except Fault Rtc := do
  let ticks ← Checked.add16 clock.ticks 1
  if frequency ≤ ticks.toUInt32 then return { clock with ticks := 0, seconds := clock.seconds + 1 }
  return { clock with ticks }

/-- The counter that the command in a latch sets. -/
def setting (latch : Latch) : UInt32 :=
  (latch.readInput 1).toUInt32 ||| ((latch.readInput 2).toUInt32 <<< 8) |||
    ((latch.readInput 3).toUInt32 <<< 16)

/-- Takes the command in a latch, if there is one. Only one command has an effect. -/
def obey (clock : Rtc) (latch : Latch) : Rtc :=
  if latch.strobe ∧ latch.readInput 0 = setCommand then
    { clock with seconds := setting latch, ticks := 0 }
  else clock

def slice (clock : Rtc) (cx : Context) : Except Fault (Rtc × Context) := do
  if clock.ticked then
    let (_, cx) ← cx.synchronizeCpu
    return ({ clock with ticked := false }, cx)
  let (passed, cx) ← cx.synchronizePoint
  if !passed then return (clock, cx)
  let cx ← cx.step 1
  let clock ← clock.tick
  match cx.latch? clock.index.toNat with
  | none => return ({ clock with ticked := true }, cx)
  | some latch =>
    let clock := clock.obey latch
    let cx := { cx with
      bus := cx.bus.modifyCoprocessor clock.index.toNat fun latch =>
        { latch with strobe := false, output := display clock.seconds } }
    return ({ clock with ticked := true }, cx)

/-- The seconds at power-on are as random as the memory. -/
def power (clock : Rtc) (seeding : Seeding) : Rtc × Seeding :=
  let (seconds, seeding) := seeding.next16
  (⟨clock.index, 0, seconds.toUInt32, false⟩, seeding)

def serialize (clock : Rtc) : Visit Rtc := do
  let ticks ← Serializer.word clock.ticks
  let seconds ← Serializer.word clock.seconds
  let ticks ← Serializer.require "rtc ticks" (ticks.toUInt32 < frequency) ticks 0
  return { clock with ticks, seconds }

instance : Chip Rtc where
  frequency _ := frequency
  power := power
  slice := slice
  serialize := serialize
  serializeStack clock := do return { clock with ticked := ← Serializer.boolean clock.ticked }
  atBoundary clock := !clock.ticked

end Rtc
end MultiClock
