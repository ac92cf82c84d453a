import MultiClock.Serial.Serializer

/-! Clock domains. The reference processor stands at zero; every other chip keeps its time as a
signed distance from it, scaled by the product of both frequencies. A chip's own step adds its
cycles times the reference frequency, a reference step subtracts its cycles times the chip's
frequency, so two domains are compared by the sign of one integer, without division or drift. -/

namespace MultiClock

structure Clock where
  frequency : UInt32
  value : Int64
deriving DecidableEq, Repr, Inhabited

namespace Clock

/-- Frequency of the reference domain in Hz. -/
def cpuFrequency : UInt32 := 21477272

/-- Frequency of the audio processor's oscillator in Hz. -/
def smpFrequency : UInt32 := 24576000

/-- The largest distance from the reference that a loaded clock may have. Chips that run together
stay far below it. -/
def maxDistance : Nat := 0x100000000000000

def new (frequency : UInt32) : Clock := ⟨frequency, 0⟩

def reset (clock : Clock) : Clock := { clock with value := 0 }

/-- `cycles` of one domain in the scale of another, if a clock can hold them. -/
def scaled (cycles frequency : UInt32) : Except Fault Int64 :=
  let product := cycles.toUInt64 * frequency.toUInt64
  if product < 0x8000000000000000 then .ok product.toInt64 else .error .clockOverflow

/-- Moves forward by cycles of the clock's own domain, measured against the reference. -/
def advance (clock : Clock) (cycles reference : UInt32) : Except Fault Clock := do
  let distance ← scaled cycles reference
  let value := clock.value + distance
  if value < clock.value then throw .clockOverflow
  return { clock with value }

/-- Moves back by cycles of the reference domain. -/
def rewind (clock : Clock) (referenceCycles : UInt32) : Except Fault Clock := do
  let distance ← scaled referenceCycles clock.frequency
  let value := clock.value - distance
  if clock.value < value then throw .clockOverflow
  return { clock with value }

/-- Level with the reference domain or ahead of it. -/
def ahead (clock : Clock) : Bool := 0 ≤ clock.value

/-- Ahead of the reference domain by more than `cycles` of the clock's own. -/
def aheadBy (clock : Clock) (cycles reference : UInt32) : Except Fault Bool := do
  let distance ← scaled cycles reference
  return distance < clock.value

instance : Serializable Clock where
  serialize clock := do
    let frequency ← Serializer.word clock.frequency
    let value ← Serializer.word clock.value
    return { frequency, value }

end Clock
end MultiClock
