import MultiClock.Clock

/-! A thread is the execution context of one chip: how far along in time the chip is and where it
rests relative to its synchronization point. Registers and work in flight live in the chip. -/

namespace MultiClock

namespace Thread

inductive State
  /-- Suspended exactly at the synchronization point. New and newly loaded threads start here. -/
  | parked
  /-- Given control while parked: the next synchronization point is the one that it was parked at,
  and the thread passes it. -/
  | released
  /-- Past the synchronization point, possibly suspended in the middle of a unit of work. -/
  | running
deriving DecidableEq, Repr, Inhabited

namespace State

def name : State → String
  | parked => "Parked"
  | released => "Released"
  | running => "Running"

def code : State → UInt8
  | parked => 0
  | released => 1
  | running => 2

def ofCode? (code : UInt8) : Option State :=
  if code = 0 then some parked
  else if code = 1 then some released
  else if code = 2 then some running
  else none

theorem ofCode?_code (state : State) : ofCode? state.code = some state := by
  cases state <;> rfl

end State
end Thread

structure Thread where
  id : ThreadId
  clock : Clock
  state : Thread.State
deriving DecidableEq, Repr, Inhabited

namespace Thread

def new (id : ThreadId) (frequency : UInt32) : Thread := ⟨id, Clock.new frequency, .parked⟩

def frequency (thread : Thread) : UInt32 := thread.clock.frequency

def parked (thread : Thread) : Bool := thread.state == .parked

/-- Parked and not behind the reference processor, so that both describe the same instant. -/
def settled (thread : Thread) : Bool := thread.parked && (thread.id == .cpu || thread.clock.ahead)

/-- The thread as it is when control is transferred to it. -/
def release (thread : Thread) : Thread :=
  if thread.state = .parked then { thread with state := .released } else thread

def park (thread : Thread) : Thread := { thread with state := .parked }

/-- A thread at power-on. -/
def reset (thread : Thread) : Thread :=
  { thread with clock := thread.clock.reset, state := .parked }

/-- The magnitude of a clock value. -/
def distance (thread : Thread) : Nat := thread.clock.value.toInt.natAbs

/-- The clock, valid in every snapshot. A loaded clock has to be of the thread's frequency and
within the largest distance. -/
def serialize (thread : Thread) : Visit Thread := do
  let frequency := thread.clock.frequency
  let clock ← Serializable.serialize thread.clock
  let loaded := { thread with clock }
  let frequency ← Serializer.require "thread frequency" (clock.frequency == frequency)
    clock.frequency frequency
  let value ← Serializer.require "thread clock" (loaded.distance ≤ Clock.maxDistance) clock.value 0
  return { thread with clock := ⟨frequency, value⟩ }

/-- The suspension state, which only means something together with the chip's continuation. -/
def serializeStack (thread : Thread) : Visit Thread := do
  let code ← Serializer.word thread.state.code
  match State.ofCode? code with
  | some state => return { thread with state }
  | none =>
    Serializer.reject "thread state"
    return thread

end Thread
end MultiClock
