import MultiClock.Host.Notice
import MultiClock.Memory.Bus
import MultiClock.Memory.Entropy
import MultiClock.Scheduler

/-! The contract of a chip. A chip is a resumable state machine that executes one slice at a time:
at most one unit of work or one transfer of control. Work that spans several slices is kept in the
chip's continuation, which is idle whenever the chip is at its synchronization point. Within a slice
a chip reaches the bus and the scheduler through a context, and nothing else. -/

namespace MultiClock

/-- What a chip can reach while it executes a slice. -/
structure Context where
  bus : Bus
  scheduler : Scheduler
  thread : ThreadId
  /-- What the slice has to report, newest first. -/
  notices : List Notice

class Chip (χ : Type) where
  /-- Frequency of the chip's clock domain in Hz. -/
  frequency : χ → UInt32
  /-- Resets the registers and seeds memory. -/
  power : χ → Seeding → χ × Seeding
  slice : χ → Context → Except Fault (χ × Context)
  /-- The registers, valid at every synchronization point. -/
  serialize : χ → Visit χ
  /-- The continuation, which only instant snapshots hold. -/
  serializeStack : χ → Visit χ
  /-- No unit of work is in flight. -/
  atBoundary : χ → Bool

/-- A set of chips that a scheduler can transfer control between. A slice yields what it has to
report, newest first. -/
class ChipSet (σ : Type) where
  slice : ThreadId → σ → Scheduler → Except Fault (σ × Scheduler × List Notice)

namespace Context

def report (cx : Context) (notice : Notice) : Context := { cx with notices := notice :: cx.notices }

/-- Advances the chip's clock by units of its own domain. -/
def step (cx : Context) (units : UInt32) : Except Fault Context := do
  let ⟨bus, scheduler, thread, notices⟩ := cx
  let (clock, scheduler) ← scheduler.step thread units
  return ⟨bus, scheduler, thread, .activity (.step thread units clock) :: notices⟩

/-- The chip's time relative to the reference. -/
def clock (cx : Context) : Except Fault Int64 := do
  return (← cx.scheduler.clock cx.thread).value

def synchronizing (cx : Context) : Bool := cx.scheduler.synchronizing

def resume (cx : Context) (target : ThreadId) : Except Fault Context := do
  return { cx with scheduler := ← cx.scheduler.resume target }

def leave (cx : Context) (event : Event) : Except Fault Context := do
  return { cx with scheduler := ← cx.scheduler.leave event }

/-- On the reference side: resumes another chip if it is behind. True if control is transferred, in
which case the slice has to end. -/
def synchronize (cx : Context) (other : ThreadId) : Except Fault (Bool × Context) := do
  if cx.thread ≠ .cpu then throw (.wrongSide cx.thread)
  if (← cx.scheduler.clock other).ahead then return (false, cx)
  return (true, ← cx.resume other)

/-- On a dependent's side: resumes the reference if this chip is level with it or ahead. Does
nothing while synchronizing, so that a driven chip may complete its unit of work. -/
def synchronizeCpu (cx : Context) : Except Fault (Bool × Context) := do
  if cx.thread = .cpu then throw (.wrongSide cx.thread)
  if cx.synchronizing then return (false, cx)
  if !(← cx.scheduler.clock cx.thread).ahead then return (false, cx)
  return (true, ← cx.resume .cpu)

/-- On a dependent's side: resumes the reference only if this chip is ahead by more than `cycles` of
its own domain. Does nothing while synchronizing. -/
def synchronizeAhead (cx : Context) (cycles : UInt32) : Except Fault (Bool × Context) := do
  if cx.thread = .cpu then throw (.wrongSide cx.thread)
  let reference ← cx.scheduler.clock .cpu
  if cx.synchronizing then return (false, cx)
  let clock ← cx.scheduler.clock cx.thread
  if !(← clock.aheadBy cycles reference.frequency) then return (false, cx)
  return (true, ← cx.resume .cpu)

/-- Marks the chip's synchronization point. False if the chip left here and has to end the slice. -/
def synchronizePoint (cx : Context) : Except Fault (Bool × Context) := do
  let ⟨bus, scheduler, thread, notices⟩ := cx
  let (passed, scheduler) ← scheduler.synchronizePoint thread
  return (passed, ⟨bus, scheduler, thread, notices⟩)

def latch? (cx : Context) (coprocessor : Nat) : Option Latch := cx.bus.coprocessors[coprocessor]?

end Context
end MultiClock
