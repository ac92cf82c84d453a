import MultiClock.Thread
import MultiClock.Scheduler.Activity

/-! The scheduler decides which chip executes next. A slice of a chip may end with one request: to
resume another chip, or to leave to the host. While the machine is driven to a save, every resume
counts as a disturbance of the chip that is being driven. The scheduler itself knows no chips: it
keeps their threads and the request of the current slice. -/

namespace MultiClock

namespace Scheduler

inductive Mode
  /-- Normal execution: synchronization points are passed without stopping. -/
  | run
  /-- Chips are steered to their synchronization points. -/
  | synchronize
deriving DecidableEq, Repr

namespace Mode

def name : Mode → String
  | run => "Run"
  | synchronize => "Synchronize"

def parse? (text : String) : Option Mode := [run, synchronize].find? (·.name == text)

end Mode

/-- The transfer of control that the current slice asks for. -/
inductive Transfer
  | resume (target : ThreadId)
  | leave (event : Event)
deriving DecidableEq, Repr

end Scheduler

structure Scheduler where
  mode : Scheduler.Mode
  /-- Why control was last returned to the host. -/
  event : Event
  active : ThreadId
  /-- The host is inside the simulation. -/
  entered : Bool
  desynchronized : Bool
  /-- In the order of `ThreadId.index`. The first one is the reference clock domain. -/
  threads : Array Thread
  transfer : Option Scheduler.Transfer
deriving DecidableEq, Repr

namespace Scheduler

def empty : Scheduler := ⟨.run, .frame, .cpu, false, false, #[], none⟩

/-- Adds the next thread, as long as there are names for threads. -/
def create (scheduler : Scheduler) (frequency : UInt32) : Scheduler :=
  match ThreadId.ofIndex? scheduler.threads.size with
  | some id => { scheduler with threads := scheduler.threads.push (Thread.new id frequency) }
  | none => scheduler

/-- Returns every thread to its state at power-on. -/
def reset (scheduler : Scheduler) : Scheduler :=
  { scheduler with
    mode := .run, event := .frame, active := .cpu, desynchronized := false, transfer := none
    threads := scheduler.threads.map Thread.reset }

def thread? (scheduler : Scheduler) (id : ThreadId) : Option Thread := scheduler.threads[id.index]?

def thread (scheduler : Scheduler) (id : ThreadId) : Except Fault Thread :=
  match scheduler.thread? id with
  | some thread => .ok thread
  | none => .error (.missingThread id)

def clock (scheduler : Scheduler) (id : ThreadId) : Except Fault Clock := do
  return (← scheduler.thread id).clock

def modifyThread (scheduler : Scheduler) (id : ThreadId) (change : Thread → Thread) : Scheduler :=
  { scheduler with threads := scheduler.threads.modify id.index change }

def setMode (scheduler : Scheduler) (mode : Mode) : Except Fault Scheduler :=
  if scheduler.entered then .error .insideSimulation else .ok { scheduler with mode }

/-- Selects the thread that the next entry transfers control to. -/
def setActive (scheduler : Scheduler) (id : ThreadId) : Except Fault Scheduler :=
  if scheduler.entered then .error .insideSimulation
  else if scheduler.threads.size ≤ id.index then .error (.missingThread id)
  else .ok { scheduler with active := id }

def clearDesynchronized (scheduler : Scheduler) : Scheduler :=
  { scheduler with desynchronized := false }

def synchronizing (scheduler : Scheduler) : Bool := scheduler.mode == .synchronize

/-- The chip of this thread is executing right now. -/
def executing (scheduler : Scheduler) (id : ThreadId) : Bool :=
  scheduler.entered && scheduler.active == id

def allParked (scheduler : Scheduler) : Bool := scheduler.threads.all Thread.parked

/-- Every thread is settled: the machine is at a consistent instant. -/
def quiescent (scheduler : Scheduler) : Bool := scheduler.threads.all Thread.settled

def parkAll (scheduler : Scheduler) : Scheduler :=
  { scheduler with threads := scheduler.threads.map Thread.park }

def request (scheduler : Scheduler) (transfer : Transfer) : Except Fault Scheduler :=
  if !scheduler.entered then .error .outsideSimulation
  else if scheduler.transfer.isSome then .error .secondTransfer
  else .ok { scheduler with transfer := some transfer }

/-- Ends the slice and returns control to the host. The leaving thread stays active, so the next
entry continues where it left off. -/
def leave (scheduler : Scheduler) (event : Event) : Except Fault Scheduler :=
  scheduler.request (.leave event)

/-- Ends the slice and transfers control to another chip. -/
def resume (scheduler : Scheduler) (target : ThreadId) : Except Fault Scheduler := do
  let scheduler ← scheduler.request (.resume target)
  if scheduler.threads.size ≤ target.index then throw (.missingThread target)
  return { scheduler with desynchronized := scheduler.desynchronized || scheduler.synchronizing }

/-- Called by a chip at its synchronization point. True if the chip goes on, false if it left and
has to end the slice. A dependent that is behind the reference passes its point even while
synchronizing, so it parks level with the reference or ahead of it. -/
def synchronizePoint (scheduler : Scheduler) (id : ThreadId) : Except Fault (Bool × Scheduler) := do
  if !scheduler.executing id then throw (.notExecuting id)
  let thread ← scheduler.thread id
  let behind := id != .cpu && !thread.clock.ahead
  if thread.state = .released ∨ scheduler.mode = .run ∨ behind then
    return (true, scheduler.modifyThread id fun thread => { thread with state := .running })
  let event := if scheduler.desynchronized then Event.desynchronized else .synchronized
  let scheduler := scheduler.modifyThread id Thread.park
  return (false, ← scheduler.clearDesynchronized.leave event)

/-- A step of the reference moves every other clock back instead, so the reference stays at zero. -/
def rewindDependents (units : UInt32) (threads : Array Thread) : Except Fault (Array Thread) :=
  threads.mapM fun thread => do
    if thread.id = .cpu then return thread
    return { thread with clock := ← thread.clock.rewind units }

/-- Advances the clock of a thread by units of its own domain. Yields the clock's new value. -/
def step (scheduler : Scheduler) (id : ThreadId) (units : UInt32) :
    Except Fault (Int64 × Scheduler) := do
  if id = .cpu then
    return (0, { scheduler with threads := ← rewindDependents units scheduler.threads })
  let reference ← scheduler.clock .cpu
  let clock ← (← scheduler.clock id).advance units reference.frequency
  return (clock.value, scheduler.modifyThread id fun thread => { thread with clock })

/-- Control passes to a thread. -/
def transferTo (scheduler : Scheduler) (target : ThreadId) : Scheduler :=
  { scheduler.modifyThread target Thread.release with active := target, transfer := none }

/-- The clock of one thread. The reference clock always stands at zero. -/
def serializeThread (scheduler : Scheduler) (id : ThreadId) : Visit Scheduler := do
  match scheduler.thread? id with
  | none => return scheduler
  | some thread =>
    let thread ← thread.serialize
    let value ← Serializer.require "cpu clock" (id != .cpu || thread.clock.value == 0)
      thread.clock.value 0
    return scheduler.modifyThread id fun _ =>
      { thread with clock := { thread.clock with value } }

/-- What only means something together with suspended chips: the active thread, the disturbance
flag, and where each thread is suspended. -/
def serializeStack (scheduler : Scheduler) : Visit Scheduler := do
  let active ← Serializer.word (UInt8.ofNat scheduler.active.index)
  let desynchronized ← Serializer.boolean scheduler.desynchronized
  let threads ← scheduler.threads.mapM Thread.serializeStack
  let known := (ThreadId.ofIndex? active.toNat).filter fun id => id.index < threads.size
  match known with
  | some id => return { scheduler with active := id, desynchronized, threads }
  | none =>
    Serializer.reject "active thread"
    return { scheduler with active := .cpu, desynchronized, threads }

end Scheduler
end MultiClock
