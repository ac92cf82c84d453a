import MultiClock.Chip

/-! A chip that follows a script. Every slice of the script is a list of calls to the scheduler and
the bus, so that a scheduler can be examined with chips of any behavior. -/

namespace MultiClock.Bench

inductive Call
  | point
  | step (units : UInt32)
  | synchronize (other : ThreadId)
  | synchronizeCpu
  | synchronizeAhead (cycles : UInt32)
  | resume (target : ThreadId)
  | leave (event : Event)
  | clock
  | read (address : UInt16)
  | write (address : UInt16) (value : UInt8)
  | apuWrite (port : Nat) (value : UInt8)
  | apuRead (port : Nat)
  | copWrite (index port : Nat) (value : UInt8)
  | copRead (index port : Nat)
  | copTake (index : Nat)
deriving DecidableEq, Repr

structure Script where
  frequency : UInt32
  slices : Array (List Call)
  /-- The slice that follows the last one. Without it the chip leaves with a frame at the end. -/
  loop : Option Nat
  /-- The next slice. -/
  position : UInt32
deriving DecidableEq, Repr

namespace Script

/-- Remarks what a call yielded. -/
def remark (cx : Context) (words : List String) : Context :=
  cx.report (.remark (" ".intercalate (cx.thread.name :: words)))

/-- A call that does not end the slice. -/
def perform (call : Call) (cx : Context) : Except Fault Context := do
  match call with
  | .step units => cx.step units
  | .resume target => cx.resume target
  | .leave event => cx.leave event
  | .clock =>
    return remark cx ["clock", toString (← cx.clock).toInt, toString cx.synchronizing]
  | .read address => return remark cx ["read", toString (cx.bus.readWram address).toNat]
  | .write address value => return { cx with bus := cx.bus.writeWram address value }
  | .apuWrite port value =>
    return { cx with bus := { cx.bus with apu := cx.bus.apu.writeInput port value } }
  | .apuRead port => return remark cx ["apu_read", toString (cx.bus.apu.readOutput port).toNat]
  | .copWrite index port value =>
    let bus := cx.bus.modifyCoprocessor index fun latch => latch.writeInput port value
    return { cx with bus }
  | .copRead index port =>
    match cx.latch? index with
    | some latch => return remark cx ["cop_read", toString (latch.readOutput port).toNat]
    | none => return cx
  | .copTake index =>
    match cx.latch? index with
    | some latch =>
      let (taken, _) := latch.takeStrobe
      let cx := { cx with
        bus := cx.bus.modifyCoprocessor index fun latch => latch.takeStrobe.2 }
      return remark cx ["cop_take", toString taken]
    | none => return cx
  | .point | .synchronize _ | .synchronizeCpu | .synchronizeAhead _ => return cx

/-- Makes the calls of a slice. A call that transfers control ends the slice, and a slice that left
at its synchronization point is repeated. -/
def callsFrom (position : UInt32) (script : Script) :
    List Call → Context → Except Fault (Script × Context)
  | [], cx => .ok (script, cx)
  | .point :: rest, cx => do
    let (passed, cx) ← cx.synchronizePoint
    let cx := remark cx ["point", toString passed]
    if passed then callsFrom position script rest cx else return ({ script with position }, cx)
  | .synchronize other :: rest, cx => do
    let (resumed, cx) ← cx.synchronize other
    let cx := remark cx ["sync", toString resumed]
    if resumed then return (script, cx) else callsFrom position script rest cx
  | .synchronizeCpu :: rest, cx => do
    let (resumed, cx) ← cx.synchronizeCpu
    let cx := remark cx ["sync_cpu", toString resumed]
    if resumed then return (script, cx) else callsFrom position script rest cx
  | .synchronizeAhead cycles :: rest, cx => do
    let (resumed, cx) ← cx.synchronizeAhead cycles
    let cx := remark cx ["ahead", toString resumed]
    if resumed then return (script, cx) else callsFrom position script rest cx
  | call :: rest, cx => do callsFrom position script rest (← perform call cx)

/-- The next slice to execute, or none at the end of a script without a loop. -/
def next (script : Script) : Option Nat :=
  if script.position.toNat < script.slices.size then some script.position.toNat else script.loop

def slice (script : Script) (cx : Context) : Except Fault (Script × Context) := do
  match script.next with
  | none => return (script, ← cx.leave .frame)
  | some index =>
    match script.slices[index]? with
    | none => throw (.missingSlice index)
    | some calls =>
      let position := UInt32.ofNat index
      callsFrom position { script with position := position + 1 } calls cx

instance : Chip Script where
  frequency script := script.frequency
  power script seeding := ({ script with position := 0 }, seeding)
  slice := slice
  serialize script := return script
  serializeStack script := do return { script with position := ← Serializer.word script.position }
  atBoundary script :=
    match script.slices[script.position.toNat]? with
    | some calls => calls.head? == some .point
    | none => true

end Script
end MultiClock.Bench
