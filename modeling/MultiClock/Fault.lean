import MultiClock.Thread.Id

/-! A run of the machine breaks off with a fault when a chip or its host violates the protocol of
the scheduler, or when a number outgrows the word that holds it. Faults are never repaired: they
end the run, so a machine that returns has met every condition checked on the way. -/

namespace MultiClock

inductive Fault
  /-- A clock value or a clock comparison left the range of 64 bits. -/
  | clockOverflow
  /-- A register or a counter left the range of its word. -/
  | counterOverflow
  /-- The host called while the simulation was running. -/
  | insideSimulation
  /-- A chip asked for a transfer of control while the simulation was not running. -/
  | outsideSimulation
  /-- A slice asked for two transfers of control. -/
  | secondTransfer
  /-- A thread that is not executing reached its synchronization point. -/
  | notExecuting (thread : ThreadId)
  /-- A helper for the reference chip was called by a dependent, or the other way round. -/
  | wrongSide (thread : ThreadId)
  /-- The scheduler has no such thread. -/
  | missingThread (thread : ThreadId)
  /-- A script continues at a slice that it does not have. -/
  | missingSlice (index : Nat)
  /-- Driving the threads to a save ended with a thread that is not settled. -/
  | notQuiescent
  /-- The slices that the host allowed are used up. -/
  | exhausted
deriving DecidableEq, Repr

def Fault.message : Fault → String
  | .clockOverflow => "a clock left its range"
  | .counterOverflow => "a counter left its range"
  | .insideSimulation => "the host called inside the simulation"
  | .outsideSimulation => "a chip called outside the simulation"
  | .secondTransfer => "a slice asked for two transfers of control"
  | .notExecuting thread => "thread " ++ thread.name ++ " is not executing"
  | .wrongSide thread => "thread " ++ thread.name ++ " is on the wrong side"
  | .missingThread thread => "no thread " ++ thread.name
  | .missingSlice index => "no slice " ++ toString index
  | .notQuiescent => "a thread is not settled"
  | .exhausted => "the slices are used up"

end MultiClock
