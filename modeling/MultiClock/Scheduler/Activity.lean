import MultiClock.Thread.Id

/-! What the scheduler does with control: why it came back to the host, and the single events that
a debugger can follow. -/

namespace MultiClock

open Text

/-- Why control was returned to the host. -/
inductive Event
  /-- A visible frame completed. -/
  | frame
  /-- The leaving chip reached its synchronization point undisturbed. -/
  | synchronized
  /-- The leaving chip reached its synchronization point, but another chip was resumed on the
  way. -/
  | desynchronized
deriving DecidableEq, Repr, Inhabited

namespace Event

def name : Event → String
  | frame => "frame"
  | synchronized => "synchronized"
  | desynchronized => "desynchronized"

def all : List Event := [frame, synchronized, desynchronized]

/-- Case does not matter. -/
def parse? (text : String) : Option Event :=
  all.find? fun event => equalIgnoringCase event.name text

end Event

/-- A transfer of control or a step of a clock. -/
inductive Activity
  | resume (source target : ThreadId)
  | leave (thread : ThreadId) (event : Event)
  /-- `clock` is the value of the thread's clock after the step. -/
  | step (thread : ThreadId) (units : UInt32) (clock : Int64)
deriving DecidableEq, Repr

namespace Activity

def render : Activity → String
  | resume source target => "resume " ++ source.name ++ " -> " ++ target.name
  | leave thread event => "leave " ++ thread.name ++ " (" ++ event.name ++ ")"
  | step thread units clock =>
    "step " ++ thread.name ++ " +" ++ toString units.toNat ++ " (" ++ toString clock.toInt ++ ")"

end Activity
end MultiClock
