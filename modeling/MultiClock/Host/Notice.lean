import MultiClock.Fault
import MultiClock.Picture.Framebuffer
import MultiClock.Save.Method
import MultiClock.Scheduler.Activity

/-! What a host hears from the machine. Notices and frames flow out only: the machine never reads
anything back, so its states do not depend on who listens. -/

namespace MultiClock

/-- Something worth reporting. -/
inductive Notice
  | activity (activity : Activity)
  /-- A coprocessor took a command. -/
  | command (coprocessor : UInt8) (operands : Vector UInt8 4)
  | passDisturbed (pass : UInt32) (thread : ThreadId)
  | redriving (threads : Nat)
  | driven (method : SaveMethod) (report : SaveReport)
  | strictRequired (title : String)
  | poweredOn (title : String) (coprocessors : Nat)
  | saved (portable : Bool) (frame : UInt64) (size : Nat)
  | loaded (portable : Bool) (description : String) (frame : UInt64)
  | wrote (size : Nat) (path : String)
  /-- What a scripted chip saw. -/
  | remark (text : String)

/-- The listening side of a machine. -/
class Host (ω : Type) where
  notice : Notice → ω → ω
  /-- A frame completed, with the sound since the previous one. -/
  frame : Framebuffer → Array Int16 → ω → ω

/-- A host that does not listen. -/
instance : Host Unit where
  notice _ host := host
  frame _ _ host := host

/-- A run that a host listens to. What the host heard is kept when the run ends with a fault. -/
abbrev Run (ω : Type) := ExceptT Fault (StateM ω)

namespace Run

def report [Host ω] (notice : Notice) : Run ω Unit := modify (Host.notice notice)

/-- Passes on notices that were collected with the newest first. -/
def reportAll [Host ω] (notices : List Notice) : Run ω Unit :=
  modify fun host => notices.foldr Host.notice host

/-- Continues with what a computation without a listener yields. -/
def ofExcept : Except Fault α → Run ω α
  | .ok value => pure value
  | .error fault => throw fault

end Run
end MultiClock
