import MultiClock.Host.Debugger
import MultiClock.Host.Log
import MultiClock.Host.Notice
import MultiClock.Text.Numeral
import MultiClock.Text.Quoted

/-! A host that listens with everything there is: a log, a debugger, and a platform for pictures and
sound. -/

namespace MultiClock

open Text

namespace Notice

/-- How urgent a notice is and where it comes from. Steps and remarks are not logged. -/
def source? : Notice → Option (Log.Level × String)
  | activity (.step _ _ _) | remark _ => none
  | activity _ => some (.trace, "scheduler")
  | command _ _ => some (.debug, "multiplier")
  | passDisturbed _ _ | redriving _ | driven _ _ => some (.debug, "driver")
  | strictRequired _ => some (.warn, "config")
  | poweredOn _ _ | saved _ _ _ | loaded _ _ _ => some (.info, "system")
  | wrote _ _ => some (.info, "sres_cli")

def kindOf (portable : Bool) : String := if portable then "portable" else "instant"

def message : Notice → String
  | activity (.resume source target) => source.name ++ " -> " ++ target.name
  | activity (.leave thread event) => thread.name ++ " leaves: " ++ event.name
  | activity step => step.render
  | command coprocessor operands =>
    "cop" ++ toString coprocessor.toNat ++ " command [" ++
      ", ".intercalate (operands.toList.map fun byte => hexUpper 2 byte.toNat) ++ "]"
  | passDisturbed pass thread =>
    "Pass " ++ toString pass.toNat ++ " disturbed while driving " ++ thread.name
  | redriving threads => "Re-driving " ++ toString threads ++ " unsettled threads"
  | driven method report =>
    method.name ++ " synchronization: " ++ toString report.passes.toNat ++ " passes, " ++
      toString report.desyncs.toNat ++ " desyncs, " ++ toString report.frames.toNat ++ " frames"
  | strictRequired title => title ++ " requires strict synchronization for snapshots"
  | poweredOn title coprocessors =>
    "Powered on " ++ quoted title ++ " with " ++ toString coprocessors ++ " coprocessors"
  | saved portable frame size =>
    "Saved " ++ kindOf portable ++ " snapshot at frame " ++ toString frame.toNat ++ " (" ++
      toString size ++ " bytes)"
  | loaded portable description frame =>
    "Loaded " ++ kindOf portable ++ " snapshot " ++ quoted description ++ " at frame " ++
      toString frame.toNat
  | wrote size path => "Wrote " ++ toString size ++ " bytes to " ++ path
  | remark text => text

end Notice

/-- Offers a notice to a log. -/
def Log.note (notice : Notice) (log : Log) : Log :=
  match notice.source? with
  | none => log
  | some (level, target) =>
    if level.within log.limit then log.write ⟨level, target, notice.message⟩ else log

/-- What shows pictures and plays sound. -/
class Platform (π : Type) where
  frame : Framebuffer → Array Int16 → π → π

structure Station (π : Type) where
  debuggers : Debuggers
  /-- The debugger of the machine that is listened to. -/
  debugger : Nat
  log : Log
  platform : π

namespace Station

def notice (notice : Notice) (station : Station π) : Station π :=
  let ⟨debuggers, debugger, log, platform⟩ := station
  match notice with
  | .activity activity =>
    ⟨debuggers.emit debugger activity, debugger, log.note (.activity activity), platform⟩
  | notice => ⟨debuggers, debugger, log.note notice, platform⟩

def frame [Platform π] (picture : Framebuffer) (samples : Array Int16) (station : Station π) :
    Station π :=
  let ⟨debuggers, debugger, log, platform⟩ := station
  ⟨debuggers, debugger, log, Platform.frame picture samples platform⟩

instance [Platform π] : Host (Station π) where
  notice := notice
  frame := frame

end Station
end MultiClock
