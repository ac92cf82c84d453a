import MultiClock.CommandLine.Messages
import MultiClock.Picture.Png

/-! The program itself: the arguments, the files of the system and the printed lines around a
run. -/

namespace MultiClock.CommandLine

def succeeds (action : IO Unit) : IO Bool :=
  try
    action
    return true
  catch _ => return false

/-- Access to the files of the system. A file that cannot be read counts as missing. -/
def systemFiles : Files IO where
  read path :=
    try
      return .file (← IO.FS.readBinFile path).data
    catch
      | .inappropriateType .. => return .directory
      | _ => return .nothing
  write path data := succeeds (IO.FS.writeBinFile path ⟨data⟩)
  writePicture path picture := succeeds (IO.FS.writeBinFile path ⟨Png.encode picture⟩)

/-- The log that the environment asks for. -/
def environmentLog : IO Log := do
  let filter := Log.Filter.parse ((← IO.getEnv "SRES_LOG").getD "warn")
  return Log.new filter filter.limit (← (← IO.getStdout).isTty)

def perform (words : List String) : IO Outcome := do
  match Arguments.parse words with
  | .error refusal => return refusal.outcome
  | .ok arguments =>
    let hostSeed := UInt64.ofNat (← IO.monoNanosNow)
    let session := run systemFiles hostSeed Scheduler.ampleBudget arguments
    let (result, listener) ← session (listener (← environmentLog))
    return outcome result listener

end MultiClock.CommandLine

def main (words : List String) : IO UInt32 := do
  let outcome ← MultiClock.CommandLine.perform words
  outcome.output.forM IO.println
  outcome.errors.forM IO.eprintln
  return outcome.status
