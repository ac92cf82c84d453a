import MultiClock.CommandLine.Run

/-! What a run tells the user at its end, line by line. -/

namespace MultiClock.CommandLine

/-- How to use the program. -/
def helpLines : List String :=
  ["Usage: multiclock [<cartridge>] [--config <config>] [--frames <frames>] [--load <load>] " ++
      "[--save <save>] [--instant] [--description <description>] [--wav <wav>] [--png <png>] " ++
      "[--cheat <cheat...>] [--log <log...>] [--trace-file <trace-file>]",
    "",
    "Runs an sres machine without a display",
    "",
    "Positional Arguments:",
    "  cartridge         cartridge description (json)",
    "",
    "Options:",
    "  --config          configuration file (json)",
    "  --frames          number of frames to run",
    "  --load            snapshot to load before running",
    "  --save            write a snapshot after running",
    "  --instant         save an instant snapshot instead of a portable one",
    "  --description     description stored in the snapshot",
    "  --wav             write all audio to this wav file",
    "  --png             write the last frame to this png file",
    "  --cheat           work RAM cheat, addr=value or addr?compare=value in hex",
    "  --log             print scheduler events matching this filter, e.g. \"resume",
    "                    smp\"",
    "  --trace-file      enable generation of trace files",
    "  --help, help      display usage information"]

/-- The reason for a problem, where the summary leaves it out. -/
def Problem.reason? : Problem → Option String
  | invalidConfiguration _ cause | invalidCartridge _ cause => some cause.pathText
  | invalidCheat (.badAddress _ _ cause) | invalidCheat (.badByte _ _ cause) => some cause.message
  | refusedSnapshot _ cause => some cause.message
  | _ => none

def Problem.lines (problem : Problem) : List String :=
  let reason := match problem.reason? with
    | none => []
    | some reason => ["", "Caused by:", "    " ++ reason]
  ("Error: " ++ problem.summary) :: reason

def Failure.lines : Failure → List String
  | .problem cause => cause.lines
  | .fault cause => ["The machine broke down: " ++ cause.message]

/-- The status that tells other programs about a failure. -/
def Failure.status : Failure → UInt32
  | .problem _ => 1
  | .fault _ => 101

def Report.lines (report : Report) : List String :=
  report.activities ++
    ["Ran " ++ toString report.frames.toNat ++ " frames, " ++ toString report.audioSamples ++
      " audio samples"]

/-- What is printed as usual and as an error, and the status at the end. -/
structure Outcome where
  output : List String
  errors : List String
  status : UInt32

def Refusal.outcome : Refusal → Outcome
  | .helpWanted => ⟨helpLines, [], 0⟩
  | .mistaken => ⟨[], ["Run multiclock --help for more information."], 1⟩

/-- The log comes first, as it was printed during the run. -/
def outcome (result : Except Failure Report) (listener : Listener) : Outcome :=
  let printed := listener.log.printed.toList
  match result with
  | .ok report => ⟨printed ++ report.lines, [], 0⟩
  | .error failure => ⟨printed, failure.lines, failure.status⟩

end MultiClock.CommandLine
