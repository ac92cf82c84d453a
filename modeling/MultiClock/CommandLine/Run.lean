import MultiClock.Cartridge.Description
import MultiClock.CommandLine.Arguments
import MultiClock.CommandLine.Files
import MultiClock.Configuration.Description
import MultiClock.Console
import MultiClock.Host.Station
import MultiClock.Sound.Wave

/-! A run without a display: builds a machine, runs it for a number of frames, and writes what was
asked for into files. -/

namespace MultiClock.CommandLine

/-- Why a run was given up. -/
inductive Problem
  | unreadableConfiguration (path : String)
  | invalidConfiguration (path : String) (cause : Json.Problem)
  | unreadableCartridge (path : String)
  | invalidCartridge (path : String) (cause : Json.Problem)
  | programIsDirectory
  | unsupportedCartridge (cause : Cartridge.Problem)
  | invalidCheat (cause : Cheat.Problem)
  | invalidFilter (cause : ActivityFilter.Problem)
  | unreadableSnapshot (path : String)
  | refusedSnapshot (path : String) (cause : SnapshotError)
  | unwritableSnapshot (path : String)
  | unwritableSound (path : String)
  | unwritablePicture (path : String)

/-- What went wrong, without the reason for it. -/
def Problem.summary : Problem → String
  | unreadableConfiguration path => "Cannot read configuration " ++ path
  | invalidConfiguration path _ => "Invalid configuration " ++ path
  | unreadableCartridge path => "Cannot read cartridge " ++ path
  | invalidCartridge path _ => "Invalid cartridge " ++ path
  | programIsDirectory => "Is a directory (os error 21)"
  | unsupportedCartridge cause => cause.message
  | invalidCheat cause => cause.summary
  | invalidFilter cause => cause.message
  | unreadableSnapshot path => "Cannot read snapshot " ++ path
  | refusedSnapshot path _ => "Cannot load snapshot " ++ path
  | unwritableSnapshot path => "Cannot write snapshot " ++ path
  | unwritableSound path => "Cannot write audio " ++ path
  | unwritablePicture path => "Cannot write image " ++ path

inductive Failure
  | problem (problem : Problem)
  | fault (fault : Fault)

structure Report where
  /-- Frame counter of the machine after the run. -/
  frames : UInt64
  audioSamples : Nat
  activities : List String

/-- A platform that keeps all sound. -/
structure Recorder where
  samples : Array Int16

instance : Platform Recorder where
  frame _ samples recorder := ⟨recorder.samples ++ samples⟩

/-- What listens to a run. -/
abbrev Listener := Station Recorder

def listener (log : Log) : Listener := ⟨Debuggers.new 1, 0, log, ⟨#[]⟩⟩

/-- A run with access to files. What was heard is kept when it is given up. -/
abbrev Session (m : Type → Type) := ExceptT Failure (StateT Listener m)

/-- The cartridge without a description: one coprocessor of each kind. -/
def demoCartridge : Cartridge := ⟨"DEMO", [.multiplier, .rtc], #[]⟩

def standardFrames : Nat := 60

section

variable [Monad m]

def giveUp (problem : Problem) : Session m α := throw (.problem problem)

def orElse (problem : ε → Problem) : Except ε α → Session m α
  | .ok value => pure value
  | .error cause => giveUp (problem cause)

/-- A part of the run that needs no files. -/
def simulate (run : MultiClock.Run Listener α) : Session m α := do
  let (result, listener) := run.run (← get)
  set listener
  match result with
  | .ok value => return value
  | .error fault => throw (.fault fault)

/-- The contents of a file as text. -/
def readText (files : Files m) (path : String) : m (Option String) := do
  return (← files.read path).data?.bind fun bytes => String.fromUTF8? ⟨bytes⟩

def configuration (files : Files m) : Option String → Session m Configuration
  | none => return Configuration.standard
  | some path => do
    match ← (readText files path : m _) with
    | none => giveUp (.unreadableConfiguration path)
    | some source => orElse (.invalidConfiguration path) (Configuration.ofJson source)

/-- A cartridge with a program, if it can be run. -/
def withProgram (cartridge : Cartridge) (program : Array UInt8) : Except Problem Cartridge :=
  let cartridge := { cartridge with program }
  match cartridge.validate with
  | .ok () => .ok cartridge
  | .error cause => .error (.unsupportedCartridge cause)

/-- A cartridge from its description and the program next to it. -/
def readCartridge (files : Files m) (path : String) : m (Except Problem Cartridge) := do
  match ← readText files path with
  | none => return .error (.unreadableCartridge path)
  | some source =>
    match Cartridge.ofJson source with
    | .error cause => return .error (.invalidCartridge path cause)
    | .ok cartridge =>
      match ← files.read (Path.withExtension "bin" path) with
      | .nothing => return withProgram cartridge #[]
      | .file program => return withProgram cartridge program
      | .directory => return .error .programIsDirectory

def cartridge (files : Files m) : Option String → Session m Cartridge
  | none => return demoCartridge
  | some path => do
    let result ← (readCartridge files path : m _)
    orElse id result

def addCheats (console : Console) : List String → Session m Console
  | [] => return console
  | text :: rest => do
    let cheat ← orElse .invalidCheat (Cheat.parse text)
    addCheats (console.addCheat cheat) rest

/-- Changes the debugger that listens to the run. -/
def debug (change : Debuggers → Debuggers) : Session m Unit :=
  modify fun listener => { listener with debuggers := change listener.debuggers }

def addLogPoints : List String → Session m Unit
  | [] => return ()
  | text :: rest => do
    let filter ← orElse .invalidFilter (ActivityFilter.parse text)
    debug (Debuggers.modify 0 (Debugger.add filter))
    addLogPoints rest

def loadSnapshot (files : Files m) (hostSeed : UInt64) (console : Console) :
    Option String → Session m Console
  | none => return console
  | some path => do
    match (← (files.read path : m _)).data? with
    | none => giveUp (.unreadableSnapshot path)
    | some data =>
      let (result, console) ← simulate (console.load hostSeed data)
      orElse (.refusedSnapshot path) result
      return console

def saveSnapshot (files : Files m) (budget : Nat) (arguments : Arguments) (console : Console) :
    Option String → Session m Console
  | none => return console
  | some path => do
    let description := arguments.description.getD ""
    let (data, console) ← simulate (console.save budget (!arguments.instant) description)
    if !(← (files.write path data : m _)) then giveUp (.unwritableSnapshot path)
    simulate (Run.report (.wrote data.size path))
    return console

def saveSound (files : Files m) : Option String → Session m Unit
  | none => return ()
  | some path => do
    let samples := (← get).platform.samples
    let data := Wave.encode Smp.sampleRate.toNat samples
    if !(← (files.write path data : m _)) then giveUp (.unwritableSound path)

def savePicture (files : Files m) (console : Console) : Option String → Session m Unit
  | none => return ()
  | some path => do
    if !(← (files.savePicture path console.machine.board.ppu.picture : m _)) then
      giveUp (.unwritablePicture path)

/-- The activities that were to be printed. -/
def takeActivities (filters : List String) : Session m (List String) := do
  if filters.isEmpty then return []
  debug (Debuggers.enable 0 false)
  let (activities, debuggers) := (← get).debuggers.takeLog 0
  debug fun _ => debuggers
  return activities.toList.map Activity.render

/-- The whole run. `hostSeed` only counts for high entropy. -/
def run (files : Files m) (hostSeed : UInt64) (budget : Nat) (arguments : Arguments) :
    Session m Report := do
  let configuration ← configuration files arguments.config
  let cartridge ← cartridge files arguments.cartridge
  let result ← simulate (Console.new configuration cartridge hostSeed : StateM Listener _)
  let console ← orElse .unsupportedCartridge result
  let console ← addCheats console arguments.cheats
  if !arguments.filters.isEmpty then
    addLogPoints arguments.filters
    debug (Debuggers.enable 0 true)
  let console ← loadSnapshot files hostSeed console arguments.load
  let console ← simulate (console.runFrames budget (arguments.frames.getD standardFrames))
  let console ← saveSnapshot files budget arguments console arguments.save
  saveSound files arguments.wave
  savePicture files console arguments.picture
  let activities ← takeActivities arguments.filters
  return ⟨console.machine.board.frame, (← get).platform.samples.size, activities⟩

end

end MultiClock.CommandLine
