import MultiClock.Text.Numeral

/-! The arguments of the command line. Options take the next argument as their value, and everything
after two dashes is positional. Asking for help has to be the last option. -/

namespace MultiClock.CommandLine

open Text

structure Arguments where
  /-- Description of the cartridge. -/
  cartridge : Option String
  /-- Configuration file. -/
  config : Option String
  /-- Number of frames to run. -/
  frames : Option Nat
  /-- Snapshot to load before running. -/
  load : Option String
  /-- Where to write a snapshot after running. -/
  save : Option String
  /-- The written snapshot is instant, not portable. -/
  instant : Bool
  /-- Text stored in the written snapshot. -/
  description : Option String
  /-- Where to write all sound. -/
  wave : Option String
  /-- Where to write the last frame. -/
  picture : Option String
  cheats : List String
  /-- Filters of the activities to print. -/
  filters : List String
  /-- Where to write a trace of the process. -/
  traceFile : Option String
deriving DecidableEq, Repr

/-- Why the arguments do not lead to a run. -/
inductive Refusal
  | helpWanted
  | mistaken
deriving DecidableEq, Repr

namespace Arguments

def empty : Arguments :=
  ⟨none, none, none, none, none, false, none, none, none, [], [], none⟩

def frameLimit : Nat := 0xFFFFFFFFFFFFFFFF

/-- Most options may be given once. -/
def fill (slot : Option α) (value : α) : Except Refusal (Option α) :=
  match slot with
  | none => .ok (some value)
  | some _ => .error .mistaken

def setOption (name value : String) (arguments : Arguments) : Except Refusal Arguments := do
  match name with
  | "--config" => return { arguments with config := ← fill arguments.config value }
  | "--frames" =>
    match readNumeral 10 frameLimit value.toList with
    | .ok frames => return { arguments with frames := ← fill arguments.frames frames }
    | .error _ => throw .mistaken
  | "--load" => return { arguments with load := ← fill arguments.load value }
  | "--save" => return { arguments with save := ← fill arguments.save value }
  | "--description" => return { arguments with description := ← fill arguments.description value }
  | "--wav" => return { arguments with wave := ← fill arguments.wave value }
  | "--png" => return { arguments with picture := ← fill arguments.picture value }
  | "--cheat" => return { arguments with cheats := arguments.cheats ++ [value] }
  | "--log" => return { arguments with filters := arguments.filters ++ [value] }
  | "--trace-file" => return { arguments with traceFile := ← fill arguments.traceFile value }
  | _ => throw .mistaken

def setPositional (value : String) (arguments : Arguments) : Except Refusal Arguments := do
  return { arguments with cartridge := ← fill arguments.cartridge value }

/-- Reads on, after help was asked for or the options have ended. -/
def parseFrom (help ended : Bool) (arguments : Arguments) : List String → Except Refusal Arguments
  | [] => if help then .error .helpWanted else .ok arguments
  | word :: rest =>
    if ended || !"-".isPrefixOf word && word != "help" then do
      parseFrom help ended (← arguments.setPositional word) rest
    else if word = "--help" ∨ word = "help" then parseFrom true ended arguments rest
    else if word = "--" then parseFrom help true arguments rest
    else if help then .error .mistaken
    else if word = "--instant" then parseFrom help ended { arguments with instant := true } rest
    else match rest with
      | [] => .error .mistaken
      | value :: rest => do parseFrom help ended (← arguments.setOption word value) rest

def parse (words : List String) : Except Refusal Arguments := parseFrom false false empty words

end Arguments
end MultiClock.CommandLine
