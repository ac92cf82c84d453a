import MultiClock.Host.Notice
import MultiClock.Memory.Entropy

/-! What a user can choose about a machine: how its memory is filled at power-on, and how its chips
are driven before a portable snapshot. Some titles rely on timing that only the strict method
reproduces after a load. There is no telling them by their programs, so they are listed. -/

namespace MultiClock

structure Configuration where
  serialization : SaveMethod
  entropy : Entropy
  /-- Titles that need the strict method, besides those that are known to. -/
  strictTitles : List String
deriving DecidableEq, Repr

namespace Configuration

def standard : Configuration := ⟨.fast, .low, []⟩

instance : Inhabited Configuration := ⟨standard⟩

/-- The titles that are known to need the strict method. -/
def knownStrictTitles : List String := ["RENDERING RANGER R2", "TALES OF PHANTASIA", "STAR OCEAN"]

/-- Titles have to match exactly. -/
def needsStrict (configuration : Configuration) (title : String) : Bool :=
  knownStrictTitles.contains title || configuration.strictTitles.contains title

/-- The method for the cartridge of a title. -/
def methodFor (configuration : Configuration) (title : String) : SaveMethod :=
  if configuration.needsStrict title then .strict else configuration.serialization

/-- The method for a title. The host hears of it when the title overrules the configuration. -/
def announceMethod [Host ω] (configuration : Configuration) (title : String) :
    StateM ω SaveMethod := do
  let method := configuration.methodFor title
  if method ≠ configuration.serialization then modify (Host.notice (.strictRequired title))
  return method

end Configuration
end MultiClock
