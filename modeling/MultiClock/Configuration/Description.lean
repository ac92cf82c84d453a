import MultiClock.Configuration
import MultiClock.Json.Reader
import MultiClock.Json.Writer

/-! Configurations as JSON. Every field may be left out, and no other field is accepted. -/

namespace MultiClock.Configuration

open Json

def fields : List (Json.Field Configuration) :=
  [⟨"serialization", fun configuration source => do
      let methods := SaveMethod.all.map fun method => (method.name, method)
      let (serialization, rest) ← choice methods source
      return ({ configuration with serialization }, rest)⟩,
    ⟨"entropy", fun configuration source => do
      let levels := Entropy.all.map fun entropy => (entropy.name, entropy)
      let (entropy, rest) ← choice levels source
      return ({ configuration with entropy }, rest)⟩,
    ⟨"strict_titles", fun configuration source => do
      let (strictTitles, rest) ← list text source
      return ({ configuration with strictTitles }, rest)⟩]

def ofJson (source : String) : Except Problem Configuration := read (record fields standard) source

def toJson (configuration : Configuration) : String :=
  writeRecord [
    ("serialization", writeText configuration.serialization.name),
    ("entropy", writeText configuration.entropy.name),
    ("strict_titles", writeList (configuration.strictTitles.map writeText))]

end MultiClock.Configuration
