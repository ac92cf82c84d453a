import MultiClock.Cartridge
import MultiClock.Json.Reader
import MultiClock.Json.Writer

/-! Descriptions of cartridges as JSON. The program is not part of a description: it is found next
to it, in a file of the same name with another extension. -/

namespace MultiClock.Cartridge

open Json

/-- A cartridge without a program. -/
def blank : Cartridge := ⟨"", [], #[]⟩

def fields : List (Json.Field Cartridge) :=
  [⟨"title", fun cartridge source => do
      let (title, rest) ← text source
      return ({ cartridge with title }, rest)⟩,
    ⟨"coprocessors", fun cartridge source => do
      let kinds := CoprocessorKind.all.map fun kind => (kind.name, kind)
      let (coprocessors, rest) ← list (choice kinds) source
      return ({ cartridge with coprocessors }, rest)⟩]

def ofJson (source : String) : Except Json.Problem Cartridge := read (record fields blank) source

def toJson (cartridge : Cartridge) : String :=
  writeRecord [
    ("title", writeText cartridge.title),
    ("coprocessors", writeList (cartridge.coprocessors.map fun kind => writeText kind.name))]

end MultiClock.Cartridge
