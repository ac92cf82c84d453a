/-! How the chips are brought to their synchronization points before a portable snapshot, and what
is counted on the way. -/

namespace MultiClock

inductive SaveMethod
  /-- The reference first, then every other chip on its own, without starting over. -/
  | fast
  /-- All chips in a fixed order, starting over whenever one is disturbed. -/
  | strict
deriving DecidableEq, Repr

namespace SaveMethod

def name : SaveMethod → String
  | fast => "Fast"
  | strict => "Strict"

def all : List SaveMethod := [fast, strict]

def parse? (text : String) : Option SaveMethod := all.find? (·.name == text)

end SaveMethod

/-- Counts of one drive of all threads. -/
structure SaveReport where
  passes : UInt32
  desyncs : UInt32
  frames : UInt32
deriving DecidableEq, Repr

def SaveReport.zero : SaveReport := ⟨0, 0, 0⟩

end MultiClock
