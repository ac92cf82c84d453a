import MultiClock.Chip.Multiplier
import MultiClock.Chip.Rtc

/-! The coprocessors that a cartridge can carry. Each talks to the reference processor through its
own latch: operands in ports 1 to 3, and a command in port 0, which raises the strobe. -/

namespace MultiClock

open Text

inductive CoprocessorKind
  | multiplier
  | rtc
deriving DecidableEq, Repr

namespace CoprocessorKind

def name : CoprocessorKind → String
  | multiplier => "Multiplier"
  | rtc => "Rtc"

def all : List CoprocessorKind := [multiplier, rtc]

/-- Case does not matter. -/
def parse? (text : String) : Option CoprocessorKind :=
  all.find? fun kind => equalIgnoringCase kind.name text

end CoprocessorKind

inductive Coprocessor
  | multiplier (unit : Multiplier)
  | rtc (clock : Rtc)
deriving DecidableEq, Repr

namespace Coprocessor

/-- The coprocessor at a latch. -/
def create (kind : CoprocessorKind) (index : UInt8) : Coprocessor :=
  match kind with
  | .multiplier => multiplier (Multiplier.new index)
  | .rtc => rtc (Rtc.new index)

def frequency : Coprocessor → UInt32
  | multiplier unit => Chip.frequency unit
  | rtc clock => Chip.frequency clock

def power (chip : Coprocessor) (seeding : Seeding) : Coprocessor × Seeding :=
  match chip with
  | multiplier unit => let (unit, seeding) := Chip.power unit seeding; (multiplier unit, seeding)
  | rtc clock => let (clock, seeding) := Chip.power clock seeding; (rtc clock, seeding)

def slice (chip : Coprocessor) (cx : Context) : Except Fault (Coprocessor × Context) := do
  match chip with
  | multiplier unit => let (unit, cx) ← Chip.slice unit cx; return (multiplier unit, cx)
  | rtc clock => let (clock, cx) ← Chip.slice clock cx; return (rtc clock, cx)

def serialize : Coprocessor → Visit Coprocessor
  | multiplier unit => multiplier <$> Chip.serialize unit
  | rtc clock => rtc <$> Chip.serialize clock

def serializeStack : Coprocessor → Visit Coprocessor
  | multiplier unit => multiplier <$> Chip.serializeStack unit
  | rtc clock => rtc <$> Chip.serializeStack clock

def atBoundary : Coprocessor → Bool
  | multiplier unit => Chip.atBoundary unit
  | rtc clock => Chip.atBoundary clock

instance : Chip Coprocessor where
  frequency := frequency
  power := power
  slice := slice
  serialize := serialize
  serializeStack := serializeStack
  atBoundary := atBoundary

end Coprocessor
end MultiClock
