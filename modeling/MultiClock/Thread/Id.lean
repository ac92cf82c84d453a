import MultiClock.Text.Numeral
import MultiClock.Text.Letters

/-! Every chip runs in a thread of its own. Threads are named by the role of their chip and
numbered in the order in which a machine creates them: the reference processor first, then the
audio and the display processor, then the coprocessors. -/

namespace MultiClock

open Text

inductive ThreadId
  | cpu
  | smp
  | ppu
  | coprocessor (index : UInt8)
deriving DecidableEq, Repr, Inhabited

namespace ThreadId

def index : ThreadId → Nat
  | cpu => 0
  | smp => 1
  | ppu => 2
  | coprocessor index => 3 + index.toNat

/-- The thread at a position. Coprocessors are numbered in one byte, so the positions end. -/
def ofIndex? : Nat → Option ThreadId
  | 0 => some cpu
  | 1 => some smp
  | 2 => some ppu
  | n + 3 => if n < 256 then some (coprocessor (UInt8.ofNat n)) else none

def name : ThreadId → String
  | cpu => "cpu"
  | smp => "smp"
  | ppu => "ppu"
  | coprocessor index => "cop" ++ toString index.toNat

inductive NameError
  | unknown (text : String)
  | badIndex (text : String) (cause : NumeralError)
deriving DecidableEq, Repr

/-- What went wrong, without the reason why an index was refused. -/
def NameError.summary : NameError → String
  | unknown text => "Unknown thread " ++ text
  | badIndex text _ => "Invalid coprocessor index in " ++ text

def NameError.message : NameError → String
  | unknown text => (unknown text).summary
  | badIndex text cause => (badIndex text cause).summary ++ ": " ++ cause.message

/-- Reads a thread name. Case does not matter, and a coprocessor's number may carry a plus sign and
leading zeros. -/
def parse (text : String) : Except NameError ThreadId :=
  match lowered text.toList with
  | ['c', 'p', 'u'] => .ok cpu
  | ['s', 'm', 'p'] => .ok smp
  | ['p', 'p', 'u'] => .ok ppu
  | 'c' :: 'o' :: 'p' :: digits =>
    match readNumeral 10 255 digits with
    | .ok index => .ok (coprocessor (UInt8.ofNat index))
    | .error cause => .error (.badIndex text cause)
  | _ => .error (.unknown text)

end ThreadId
end MultiClock
