import MultiClock.Memory.Bus
import MultiClock.Text.Blank
import MultiClock.Text.Letters
import MultiClock.Text.Quoted

/-! Cheats are patches of work memory that are applied at every frame. A cheat is written as
`address=value` or `address?compare=value`, all in hexadecimal. -/

namespace MultiClock

open Text

structure Cheat where
  address : UInt16
  /-- The patch only applies while the address holds this byte. -/
  compare : Option UInt8
  value : UInt8
deriving DecidableEq, Repr

namespace Cheat

def apply (cheat : Cheat) (bus : Bus) : Bus :=
  if cheat.compare.all (· == bus.readWram cheat.address) then
    bus.writeWram cheat.address cheat.value
  else bus

def render (cheat : Cheat) : String :=
  let address := hexUpper 4 cheat.address.toNat
  let value := hexUpper 2 cheat.value.toNat
  match cheat.compare with
  | some compare => address ++ "?" ++ hexUpper 2 compare.toNat ++ "=" ++ value
  | none => address ++ "=" ++ value

/-- Why a text is no cheat. The text comes with every reason, a number's piece of it untrimmed. -/
inductive Problem
  | missingValue (text : String)
  | badAddress (piece text : String) (cause : NumeralError)
  | badByte (piece text : String) (cause : NumeralError)
deriving DecidableEq, Repr

/-- What went wrong, without the reason why a number was refused. -/
def Problem.summary : Problem → String
  | missingValue text => "Missing '=' in cheat " ++ text
  | badAddress piece text _ => "Invalid address " ++ quoted piece ++ " in cheat " ++ text
  | badByte piece text _ => "Invalid byte " ++ quoted piece ++ " in cheat " ++ text

def Problem.message : Problem → String
  | missingValue text => (missingValue text).summary
  | badAddress piece text cause => (badAddress piece text cause).summary ++ ": " ++ cause.message
  | badByte piece text cause => (badByte piece text cause).summary ++ ": " ++ cause.message

def parseAddress (text : String) (piece : List Char) : Except Problem UInt16 :=
  match readNumeral 16 0xFFFF (trimmed piece) with
  | .ok address => .ok (UInt16.ofNat address)
  | .error cause => .error (.badAddress (String.ofList piece) text cause)

def parseByte (text : String) (piece : List Char) : Except Problem UInt8 :=
  match readNumeral 16 0xFF (trimmed piece) with
  | .ok byte => .ok (UInt8.ofNat byte)
  | .error cause => .error (.badByte (String.ofList piece) text cause)

/-- The address and, after a question mark, the byte to compare with. -/
def parseTarget (text : String) (target : List Char) : Except Problem (UInt16 × Option UInt8) := do
  match splitOnce '?' target with
  | none => return (← parseAddress text target, none)
  | some (address, compare) =>
    let address ← parseAddress text address
    return (address, some (← parseByte text compare))

def parse (text : String) : Except Problem Cheat := do
  match splitOnce '=' text.toList with
  | none => throw (.missingValue text)
  | some (target, value) =>
    let (address, compare) ← parseTarget text target
    return { address, compare, value := ← parseByte text value }

end Cheat
end MultiClock
