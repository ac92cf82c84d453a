/-! Unsigned numerals. A numeral is an optional plus sign and at least one digit. Reading goes from
left to right and stops at the first character that is no digit or that makes the number too
large. -/

namespace MultiClock.Text

inductive NumeralError
  | empty
  | invalidDigit
  | tooLarge
deriving DecidableEq, Repr

def NumeralError.message : NumeralError → String
  | empty => "cannot parse integer from empty string"
  | invalidDigit => "invalid digit found in string"
  | tooLarge => "number too large to fit in target type"

def digitValue (c : Char) : Option Nat :=
  if c.isDigit then some (c.toNat - '0'.toNat)
  else if 'a' ≤ c ∧ c ≤ 'z' then some (c.toNat - 'a'.toNat + 10)
  else if 'A' ≤ c ∧ c ≤ 'Z' then some (c.toNat - 'A'.toNat + 10)
  else none

def digitIn (radix : Nat) (c : Char) : Option Nat := (digitValue c).filter (· < radix)

/-- Continues the number `value` with further digits, up to `limit`. -/
def readDigits (radix limit : Nat) (value : Nat) : List Char → Except NumeralError Nat
  | [] => .ok value
  | c :: rest =>
    match digitIn radix c with
    | none => .error .invalidDigit
    | some digit =>
      if value * radix + digit ≤ limit then readDigits radix limit (value * radix + digit) rest
      else .error .tooLarge

def readNumeral (radix limit : Nat) : List Char → Except NumeralError Nat
  | [] => .error .empty
  | ['+'] => .error .invalidDigit
  | '+' :: digits => readDigits radix limit 0 digits
  | digits => readDigits radix limit 0 digits

def hexDigit (upper : Bool) (digit : Nat) : Char :=
  if digit < 10 then Char.ofNat ('0'.toNat + digit)
  else Char.ofNat ((if upper then 'A' else 'a').toNat + (digit - 10))

/-- The last `width` hexadecimal digits of a number, leading zeros included. -/
def hexDigits (upper : Bool) : (width : Nat) → Nat → List Char
  | 0, _ => []
  | width + 1, value => hexDigits upper width (value / 16) ++ [hexDigit upper (value % 16)]

def hexUpper (width value : Nat) : String := String.ofList (hexDigits true width value)

def hexLower (width value : Nat) : String := String.ofList (hexDigits false width value)

/-- The hexadecimal digits of a number without leading zeros, but at least one. -/
def hexPlain (value : Nat) : String := String.ofList (Nat.toDigits 16 value)

end MultiClock.Text
