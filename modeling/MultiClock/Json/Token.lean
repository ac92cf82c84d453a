import MultiClock.Json.Problem
import MultiClock.Text.Numeral

/-! The words of a JSON text: blanks, strings, numbers and names of constants. Numbers and constants
are never wanted by any description, so only what is wrong with them is found out. -/

namespace MultiClock.Json

open Text

def isSpace (c : Char) : Bool := c == ' ' || c == '\n' || c == '\t' || c == '\r'

def skipSpace (text : List Char) : List Char := text.dropWhile isSpace

/-- The number in four hexadecimal digits. A text that is too short to hold them has ended, where
length is counted in bytes. -/
def readHex : List Char → Except Cause (Nat × List Char)
  | a :: b :: c :: d :: rest =>
    match readDigits 16 0xFFFF 0 [a, b, c, d] with
    | .ok value => .ok (value, rest)
    | .error _ => .error .malformed
  | text => if (String.ofList text).utf8ByteSize < 4 then .error .ended else .error .malformed

def isLeading (unit : Nat) : Bool := 0xD800 ≤ unit && unit ≤ 0xDBFF

def isTrailing (unit : Nat) : Bool := 0xDC00 ≤ unit && unit ≤ 0xDFFF

/-- The second half of a character whose code takes two units. -/
def readTrailing (leading : Nat) : List Char → Except Cause (Char × List Char)
  | '\\' :: 'u' :: rest => do
    let (unit, rest) ← readHex rest
    if isTrailing unit then
      return (Char.ofNat (0x10000 + (leading - 0xD800) * 0x400 + (unit - 0xDC00)), rest)
    throw .malformed
  | [] => throw .ended
  | ['\\'] => throw .ended
  | _ => throw .malformed

/-- What follows a backslash and the letter u. -/
def readCode (text : List Char) : Except Cause (Char × List Char) := do
  let (unit, rest) ← readHex text
  if isTrailing unit then throw .malformed
  if isLeading unit then readTrailing unit rest else return (Char.ofNat unit, rest)

/-- What follows a backslash. -/
def readEscape : List Char → Except Cause (Char × List Char)
  | [] => throw .ended
  | '"' :: rest => return ('"', rest)
  | '\\' :: rest => return ('\\', rest)
  | '/' :: rest => return ('/', rest)
  | 'b' :: rest => return ('\x08', rest)
  | 'f' :: rest => return ('\x0c', rest)
  | 'n' :: rest => return ('\n', rest)
  | 'r' :: rest => return ('\r', rest)
  | 't' :: rest => return ('\t', rest)
  | 'u' :: rest => readCode rest
  | _ => throw .malformed

/-- A string after its opening quote. Every character of it takes at least one of the text, so
`budget` may be the length of the text. -/
def readStringFrom (found : List Char) :
    (budget : Nat) → List Char → Except Cause (String × List Char)
  | 0, _ => throw .ended
  | _ + 1, [] => throw .ended
  | budget + 1, c :: rest => do
    if c = '"' then return (String.ofList found.reverse, rest)
    if c = '\\' then
      let (c, rest) ← readEscape rest
      readStringFrom (c :: found) budget rest
    else if c.toNat < 0x20 then throw .malformed
    else readStringFrom (c :: found) budget rest

def readString (text : List Char) : Except Cause (String × List Char) :=
  readStringFrom [] (text.length + 1) text

/-- The nearest number that is given by 53 binary digits and the place of the last one. Between two
of them the last digit is zero. -/
def rounded (value : Nat) : Nat :=
  let unit := Nat.pow 2 (value.log2 + 1 - 53)
  let kept := value / unit
  let lost := value % unit
  if unit < 2 * lost || (unit == 2 * lost && kept % 2 == 1) then (kept + 1) * unit else kept * unit

/-- Products from here on are nearer to the next power of two than to any number below it that is
given by 53 binary digits. -/
def numberLimit : Nat := Nat.pow 2 1024 - Nat.pow 2 970

/-- The size of a number: its digits, and the power of ten that multiplies them. -/
structure Magnitude where
  digits : Nat
  scale : Int

namespace Magnitude

/-- One more digit, as long as all of them fit into a word of 64 bits. -/
def append? (size : Magnitude) (digit : Char) : Option Nat :=
  let digits := size.digits * 10 + (digit.toNat - '0'.toNat)
  if digits < 0x10000000000000000 then some digits else none

/-- Adds digits before the decimal point. From the first one that does not fit they only count. -/
def addWhole (size : Magnitude) : List Char → Magnitude
  | [] => size
  | digit :: rest =>
    match size.append? digit with
    | some digits => addWhole ⟨digits, size.scale⟩ rest
    | none => ⟨size.digits, size.scale + (rest.length + 1)⟩

/-- Adds digits after the decimal point. From the first one that does not fit they are left out. -/
def addFraction (size : Magnitude) : List Char → Magnitude
  | [] => size
  | digit :: rest =>
    match size.append? digit with
    | some digits => addFraction ⟨digits, size.scale - 1⟩ rest
    | none => size

/-- Whether the product of the digits and the power of ten, which are both rounded first, is too
large for a double-precision number. -/
def tooLarge (size : Magnitude) : Bool :=
  if size.digits = 0 || size.scale < 0 then false
  else 308 < size.scale ||
    numberLimit ≤ rounded size.digits * rounded (Nat.pow 10 size.scale.toNat)

end Magnitude

def decimal (digits : List Char) : Nat :=
  digits.foldl (fun value c => value * 10 + (c.toNat - '0'.toNat)) 0

/-- The exponent of a number, or zero if there is none. -/
def exponent (text : List Char) : Except Cause Int :=
  match text with
  | c :: rest =>
    if c ≠ 'e' ∧ c ≠ 'E' then .ok 0
    else
      let (negative, rest) := match rest with
        | '+' :: rest => (false, rest)
        | '-' :: rest => (true, rest)
        | rest => (false, rest)
      match rest with
      | [] => .error .ended
      | digit :: _ =>
        if digit.isDigit then
          let value : Int := decimal (rest.takeWhile Char.isDigit)
          .ok (if negative then -value else value)
        else .error .malformed
  | [] => .ok 0

/-- The digits after the decimal point, and the text after them. -/
def fraction : List Char → Except Cause (List Char × List Char)
  | '.' :: rest =>
    match rest with
    | [] => .error .ended
    | digit :: _ =>
      if digit.isDigit then .ok (rest.takeWhile Char.isDigit, rest.dropWhile Char.isDigit)
      else .error .malformed
  | text => .ok ([], text)

/-- The digits before the decimal point, without a needless zero in front, and the text after
them. -/
def whole : List Char → Except Cause (List Char × List Char)
  | [] => .error .ended
  | '0' :: rest =>
    if (rest.head?.map Char.isDigit).getD false then .error .malformed else .ok ([], rest)
  | c :: rest =>
    if c.isDigit then .ok (c :: rest.takeWhile Char.isDigit, rest.dropWhile Char.isDigit)
    else .error .malformed

/-- What is wrong with an unwanted number, after its sign. -/
def judgeNumber (text : List Char) : Cause :=
  let scanned : Except Cause Magnitude := do
    let (before, rest) ← whole text
    let (after, rest) ← fraction rest
    let size := ((⟨0, 0⟩ : Magnitude).addWhole before).addFraction after
    return ⟨size.digits, size.scale + (← exponent rest)⟩
  match scanned with
  | .error cause => cause
  | .ok size => if size.tooLarge then .malformed else .unsuitable

/-- What is wrong with an unwanted constant, of which `expected` is left. -/
def judgeName : (expected : List Char) → List Char → Cause
  | [], _ => .unsuitable
  | _ :: _, [] => .ended
  | expected :: rest, c :: text => if c = expected then judgeName rest text else .malformed

/-- What is wrong with a value of the wrong kind. -/
def judge : List Char → Cause
  | [] => .ended
  | 'n' :: rest => judgeName ['u', 'l', 'l'] rest
  | 't' :: rest => judgeName ['r', 'u', 'e'] rest
  | 'f' :: rest => judgeName ['a', 'l', 's', 'e'] rest
  | '-' :: rest => judgeNumber rest
  | '"' :: rest =>
    match readString rest with
    | .error cause => cause
    | .ok _ => .unsuitable
  | '[' :: _ => .unsuitable
  | '\x7b' :: _ => .unsuitable
  | c :: rest => if c.isDigit then judgeNumber (c :: rest) else .malformed

end MultiClock.Json
