/-! Text from bytes that need not be text. Well-formed UTF-8 is read as it is; each longest run of
bytes that begins a character but does not complete one, and each byte that begins none, becomes
one replacement character. -/

namespace MultiClock.Text

def replacement : Char := '\ufffd'

/-- How many bytes follow a leading byte, and between which bounds the first of them lies. -/
def followers (lead : UInt8) : Option (Nat × UInt8 × UInt8) :=
  if 0xC2 ≤ lead ∧ lead ≤ 0xDF then some (1, 0x80, 0xBF)
  else if lead = 0xE0 then some (2, 0xA0, 0xBF)
  else if lead = 0xED then some (2, 0x80, 0x9F)
  else if 0xE1 ≤ lead ∧ lead ≤ 0xEF then some (2, 0x80, 0xBF)
  else if lead = 0xF0 then some (3, 0x90, 0xBF)
  else if 0xF1 ≤ lead ∧ lead ≤ 0xF3 then some (3, 0x80, 0xBF)
  else if lead = 0xF4 then some (3, 0x80, 0x8F)
  else none

/-- Reads `count` continuation bytes, the first between `low` and `high`, onto `value`. A byte out
of bounds ends the character and is left for the next one. -/
def continued (low high : UInt8) : (count : Nat) → (value : Nat) → List UInt8 → Char × List UInt8
  | 0, value, rest => (Char.ofNat value, rest)
  | _ + 1, _, [] => (replacement, [])
  | count + 1, value, byte :: rest =>
    if low ≤ byte ∧ byte ≤ high then
      continued 0x80 0xBF count (value * 64 + (byte.toNat - 0x80)) rest
    else (replacement, byte :: rest)

/-- The payload bits of a leading byte with `count` followers. -/
def leadBits (count : Nat) (lead : UInt8) : Nat := lead.toNat % Nat.pow 2 (6 - count)

def firstChar (lead : UInt8) (rest : List UInt8) : Char × List UInt8 :=
  if lead < 0x80 then (Char.ofNat lead.toNat, rest)
  else match followers lead with
    | none => (replacement, rest)
    | some (count, low, high) => continued low high count (leadBits count lead) rest

theorem continued_length_le (low high : UInt8) (count value : Nat) (bytes : List UInt8) :
    (continued low high count value bytes).2.length ≤ bytes.length := by
  induction count generalizing low high value bytes with
  | zero => simp [continued]
  | succ count ih =>
    cases bytes with
    | nil => simp [continued]
    | cons byte rest =>
      simp only [continued]
      split
      · exact Nat.le_succ_of_le (ih ..)
      · simp

theorem firstChar_length_le (lead : UInt8) (rest : List UInt8) :
    (firstChar lead rest).2.length ≤ rest.length := by
  unfold firstChar
  split
  · simp
  · split
    · simp
    · exact continued_length_le ..

def lossyChars : List UInt8 → List Char
  | [] => []
  | lead :: rest =>
    let decoded := firstChar lead rest
    decoded.1 :: lossyChars decoded.2
termination_by bytes => bytes.length
decreasing_by exact Nat.lt_succ_of_le (firstChar_length_le lead rest)

def lossy (bytes : List UInt8) : String := String.ofList (lossyChars bytes)

/-- The bytes of a text. -/
def utf8Bytes (text : String) : Array UInt8 := text.toUTF8.data

end MultiClock.Text
