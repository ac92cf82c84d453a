import MultiClock.Json.Token

/-! Readers of typed values. A reader skips blanks, reads one value and yields the rest of the text.
Records may be written as objects or as arrays of their fields in order, and a choice between names
as a string or as an object with one such name for `null`. -/

namespace MultiClock.Json

abbrev Reader (α : Type) := List Char → Except Problem (α × List Char)

/-- The problem is with the value itself, not with a part of it. -/
def here (result : Except Cause α) : Except Problem α :=
  match result with
  | .ok value => .ok value
  | .error cause => .error ⟨[], cause⟩

/-- The problem is with a part of the value. -/
def within (step : Step) (result : Except Problem α) : Except Problem α :=
  match result with
  | .ok value => .ok value
  | .error problem => .error ⟨step :: problem.path, problem.cause⟩

/-- Consumes one character after blanks. Another one breaks the grammar. -/
def expect (wanted : Char) (text : List Char) : Except Cause (List Char) :=
  match skipSpace text with
  | [] => .error .ended
  | c :: rest => if c = wanted then .ok rest else .error .malformed

def text : Reader String := fun text =>
  match skipSpace text with
  | '"' :: rest => here (readString rest)
  | text => here (.error (judge text))

/-- The constant that stands for no value. -/
def null : Reader Unit := fun text =>
  match skipSpace text with
  | 'n' :: rest =>
    match judgeName ['u', 'l', 'l'] rest with
    | .unsuitable => .ok ((), rest.drop 3)
    | cause => here (.error cause)
  | text => here (.error (judge text))

def named (choices : List (String × α)) (name : String) : Except Problem α :=
  match choices.lookup name with
  | some value => .ok value
  | none => here (.error .unsuitable)

/-- One of several names. -/
def choice (choices : List (String × α)) : Reader α := fun source => do
  match skipSpace source with
  | '"' :: rest =>
    let (name, rest) ← here (readString rest)
    return (← named choices name, rest)
  | '\x7b' :: rest =>
    let rest ← here (expect '"' rest)
    let (name, rest) ← here (readString rest)
    let value ← named choices name
    let rest ← here (expect ':' rest)
    let (_, rest) ← within (.field name) (null rest)
    let rest ← here (expect '\x7d' rest)
    return (value, rest)
  | [] => here (.error .ended)
  | _ => here (.error .malformed)

/-- Moves to the next member of a list or an object. None if the closing bracket follows. -/
def nextMember (close : Char) (first : Bool) (text : List Char) :
    Except Cause (Option (List Char)) :=
  match skipSpace text with
  | [] => .error .ended
  | c :: rest =>
    if c = close then .ok none
    else if first then .ok (some (c :: rest))
    else if c ≠ ',' then .error .malformed
    else match skipSpace rest with
      | [] => .error .ended
      | c :: rest => if c = close then .error .malformed else .ok (some (c :: rest))

/-- The items of a list from number `index` on. Every item takes at least one character, so
`budget` may be the length of the text. -/
def itemsFrom (item : Reader α) : (budget index : Nat) → Reader (List α)
  | 0, _, _ => here (.error .ended)
  | budget + 1, index, text => do
    match ← here (nextMember ']' (index == 0) text) with
    | none => return ([], text)
    | some text =>
      let (value, text) ← within (.item index) (item text)
      let (values, text) ← itemsFrom item budget (index + 1) text
      return (value :: values, text)

def list (item : Reader α) : Reader (List α) := fun text => do
  match skipSpace text with
  | '[' :: rest =>
    let (values, rest) ← itemsFrom item (rest.length + 1) 0 rest
    return (values, ← here (expect ']' rest))
  | text => here (.error (judge text))

/-- A field of a record: its name, and how its value is read into the record. -/
structure Field (ρ : Type) where
  name : String
  read : ρ → Reader ρ

/-- The name of a member, at its opening quote. -/
def memberName (text : List Char) : Except Cause (String × List Char) :=
  match text with
  | '"' :: rest => readString rest
  | _ => .error .malformed

/-- The members of an object, each of them a field that was not `seen` yet. -/
def membersFrom (fields : List (Field ρ)) : (budget : Nat) → (seen : List String) → ρ → Reader ρ
  | 0, _, _, _ => here (.error .ended)
  | budget + 1, seen, record, text => do
    match ← within .unnamed (here (nextMember '\x7d' seen.isEmpty text)) with
    | none => return (record, text)
    | some text =>
      let (name, text) ← within .unnamed (here (memberName text))
      match fields.find? (·.name == name) with
      | none => within (.field name) (here (.error .unsuitable))
      | some field =>
        if seen.contains name then here (.error .unsuitable)
        else
          let text ← here (expect ':' text)
          let (record, text) ← within (.field name) (field.read record text)
          membersFrom fields budget (name :: seen) record text

/-- The leading fields of a record in their order. -/
def positionsFrom (index : Nat) : List (Field ρ) → ρ → Reader ρ
  | [], record, text => .ok (record, text)
  | field :: fields, record, text => do
    match ← here (nextMember ']' (index == 0) text) with
    | none => return (record, text)
    | some text =>
      let (record, text) ← within (.item index) (field.read record text)
      positionsFrom (index + 1) fields record text

/-- A record. Fields that are not given keep the value that they have in `standard`. -/
def record (fields : List (Field ρ)) (standard : ρ) : Reader ρ := fun text => do
  match skipSpace text with
  | '\x7b' :: rest =>
    let (value, rest) ← membersFrom fields (rest.length + 1) [] standard rest
    return (value, ← here (expect '\x7d' rest))
  | '[' :: rest =>
    let (value, rest) ← positionsFrom 0 fields standard rest
    return (value, ← here (expect ']' rest))
  | text => here (.error (judge text))

/-- Reads the value at the beginning of a text. What follows it is not looked at. -/
def read (reader : Reader α) (source : String) : Except Problem α :=
  Prod.fst <$> reader source.toList

end MultiClock.Json
