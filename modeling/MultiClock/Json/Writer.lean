import MultiClock.Text.Numeral

/-! Writes JSON without any blanks. -/

namespace MultiClock.Json

open Text

def writtenChar (c : Char) : String :=
  match c with
  | '"' => "\\\""
  | '\\' => "\\\\"
  | '\x08' => "\\b"
  | '\x0c' => "\\f"
  | '\n' => "\\n"
  | '\r' => "\\r"
  | '\t' => "\\t"
  | c => if c.toNat < 0x20 then "\\u" ++ hexLower 4 c.toNat else c.toString

def writeText (text : String) : String :=
  text.toList.foldl (fun result c => result ++ writtenChar c) "\"" ++ "\""

def writeList (items : List String) : String := "[" ++ ",".intercalate items ++ "]"

/-- An object, from the names of its members and their written values. -/
def writeRecord (members : List (String × String)) : String :=
  let written := members.map fun (name, value) => writeText name ++ ":" ++ value
  "\x7b" ++ ",".intercalate written ++ "\x7d"

end MultiClock.Json
