import MultiClock.Text.Numeral
import MultiClock.Text.Unprintable

/-! Text in double quotes, for messages. The quote and the backslash are escaped, four controls have
short names, and every other unprintable character is given by its code. -/

namespace MultiClock.Text

def quotedChar (c : Char) : String :=
  match c with
  | '"' => "\\\""
  | '\\' => "\\\\"
  | '\t' => "\\t"
  | '\r' => "\\r"
  | '\n' => "\\n"
  | '\x00' => "\\0"
  | c => if isUnprintable c then "\\u\x7b" ++ hexPlain c.toNat ++ "\x7d" else c.toString

def quoted (text : String) : String :=
  text.toList.foldl (fun result c => result ++ quotedChar c) "\"" ++ "\""

end MultiClock.Text
