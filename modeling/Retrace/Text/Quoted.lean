import Retrace.Text.Shown

/-!
Text between double quotes for a person to read: a character that would not show is written by its
code point.
-/

namespace Retrace.Text

def braced (text : String) : String := "\x7b" ++ text ++ "\x7d"

/-- The characters of a quoted text that stand for `c`. -/
def quotedChar (c : Char) : String :=
  match c with
  | '\x00' => "\\0"
  | '\t' => "\\t"
  | '\n' => "\\n"
  | '\r' => "\\r"
  | '"' => "\\\""
  | '\\' => "\\\\"
  | c => if isShown c then c.toString else "\\u" ++ braced (String.ofList (Nat.toDigits 16 c.toNat))

def quoted (text : String) : String :=
  "\"" ++ String.join (text.toList.map quotedChar) ++ "\""

end Retrace.Text
