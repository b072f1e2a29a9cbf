import Redraw.Text.Hex
import Redraw.Text.Showing

/-!
# Quoted text

A text is quoted between double quotes. The quote, the backslash and the usual control characters have short
escapes, every other character that does not show is written by its code point.
-/

namespace Redraw.Text

def quotedChar (c : Char) : String :=
  match c with
  | '\x00' => "\\0"
  | '\t' => "\\t"
  | '\r' => "\\r"
  | '\n' => "\\n"
  | '"' => "\\\""
  | '\\' => "\\\\"
  | c => if shows c then c.toString else "\\u\x7b" ++ hexDigits 1 c.toNat ++ "\x7d"

/-- The text between double quotes, with escapes. -/
def quoted (s : String) : String :=
  "\"" ++ String.join (s.toList.map quotedChar) ++ "\""

end Redraw.Text
