import Columnar.Text.Extender
import Columnar.Text.Unprintable

/-!
# Quoted text

Text between double quotes, with every character that would not show on its own written as an
escape. Quotes and backslashes are escaped, so the end of a quoted text is its first bare quote.
-/

namespace Columnar.Text

/-- A code point in lower-case hexadecimal, between the braces of a Unicode escape. -/
def unicodeEscape (c : Char) : String :=
  "\\u\x7b" ++ String.ofList (Nat.toDigits 16 c.toNat) ++ "\x7d"

/-- One character of a quoted text. -/
def escapeChar (c : Char) : String :=
  match c with
  | '\x00' => "\\0"
  | '\t' => "\\t"
  | '\n' => "\\n"
  | '\r' => "\\r"
  | '"' => "\\\""
  | '\\' => "\\\\"
  | _ => if isExtender c || isUnprintable c then unicodeEscape c else c.toString

/-- A text between double quotes, with escapes for what would not show. -/
def quote (text : String) : String :=
  "\"" ++ String.join (text.toList.map escapeChar) ++ "\""

end Columnar.Text
