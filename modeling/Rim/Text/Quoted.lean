import Rim.Text.Hex
import Rim.Text.Printable

/-!
# Quoted text

How messages show a text, a byte string and a list: text stands between double quotes, a double
quote or backslash in it gets a backslash, tab, newline, carriage return and NUL have two-character
forms, and a character that does not print as itself is written by its code point.

* `quote`: the quoted form of a text.
* `bracketed`: a list of forms between square brackets.
-/

namespace Rim.Text

/-- The form of one character between double quotes. -/
def quoteChar (c : Char) : List Char :=
  match c with
  | '\t' => ['\\', 't']
  | '\r' => ['\\', 'r']
  | '\n' => ['\\', 'n']
  | '\x00' => ['\\', '0']
  | '"' => ['\\', '"']
  | '\\' => ['\\', '\\']
  | c => if isPrintable c then [c] else ['\\', 'u', '\x7b'] ++ Hex.ofNat c.toNat ++ ['\x7d']

/-- A text between double quotes. -/
def quote (s : String) : String :=
  String.ofList ('"' :: s.toList.flatMap quoteChar ++ ['"'])

/-- The forms of the members of a list, between square brackets. -/
def bracketed (items : List String) : String :=
  "[" ++ ", ".intercalate items ++ "]"

/-- An octet string as the list of its octets in decimal. -/
def octets (b : Bytes) : String :=
  bracketed (b.map fun x => toString x.toNat)

end Rim.Text
