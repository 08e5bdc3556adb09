/-!
# Blank characters

The 25 code points of the `White_Space` property, and trimming and dropping them.
-/

namespace Rim.Text

/-- A code point of the `White_Space` property. -/
def isBlank (c : Char) : Bool :=
  let n := c.toNat
  (0x09 ≤ n && n ≤ 0x0d) || n == 0x20 || n == 0x85 || n == 0xa0 || n == 0x1680 ||
    (0x2000 ≤ n && n ≤ 0x200a) || n == 0x2028 || n == 0x2029 || n == 0x202f || n == 0x205f ||
    n == 0x3000

/-- Without the blanks at either end. -/
def trim (s : List Char) : List Char :=
  ((s.dropWhile isBlank).reverse.dropWhile isBlank).reverse

def dropBlanks (s : List Char) : List Char := s.filter (!isBlank ·)

/-- What follows `start` in `s`, if `s` starts with it. -/
def after? : List Char → List Char → Option (List Char)
  | [], s => some s
  | c :: start, d :: s => if c = d then after? start s else none
  | _ :: _, [] => none

/-- What precedes `stop` in `s`, if `s` ends with it. -/
def before? (stop s : List Char) : Option (List Char) :=
  (after? stop.reverse s.reverse).map List.reverse

end Rim.Text
