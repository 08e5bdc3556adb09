import Rim.Json.Value
import Rim.Number.Scaling
import Rim.Text.Hex
import Rim.Text.Reading

/-!
# Reading the text format

The grammar of RFC 8259 and nothing beyond it. A reading is a function of what is left of the text.
The depth of nesting is limited, and a reader of one level less is what reads the parts of an array
or object.

* `value`: reads one value, members as written.
* `decode?`: reads a whole text as one value, members in the order of names.
-/

namespace Rim.Json

open Text (Reading)

/-- What follows the blanks at the front. -/
def skipBlanks (s : List Char) : List Char :=
  s.dropWhile fun c => c == ' ' || c == '\t' || c == '\n' || c == '\r'

/-- The number four hexadecimal digits write. -/
def codeUnit? (a b c d : Char) : Option Nat := do
  let a ← Text.Hex.value? a
  let b ← Text.Hex.value? b
  let c ← Text.Hex.value? c
  let d ← Text.Hex.value? d
  return ((a * 16 + b) * 16 + c) * 16 + d

/-- The character that a two-character escape stands for. -/
def shortEscape? : Char → Option Char
  | '"' => some '"'
  | '\\' => some '\\'
  | '/' => some '/'
  | 'b' => some '\x08'
  | 'f' => some '\x0c'
  | 'n' => some '\n'
  | 'r' => some '\r'
  | 't' => some '\t'
  | _ => none

/-- Reads the rest of a string and its closing quote. -/
def stringBody : Reading (List Char)
  | [] => none
  | '"' :: r => some ([], r)
  | '\\' :: 'u' :: a :: b :: c :: d :: r => do
    let unit ← codeUnit? a b c d
    -- the first half of a pair has to be followed by the second, which never stands alone
    if 0xd800 ≤ unit ∧ unit < 0xdc00 then
      match r with
      | '\\' :: 'u' :: a :: b :: c :: d :: r =>
        let low ← codeUnit? a b c d
        if 0xdc00 ≤ low ∧ low < 0xe000 then
          let (s, r) ← stringBody r
          return (Char.ofNat (0x10000 + (unit - 0xd800) * 0x400 + (low - 0xdc00)) :: s, r)
        else none
      | _ => none
    else if 0xdc00 ≤ unit ∧ unit < 0xe000 then none
    else
      let (s, r) ← stringBody r
      return (Char.ofNat unit :: s, r)
  | '\\' :: e :: r => do
    let c ← shortEscape? e
    let (s, r) ← stringBody r
    return (c :: s, r)
  | c :: r =>
    if c.toNat < 0x20 ∨ c = '\\' then none
    else do
      let (s, r) ← stringBody r
      return (c :: s, r)

/-- Reads a string from its opening quote on. -/
def string : Reading String
  | '"' :: r => do
    let (s, r) ← stringBody r
    return (String.ofList s, r)
  | _ => none

def isDigit (c : Char) : Bool := '0' ≤ c && c ≤ '9'

/-- Reads one or more digits. -/
def digits : Reading (List Char) := fun s =>
  match s.takeWhile isDigit with
  | [] => none
  | ds => some (ds, s.dropWhile isDigit)

/-- Reads the digits of an integer part: a zero stands alone. -/
def integerDigits : Reading (List Char) := fun s => do
  match ← digits s with
  | ('0' :: _ :: _, _) => none
  | r => return r

/-- Reads the point and digits of a fraction, if there is a point. -/
def fractionDigits : Reading (List Char)
  | '.' :: r => digits r
  | r => some ([], r)

/-- Reads an exponent, if there is its letter. -/
def exponentPart : Reading (Option Int)
  | c :: r =>
    if c = 'e' ∨ c = 'E' then do
      let (negative, r) := match r with
        | '+' :: r => (false, r)
        | '-' :: r => (true, r)
        | r => (false, r)
      let (ds, r) ← digits r
      let n : Nat := ds.foldl (fun n c => n * 10 + (c.toNat - 48)) 0
      return (some (if negative then -(n : Int) else n), r)
    else some (none, c :: r)
  | [] => some (none, [])

/-- The leading digits that stay below `2^64` after `n`, and how many digits are not among them. -/
def leading (n : Nat) : List Char → Nat × Nat
  | [] => (n, 0)
  | c :: r =>
    let next := n * 10 + (c.toNat - 48)
    if next < 2 ^ 64 then leading next r else (n, r.length + 1)

/-- The float of a decimal: the digits past the 64-bit ones count by their number only. -/
def floatOf (negative : Bool) (whole fraction : List Char) (exponent : Int) : Option Number := do
  let (n, missing) := leading 0 whole
  let (n, unread) := leading n fraction
  let places : Int := (fraction.length - unread : Nat)
  let bits ← Number.scale? n (missing - places + exponent)
  return .float (UInt64.ofNat (Number.binary64.sign negative + bits))

/-- The number of a numeral: an integer if it is written as one and is in range and not `-0`. -/
def numberOf (negative : Bool) (whole fraction : List Char) (exponent : Option Int) :
    Option Number :=
  let n : Nat := whole.foldl (fun n c => n * 10 + (c.toNat - 48)) 0
  match fraction, exponent with
  | [], none =>
    -- an integer out of range is read as a float, and so is a negative zero
    if negative then
      if 0 < n ∧ n ≤ 2 ^ 63 then some (.integer (-(n : Int))) else floatOf negative whole [] 0
    else if n < 2 ^ 64 then some (.integer n) else floatOf negative whole [] 0
  | _, _ => floatOf negative whole fraction (exponent.getD 0)

def number : Reading Number := fun s => do
  let (negative, s) := match s with
    | '-' :: r => (true, r)
    | r => (false, r)
  let (whole, s) ← integerDigits s
  let (fraction, s) ← fractionDigits s
  let (exponent, s) ← exponentPart s
  return (← numberOf negative whole fraction exponent, s)

/-- Reads things separated by commas up to a closing character, at most `fuel` of them. -/
def separated {α : Type} (close : Char) (p : Reading α) : (fuel : Nat) → Reading (List α)
  | 0, _ => none
  | fuel + 1, s => do
    let (x, s) ← p s
    match skipBlanks s with
    | c :: r =>
      if c = ',' then
        let (xs, r) ← separated close p fuel r
        return (x :: xs, r)
      else if c = close then return ([x], r)
      else none
    | [] => none

/-- Reads what stands between an opening and its closing character. -/
def enclosed {α : Type} (close : Char) (p : Reading α) : Reading (List α) := fun s =>
  match skipBlanks s with
  | c :: r => if c = close then some ([], r) else separated close p s.length (c :: r)
  | [] => none

/-- Reads a member of an object; its name says how its value is read. -/
def memberBy {α : Type} (p : String → Reading α) : Reading (String × α) := fun s => do
  let (name, s) ← string (skipBlanks s)
  match skipBlanks s with
  | ':' :: r =>
    let (v, r) ← p name r
    return ((name, v), r)
  | _ => none

def member (p : Reading Value) : Reading (String × Value) := memberBy fun _ => p

/-- Reads one value whose parts `inner` reads; without it the value has to be a scalar. -/
def valueOf (inner : Option (Reading Value)) : Reading Value := fun s =>
  match skipBlanks s with
  | 'n' :: 'u' :: 'l' :: 'l' :: r => some (.null, r)
  | 't' :: 'r' :: 'u' :: 'e' :: r => some (.bool true, r)
  | 'f' :: 'a' :: 'l' :: 's' :: 'e' :: r => some (.bool false, r)
  | '"' :: r => do
    let (s, r) ← string ('"' :: r)
    return (.string s, r)
  | '[' :: r => do
    let (items, r) ← enclosed ']' (← inner) r
    return (.array items, r)
  | '\x7b' :: r => do
    let (members, r) ← enclosed '\x7d' (member (← inner)) r
    return (.object members, r)
  | r => do
    let (n, r) ← number r
    return (.number n, r)

/-- Reads one value with at most so many levels of nesting. -/
def value : (levels : Nat) → Reading Value
  | 0 => valueOf none
  | levels + 1 => valueOf (some (value levels))

/-- The levels of nesting that are read. -/
def maxLevels : Nat := 127

/-- Reads the whole text as one value, with its members as they are written. -/
def parse? (text : String) : Option Value := do
  let (v, r) ← value maxLevels text.toList
  match skipBlanks r with
  | [] => some v
  | _ => none

/-- Reads the whole text as one value, with every object in the order of names. -/
def decode? (text : String) : Option Value := (parse? text).map Value.normal

end Rim.Json
