import Rim.Keyed
import Rim.Number.Shortest

/-!
# The text data model

A value of the text format and its compact printed form. Members of an object are held in the order
of their names, each name once.

* `Value.print`: no blanks, and no escapes but of quotes, backslashes and control characters.
* `Value.normal`: every object inside put in the order of names, of equal names the last one's
  value.
-/

namespace Rim.Json

/-- A number: an integer between `-2^63` and `2^64 - 1` written as such, or a 64-bit float. -/
inductive Number
  | integer (n : Int)
  | float (bits : UInt64)
deriving DecidableEq, Repr

/-- A value of the text format. -/
inductive Value
  | null
  | bool (b : Bool)
  | number (n : Number)
  | string (s : String)
  | array (items : List Value)
  | object (members : List (String × Value))
deriving Inhabited, Repr

/-- The members of an object in the order they are held. -/
abbrev Members := List (String × Value)

/-- A decimal with its point between the digits while it stands at most sixteen places after their
start or five before, and with a signed power of ten otherwise. -/
def layout (d : Number.Decimal) : List Char :=
  let n := d.digits.length
  if n ≤ d.point ∧ d.point ≤ 16 then
    d.digits ++ List.replicate (d.point.toNat - n) '0' ++ ['.', '0']
  else if 0 < d.point ∧ d.point ≤ 16 then
    d.digits.take d.point.toNat ++ '.' :: d.digits.drop d.point.toNat
  else if -5 < d.point ∧ d.point ≤ 0 then
    '0' :: '.' :: List.replicate (-d.point).toNat '0' ++ d.digits
  else
    let fraction := d.digits.drop 1
    let power := d.point - 1
    d.digits.take 1 ++ (if fraction.isEmpty then [] else '.' :: fraction) ++
      'e' :: (if 0 ≤ power then ['+'] else []) ++ (toString power).toList

/-- The printed form of a number. -/
def Number.print : Number → List Char
  | integer n => (toString n).toList
  | float bits =>
    match Number.binary64.decode bits.toNat with
    | .finite negative m p =>
      let digits := match Number.shortest? m p with
        | some d => layout d
        | none => ['0', '.', '0']
      if negative then '-' :: digits else digits
    | _ => "null".toList

/-- The printed form of a character between quotes. -/
def printChar (c : Char) : List Char :=
  match c with
  | '"' => ['\\', '"']
  | '\\' => ['\\', '\\']
  | '\x08' => ['\\', 'b']
  | '\t' => ['\\', 't']
  | '\n' => ['\\', 'n']
  | '\x0c' => ['\\', 'f']
  | '\r' => ['\\', 'r']
  | c =>
    if c.toNat < 0x20 then
      ['\\', 'u', '0', '0', Nat.digitChar (c.toNat / 16), Nat.digitChar (c.toNat % 16)]
    else [c]

def printString (s : String) : List Char := '"' :: s.toList.flatMap printChar ++ ['"']

namespace Value

mutual

/-- The printed form of a value. -/
def print : Value → List Char
  | null => "null".toList
  | bool true => "true".toList
  | bool false => "false".toList
  | number n => n.print
  | string s => printString s
  | array [] => ['[', ']']
  | array (v :: r) => '[' :: print v ++ printItems r
  | object [] => ['\x7b', '\x7d']
  | object ((name, v) :: r) => '\x7b' :: printString name ++ ':' :: print v ++ printMembers r

/-- The printed forms of the further items of an array, and its end. -/
def printItems : List Value → List Char
  | [] => [']']
  | v :: r => ',' :: print v ++ printItems r

/-- The printed forms of the further members of an object, and its end. -/
def printMembers : List (String × Value) → List Char
  | [] => ['\x7d']
  | (name, v) :: r => ',' :: printString name ++ ':' :: print v ++ printMembers r

end

def render (v : Value) : String := String.ofList v.print

/-- Members in the order of names; of equal names the last one's value. -/
def ofMembers (members : Members) : Members := Keyed.ofList members

mutual

/-- The value with every object in it in the order of names. -/
def normal : Value → Value
  | array items => array (normalItems items)
  | object members => object (ofMembers (normalMembers members))
  | v => v

/-- Each item with its objects in the order of names. -/
def normalItems : List Value → List Value
  | [] => []
  | v :: r => normal v :: normalItems r

/-- Each member with its objects in the order of names. -/
def normalMembers : List (String × Value) → List (String × Value)
  | [] => []
  | (name, v) :: r => (name, normal v) :: normalMembers r

end

/-- What a message calls the kind of a value. -/
def kindName : Value → String
  | null => "null"
  | bool _ => "bool"
  | number _ => "number"
  | string _ => "string"
  | array _ => "array"
  | object _ => "object"

end Value

end Rim.Json
