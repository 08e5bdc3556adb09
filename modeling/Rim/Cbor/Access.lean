import Rim.Error
import Rim.Cbor.Parser

/-!
# Taking values of the binary format apart

Each function takes the part of a value that its name says, or refuses the value under the name of
what was expected there.
-/

namespace Rim.Cbor

/-- The whole input as one value. -/
def decode (input : Bytes) : Result Value :=
  match decode? input with
  | some v => .ok v
  | none => .error (.malformed "CBOR data" "not one well-formed item")

def uriTag : UInt64 := 32

/-- The tag of a time in seconds since the epoch. -/
def epochTag : UInt64 := 1

namespace Value

def uri (s : String) : Value := tag uriTag (text s)

def epoch (seconds : Int64) : Value := tag epochTag (ofInt64 seconds)

/-- The written form of a value as a byte string. -/
def embed (v : Value) : Value := bytes v.encode

/-- The error of a value of another kind. -/
def wrongKind (what expected : String) (v : Value) : Error :=
  .malformed what ("expecting " ++ expected ++ ", got " ++ v.kindName)

def toText (what : String) : Value → Result String
  | text s => .ok s
  | v => .error (v.wrongKind what "text string")

/-- The octets of a byte string. -/
def toBytes (what : String) : Value → Result Bytes
  | bytes b => .ok b
  | v => .error (v.wrongKind what "byte string")

/-- A number that is not negative. -/
def toUInt64 (what : String) (v : Value) : Result UInt64 :=
  match v with
  | natural n => .ok n
  | negative n => .error (.malformed what (toString (-1 - (n.toNat : Int)) ++ " is not a uint64"))
  | v => .error (v.wrongKind what "unsigned integer")

/-- A number in the signed 64-bit range. -/
def toInt64 (what : String) (v : Value) : Result Int64 :=
  match v.toInt? with
  | some n =>
    if -2 ^ 63 ≤ n ∧ n < 2 ^ 63 then .ok (Int64.ofInt n)
    else .error (.malformed what (toString n ++ " is out of int64 range"))
  | none => .error (v.wrongKind what "integer")

/-- A truth value. -/
def toBool (what : String) : Value → Result Bool
  | bool b => .ok b
  | v => .error (v.wrongKind what "bool")

/-- The items of an array. -/
def toArray (what : String) : Value → Result (List Value)
  | array items => .ok items
  | v => .error (v.wrongKind what "array")

/-- The items of an array of so many items. -/
def toArrayOf (what : String) (size : Nat) (v : Value) : Result (List Value) := do
  let items ← v.toArray what
  if items.length = size then return items
  else .error (.malformed what
    ("expecting " ++ toString size ++ " array items, got " ++ toString items.length))

/-- The two items of an array of two. -/
def toPair (what : String) (v : Value) : Result (Value × Value) := do
  match ← v.toArrayOf what 2 with
  | [a, b] => return (a, b)
  | _ => .error (v.wrongKind what "array")

/-- The body under a tag. -/
def untag (what : String) (number : UInt64) (v : Value) : Result Value :=
  match v with
  | tag n body =>
    if n = number then .ok body
    else .error (.malformed what
      ("expecting tag " ++ toString number.toNat ++ ", got tag " ++ toString n.toNat))
  | v => .error (v.wrongKind what ("tag " ++ toString number.toNat))

def toUri (what : String) (v : Value) : Result String := do
  (← v.untag what uriTag).toText what

/-- The seconds of an epoch time. -/
def toEpoch (what : String) (v : Value) : Result Int64 := do
  (← v.untag what epochTag).toInt64 what

/-- The value written in a byte string. -/
def toEmbedded (what : String) (v : Value) : Result Value := do
  (decode (← v.toBytes what)).context ("decoding embedded " ++ what)

/-- How a message shows a map key. -/
def describeKey : Value → String
  | natural n => toString n.toNat
  | negative n => toString (-1 - (n.toNat : Int))
  | text s => Text.quote s
  | v => v.kindName

end Value

end Rim.Cbor
