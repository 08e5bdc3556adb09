import Rim.Error
import Rim.Json.Parser
import Rim.Text.Base64

/-!
# Taking values of the text format apart

Each function takes the part of a value that its name says, or refuses the value under the name of
what was expected there. Byte strings are carried as base64 text.
-/

namespace Rim.Json

/-- The whole text as one value. -/
def decode (text : String) : Result Value :=
  match decode? text with
  | some v => .ok v
  | none => .error (.malformed "JSON data" "not one well-formed value")

/-- The octets that a base64 text carries. -/
def octetsOf (what : String) (s : String) : Result Bytes :=
  match Text.Base64.decode? s.toList with
  | some b => .ok b
  | none => .error (.malformed what "bad base64: not canonical padded base64")

namespace Value

def ofUInt64 (n : UInt64) : Value := number (.integer n.toNat)

def ofInt64 (n : Int64) : Value := number (.integer n.toInt)

/-- A byte string as base64 text. -/
def ofBytes (b : Bytes) : Value := string (String.ofList (Text.Base64.encode b))

/-- A value under the name of its type. -/
def typed (type : String) (value : Value) : Value :=
  object [("type", string type), ("value", value)]

/-- The error of a value of another kind. -/
def wrongKind (what expected : String) (v : Value) : Error :=
  .malformed what ("expecting " ++ expected ++ ", got " ++ v.kindName)

def toText (what : String) : Value → Result String
  | string s => .ok s
  | v => .error (v.wrongKind what "string")

/-- An integer between zero and `2^64 - 1`. -/
def toUInt64 (what : String) (v : Value) : Result UInt64 :=
  match v with
  | number (.integer n) =>
    if 0 ≤ n ∧ n < 2 ^ 64 then .ok (UInt64.ofNat n.toNat)
    else .error (v.wrongKind what "unsigned integer")
  | v => .error (v.wrongKind what "unsigned integer")

/-- An integer in the signed 64-bit range. -/
def toInt64 (what : String) (v : Value) : Result Int64 :=
  match v with
  | number (.integer n) =>
    if -2 ^ 63 ≤ n ∧ n < 2 ^ 63 then .ok (Int64.ofInt n)
    else .error (v.wrongKind what "integer")
  | v => .error (v.wrongKind what "integer")

/-- A truth value. -/
def toBool (what : String) : Value → Result Bool
  | bool b => .ok b
  | v => .error (v.wrongKind what "bool")

/-- The items of an array. -/
def toArray (what : String) : Value → Result (List Value)
  | array items => .ok items
  | v => .error (v.wrongKind what "array")

/-- The octets of a base64 string. -/
def toBytes (what : String) (v : Value) : Result Bytes := do
  octetsOf what (← v.toText what)

end Value

end Rim.Json
