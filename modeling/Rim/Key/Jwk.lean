import Rim.Error
import Rim.Json.Skip
import Rim.Text.Base64

/-!
# JSON Web Keys

The members of a key that are used here are texts; all but the key type may be absent or null. A key
is written as an object, of which members with other names are skipped, or as the array of all six
members.

* `Jwk.parse`: the key that a text writes.
* `Jwk.octets`: the octets that a member carries, of which there have to be so many.
-/

namespace Rim

open Text (Reading)

/-- The members of a key. -/
structure Jwk where
  keyType : String
  curve : Option String
  x : Option String
  y : Option String
  d : Option String
  keyId : Option String

namespace Jwk

/-- The names of the members, in the order of the array form. -/
def names : List String := ["kty", "crv", "x", "y", "d", "kid"]

/-- Reads a text, or nothing where there is a null. -/
def optionalText : Reading (Option String) := fun s => do
  match ← Json.value 0 s with
  | (.string t, r) => return (some t, r)
  | (.null, r) => return (none, r)
  | _ => none

/-- Reads the value of a member: of those that are used, a text or null. -/
def member (name : String) : Reading (Option String) := fun s =>
  if name ∈ names then optionalText s else (Json.skip s).map fun p => (none, p.2)

/-- The key of its members in the order of their names. -/
def ofMembers? : List (Option String) → Option Jwk
  | [some keyType, curve, x, y, d, keyId] => some ⟨keyType, curve, x, y, d, keyId⟩
  | _ => none

/-- The value of a member, if it is there. -/
def valueOf (members : List (String × Option String)) (name : String) : Option String :=
  (members.find? (·.1 == name)).bind (·.2)

/-- The key of an object's members, of which those that are used are there once at most. -/
def ofObject? (members : List (String × Option String)) : Option Jwk :=
  if ((members.map (·.1)).filter (· ∈ names)).Nodup then
    ofMembers? (names.map (valueOf members))
  else none

/-- Reads a key in either form. -/
def reading : Reading Jwk := fun s => do
  match Json.skipBlanks s with
  | '\x7b' :: r =>
    let (members, r) ← Json.enclosed '\x7d' (Json.memberBy member) r
    return (← ofObject? members, r)
  | '[' :: r =>
    let (members, r) ← Json.enclosed ']' optionalText r
    return (← ofMembers? members, r)
  | _ => none

/-- The key that a whole text writes. -/
def parse? (text : String) : Option Jwk :=
  match reading text.toList with
  | some (k, r) => if Json.skipBlanks r = [] then some k else none
  | none => none

/-- The key of the given type and curve that a text writes. -/
def parse (keyType curve text : String) : Result Jwk :=
  match parse? text with
  | none => .error (.malformed "JWK" "not the members of a key")
  | some k =>
    if k.keyType = keyType ∧ k.curve = some curve then .ok k
    else .error (.invalid "JWK" ("expecting kty " ++ keyType ++ " crv " ++ curve ++ ", got kty " ++
      k.keyType ++ " crv " ++ k.curve.getD "-"))

/-- The octets that a member carries, of which there have to be so many. -/
def octets (name : String) (size : Nat) (member : Option String) : Result Bytes :=
  match member with
  | none => .error (.missingField ("JWK " ++ name))
  | some text =>
    match Text.Base64.UrlSafe.decode? text.toList with
    | none => .error (.malformed "base64 string" "not canonical unpadded base64")
    | some b =>
      if b.length = size then .ok b
      else .error (.invalid "JWK" (name ++ ": expecting " ++ toString size ++ " bytes, got " ++
        toString b.length))

end Jwk

end Rim
