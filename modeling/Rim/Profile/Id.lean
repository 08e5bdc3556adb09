import Rim.Choice

/-!
# Profile identifiers

A profile is named by a URI or by an object identifier. In text a dotted decimal is an object
identifier, and a URI that reads as one is not valid.
-/

namespace Rim

/-- The identifier of a profile. -/
inductive ProfileId
  | uri (text : String)
  | oid (id : Oid)
deriving DecidableEq

namespace ProfileId

/-- Whether a text holds nothing but digits and dots. -/
def isDotted (text : String) : Bool :=
  text.toList.all fun c => ('0' ≤ c && c ≤ '9') || c == '.'

/-- The identifier that a text names. -/
def parse (text : String) : Result ProfileId :=
  if text = "" then .error (.invalid "profile" "empty profile identifier")
  else if isDotted text then .oid <$> Oid.parse text
  else .ok (.uri text)

/-- The text of an identifier. -/
def toText : ProfileId → String
  | uri text => text
  | oid id => id.toText

/-- A URI is not empty and does not read as an object identifier, and an object identifier has
arcs. -/
def validate : ProfileId → Result Unit
  | uri text =>
    if text = "" then .error (.invalid "profile" "empty profile URI")
    else if isDotted text then
      .error (.invalid "profile" ("URI " ++ Text.quote text ++ " reads as an OID"))
    else .ok ()
  | oid id => id.validate

/-- The binary form: under the tag of a URI or of an object identifier. -/
def toCbor : ProfileId → Cbor.Value
  | uri text => .uri text
  | oid id => .tag Kind.oid.tag id.toCbor

def ofCbor (v : Cbor.Value) : Result ProfileId :=
  match v with
  | .tag n body =>
    if n = Cbor.uriTag then .uri <$> body.toText "profile URI"
    else if n = Kind.oid.tag then .oid <$> Oid.ofCbor body
    else .error (.malformed "profile" ("expecting URI or OID, got " ++ v.describeKey))
  | v => .error (.malformed "profile" ("expecting URI or OID, got " ++ v.describeKey))

def toJson (i : ProfileId) : Json.Value := .string i.toText

def ofJson (v : Json.Value) : Result ProfileId := do parse (← v.toText "profile")

/-- How an identifier is described. -/
def describe : ProfileId → String
  | uri text => "Uri(" ++ Text.quote text ++ ")"
  | oid id => "Oid(Oid(" ++ Text.octets id.ber ++ "))"

end ProfileId

end Rim
