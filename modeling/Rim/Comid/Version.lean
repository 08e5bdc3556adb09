import Rim.Cbor.Fields
import Rim.Json.Members

/-!
# Versions

A version text and the scheme it follows. The text format writes a scheme that has a name by its
name.
-/

namespace Rim

/-- A version and the number of its scheme. -/
structure Version where
  value : String
  scheme : Option Int64
deriving DecidableEq

namespace Version

/-- The schemes that have names. -/
def schemes : List (Int64 × String) :=
  [(1, "multipartnumeric"), (2, "multipartnumeric+suffix"), (3, "alphanumeric"), (4, "decimal"),
   (16384, "semver")]

def schemeName? (n : Int64) : Option String := (schemes.find? (·.1 == n)).map (·.2)

def schemeNumber? (name : String) : Option Int64 := (schemes.find? (·.2 == name)).map (·.1)

def semantic (value : String) : Version := ⟨value, some 16384⟩

/-- The version text is not empty. -/
def validate (v : Version) : Result Unit :=
  if v.value = "" then .error (.invalid "version" "empty version") else .ok ()

def toCbor (v : Version) : Cbor.Value :=
  .ofFields [(0, some (.text v.value)), (1, v.scheme.map .ofInt64)]

def ofCbor (v : Cbor.Value) : Result Version :=
  v.readMap "version" do
    let value ← Cbor.Fields.requireWith 0 "version" (·.toText "version")
    let scheme ← Cbor.Fields.takeWith 1 (·.toInt64 "version scheme")
    return ⟨value, scheme⟩

/-- The text form of a scheme: its name, or its number. -/
def schemeToJson (n : Int64) : Json.Value :=
  match schemeName? n with
  | some name => .string name
  | none => .ofInt64 n

/-- Reads the text form of a scheme. -/
def schemeOfJson (v : Json.Value) : Result Int64 :=
  match v with
  | .string name =>
    match schemeNumber? name with
    | some n => .ok n
    | none => .error (.malformed "version scheme" ("unknown scheme " ++ Text.quote name))
  | v => v.toInt64 "version scheme"

def toJson (v : Version) : Json.Value :=
  .ofMemberList [("value", some (.string v.value)), ("scheme", v.scheme.map schemeToJson)]

def ofJson (v : Json.Value) : Result Version :=
  v.readObject "version" do
    let value ← Json.Remaining.requireWith "value" (·.toText "version")
    let scheme ← Json.Remaining.takeWith "scheme" schemeOfJson
    return ⟨value, scheme⟩

end Version

end Rim
