import Rim.Choice.Uuid

/-!
# Identifiers of manifests and tags

An identifier is a text or a UUID. The binary format keeps the two apart; the text format writes
both as a string, and a string in the grouped form of a UUID is read as one.
-/

namespace Rim

/-- A text or a UUID. -/
inductive Identifier
  | text (s : String)
  | uuid (u : Uuid)
deriving DecidableEq

namespace Identifier

def toText : Identifier → String
  | text s => s
  | uuid u => u.toText

/-- A text is not empty, and a UUID is valid. -/
def validate : Identifier → Result Unit
  | text s => if s = "" then .error .emptyIdentifier else .ok ()
  | uuid u => u.validate

/-- The binary form: a text string or the octets of a UUID. -/
def toCbor : Identifier → Cbor.Value
  | text s => .text s
  | uuid u => .bytes u.octets

def ofCbor : Cbor.Value → Result Identifier
  | .text s => .ok (text s)
  | .bytes b => uuid <$> Uuid.ofBytes b
  | v => .error (.malformed "identifier" ("expecting text or UUID, got " ++ v.describeKey))

def toJson (i : Identifier) : Json.Value := .string i.toText

/-- The identifier that a text writes. -/
def ofText (s : String) : Identifier :=
  match Uuid.parse s with
  | .ok u => uuid u
  | .error _ => text s

def ofJson (v : Json.Value) : Result Identifier := do return ofText (← v.toText "identifier")

end Identifier

end Rim
