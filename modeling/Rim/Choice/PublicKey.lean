import Rim.Cbor.Access
import Rim.Json.Access
import Rim.Text.Blank

/-!
# Public keys as PEM text

A public key is kept as the PEM text it came as. Blanks around and inside the block do not matter.

* `PublicKey.der`: the octets that the block carries, or why it carries none.
-/

namespace Rim

/-- A public key as PEM text, which need not be valid. -/
structure PublicKey where
  pem : String
deriving DecidableEq

namespace PublicKey

def opening : String := "-----BEGIN PUBLIC KEY-----"

def closing : String := "-----END PUBLIC KEY-----"

/-- What stands between the opening and the closing line of a trimmed text. -/
def body? (pem : String) : Option (List Char) := do
  Text.before? closing.toList (← Text.after? opening.toList (Text.trim pem.toList))

/-- The octets that the block carries. -/
def der (k : PublicKey) : Result Bytes :=
  match body? k.pem with
  | none => .error (.invalid "PKIX key" "expecting a PEM PUBLIC KEY block")
  | some body =>
    match Text.Base64.decode? (Text.dropBlanks body) with
    | none => .error (.invalid "PKIX key" "bad PEM body: not canonical padded base64")
    | some [] => .error (.invalid "PKIX key" "empty PEM body")
    | some der => .ok der

/-- The block has to carry octets. -/
def validate (k : PublicKey) : Result Unit := do let _ ← k.der

def toCbor (k : PublicKey) : Cbor.Value := .text k.pem

def ofCbor (v : Cbor.Value) : Result PublicKey := do return ⟨← v.toText "PKIX key"⟩

def toJson (k : PublicKey) : Json.Value := .string k.pem

def ofJson (v : Json.Value) : Result PublicKey := do return ⟨← v.toText "PKIX key"⟩

end PublicKey

end Rim
