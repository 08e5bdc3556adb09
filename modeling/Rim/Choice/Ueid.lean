import Rim.Cbor.Access
import Rim.Json.Access

/-!
# Universal entity identifiers

The first octet says what kind of identifier follows and so how many octets there are.
-/

namespace Rim

/-- A universal entity identifier, its type octet included; it need not be valid. -/
structure Ueid where
  octets : Bytes
deriving DecidableEq

namespace Ueid

/-- What kind of identifier it is. -/
inductive Form
  | random
  | eui
  | imei
deriving DecidableEq

namespace Form

/-- The form that a type octet names. -/
def ofOctet? (b : UInt8) : Option Form :=
  match b.toNat with
  | 1 => some random
  | 2 => some eui
  | 3 => some imei
  | _ => none

/-- The lengths of a form, its type octet included. -/
def lengths : Form → List Nat
  | random => [17, 25, 33]
  | eui => [7]
  | imei => [15]

/-- The name of a form in messages. -/
def name : Form → String
  | random => "Rand"
  | eui => "Eui"
  | imei => "Imei"

end Form

/-- The form that the first octet names, if there is one. -/
def form? (u : Ueid) : Option Form := u.octets.head?.bind Form.ofOctet?

/-- The first octet has to name a form, and the length has to be one of that form's. -/
def validate (u : Ueid) : Result Unit :=
  match u.octets with
  | [] => .error (.invalid "UEID" "empty")
  | b :: _ =>
    match Form.ofOctet? b with
    | none =>
      .error (.invalid "UEID" ("unknown type byte 0x" ++ String.ofList (Text.Hex.encode [b])))
    | some f =>
      if u.octets.length ∈ f.lengths then .ok ()
      else .error (.invalid "UEID"
        ("length " ++ toString u.octets.length ++ " not allowed for " ++ f.name))

def toCbor (u : Ueid) : Cbor.Value := .bytes u.octets

def ofCbor (v : Cbor.Value) : Result Ueid := do return ⟨← v.toBytes "UEID"⟩

def toJson (u : Ueid) : Json.Value := .ofBytes u.octets

def ofJson (v : Json.Value) : Result Ueid := do return ⟨← v.toBytes "UEID"⟩

end Ueid

end Rim
