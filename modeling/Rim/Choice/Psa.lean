import Rim.Cbor.Fields
import Rim.Json.Members

/-!
# PSA identifiers

The two identifiers that the PSA profile adds: the implementation identifier of a class and the
reference value identifier of a firmware component.
-/

namespace Rim

/-- The identifier of a PSA implementation: 32 octets. -/
structure ImplementationId where
  octets : Bytes
  length_octets : octets.length = 32
deriving DecidableEq

namespace ImplementationId

/-- The identifier of 32 octets. -/
def ofBytes (b : Bytes) : Result ImplementationId :=
  if h : b.length = 32 then .ok ⟨b, h⟩
  else .error (.invalid "PSA implementation id" ("expecting 32 bytes, got " ++ toString b.length))

def toCbor (i : ImplementationId) : Cbor.Value := .bytes i.octets

def ofCbor (v : Cbor.Value) : Result ImplementationId := do
  ofBytes (← v.toBytes "PSA implementation id")

def toJson (i : ImplementationId) : Json.Value := .ofBytes i.octets

def ofJson (v : Json.Value) : Result ImplementationId := do
  ofBytes (← v.toBytes "PSA implementation id")

end ImplementationId

/-- The identifier of a firmware component: its label, version and the hash of its signing key. -/
structure ReferenceValueId where
  label : Option String
  version : Option String
  signer : Bytes
deriving DecidableEq

namespace ReferenceValueId

/-- The signer is a hash of 32 to 64 octets; label and version are not empty where set. -/
def validate (i : ReferenceValueId) : Result Unit :=
  if i.signer.length < 32 ∨ 64 < i.signer.length then
    .error (.invalid "PSA refval id"
      ("signer-id must be 32 to 64 bytes, got " ++ toString i.signer.length))
  else if i.label = some "" ∨ i.version = some "" then
    .error (.invalid "PSA refval id" "empty label or version")
  else .ok ()

def toCbor (i : ReferenceValueId) : Cbor.Value :=
  .ofFields [(1, i.label.map .text), (4, i.version.map .text), (5, some (.bytes i.signer))]

def ofCbor (v : Cbor.Value) : Result ReferenceValueId :=
  v.readMap "PSA refval id" do
    let label ← Cbor.Fields.takeWith 1 (·.toText "PSA label")
    let version ← Cbor.Fields.takeWith 4 (·.toText "PSA version")
    let signer ← Cbor.Fields.requireWith 5 "signer-id" (·.toBytes "PSA signer-id")
    return ⟨label, version, signer⟩

def toJson (i : ReferenceValueId) : Json.Value :=
  .ofMemberList [("label", i.label.map .string), ("version", i.version.map .string),
    ("signer-id", some (.ofBytes i.signer))]

def ofJson (v : Json.Value) : Result ReferenceValueId :=
  v.readObject "PSA refval id" do
    let label ← Json.Remaining.takeWith "label" (·.toText "PSA label")
    let version ← Json.Remaining.takeWith "version" (·.toText "PSA version")
    let signer ← Json.Remaining.requireWith "signer-id" (·.toBytes "PSA signer-id")
    return ⟨label, version, signer⟩

end ReferenceValueId

end Rim
