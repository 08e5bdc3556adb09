import Rim.Cbor.Access
import Rim.Json.Members

/-!
# Masked values

A value of which only the bits set in a mask count.

* `MaskedValue.accepts`: whether a candidate agrees with the value on every masked bit.
-/

namespace Rim

/-- A value and the mask of the bits that count; the lengths need not agree. -/
structure MaskedValue where
  value : Bytes
  mask : Bytes
deriving DecidableEq

namespace MaskedValue

/-- Whether two octet strings agree on the bits of a mask, as far as all three go. -/
def agree : (mask value candidate : Bytes) → Bool
  | m :: mask, v :: value, c :: candidate => (c &&& m) == (v &&& m) && agree mask value candidate
  | _, _, _ => true

/-- Whether a candidate of the value's length agrees with it on every masked bit. -/
def accepts (x : MaskedValue) (candidate : Bytes) : Bool :=
  candidate.length == x.value.length && agree x.mask x.value candidate

/-- The value is not empty and as long as its mask. -/
def validate (x : MaskedValue) : Result Unit :=
  if x.value = [] then .error (.invalid "masked raw value" "empty value")
  else if x.value.length ≠ x.mask.length then
    .error (.invalid "masked raw value" ("value (" ++ toString x.value.length ++ ") and mask (" ++
      toString x.mask.length ++ ") lengths differ"))
  else .ok ()

def toCbor (x : MaskedValue) : Cbor.Value := .array [.bytes x.value, .bytes x.mask]

def ofCbor (v : Cbor.Value) : Result MaskedValue := do
  let (value, mask) ← v.toPair "masked raw value"
  return ⟨← value.toBytes "masked raw value", ← mask.toBytes "masked raw value mask"⟩

/-- The text form: an object of value and mask. -/
def toJson (x : MaskedValue) : Json.Value :=
  .ofMemberList [("value", some (.ofBytes x.value)), ("mask", some (.ofBytes x.mask))]

def ofJson (v : Json.Value) : Result MaskedValue :=
  v.readObject "masked raw value" do
    let value ← Json.Remaining.requireWith "value" (·.toBytes "masked raw value")
    let mask ← Json.Remaining.requireWith "mask" (·.toBytes "masked raw value mask")
    return ⟨value, mask⟩

end MaskedValue

end Rim
