import Rim.Profile.Catalogue

/-!
# Documents

A document has a binary and a text form. Both directions check its rules: an invalid document is
not written, and one that is read is checked after it was read. The parts of documents have the same
two forms, written by `toCbor` and `toJson` and read by `ofCbor` and `ofJson`, valid or not.

* `Document.encodeCbor`, `Document.decodeCbor`: the binary form, under the document's tag if it has
  one; reading does not ask for the tag.
* `Document.encodeJson`, `Document.decodeJson`: the text form.
-/

namespace Rim

/-- Values with a binary and a text form of their own and rules to keep. -/
class Document (δ : Type) where
  name : String
  tag : Option UInt64
  validate : δ → Result Unit
  toCbor : δ → Cbor.Value
  ofCbor : Catalogue → Cbor.Value → Result δ
  toJson : δ → Json.Value
  ofJson : Catalogue → Json.Value → Result δ

namespace Document

variable {δ : Type} [Document δ]

def decoding (δ : Type) [Document δ] : String := "decoding " ++ name δ

/-- The rules of a document, a failure naming it. -/
def check (d : δ) : Result Unit := (validate d).context ("failed validation of " ++ name δ)

/-- The binary form under the document's tag, if it has one. -/
def tagged (d : δ) : Cbor.Value :=
  match tag δ with
  | some t => .tag t (toCbor d)
  | none => toCbor d

/-- Takes the document's tag off, if it is there. -/
def untagged (δ : Type) [Document δ] (v : Cbor.Value) : Result Cbor.Value :=
  match tag δ, v with
  | some expected, .tag t body =>
    if t = expected then .ok body
    else .error (.malformed (name δ)
      ("expecting tag " ++ toString expected.toNat ++ ", got " ++ toString t.toNat))
  | _, v => .ok v

/-- The written binary form of a valid document. -/
def encodeCbor (d : δ) : Result Bytes := do
  check d
  return (tagged d).encode

/-- Reads and checks a written binary form. -/
def decodeCbor (c : Catalogue) (input : Bytes) : Result δ := do
  let v ← (Cbor.decode input).context (decoding δ)
  let d : δ ← (ofCbor c (← untagged δ v)).context (decoding δ)
  check d
  return d

/-- The printed text form of a valid document. -/
def encodeJson (d : δ) : Result String := do
  check d
  return (toJson d).render

/-- Reads and checks a printed text form. -/
def decodeJson (c : Catalogue) (text : String) : Result δ := do
  let v ← Json.decode text
  let d : δ ← (ofJson c v).context (decoding δ)
  check d
  return d

end Document

end Rim
