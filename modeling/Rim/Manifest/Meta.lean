import Rim.Document
import Rim.Manifest.Validity

/-!
# Signer metadata

Who signed a manifest, and for how long the signature counts.
-/

namespace Rim

/-- Who signed. -/
structure SignerInfo where
  name : String
  uri : Option String
deriving DecidableEq

/-- Who signed, and for how long the signature counts. -/
structure Meta where
  signer : SignerInfo
  validity : Option Validity
deriving DecidableEq

namespace SignerInfo

/-- Name and URI are not empty where set. -/
def validate (s : SignerInfo) : Result Unit :=
  if s.name = "" then .error (.invalid "signer" "empty name")
  else if s.uri = some "" then .error (.invalid "signer" "empty URI")
  else .ok ()

def toCbor (s : SignerInfo) : Cbor.Value :=
  .ofFields [(0, some (.text s.name)), (1, s.uri.map .uri)]

def ofCbor (v : Cbor.Value) : Result SignerInfo :=
  v.readMap "signer" do
    let name ← Cbor.Fields.requireWith 0 "name" (·.toText "signer name")
    let uri ← Cbor.Fields.takeWith 1 (·.toUri "signer URI")
    return ⟨name, uri⟩

def toJson (s : SignerInfo) : Json.Value :=
  .ofMemberList [("name", some (.string s.name)), ("uri", s.uri.map .string)]

def ofJson (v : Json.Value) : Result SignerInfo :=
  v.readObject "signer" do
    let name ← Json.Remaining.requireWith "name" (·.toText "signer name")
    let uri ← Json.Remaining.takeWith "uri" (·.toText "signer URI")
    return ⟨name, uri⟩

end SignerInfo

namespace Meta

/-- Signer and window are valid. -/
def validate (m : Meta) : Result Unit := do
  m.signer.validate.context "signer"
  (checkOptional Validity.validate m.validity).context "validity"

/-- An instant has to lie in the window, if there is one. -/
def checkValidity (now : Time.Instant) (m : Meta) : Result Unit :=
  (checkOptional (Validity.checkAt now) m.validity).context "signature validity"

def toCbor (m : Meta) : Cbor.Value :=
  .ofFields [(0, some m.signer.toCbor), (1, m.validity.map Validity.toCbor)]

def ofCbor (v : Cbor.Value) : Result Meta :=
  v.readMap "meta" do
    let signer ← Cbor.Fields.requireWith 0 "signer" SignerInfo.ofCbor
    let validity ← Cbor.Fields.takeWith 1 Validity.ofCbor
    return ⟨signer, validity⟩

def toJson (m : Meta) : Json.Value :=
  .ofMemberList [("signer", some m.signer.toJson), ("validity", m.validity.map Validity.toJson)]

def ofJson (v : Json.Value) : Result Meta :=
  v.readObject "meta" do
    let signer ← Json.Remaining.requireWith "signer" SignerInfo.ofJson
    let validity ← Json.Remaining.takeWith "validity" Validity.ofJson
    return ⟨signer, validity⟩

instance : Document Meta where
  name := "CoRIM meta"
  tag := none
  validate := validate
  toCbor := toCbor
  ofCbor _ := ofCbor
  toJson := toJson
  ofJson _ := ofJson

end Meta

end Rim
