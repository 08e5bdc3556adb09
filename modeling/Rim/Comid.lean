import Rim.Comid.Triples
import Rim.Document
import Rim.Manifest.Entity
import Rim.Manifest.Identifier

/-!
# Module tags

A concise module identifier tag names a module and states triples about it.

* `Comid.ofCbor`, `Comid.ofJson`: read a tag with the fields of a scope.
* `Comid.decodeCbor`, `Comid.decodeJson`: read and check a tag that stands alone.
-/

namespace Rim

/-- The identifier and the version of a tag. -/
structure TagIdentity where
  id : Identifier
  version : Option UInt64
deriving DecidableEq

/-- A concise module identifier tag. -/
structure Comid where
  language : Option String
  identity : TagIdentity
  entities : List (Entity TagRole)
  triples : Triples
deriving BEq

namespace TagIdentity

def validate (t : TagIdentity) : Result Unit := t.id.validate.context "tag-id"

def toCbor (t : TagIdentity) : Cbor.Value :=
  .ofFields [(0, some t.id.toCbor), (1, t.version.map .natural)]

def ofCbor (v : Cbor.Value) : Result TagIdentity :=
  v.readMap "tag-identity" do
    let id ← Cbor.Fields.requireWith 0 "tag-id" Identifier.ofCbor
    let version ← Cbor.Fields.takeWith 1 (·.toUInt64 "tag-version")
    return ⟨id, version⟩

def toJson (t : TagIdentity) : Json.Value :=
  .ofMemberList [("id", some t.id.toJson), ("version", t.version.map .ofUInt64)]

def ofJson (v : Json.Value) : Result TagIdentity :=
  v.readObject "tag-identity" do
    let id ← Json.Remaining.requireWith "id" Identifier.ofJson
    let version ← Json.Remaining.takeWith "version" (·.toUInt64 "tag-version")
    return ⟨id, version⟩

end TagIdentity

namespace Comid

def tag : UInt64 := 506

/-- The language is not empty where set, and all parts are valid. -/
def validate (c : Comid) : Result Unit := do
  if c.language = some "" then .error (.invalid "comid" "empty language")
  c.identity.validate.context "tag-identity validation failed"
  (Entity.validateAll c.entities).context "entities validation failed"
  c.triples.validate.context "triples validation failed"

def toCbor (c : Comid) : Cbor.Value :=
  .ofFields [(0, c.language.map .text), (1, some c.identity.toCbor),
    (2, Cbor.arrayIfAny Entity.toCbor c.entities), (4, some c.triples.toCbor)]

def ofCbor (s : Scope) (v : Cbor.Value) : Result Comid :=
  v.readMap "comid" do
    let language ← Cbor.Fields.takeWith 0 (·.toText "language")
    let identity ← Cbor.Fields.requireWith 1 "tag-identity" fun v =>
      (TagIdentity.ofCbor v).context "tag-identity"
    let entities ← Cbor.Fields.takeWith 2 fun v => do
      (← v.toArray "entities").mapM Entity.ofCbor
    let triples ← Cbor.Fields.requireWith 4 "triples" fun v =>
      (Triples.ofCbor s v).context "triples"
    return ⟨language, identity, entities.getD [], triples⟩

def toJson (c : Comid) : Json.Value :=
  .ofMemberList [("lang", c.language.map .string), ("tag-identity", some c.identity.toJson),
    ("entities", Json.arrayIfAny Entity.toJson c.entities), ("triples", some c.triples.toJson)]

def ofJson (s : Scope) (v : Json.Value) : Result Comid :=
  v.readObject "comid" do
    let language ← Json.Remaining.takeWith "lang" (·.toText "lang")
    let identity ← Json.Remaining.requireWith "tag-identity" fun v =>
      (TagIdentity.ofJson v).context "tag-identity"
    let entities ← Json.Remaining.takeWith "entities" fun v => do
      (← v.toArray "entities").mapM Entity.ofJson
    let triples ← Json.Remaining.requireWith "triples" fun v =>
      (Triples.ofJson s v).context "triples"
    return ⟨language, identity, entities.getD [], triples⟩

instance : Document Comid where
  name := "CoMID"
  tag := some tag
  validate := validate
  toCbor := toCbor
  ofCbor c := ofCbor c.core
  toJson := toJson
  ofJson c := ofJson c.core

/-- Reads and checks a tag that stands alone, with or without its tag number, with the fields of a
scope. -/
def decodeCbor (s : Scope) (input : Bytes) : Result Comid := do
  let v ← Document.untagged Comid (← Cbor.decode input)
  let c ← (ofCbor s v).context (Document.decoding Comid)
  Document.check c
  return c

/-- Reads and checks a printed tag with the fields of a scope. -/
def decodeJson (s : Scope) (text : String) : Result Comid := do
  let c ← (ofJson s (← Json.decode text)).context (Document.decoding Comid)
  Document.check c
  return c

end Comid

end Rim
