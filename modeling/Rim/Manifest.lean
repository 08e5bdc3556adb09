import Rim.Manifest.Locator
import Rim.Manifest.Tag
import Rim.Manifest.Validity

/-!
# Manifests

A reference integrity manifest embeds tags and says which profile they follow. The profile is read
before the tags, which are then read with its fields.

* `Manifest.ofCbor`, `Manifest.ofJson`: read a manifest with what a catalogue knows.
* The `Document` instance: manifests that stand alone.
-/

namespace Rim

/-- A manifest, which need not be valid. -/
structure Manifest where
  id : Identifier
  tags : List EmbeddedTag
  dependents : List Locator
  profile : Option ProfileId
  validity : Option Validity
  entities : List (Entity ManifestRole)
deriving BEq

namespace Manifest

def tag : UInt64 := 501

/-- The module tags among the embedded ones, in order. -/
def comids (m : Manifest) : List Comid := m.tags.filterMap EmbeddedTag.comid?

/-- Identifier, tags, locators, profile, window and entities are valid, and there is a tag. -/
def validate (m : Manifest) : Result Unit := do
  m.id.validate
  if m.tags.isEmpty then .error (.missingField "tags")
  checkEach "tag" EmbeddedTag.validate m.tags
  checkEach "dependent RIM" Locator.validate m.dependents
  (checkOptional ProfileId.validate m.profile).context "profile"
  (checkOptional Validity.validate m.validity).context "validity"
  (Entity.validateAll m.entities).context "entities"

/-- An instant has to lie in the window, if there is one. -/
def checkValidity (now : Time.Instant) (m : Manifest) : Result Unit :=
  (checkOptional (Validity.checkAt now) m.validity).context "manifest validity"

def toCbor (m : Manifest) : Cbor.Value :=
  .ofFields [(0, some m.id.toCbor), (1, some (.array (m.tags.map EmbeddedTag.toCbor))),
    (2, Cbor.arrayIfAny Locator.toCbor m.dependents), (3, m.profile.map ProfileId.toCbor),
    (4, m.validity.map Validity.toCbor), (5, Cbor.arrayIfAny Entity.toCbor m.entities)]

def ofCbor (c : Catalogue) (v : Cbor.Value) : Result Manifest :=
  v.readMap "unsigned CoRIM" do
    -- the profile says with which fields the tags are read
    let profile ← Cbor.Fields.takeWith 3 fun v => (ProfileId.ofCbor v).context "profile"
    let scope := c.scope profile
    let id ← Cbor.Fields.requireWith 0 "corim-id" fun v =>
      (Identifier.ofCbor v).context "corim-id"
    let tags ← Cbor.Fields.requireWith 1 "tags" fun v => do
      readEach "tag" (EmbeddedTag.ofCbor scope) (← v.toArray "tags")
    let dependents ← Cbor.Fields.takeWith 2 fun v => do
      (← v.toArray "dependent-rims").mapM Locator.ofCbor
    let validity ← Cbor.Fields.takeWith 4 fun v => (Validity.ofCbor v).context "validity"
    let entities ← Cbor.Fields.takeWith 5 fun v => do
      (← v.toArray "entities").mapM Entity.ofCbor
    return ⟨id, tags, dependents.getD [], profile, validity, entities.getD []⟩

def toJson (m : Manifest) : Json.Value :=
  .ofMemberList [("corim-id", some m.id.toJson),
    ("tags", some (.array (m.tags.map EmbeddedTag.toJson))),
    ("dependent-rims", Json.arrayIfAny Locator.toJson m.dependents),
    ("profile", m.profile.map ProfileId.toJson), ("validity", m.validity.map Validity.toJson),
    ("entities", Json.arrayIfAny Entity.toJson m.entities)]

def ofJson (c : Catalogue) (v : Json.Value) : Result Manifest :=
  v.readObject "unsigned CoRIM" do
    -- the profile says with which fields the tags are read
    let profile ← Json.Remaining.takeWith "profile" fun v => (ProfileId.ofJson v).context "profile"
    let scope := c.scope profile
    let id ← Json.Remaining.requireWith "corim-id" fun v =>
      (Identifier.ofJson v).context "corim-id"
    let tags ← Json.Remaining.requireWith "tags" fun v => do
      readEach "tag" (EmbeddedTag.ofJson scope) (← v.toArray "tags")
    let dependents ← Json.Remaining.takeWith "dependent-rims" fun v => do
      (← v.toArray "dependent-rims").mapM Locator.ofJson
    let validity ← Json.Remaining.takeWith "validity" fun v =>
      (Validity.ofJson v).context "validity"
    let entities ← Json.Remaining.takeWith "entities" fun v => do
      (← v.toArray "entities").mapM Entity.ofJson
    return ⟨id, tags, dependents.getD [], profile, validity, entities.getD []⟩

instance : Document Manifest where
  name := "unsigned CoRIM"
  tag := some tag
  validate := validate
  toCbor := toCbor
  ofCbor := ofCbor
  toJson := toJson
  ofJson := ofJson

end Manifest

end Rim
