import Rim.Comid

/-!
# Embedded tags

A manifest embeds tags as byte strings. One that starts with the head of a module tag is read as
such; any other is kept as the octets it came as.
-/

namespace Rim

/-- A tag embedded in a manifest. -/
inductive EmbeddedTag
  | comid (c : Comid)
  | opaqueOctets (b : Bytes)
deriving BEq

namespace EmbeddedTag

/-- The head of a module tag in its shortest form. -/
def comidHead : Bytes := [0xd9, 0x01, 0xfa]

/-- The module tag, if it is one. -/
def comid? : EmbeddedTag → Option Comid
  | comid c => some c
  | opaqueOctets _ => none

/-- A module tag is valid, and other octets are not empty. -/
def validate : EmbeddedTag → Result Unit
  | comid c => c.validate
  | opaqueOctets b => if b = [] then .error (.invalid "concise tag" "empty tag") else .ok ()

/-- The binary form: the octets of the tag. -/
def toCbor : EmbeddedTag → Cbor.Value
  | comid c => Cbor.Value.embed (.tag Comid.tag c.toCbor)
  | opaqueOctets b => .bytes b

/-- Reads the octets of a tag with the fields of a scope. -/
def ofOctets (s : Scope) (b : Bytes) : Result EmbeddedTag :=
  -- octets of any other head are kept as they are, also those of a module tag under a longer head
  if comidHead.isPrefixOf b then do
    let v ← Cbor.decode b
    let body ← v.untag "CoMID" Comid.tag
    return comid (← Comid.ofCbor s body)
  else .ok (opaqueOctets b)

def ofCbor (s : Scope) (v : Cbor.Value) : Result EmbeddedTag := do
  ofOctets s (← v.toBytes "concise tag")

/-- The text form: the tag under the name of its type. -/
def toJson : EmbeddedTag → Json.Value
  | comid c => .typed "comid" c.toJson
  | opaqueOctets b => .typed "opaque" (.ofBytes b)

def ofJson (s : Scope) (v : Json.Value) : Result EmbeddedTag := do
  let (type, value) ← v.untyped
  if type = "comid" then return comid (← Comid.ofJson s value)
  else if type = "opaque" then return opaqueOctets (← value.toBytes "opaque tag")
  else .error (.malformed "concise tag" ("unknown tag type " ++ Text.quote type))

end EmbeddedTag

end Rim
