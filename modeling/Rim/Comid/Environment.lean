import Rim.Choice.Registry
import Rim.Sequence

/-!
# Environments

An environment says which module a statement is about: by the class of modules, by an instance, by a
group, or by several of these.
-/

namespace Rim

/-- A class of modules. -/
structure ModuleClass where
  id : Option Choice
  vendor : Option String
  model : Option String
  layer : Option UInt64
  index : Option UInt64
deriving DecidableEq, BEq

/-- The module that a statement is about. -/
structure Environment where
  moduleClass : Option ModuleClass
  instanceId : Option Choice
  group : Option Choice
deriving DecidableEq, BEq

namespace ModuleClass

/-- Whether nothing is set. -/
def isEmpty (c : ModuleClass) : Bool :=
  c.id.isNone && c.vendor.isNone && c.model.isNone && c.layer.isNone && c.index.isNone

/-- Something is set, the identifier is valid, and vendor and model are not empty where set. -/
def validate (c : ModuleClass) : Result Unit := do
  if c.isEmpty then .error (.invalid "class" "class must not be empty")
  (checkOptional Choice.validate c.id).context "class id"
  if c.vendor = some "" then .error (.invalid "class" "empty vendor")
  if c.model = some "" then .error (.invalid "class" "empty model")

def toCbor (c : ModuleClass) : Cbor.Value :=
  .ofFields [(0, c.id.map Choice.toCbor), (1, c.vendor.map .text), (2, c.model.map .text),
    (3, c.layer.map .natural), (4, c.index.map .natural)]

def ofCbor (r : ChoiceRegistry) (v : Cbor.Value) : Result ModuleClass :=
  v.readMap "class" do
    let id ← Cbor.Fields.takeWith 0 r.ofCbor
    let vendor ← Cbor.Fields.takeWith 1 (·.toText "vendor")
    let model ← Cbor.Fields.takeWith 2 (·.toText "model")
    let layer ← Cbor.Fields.takeWith 3 (·.toUInt64 "layer")
    let index ← Cbor.Fields.takeWith 4 (·.toUInt64 "index")
    return ⟨id, vendor, model, layer, index⟩

def toJson (c : ModuleClass) : Json.Value :=
  .ofMemberList [("id", c.id.map Choice.toJson), ("vendor", c.vendor.map .string),
    ("model", c.model.map .string), ("layer", c.layer.map .ofUInt64),
    ("index", c.index.map .ofUInt64)]

def ofJson (r : ChoiceRegistry) (v : Json.Value) : Result ModuleClass :=
  v.readObject "class" do
    let id ← Json.Remaining.takeWith "id" r.ofJson
    let vendor ← Json.Remaining.takeWith "vendor" (·.toText "vendor")
    let model ← Json.Remaining.takeWith "model" (·.toText "model")
    let layer ← Json.Remaining.takeWith "layer" (·.toUInt64 "layer")
    let index ← Json.Remaining.takeWith "index" (·.toUInt64 "index")
    return ⟨id, vendor, model, layer, index⟩

end ModuleClass

namespace Environment

/-- Something is set, and all that is set is valid. -/
def validate (e : Environment) : Result Unit := do
  if e.moduleClass.isNone && e.instanceId.isNone && e.group.isNone then
    .error (.invalid "environment" "environment must not be empty")
  (checkOptional ModuleClass.validate e.moduleClass).context "class validation failed"
  (checkOptional Choice.validate e.instanceId).context "instance validation failed"
  (checkOptional Choice.validate e.group).context "group validation failed"

def toCbor (e : Environment) : Cbor.Value :=
  .ofFields [(0, e.moduleClass.map ModuleClass.toCbor), (1, e.instanceId.map Choice.toCbor),
    (2, e.group.map Choice.toCbor)]

def ofCbor (r : ChoiceRegistry) (v : Cbor.Value) : Result Environment :=
  v.readMap "environment" do
    let moduleClass ← Cbor.Fields.takeWith 0 (ModuleClass.ofCbor r)
    let instanceId ← Cbor.Fields.takeWith 1 r.ofCbor
    let group ← Cbor.Fields.takeWith 2 r.ofCbor
    return ⟨moduleClass, instanceId, group⟩

def toJson (e : Environment) : Json.Value :=
  .ofMemberList [("class", e.moduleClass.map ModuleClass.toJson),
    ("instance", e.instanceId.map Choice.toJson), ("group", e.group.map Choice.toJson)]

def ofJson (r : ChoiceRegistry) (v : Json.Value) : Result Environment :=
  v.readObject "environment" do
    let moduleClass ← Json.Remaining.takeWith "class" (ModuleClass.ofJson r)
    let instanceId ← Json.Remaining.takeWith "instance" r.ofJson
    let group ← Json.Remaining.takeWith "group" r.ofJson
    return ⟨moduleClass, instanceId, group⟩

end Environment

end Rim
