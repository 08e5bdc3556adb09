import Rim.Comid.Version
import Rim.Manifest.Digest
import Rim.Profile

/-!
# Measurements

A measurement says what values some element of a module has. The core values stand under keys of
their own; the active profile may add fields under further keys.

* `MeasurementValues.validate`: something is set, and all that is set is valid.
* `MeasurementValues.ofCbor`, `MeasurementValues.ofJson`: read values with the fields of a scope.
-/

namespace Rim

/-- The values of a measured element. -/
structure MeasurementValues where
  version : Option Version
  svn : Option Choice
  digests : Option (List Digest)
  rawValue : Option Choice
  rawValueMask : Option Bytes
  serialNumber : Option String
  ueid : Option Ueid
  uuid : Option Uuid
  name : Option String
  extensions : Extensions
deriving BEq

/-- A measured element and its values. -/
structure Measurement where
  key : Option Choice
  values : MeasurementValues
deriving BEq

namespace MeasurementValues

def empty : MeasurementValues :=
  ⟨none, none, none, none, none, none, none, none, none, .empty⟩

/-- Whether nothing is set. -/
def isEmpty (v : MeasurementValues) : Bool :=
  v.version.isNone && v.svn.isNone && v.digests.isNone && v.rawValue.isNone &&
    v.rawValueMask.isNone && v.serialNumber.isNone && v.ueid.isNone && v.uuid.isNone &&
    v.name.isNone && v.extensions.entries.isEmpty

/-- A text is not empty where set. -/
def checkText (what : String) (text : Option String) : Result Unit :=
  if text = some "" then .error (.invalid what ("empty " ++ what)) else .ok ()

/-- A security version number is an exact or a least one. -/
def checkSvn (c : Choice) : Result Unit :=
  match c with
  | .svn _ | .minSvn _ => .ok ()
  | c => .error (.invalid "svn" ("expecting svn or min-svn, got " ++ c.kind.name))

/-- A raw value is plain or masked, and valid. -/
def checkRawValue (c : Choice) : Result Unit :=
  match c with
  | .bytes _ | .masked _ => c.validate.context "raw value"
  | c =>
    .error (.invalid "raw value" ("expecting bytes or masked-raw-value, got " ++ c.kind.name))

/-- A mask stands beside a plain raw value of its length. -/
def checkMask (rawValue : Option Choice) (mask : Bytes) : Result Unit :=
  match rawValue with
  | some (.bytes raw) =>
    if mask.length = raw.length then .ok ()
    else .error (.invalid "raw value mask" ("mask length " ++ toString mask.length ++
      " does not match raw value length " ++ toString raw.length))
  | _ => .error (.invalid "raw value mask" "mask requires a plain raw value")

/-- Something is set, and all that is set is valid. -/
def validate (v : MeasurementValues) : Result Unit := do
  if v.isEmpty then .error (.invalid "measurement values" "no measurement value set")
  (checkOptional Version.validate v.version).context "version"
  checkOptional checkSvn v.svn
  checkOptional Digest.validateAll v.digests
  checkOptional checkRawValue v.rawValue
  checkOptional (checkMask v.rawValue) v.rawValueMask
  checkText "serial number" v.serialNumber
  (checkOptional Ueid.validate v.ueid).context "ueid"
  (checkOptional Uuid.validate v.uuid).context "uuid"
  checkText "name" v.name
  v.extensions.validate

/-- The entries of the core values in the binary form. -/
def coreEntries (v : MeasurementValues) : Cbor.Entries :=
  Cbor.Entries.ofFields [(0, v.version.map Version.toCbor), (1, v.svn.map Choice.toCbor),
    (2, v.digests.map fun ds => .array (ds.map Digest.toCbor)),
    (4, v.rawValue.map Choice.toCbor), (5, v.rawValueMask.map .bytes),
    (8, v.serialNumber.map .text), (9, v.ueid.map Ueid.toCbor), (10, v.uuid.map Uuid.toCbor),
    (11, v.name.map .text)]

/-- The binary form: a map of the core values and over them the extension values. -/
def toCbor (v : MeasurementValues) : Cbor.Value :=
  .map (v.coreEntries.merge v.extensions.toCbor)

/-- Reads a security version number: a plain number is an exact one. -/
def svnOfCbor (r : ChoiceRegistry) (v : Cbor.Value) : Result Choice :=
  match v with
  | .natural _ | .negative _ => do Choice.checked (.svn (← v.toUInt64 "svn"))
  | v => r.ofCbor v

def ofCbor (s : Scope) (v : Cbor.Value) : Result MeasurementValues :=
  v.readMap "measurement values" do
    let version ← Cbor.Fields.takeWith 0 fun v => (Version.ofCbor v).context "version"
    let svn ← Cbor.Fields.takeWith 1 fun v => (svnOfCbor s.registry v).context "svn"
    let digests ← Cbor.Fields.takeWith 2 fun v => Result.context "digests" do
      (← v.toArray "digests").mapM Digest.ofCbor
    let rawValue ← Cbor.Fields.takeWith 4 fun v => (s.registry.ofCbor v).context "raw value"
    let rawValueMask ← Cbor.Fields.takeWith 5 (·.toBytes "raw value mask")
    let serialNumber ← Cbor.Fields.takeWith 8 (·.toText "serial number")
    let ueid ← Cbor.Fields.takeWith 9 fun v => do return ⟨← v.toBytes "ueid"⟩
    let uuid ← Cbor.Fields.takeWith 10 fun v => do Uuid.ofBytes (← v.toBytes "uuid")
    let name ← Cbor.Fields.takeWith 11 (·.toText "name")
    -- whatever is left has to be a field of the profile
    let extensions ← Extensions.ofCbor s.fields (← Cbor.Fields.takeRest)
    return ⟨version, svn, digests, rawValue, rawValueMask, serialNumber, ueid, uuid, name,
      extensions⟩

/-- The members of the core values in the text form. -/
def coreMembers (v : MeasurementValues) : Json.Members :=
  Json.Members.ofList [("version", v.version.map Version.toJson), ("svn", v.svn.map Choice.toJson),
    ("digests", v.digests.map fun ds => .array (ds.map Digest.toJson)),
    ("raw-value", v.rawValue.map Choice.toJson), ("raw-value-mask", v.rawValueMask.map .ofBytes),
    ("serial-number", v.serialNumber.map .string), ("ueid", v.ueid.map Ueid.toJson),
    ("uuid", v.uuid.map Uuid.toJson), ("name", v.name.map .string)]

/-- The text form: an object of the core values and over them the extension values. -/
def toJson (v : MeasurementValues) : Json.Value :=
  .object (v.coreMembers.merge v.extensions.toJson)

def ofJson (s : Scope) (v : Json.Value) : Result MeasurementValues :=
  v.readObject "measurement values" do
    let version ← Json.Remaining.takeWith "version" fun v => (Version.ofJson v).context "version"
    let svn ← Json.Remaining.takeWith "svn" fun v => (s.registry.ofJson v).context "svn"
    let digests ← Json.Remaining.takeWith "digests" fun v => Result.context "digests" do
      (← v.toArray "digests").mapM Digest.ofJson
    let rawValue ← Json.Remaining.takeWith "raw-value" fun v =>
      (s.registry.ofJson v).context "raw value"
    let rawValueMask ← Json.Remaining.takeWith "raw-value-mask" (·.toBytes "raw value mask")
    let serialNumber ← Json.Remaining.takeWith "serial-number" (·.toText "serial number")
    let ueid ← Json.Remaining.takeWith "ueid" Ueid.ofJson
    let uuid ← Json.Remaining.takeWith "uuid" Uuid.ofJson
    let name ← Json.Remaining.takeWith "name" (·.toText "name")
    -- whatever is left has to be a field of the profile
    let extensions ← Extensions.ofJson s.fields (← Json.Remaining.takeRest)
    return ⟨version, svn, digests, rawValue, rawValueMask, serialNumber, ueid, uuid, name,
      extensions⟩

end MeasurementValues

namespace Measurement

/-- The key and the values are valid. -/
def validate (m : Measurement) : Result Unit := do
  (checkOptional Choice.validate m.key).context "measurement key"
  m.values.validate

def toCbor (m : Measurement) : Cbor.Value :=
  .ofFields [(0, m.key.map Choice.toCbor), (1, some m.values.toCbor)]

def ofCbor (s : Scope) (v : Cbor.Value) : Result Measurement :=
  v.readMap "measurement" do
    let key ← Cbor.Fields.takeWith 0 fun v => (s.registry.ofCbor v).context "measurement key"
    let values ← Cbor.Fields.requireWith 1 "values" (MeasurementValues.ofCbor s)
    return ⟨key, values⟩

def toJson (m : Measurement) : Json.Value :=
  .ofMemberList [("key", m.key.map Choice.toJson), ("value", some m.values.toJson)]

def ofJson (s : Scope) (v : Json.Value) : Result Measurement :=
  v.readObject "measurement" do
    let key ← Json.Remaining.takeWith "key" fun v => (s.registry.ofJson v).context "measurement key"
    let values ← Json.Remaining.requireWith "value" (MeasurementValues.ofJson s)
    return ⟨key, values⟩

end Measurement

end Rim
