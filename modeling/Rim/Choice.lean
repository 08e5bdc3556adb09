import Rim.Choice.Uuid
import Rim.Choice.Oid
import Rim.Choice.Ueid
import Rim.Choice.Masked
import Rim.Choice.PublicKey
import Rim.Choice.Psa

/-!
# Type choices

A type choice holds a value of one of several kinds. The binary format tells the kinds apart by the
tag around the value, the text format by a type name beside it.

* `Kind.name`, `Kind.tag`: the two keys of a kind.
* `Kind.ofCbor`, `Kind.ofJson`: read the value of a kind without its key, valid or not.
* `Choice.toCbor`, `Choice.toJson`: write a value with its key.
-/

namespace Rim

/-- The kinds of type choices. -/
inductive Kind
  | uuid
  | oid
  | ueid
  | int
  | svn
  | minSvn
  | publicKey
  | bytes
  | masked
  | implementationId
  | referenceValueId
deriving DecidableEq, Repr

/-- A value of one of the kinds. -/
inductive Choice
  | uuid (v : Uuid)
  | oid (v : Oid)
  | ueid (v : Ueid)
  | int (n : UInt64)
  | svn (n : UInt64)
  | minSvn (n : UInt64)
  | publicKey (v : PublicKey)
  | bytes (b : Bytes)
  | masked (v : MaskedValue)
  | implementationId (v : ImplementationId)
  | referenceValueId (v : ReferenceValueId)
deriving DecidableEq

namespace Kind

/-- The kinds that every registry of documents starts with, in this order. -/
def builtins : List Kind :=
  [uuid, oid, ueid, int, svn, minSvn, publicKey, bytes, masked]

/-- The type name of a kind. -/
def name : Kind → String
  | uuid => "uuid"
  | oid => "oid"
  | ueid => "ueid"
  | int => "int"
  | svn => "svn"
  | minSvn => "min-svn"
  | publicKey => "pkix-base64-key"
  | bytes => "bytes"
  | masked => "masked-raw-value"
  | implementationId => "psa.impl-id"
  | referenceValueId => "psa.refval-id"

def tag : Kind → UInt64
  | uuid => 37
  | oid => 111
  | ueid => 550
  | int => 551
  | svn => 552
  | minSvn => 553
  | publicKey => 554
  | bytes => 560
  | masked => 563
  | implementationId => 600
  | referenceValueId => 601

/-- Reads what stands under the tag of a kind. -/
def ofCbor (k : Kind) (v : Cbor.Value) : Result Choice :=
  match k with
  | uuid => .uuid <$> Uuid.ofCbor v
  | oid => .oid <$> Oid.ofCbor v
  | ueid => .ueid <$> Ueid.ofCbor v
  | int => .int <$> v.toUInt64 "int"
  | svn => .svn <$> v.toUInt64 "svn"
  | minSvn => .minSvn <$> v.toUInt64 "min-svn"
  | publicKey => .publicKey <$> PublicKey.ofCbor v
  | bytes => .bytes <$> v.toBytes "tagged bytes"
  | masked => .masked <$> MaskedValue.ofCbor v
  | implementationId => .implementationId <$> ImplementationId.ofCbor v
  | referenceValueId => .referenceValueId <$> ReferenceValueId.ofCbor v

/-- Reads what stands beside the type name of a kind. -/
def ofJson (k : Kind) (v : Json.Value) : Result Choice :=
  match k with
  | uuid => .uuid <$> Uuid.ofJson v
  | oid => .oid <$> Oid.ofJson v
  | ueid => .ueid <$> Ueid.ofJson v
  | int => .int <$> v.toUInt64 "int"
  | svn => .svn <$> v.toUInt64 "svn"
  | minSvn => .minSvn <$> v.toUInt64 "min-svn"
  | publicKey => .publicKey <$> PublicKey.ofJson v
  | bytes => .bytes <$> v.toBytes "tagged bytes"
  | masked => .masked <$> MaskedValue.ofJson v
  | implementationId => .implementationId <$> ImplementationId.ofJson v
  | referenceValueId => .referenceValueId <$> ReferenceValueId.ofJson v

end Kind

namespace Choice

/-- The kind of a value. -/
def kind : Choice → Kind
  | uuid _ => .uuid
  | oid _ => .oid
  | ueid _ => .ueid
  | int _ => .int
  | svn _ => .svn
  | minSvn _ => .minSvn
  | publicKey _ => .publicKey
  | bytes _ => .bytes
  | masked _ => .masked
  | implementationId _ => .implementationId
  | referenceValueId _ => .referenceValueId

/-- The validity rule of the value's kind. -/
def validate : Choice → Result Unit
  | uuid v => v.validate
  | oid v => v.validate
  | ueid v => v.validate
  | int _ | svn _ | minSvn _ => .ok ()
  | publicKey v => v.validate
  | bytes b => if b = [] then .error (.invalid "tagged bytes" "empty") else .ok ()
  | masked v => v.validate
  | implementationId _ => .ok ()
  | referenceValueId v => v.validate

/-- The validity rule under a context that names the kind. -/
def check (c : Choice) : Result Unit := c.validate.context ("validating " ++ c.kind.name)

/-- A value that has to be valid. -/
def checked (c : Choice) : Result Choice := do
  c.check
  return c

/-- What stands under the tag. -/
def body : Choice → Cbor.Value
  | uuid v => v.toCbor
  | oid v => v.toCbor
  | ueid v => v.toCbor
  | int n | svn n | minSvn n => .natural n
  | publicKey v => v.toCbor
  | bytes b => .bytes b
  | masked v => v.toCbor
  | implementationId v => v.toCbor
  | referenceValueId v => v.toCbor

/-- What stands beside the type name. -/
def text : Choice → Json.Value
  | uuid v => v.toJson
  | oid v => v.toJson
  | ueid v => v.toJson
  | int n | svn n | minSvn n => .ofUInt64 n
  | publicKey v => v.toJson
  | bytes b => .ofBytes b
  | masked v => v.toJson
  | implementationId v => v.toJson
  | referenceValueId v => v.toJson

/-- The octets of a value, for the kinds that have them. -/
def octets? : Choice → Option Bytes
  | uuid v => some v.octets
  | oid v => some v.ber
  | ueid v => some v.octets
  | int _ | svn _ | minSvn _ | publicKey _ | referenceValueId _ => none
  | bytes b => some b
  | masked v => some v.value
  | implementationId v => some v.octets

/-- The binary form: the body under the tag of its kind. -/
def toCbor (c : Choice) : Cbor.Value := .tag c.kind.tag c.body

/-- The text form: the text under the name of its kind. -/
def toJson (c : Choice) : Json.Value := .typed c.kind.name c.text

/-- Two values agree when they have the same type name and the same body. -/
def agrees (a b : Choice) : Bool :=
  a.kind.name == b.kind.name && a.body.compare b.body == .eq

instance : BEq Choice := ⟨agrees⟩

/-- The type name and the text, a string without its quotes. -/
def display (c : Choice) : String :=
  c.kind.name ++ ":" ++
    match c.text with
    | .string s => s
    | v => v.render

/-- An optional text as it is described. -/
private def describeOption : Option String → String
  | none => "None"
  | some s => "Some(" ++ Text.quote s ++ ")"

/-- The value of a kind as it is described. -/
def describeBody : Choice → String
  | uuid v => "TaggedUuid(" ++ v.toText ++ ")"
  | oid v => "Oid(" ++ Text.octets v.ber ++ ")"
  | ueid v => "Ueid(" ++ Text.octets v.octets ++ ")"
  | int n => "TaggedInt(" ++ toString n.toNat ++ ")"
  | svn n => "Svn(" ++ toString n.toNat ++ ")"
  | minSvn n => "MinSvn(" ++ toString n.toNat ++ ")"
  | publicKey v => "PkixBase64Key(" ++ Text.quote v.pem ++ ")"
  | bytes b => "TaggedBytes(" ++ Text.octets b ++ ")"
  | masked v => "MaskedRawValue \x7b value: " ++ Text.octets v.value ++ ", mask: " ++
    Text.octets v.mask ++ " \x7d"
  | implementationId v => "ImplId(" ++ Text.octets v.octets ++ ")"
  | referenceValueId v => "RefValId \x7b label: " ++ describeOption v.label ++ ", version: " ++
    describeOption v.version ++ ", signer_id: " ++ Text.octets v.signer ++ " \x7d"

/-- A value with all its parts as it is described. -/
def describe (c : Choice) : String := "TypeChoice(" ++ c.describeBody ++ ")"

end Choice

end Rim
