import Rim.Cbor.Fields
import Rim.Json.Members

/-!
# Extension fields

A profile may add fields to measurement values. A field says under which key and name its value
stands and what shape it has, and may add a check of its own. The values set in one place are held
in the order of their keys, each with the field it was set through.

* `Field.check`: the rule that a value of a field keeps.
* `Extensions.set`: sets a field to a value that keeps its rule.
* `Extensions.ofCbor`, `Extensions.ofJson`: read what the core fields left over, by a schema.
-/

namespace Rim

namespace Extension

/-- The shapes of values. -/
inductive Shape
  | uint
  | int
  | text
  | bytes
  | textSet
  | uintOrBytes
deriving DecidableEq

/-- A value of an extension field. -/
inductive Value
  | uint (n : UInt64)
  | int (n : Int64)
  | text (s : String)
  | bytes (b : Bytes)
  | textSet (items : List String)
deriving DecidableEq

/-- An extension field. -/
structure Field where
  key : Int64
  name : String
  shape : Shape
  rule : Option (Value → Result Unit)

namespace Shape

/-- What a message calls a shape. -/
def name : Shape → String
  | uint => "Uint"
  | int => "Int"
  | text => "Text"
  | bytes => "Bytes"
  | textSet => "TextSet"
  | uintOrBytes => "UintOrBytes"

end Shape

namespace Value

/-- Whether a value has a shape. -/
def fits : Value → Shape → Bool
  | uint _, .uint | int _, .int | text _, .text | bytes _, .bytes | textSet _, .textSet => true
  | uint _, .uintOrBytes | bytes _, .uintOrBytes => true
  | _, _ => false

/-- How a message shows a value. -/
def describe : Value → String
  | uint n => "Uint(" ++ toString n.toNat ++ ")"
  | int n => "Int(" ++ toString n.toInt ++ ")"
  | text s => "Text(" ++ Text.quote s ++ ")"
  | bytes b => "Bytes(" ++ Text.octets b ++ ")"
  | textSet items => "TextSet(" ++ Text.bracketed (items.map Text.quote) ++ ")"

/-- The binary form of a value. -/
def toCbor : Value → Cbor.Value
  | uint n => .natural n
  | int n => .ofInt64 n
  | text s => .text s
  | bytes b => .bytes b
  | textSet items => .array (items.map .text)

/-- The text form of a value. -/
def toJson : Value → Json.Value
  | uint n => .ofUInt64 n
  | int n => .ofInt64 n
  | text s => .string s
  | bytes b => .ofBytes b
  | textSet items => .array (items.map .string)

/-- The number of a value that is not signed. -/
def uint? : Value → Option UInt64
  | uint n => some n
  | _ => none

def text? : Value → Option String
  | text s => some s
  | _ => none

/-- The octets of a value. -/
def bytes? : Value → Option Bytes
  | bytes b => some b
  | _ => none

def textSet? : Value → Option (List String)
  | textSet items => some items
  | _ => none

end Value

namespace Field

/-- How a field is described. -/
def describe (f : Field) : String :=
  "ExtensionField \x7b key: " ++ toString f.key.toInt ++ ", name: " ++ Text.quote f.name ++
    ", kind: " ++ f.shape.name ++ ", .. \x7d"

/-- A value has to have the field's shape, not to be an empty set, and to keep the field's own
rule. -/
def check (f : Field) (v : Value) : Result Unit :=
  if !v.fits f.shape then
    .error (.invalid f.name ("expecting " ++ f.shape.name ++ ", got " ++ v.describe))
  else if v = .textSet [] then .error (.invalid f.name "empty set")
  else
    match f.rule with
    | some rule => rule v
    | none => .ok ()

/-- Reads the binary form of a value of the field's shape. -/
def ofCbor (f : Field) (v : Cbor.Value) : Result Value :=
  match f.shape with
  | .uint => .uint <$> v.toUInt64 f.name
  | .int => .int <$> v.toInt64 f.name
  | .text => .text <$> v.toText f.name
  | .bytes => .bytes <$> v.toBytes f.name
  | .textSet => do return .textSet (← (← v.toArray f.name).mapM (·.toText f.name))
  | .uintOrBytes =>
    match v with
    | .bytes b => .ok (.bytes b)
    | v => .uint <$> v.toUInt64 f.name

/-- Reads the text form of a value of the field's shape. -/
def ofJson (f : Field) (v : Json.Value) : Result Value :=
  match f.shape with
  | .uint => .uint <$> v.toUInt64 f.name
  | .int => .int <$> v.toInt64 f.name
  | .text => .text <$> v.toText f.name
  | .bytes => .bytes <$> v.toBytes f.name
  | .textSet => do return .textSet (← (← v.toArray f.name).mapM (·.toText f.name))
  | .uintOrBytes =>
    match v with
    | .string s => .bytes <$> Json.octetsOf f.name s
    | v => .uint <$> v.toUInt64 f.name

end Field

/-- A value and the field it was set through. -/
structure Entry where
  field : Field
  value : Value

end Extension

open Extension (Field Value Entry)

/-- The extension values of one place, in the order of their keys. -/
structure Extensions where
  entries : List Entry
  ordered : entries.Pairwise fun d e => d.field.key < e.field.key

namespace Extensions

def empty : Extensions := ⟨[], .nil⟩

/-- Puts an entry in its place, replacing one of the same key. -/
def place (e : Entry) : List Entry → List Entry
  | [] => [e]
  | d :: r =>
    if e.field.key < d.field.key then e :: d :: r
    else if e.field.key = d.field.key then e :: r
    else d :: place e r

/-- What is placed among entries is one of them or the new one. -/
theorem mem_place {d e : Entry} {entries : List Entry} (h : d ∈ place e entries) :
    d = e ∨ d ∈ entries := by
  induction entries with
  | nil => simpa [place] using h
  | cons c r ih =>
    rw [place] at h
    split at h
    · simpa using h
    · split at h
      · rcases List.mem_cons.1 h with h | h
        · exact .inl h
        · exact .inr (List.mem_cons_of_mem _ h)
      · rcases List.mem_cons.1 h with h | h
        · exact .inr (h ▸ List.mem_cons_self)
        · exact (ih h).imp_right (List.mem_cons_of_mem _)

/-- Placing an entry keeps the order of the keys. -/
theorem place_ordered (e : Entry) {entries : List Entry}
    (h : entries.Pairwise fun d e => d.field.key < e.field.key) :
    (place e entries).Pairwise fun d e => d.field.key < e.field.key := by
  induction entries with
  | nil => exact List.pairwise_singleton _ _
  | cons d r ih =>
    obtain ⟨hd, hr⟩ := List.pairwise_cons.1 h
    rw [place]
    split
    · rename_i hlt
      refine List.pairwise_cons.2 ⟨fun c hc => ?_, h⟩
      rcases List.mem_cons.1 hc with rfl | hc
      · exact hlt
      · exact Int64.lt_trans hlt (hd c hc)
    · split
      · rename_i heq
        exact List.pairwise_cons.2 ⟨fun c hc => heq ▸ hd c hc, hr⟩
      · rename_i hnlt hne
        refine List.pairwise_cons.2 ⟨fun c hc => ?_, ih hr⟩
        rcases mem_place hc with rfl | hc
        · simp only [Int64.lt_iff_toInt_lt, ← Int64.toInt_inj] at hnlt hne ⊢
          omega
        · exact hd c hc

def insert (x : Extensions) (e : Entry) : Extensions := ⟨place e x.entries, place_ordered e x.ordered⟩

/-- Sets a field to a value that keeps its rule. -/
def set (x : Extensions) (f : Field) (v : Value) : Result Extensions := do
  f.check v
  return x.insert ⟨f, v⟩

/-- The value of a name; of several the one of the least key. -/
def get? (x : Extensions) (name : String) : Option Value :=
  (x.entries.find? (·.field.name == name)).map (·.value)

def getKey? (x : Extensions) (key : Int64) : Option Value :=
  (x.entries.find? (·.field.key == key)).map (·.value)

/-- Every value keeps its field's rule. -/
def validate (x : Extensions) : Result Unit :=
  x.entries.forM fun e => (e.field.check e.value).context ("extension " ++ e.field.name)

/-- Values agree when they stand under the same keys; the fields they were set through do not
count. -/
def agrees (x y : Extensions) : Bool :=
  (x.entries.map fun e => (e.field.key, e.value)) == y.entries.map fun e => (e.field.key, e.value)

instance : BEq Extensions := ⟨agrees⟩

instance : Inhabited Extensions := ⟨empty⟩

/-- The entries that the values add to a map. -/
def toCbor (x : Extensions) : Cbor.Entries :=
  Cbor.Entries.ofFields (x.entries.map fun e => (e.field.key, some e.value.toCbor))

/-- The members that the values add to an object. -/
def toJson (x : Extensions) : Json.Members :=
  Json.Members.ofList (x.entries.map fun e => (e.field.name, some e.value.toJson))

/-- The field of a schema that stands under a map key. -/
def fieldOfKey? (schema : List Field) (key : Cbor.Value) : Option Field :=
  key.toInt?.bind fun k => schema.find? (·.key.toInt == k)

/-- Reads the entry of a map key by a schema. -/
def readEntry (schema : List Field) (key value : Cbor.Value) : Result Entry :=
  match fieldOfKey? schema key with
  | some f => do return ⟨f, ← f.ofCbor value⟩
  | none => .error (.malformed "measurement values" ("unexpected key " ++ key.describeKey))

/-- Reads the entry of an object member by a schema. -/
def readMember (schema : List Field) (name : String) (value : Json.Value) : Result Entry :=
  match schema.find? (·.name == name) with
  | some f => do return ⟨f, ← f.ofJson value⟩
  | none => .error (.malformed "measurement values" ("unexpected member " ++ Text.quote name))

/-- Reads the entries of a map by a schema. -/
def ofCbor (schema : List Field) (entries : Cbor.Entries) : Result Extensions :=
  entries.foldlM (fun x e => return x.insert (← readEntry schema e.1 e.2)) empty

/-- Reads the members of an object by a schema. -/
def ofJson (schema : List Field) (members : Json.Members) : Result Extensions :=
  members.foldlM (fun x m => return x.insert (← readMember schema m.1 m.2)) empty

end Extensions

end Rim
