import Rim.Bytes
import Rim.Keyed
import Rim.Number.Binary

/-!
# The binary data model

A value of the binary format, and the form it is written in: minimal heads, definite lengths, map
entries in the order they are held, and a float in the least width that keeps its value.

* `Value.encode`: the written form.
* `Value.compare`: the order of map keys: by major type, then by length or magnitude, then by
  content.
* `Value.normal`: every map inside put in key order, of equal keys the last one's value.
-/

namespace Rim.Cbor

/-- A data item; `negative n` stands for `-1 - n`. -/
inductive Value
  | natural (n : UInt64)
  | negative (n : UInt64)
  | bytes (b : Bytes)
  | text (s : String)
  | array (items : List Value)
  | map (entries : List (Value × Value))
  | tag (number : UInt64) (body : Value)
  | float (bits : UInt64)
  | bool (b : Bool)
  | null
deriving Inhabited, Repr

/-- The entries of a map in the order they are held. -/
abbrev Entries := List (Value × Value)

/-- The head of an item: its major type and the shortest form of its argument. -/
def head (major n : Nat) : Bytes :=
  if n < 24 then [UInt8.ofNat (major * 32 + n)]
  else if n < 2 ^ 8 then UInt8.ofNat (major * 32 + 24) :: Bytes.ofNatBE 1 n
  else if n < 2 ^ 16 then UInt8.ofNat (major * 32 + 25) :: Bytes.ofNatBE 2 n
  else if n < 2 ^ 32 then UInt8.ofNat (major * 32 + 26) :: Bytes.ofNatBE 4 n
  else UInt8.ofNat (major * 32 + 27) :: Bytes.ofNatBE 8 n

/-- A float in the least width that keeps its value; an undefined number has one form. -/
def encodeFloat (bits : UInt64) : Bytes :=
  match Number.binary64.decode bits.toNat with
  | .undefined _ _ => [0xf9, 0x7e, 0x00]
  | .infinite negative => [0xf9, if negative then 0xfc else 0x7c, 0x00]
  | .finite _ _ _ =>
    match Number.binary32.narrow? bits with
    | none => 0xfb :: Bytes.ofNatBE 8 bits.toNat
    | some single =>
      match Number.binary16.narrow? bits with
      | some half => 0xf9 :: Bytes.ofNatBE 2 half
      | none => 0xfa :: Bytes.ofNatBE 4 single

namespace Value

mutual

/-- The written form of a value. -/
def encode : Value → Bytes
  | natural n => head 0 n.toNat
  | negative n => head 1 n.toNat
  | bytes b => head 2 b.length ++ b
  | text s => head 3 s.utf8ByteSize ++ Bytes.ofText s
  | array items => head 4 items.length ++ encodeItems items
  | map entries => head 5 entries.length ++ encodeEntries entries
  | tag number body => head 6 number.toNat ++ encode body
  | float bits => encodeFloat bits
  | bool false => [0xf4]
  | bool true => [0xf5]
  | null => [0xf6]

/-- The written forms of items, one after the other. -/
def encodeItems : List Value → Bytes
  | [] => []
  | v :: r => encode v ++ encodeItems r

/-- The written forms of entries, each key before its value. -/
def encodeEntries : List (Value × Value) → Bytes
  | [] => []
  | (k, v) :: r => encode k ++ encode v ++ encodeEntries r

end

/-- The major type of a value's head. -/
def major : Value → Nat
  | natural _ => 0
  | negative _ => 1
  | bytes _ => 2
  | text _ => 3
  | array _ => 4
  | map _ => 5
  | tag _ _ => 6
  | float _ | bool _ | null => 7

/-- The order of map keys. -/
def compare (a b : Value) : Ordering :=
  match a, b with
  | natural m, natural n | negative m, negative n => Ord.compare m.toNat n.toNat
  | bytes x, bytes y => (Ord.compare x.length y.length).then (Bytes.compare x y)
  | text s, text t =>
    (Ord.compare s.utf8ByteSize t.utf8ByteSize).then
      (Bytes.compare (Bytes.ofText s) (Bytes.ofText t))
  | array x, array y =>
    (Ord.compare x.length y.length).then (Bytes.compare a.encode b.encode)
  | map x, map y =>
    (Ord.compare x.length y.length).then (Bytes.compare a.encode b.encode)
  | _, _ => (Ord.compare a.major b.major).then (Bytes.compare a.encode b.encode)

instance : Ord Value := ⟨compare⟩

/-- Entries in key order; of equal keys the last one's value. -/
def ofEntries (entries : Entries) : Entries := Keyed.ofList entries

mutual

/-- The value with every map in it in key order. -/
def normal : Value → Value
  | array items => array (normalItems items)
  | map entries => map (ofEntries (normalEntries entries))
  | tag number body => tag number (normal body)
  | v => v

/-- Each item with its maps in key order. -/
def normalItems : List Value → List Value
  | [] => []
  | v :: r => normal v :: normalItems r

/-- Each key and value with its maps in key order. -/
def normalEntries : List (Value × Value) → List (Value × Value)
  | [] => []
  | (k, v) :: r => (normal k, normal v) :: normalEntries r

end

/-- The integer an item stands for, if it stands for one. -/
def toInt? : Value → Option Int
  | natural n => some n.toNat
  | negative n => some (-1 - n.toNat)
  | _ => none

/-- The item that stands for a 64-bit signed number. -/
def ofInt64 (n : Int64) : Value :=
  if 0 ≤ n.toInt then natural (UInt64.ofNat n.toInt.toNat)
  else negative (UInt64.ofNat (-1 - n.toInt).toNat)

/-- What a message calls the kind of a value. -/
def kindName : Value → String
  | null => "null"
  | bool _ => "bool"
  | natural _ | negative _ => "integer"
  | float _ => "float"
  | bytes _ => "byte string"
  | text _ => "text string"
  | array _ => "array"
  | map _ => "map"
  | tag _ _ => "tagged value"

end Value

end Rim.Cbor
