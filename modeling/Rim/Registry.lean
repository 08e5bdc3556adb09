import Rim.Cbor.Access
import Rim.Json.Members
import Rim.Table

/-!
# Registries of kinds

A registry says which tag and which type name select which reading, in one table for the tags and
one for the names. It only grows: an entry is added under a tag and a name that are both free, and is
never replaced or removed.

* `Registry.register`: adds a reading under a tag and a name.
* `Registry.registerKind`: adds a kind under its own tag and name; adding it again changes nothing.
* `Registry.ofCbor`, `Registry.ofJson`: read a value by its tag or type name and check it.
-/

namespace Rim

/-- How the values of one kind are read from the part of either format that belongs to them. -/
structure Reader (χ : Type) where
  ofCbor : Cbor.Value → Result χ
  ofJson : Json.Value → Result χ

/-- Kinds `κ` of values in `χ`: each with its tag, its name and its reading. -/
class KindFamily (κ : Type) (χ : outParam Type) where
  tag : κ → UInt64
  name : κ → String
  reader : κ → Reader χ

/-- Values that have a validity rule and can tell the name of their kind. -/
class Checkable (χ : Type) where
  typeName : χ → String
  validate : χ → Result Unit

/-- A tag and a name that select a reading; `owner` is the kind they belong to, if the entry was
made for a kind. The number under which an entry was made tells it from any other, however alike. -/
structure Entry (κ χ : Type) where
  serial : Nat
  tag : UInt64
  name : String
  reader : Reader χ
  owner : Option κ

/-- The entries made so far, under their tags and under their names. -/
structure Registry (κ χ : Type) where
  tags : Table UInt64 (Entry κ χ)
  names : Table String (Entry κ χ)

namespace Registry

variable {κ χ : Type} (r : Registry κ χ)

def empty : Registry κ χ := ⟨.empty, .empty⟩

def byTag? (tag : UInt64) : Option (Entry κ χ) := r.tags.get? tag

def byName? (name : String) : Option (Entry κ χ) := r.names.get? name

def nameOf? (tag : UInt64) : Option String := (r.byTag? tag).map (·.name)

def tagOf? (name : String) : Option UInt64 := (r.byName? name).map (·.tag)

def size : Nat := r.tags.size

def entries : List (Entry κ χ) := r.tags.values

/-- The entry that is made next. -/
def next (tag : UInt64) (name : String) (reader : Reader χ) (owner : Option κ) : Entry κ χ :=
  ⟨r.size, tag, name, reader, owner⟩

/-- Puts an entry under its tag and under its name. -/
def insert (e : Entry κ χ) : Registry κ χ := ⟨r.tags.set e.tag e, r.names.set e.name e⟩

/-- Makes an entry under a tag and a name that are free. -/
def add (tag : UInt64) (name : String) (reader : Reader χ) (owner : Option κ) :
    Result (Registry κ χ) :=
  match r.byTag? tag, r.byName? name with
  | none, none => .ok (r.insert (r.next tag name reader owner))
  | some _, _ => .error (.duplicateRegistration ("tag " ++ toString tag.toNat))
  | none, some _ => .error (.duplicateRegistration ("type name " ++ Text.quote name))

/-- Adds a reading under a tag and a name that are free. -/
def register (tag : UInt64) (name : String) (reader : Reader χ) : Result (Registry κ χ) :=
  r.add tag name reader none

/-- Whether one entry that was made for a kind stands under the kind's tag and under its name. -/
def holds [DecidableEq κ] [KindFamily κ χ] (k : κ) : Bool :=
  match r.byTag? (KindFamily.tag k), r.byName? (KindFamily.name k) with
  | some d, some e => decide (d.owner = some k) && d.serial == e.serial
  | _, _ => false

/-- Adds a kind under its own tag and name, unless it already has its entry. -/
def registerKind [DecidableEq κ] [KindFamily κ χ] (k : κ) : Result (Registry κ χ) :=
  if r.holds k then .ok r
  else r.add (KindFamily.tag k) (KindFamily.name k) (KindFamily.reader k) (some k)

/-- Adds kinds one after the other up to the first failure: the registry that is left, and the
failure if there was one. -/
def registerKinds [DecidableEq κ] [KindFamily κ χ] (r : Registry κ χ) :
    List κ → Registry κ χ × Option Error
  | [] => (r, none)
  | k :: ks =>
    match r.registerKind k with
    | .ok r => registerKinds r ks
    | .error e => (r, some e)

/-- The reading that a tag selects. -/
def readerOfTag (tag : UInt64) : Result (Reader χ) :=
  match r.byTag? tag with
  | some e => .ok e.reader
  | none => .error (.unknownTypeChoice ("tag " ++ toString tag.toNat))

/-- The reading that a name selects. -/
def readerOfName (name : String) : Result (Reader χ) :=
  match r.byName? name with
  | some e => .ok e.reader
  | none => .error (.unknownTypeChoice ("type " ++ Text.quote name))

/-- Reads what stands under a tag, valid or not. -/
def readTagged (tag : UInt64) (body : Cbor.Value) : Result χ := do
  (← r.readerOfTag tag).ofCbor body

/-- Reads what stands beside a type name, valid or not. -/
def readNamed (name : String) (value : Json.Value) : Result χ := do
  (← r.readerOfName name).ofJson value

/-- A value that has to be valid. -/
def checked [Checkable χ] (x : χ) : Result χ := do
  (Checkable.validate x).context ("validating " ++ Checkable.typeName x)
  return x

/-- Reads a tagged value and checks it. -/
def ofCbor [Checkable χ] (v : Cbor.Value) : Result χ :=
  match v with
  | .tag tag body => do checked (← r.readTagged tag body)
  | v => .error (v.wrongKind "type choice" "tagged value")

/-- Reads a typed value and checks it. -/
def ofJson [Checkable χ] (v : Json.Value) : Result χ := do
  let (name, value) ← v.untyped
  checked (← r.readNamed name value)

def sortedNames : List String := (r.names.entries.map (·.1)).mergeSort (fun a b => a ≤ b)

/-- The names of the entries, as a registry is described. -/
def describe : String :=
  "TypeChoiceRegistry \x7b entries: " ++ Text.bracketed (r.sortedNames.map Text.quote) ++ " \x7d"

end Registry

end Rim
