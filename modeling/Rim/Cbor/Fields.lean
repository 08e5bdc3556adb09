import Rim.Cbor.Access

/-!
# Maps with integer keys

A map is read by taking its fields one by one, after which nothing may be left, and written by
setting its fields one by one, absent ones not at all.

* `Fields`: what is left of a map that is being read.
* `Value.readMap`: reads a whole map; a field that nothing took is refused.
* `Entries.set`, `Entries.merge`, `Entries.ofFields`: write a map.
-/

namespace Rim.Cbor

/-- The fields of a map not yet taken, and what the map is. -/
abbrev Fields := Unread Value Value

abbrev Taking := Unread.Taking Value Value

namespace Entries

/-- The entries with an integer key set. -/
def set (entries : Entries) (key : Int64) (value : Value) : Entries :=
  Keyed.insert (Value.ofInt64 key) value entries

def merge (entries others : Entries) : Entries := Keyed.merge entries others

/-- The entries of fields with integer keys, leaving out those without a value. -/
def ofFields (fields : List (Int64 × Option Value)) : Entries :=
  Keyed.ofFields (fields.map fun f => (Value.ofInt64 f.1, f.2))

end Entries

namespace Fields

/-- The fields of a map value. -/
def ofValue (what : String) : Value → Result Fields
  | .map entries => .ok ⟨what, entries⟩
  | v => .error (v.wrongKind what "map")

/-- Takes the value of an integer key, if it is there. -/
abbrev take (key : Int64) : Taking (Option Value) := Unread.take (Value.ofInt64 key)

/-- Takes the value of an integer key that has to be there. -/
abbrev require (key : Int64) (field : String) : Taking Value :=
  Unread.require (Value.ofInt64 key) field

/-- Takes the value of an integer key, if it is there, and reads it. -/
abbrev takeWith {α : Type} (key : Int64) (read : Value → Result α) : Taking (Option α) :=
  Unread.takeWith (Value.ofInt64 key) read

/-- Takes the value of an integer key that has to be there, and reads it. -/
abbrev requireWith {α : Type} (key : Int64) (field : String) (read : Value → Result α) :
    Taking α :=
  Unread.requireWith (Value.ofInt64 key) field read

abbrev takeRest : Taking Entries := Unread.takeRest

def unexpected (key : Value) : String := "key " ++ key.describeKey

abbrev finish : Taking Unit := Unread.finish unexpected

end Fields

/-- The map of fields with integer keys, leaving out those without a value. -/
def Value.ofFields (fields : List (Int64 × Option Value)) : Value := .map (Entries.ofFields fields)

/-- The array of a list's members, unless there are none. -/
def arrayIfAny {α : Type} (encode : α → Value) (xs : List α) : Option Value :=
  if xs.isEmpty then none else some (.array (xs.map encode))

def Value.readMap {α : Type} (what : String) (v : Value) (body : Taking α) : Result α := do
  Unread.readAll Fields.unexpected body (← Fields.ofValue what v)

end Rim.Cbor
