import Rim.Json.Access

/-!
# Objects

An object is read by taking its members one by one, after which nothing may be left, and written by
setting its members one by one, absent ones not at all.

* `Remaining`: what is left of an object that is being read.
* `Value.readObject`: reads a whole object; a member that nothing took is refused.
* `Value.ofMemberList`: writes an object.
-/

namespace Rim.Json

/-- The members of an object not yet taken, and what the object is. -/
abbrev Remaining := Unread String Value

abbrev Taking := Unread.Taking String Value

namespace Members

def get? (name : String) (members : Members) : Option Value := Keyed.get? name members

def set (members : Members) (name : String) (value : Value) : Members :=
  Keyed.insert name value members

def merge (members others : Members) : Members := Keyed.merge members others

/-- The members of a list, leaving out those without a value. -/
def ofList (members : List (String × Option Value)) : Members := Keyed.ofFields members

end Members

namespace Remaining

/-- The members of an object value. -/
def ofValue (what : String) : Value → Result Remaining
  | .object members => .ok ⟨what, members⟩
  | v => .error (v.wrongKind what "object")

abbrev take (name : String) : Taking (Option Value) := Unread.take name

abbrev require (name : String) : Taking Value := Unread.require name name

abbrev takeWith {α : Type} (name : String) (read : Value → Result α) : Taking (Option α) :=
  Unread.takeWith name read

abbrev requireWith {α : Type} (name : String) (read : Value → Result α) : Taking α :=
  Unread.requireWith name name read

abbrev takeRest : Taking Members := Unread.takeRest

def unexpected (name : String) : String := "member " ++ Text.quote name

abbrev finish : Taking Unit := Unread.finish unexpected

end Remaining

/-- The object of a list of members, leaving out those without a value. -/
def Value.ofMemberList (members : List (String × Option Value)) : Value :=
  .object (Members.ofList members)

/-- The array of a list's members, unless there are none. -/
def arrayIfAny {α : Type} (encode : α → Value) (xs : List α) : Option Value :=
  if xs.isEmpty then none else some (.array (xs.map encode))

def Value.readObject {α : Type} (what : String) (v : Value) (body : Taking α) : Result α := do
  Unread.readAll Remaining.unexpected body (← Remaining.ofValue what v)

/-- The type name and value of a typed value. -/
def Value.untyped (v : Value) : Result (String × Value) :=
  v.readObject "type choice" do
    let type ← Remaining.requireWith "type" (Value.toText "type choice type")
    let value ← Remaining.require "value"
    return (type, value)

end Rim.Json
