import Rim.Cbor.Fields
import Rim.Json.Members
import Rim.Sequence

/-!
# Entities and their roles

An entity is somebody with at least one role. Manifests and module tags have the same entities with
roles of their own.
-/

namespace Rim

/-- A closed set of roles, each with a number and a name. -/
class RoleSet (ρ : Type) where
  number : ρ → UInt64
  name : ρ → String
  all : List ρ

namespace RoleSet

variable {ρ : Type} [RoleSet ρ]

def ofNumber? (n : UInt64) : Option ρ := (all : List ρ).find? fun r => number r == n

def ofName? (s : String) : Option ρ := (all : List ρ).find? fun r => name r == s

end RoleSet

/-- The roles of an entity of a manifest. -/
inductive ManifestRole
  | manifestCreator
deriving DecidableEq

instance : RoleSet ManifestRole where
  number | .manifestCreator => 1
  name | .manifestCreator => "manifestCreator"
  all := [.manifestCreator]

/-- The roles of an entity of a module tag. -/
inductive TagRole
  | tagCreator
  | creator
  | maintainer
deriving DecidableEq

instance : RoleSet TagRole where
  number
    | .tagCreator => 0
    | .creator => 1
    | .maintainer => 2
  name
    | .tagCreator => "tagCreator"
    | .creator => "creator"
    | .maintainer => "maintainer"
  all := [.tagCreator, .creator, .maintainer]

/-- Somebody with roles, and the URI of their registration. -/
structure Entity (ρ : Type) where
  name : String
  registration : Option String
  roles : List ρ
deriving DecidableEq

namespace Entity

variable {ρ : Type}

/-- Name and registration are not empty where set, and there is a role. -/
def validate (e : Entity ρ) : Result Unit :=
  if e.name = "" then .error (.invalid "entity" "empty entity-name")
  else if e.registration = some "" then .error (.invalid "entity" "empty reg-id")
  else if e.roles.isEmpty then .error (.invalid "entity" "empty roles")
  else .ok ()

def validateAll (es : List (Entity ρ)) : Result Unit := checkEach "entity" validate es

variable [RoleSet ρ]

def toCbor (e : Entity ρ) : Cbor.Value :=
  .ofFields [(0, some (.text e.name)), (1, e.registration.map .uri),
    (2, some (.array (e.roles.map fun r => .natural (RoleSet.number r))))]

/-- Reads the number of a role. -/
def roleOfCbor (v : Cbor.Value) : Result ρ := do
  let n ← v.toUInt64 "role"
  match RoleSet.ofNumber? n with
  | some r => return r
  | none => .error (.malformed "role" ("unknown role " ++ toString n.toNat))

def ofCbor (v : Cbor.Value) : Result (Entity ρ) :=
  v.readMap "entity" do
    let name ← Cbor.Fields.requireWith 0 "entity-name" (·.toText "entity-name")
    let registration ← Cbor.Fields.takeWith 1 (·.toUri "reg-id")
    let roles ← Cbor.Fields.requireWith 2 "roles" fun v => do
      (← v.toArray "roles").mapM roleOfCbor
    return ⟨name, registration, roles⟩

def toJson (e : Entity ρ) : Json.Value :=
  .ofMemberList [("name", some (.string e.name)), ("regid", e.registration.map .string),
    ("roles", some (.array (e.roles.map fun r => .string (RoleSet.name r))))]

/-- Reads the name of a role. -/
def roleOfJson (v : Json.Value) : Result ρ := do
  let s ← v.toText "role"
  match RoleSet.ofName? s with
  | some r => return r
  | none => .error (.malformed "role" ("unknown role " ++ Text.quote s))

def ofJson (v : Json.Value) : Result (Entity ρ) :=
  v.readObject "entity" do
    let name ← Json.Remaining.requireWith "name" (·.toText "entity name")
    let registration ← Json.Remaining.takeWith "regid" (·.toText "regid")
    let roles ← Json.Remaining.requireWith "roles" fun v => do
      (← v.toArray "roles").mapM roleOfJson
    return ⟨name, registration, roles⟩

end Entity

end Rim
