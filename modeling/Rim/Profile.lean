import Rim.Choice.Registry
import Rim.Profile.Extension
import Rim.Profile.Id

/-!
# Profiles

A profile names the kinds of type choices and the extension fields that one ecosystem adds.

* `Profile.check`: the rule that a profile keeps before it can be registered.
* `Scope`: what a document is read with, the known kinds and the active profile.
-/

namespace Rim

/-- The keys of the core fields of measurement values lie between these. -/
def coreKeys : Int64 × Int64 := (0, 11)

/-- The member names of the core fields of measurement values. -/
def coreMembers : List String :=
  ["version", "svn", "digests", "raw-value", "raw-value-mask", "serial-number", "ueid", "uuid",
   "name"]

/-- A profile: its identifier, the kinds it adds and the extension fields it adds. -/
structure Profile (κ : Type := Kind) where
  id : ProfileId
  kinds : List κ
  fields : List Extension.Field

namespace Profile

variable {κ : Type}

def field? (p : Profile κ) (name : String) : Option Extension.Field :=
  p.fields.find? (·.name == name)

/-- How a profile is described. -/
def describe (p : Profile κ) : String :=
  "Profile \x7b id: " ++ p.id.describe ++ ", type_choices: " ++ toString p.kinds.length ++
    ", extensions: " ++ Text.bracketed (p.fields.map Extension.Field.describe) ++ " \x7d"

/-- A field has a key and a name that neither the core fields nor the fields before it have. -/
def checkField (before : List Extension.Field) (f : Extension.Field) : Result Unit :=
  if coreKeys.1 ≤ f.key ∧ f.key ≤ coreKeys.2 then
    .error (.invalid "profile"
      ("extension " ++ f.name ++ " reuses core key " ++ toString f.key.toInt))
  else if f.name ∈ coreMembers then
    .error (.invalid "profile" ("extension " ++ f.name ++ " reuses a core member name"))
  else if before.any fun g => g.key == f.key || g.name == f.name then
    .error (.duplicateRegistration
      ("extension " ++ f.name ++ " (" ++ toString f.key.toInt ++ ")"))
  else .ok ()

/-- Checks fields one after the other, each against the ones before it. -/
def checkFields (before : List Extension.Field) : List Extension.Field → Result Unit
  | [] => .ok ()
  | f :: r => do
    checkField before f
    checkFields (before ++ [f]) r

/-- The identifier is valid, and so is each field. -/
def check (p : Profile κ) : Result Unit := do
  p.id.validate
  checkFields [] p.fields

end Profile

/-- What a document is read with: the kinds that are known and the profile that is active. -/
structure Scope where
  registry : ChoiceRegistry
  profile : Option Profile

namespace Scope

/-- The extension fields that measurement values may have. -/
def fields (s : Scope) : List Extension.Field :=
  match s.profile with
  | some p => p.fields
  | none => []

end Scope

end Rim
