import Rim.Profile

/-!
# Catalogues of profiles

A catalogue holds the known kinds and the registered profiles. Registering a profile first adds its
kinds one by one; where one of them fails the kinds before it stay and the profile is not recorded.

* `Catalogue.register`: registers a profile.
* `Catalogue.scope`: what a document that names a profile is read with.
-/

namespace Rim

/-- The known kinds and the registered profiles, these under their identifiers. -/
structure Catalogue (κ : Type := Kind) (χ : Type := Choice) where
  registry : Registry κ χ
  profiles : Table ProfileId (Profile κ)

namespace Catalogue

/-- The kinds that are always known, and no profile. -/
def initial : Catalogue := ⟨ChoiceRegistry.builtin, .empty⟩

section

variable {κ χ : Type}

/-- The registered profile of an identifier. -/
def profile? (c : Catalogue κ χ) (id : ProfileId) : Option (Profile κ) := c.profiles.get? id

/-- The registered profile of an identifier's text. -/
def profileOfText? (c : Catalogue κ χ) (text : String) : Option (Profile κ) :=
  match ProfileId.parse text with
  | .ok id => c.profile? id
  | .error _ => none

def registering (p : Profile κ) : String := "registering profile " ++ p.id.toText

/-- Whether a profile may be registered, and why not. -/
def admission (c : Catalogue κ χ) (p : Profile κ) : Result Unit := do
  p.check.context (registering p)
  if (c.profile? p.id).isSome then
    .error (.duplicateRegistration ("profile " ++ p.id.toText))

variable [DecidableEq κ] [KindFamily κ χ]

/-- Registers a profile whose kinds go to a registry of its own: that registry and the catalogue
afterwards, and the failure if there was one. -/
def registerIn (c : Catalogue κ χ) (r : Registry κ χ) (p : Profile κ) :
    Registry κ χ × Catalogue κ χ × Option Error :=
  match c.admission p with
  | .error e => (r, c, some e)
  | .ok () =>
    -- kinds that were added before a failure stay, the profile is not added
    match r.registerKinds p.kinds with
    | (r, some e) => (r, c, some (.context (registering p) e))
    | (r, none) => (r, { c with profiles := c.profiles.set p.id p }, none)

/-- Registers a profile: the catalogue afterwards, and the failure if there was one. -/
def register (c : Catalogue κ χ) (p : Profile κ) : Catalogue κ χ × Option Error :=
  let (registry, after, failure) := c.registerIn c.registry p
  ({ after with registry := registry }, failure)

end

/-- What a document is read with that names a profile, or none. A profile that is not registered
counts as none. -/
def scope (c : Catalogue) (id : Option ProfileId) : Scope := ⟨c.registry, id.bind c.profile?⟩

/-- What a document is read with that names no profile. -/
def core (c : Catalogue) : Scope := ⟨c.registry, none⟩

end Catalogue

end Rim
