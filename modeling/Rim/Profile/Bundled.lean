import Rim.Profile.Catalogue

/-!
# Bundled profiles

The PSA profile, which adds two kinds of identifiers, and the TDX profile, which adds fields to
measurement values. Each one is registered at most once, when it is first asked for.

* `Bundle.ensure`: registers a bundled profile unless that was done before.
-/

namespace Rim

namespace Psa

def profileId : ProfileId := .uri "http://arm.com/psa/iot/1"

def profile : Profile := ⟨profileId, [.implementationId, .referenceValueId], []⟩

end Psa

namespace Tdx

open Extension (Field Value)

def profileId : ProfileId := .uri "http://intel.com/tdx-profile"

def nonEmptyText (v : Value) : Result Unit :=
  if v.text? = some "" then .error (.invalid "pceid" "empty") else .ok ()

/-- An octet string is not empty. -/
def nonEmptyBytes (v : Value) : Result Unit :=
  if v.bytes? = some [] then .error (.invalid "miscselect" "zero length") else .ok ()

/-- The extension fields of the TDX profile. -/
def fields : List Field :=
  [⟨-77, "instanceid", .uint, none⟩, ⟨-80, "pceid", .text, some nonEmptyText⟩,
   ⟨-81, "miscselect", .bytes, some nonEmptyBytes⟩, ⟨-85, "isvprodid", .uintOrBytes, none⟩,
   ⟨-88, "tcbstatus", .textSet, none⟩, ⟨-89, "advisoryids", .textSet, none⟩]

def profile : Profile := ⟨profileId, [], fields⟩

end Tdx

/-- A catalogue, and the bundled profiles that were registered in it. -/
structure Bundle where
  catalogue : Catalogue
  ready : List ProfileId

namespace Bundle

/-- The initial catalogue, and no bundled profile. -/
def initial : Bundle := ⟨Catalogue.initial, []⟩

/-- Registers a bundled profile unless that was done before. -/
def ensure (b : Bundle) (p : Profile) : Bundle × Option Error :=
  if p.id ∈ b.ready then (b, none)
  else
    match b.catalogue.register p with
    | (c, none) => (⟨c, p.id :: b.ready⟩, none)
    | (c, some e) => ({ b with catalogue := c }, some e)

/-- Registers all bundled profiles, up to the first failure. -/
def ensureAll (b : Bundle) : Bundle × Option Error :=
  match b.ensure Psa.profile with
  | (b, none) => b.ensure Tdx.profile
  | failed => failed

end Bundle

namespace Catalogue

/-- The catalogue with all bundled profiles. -/
def bundled : Catalogue := Bundle.initial.ensureAll.1.catalogue

end Catalogue

end Rim
