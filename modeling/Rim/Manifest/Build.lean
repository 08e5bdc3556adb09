import Rim.Manifest
import Rim.Manifest.Meta
import Rim.Staged

/-!
# Building manifests and signer metadata

A manifest or metadata is built from a list of parts. Each part is checked when it is put in; the
first one that fails decides, and a manifest as a whole is checked at the end.

* `Manifest.build`, `Meta.build`: the thing built, or why there is none.
-/

namespace Rim

open Staged (Setter)

/-- A part of a manifest. -/
inductive ManifestPart
  | id (i : Identifier)
  | comid (c : Comid)
  | opaqueTag (b : Bytes)
  | dependent (l : Locator)
  | profile (i : ProfileId)
  | validity (v : Validity)
  | entity (e : Entity ManifestRole)

namespace ManifestPart

/-- What an error calls a part. -/
def label : ManifestPart → String
  | id _ => "corim-id"
  | comid _ | opaqueTag _ => "tag"
  | dependent _ => "dependent RIM"
  | profile _ => "profile"
  | validity _ => "validity"
  | entity _ => "entity"

/-- What is asked of a part. -/
def check : ManifestPart → Result Unit
  | id i => i.validate
  | comid c => c.validate.context "adding CoMID"
  | opaqueTag b => (EmbeddedTag.opaqueOctets b).validate
  | dependent l => l.validate
  | profile i => i.validate
  | validity v => v.validate
  | entity e => e.validate

/-- The manifest with a part in it. -/
def set (p : ManifestPart) (m : Manifest) : Manifest :=
  match p with
  | id i => { m with id := i }
  | comid c => { m with tags := m.tags ++ [.comid c] }
  | opaqueTag b => { m with tags := m.tags ++ [.opaqueOctets b] }
  | dependent l => { m with dependents := m.dependents ++ [l] }
  | profile i => { m with profile := some i }
  | validity v => { m with validity := some v }
  | entity e => { m with entities := m.entities ++ [e] }

def put (p : ManifestPart) : Setter Manifest := .checked p.check p.set

def step (p : ManifestPart) : Staged.Step Manifest := .apply p.label p.put

end ManifestPart

/-- A manifest that nothing is set in; the identifier is not valid. -/
def Manifest.blank : Manifest := ⟨.text "", [], [], none, none, []⟩

/-- The manifest of some parts; without an identifier it is not valid. -/
def Manifest.build (parts : List ManifestPart) : Result Manifest := do
  let m ← (Staged.run ⟨.blank, none⟩ (parts.map ManifestPart.step)).finish
  Document.check m
  return m

/-- The manifest of some parts under a profile. -/
def Manifest.buildFor (p : Profile) (parts : List ManifestPart) : Result Manifest :=
  Manifest.build (.profile p.id :: parts)

/-- A part of signer metadata. -/
inductive MetaPart
  | uri (s : String)
  | validity (v : Validity)

namespace MetaPart

/-- What an error calls a part. -/
def label : MetaPart → String
  | uri _ => "signer URI"
  | validity _ => "validity"

/-- What is asked of a part. -/
def check : MetaPart → Result Unit
  | uri s => if s = "" then .error (.invalid "signer" "empty URI") else .ok ()
  | validity v => v.validate

/-- The metadata with a part in it. -/
def set (p : MetaPart) (m : Meta) : Meta :=
  match p with
  | uri s => { m with signer := { m.signer with uri := some s } }
  | validity v => { m with validity := some v }

/-- A URI is checked together with the signer that it stands in, and a window before. -/
def put : MetaPart → Setter Meta
  | p@(uri _) => .thenCheck p.set fun m => m.signer.validate
  | p => .checked p.check p.set

def step (p : MetaPart) : Staged.Step Meta := .apply p.label p.put

end MetaPart

/-- The metadata of a signer who has a name only. -/
def Meta.named (name : String) : Meta := ⟨⟨name, none⟩, none⟩

/-- The metadata of a signer's name and some parts. -/
def Meta.build (name : String) (parts : List MetaPart) : Result Meta :=
  let start : Staged.Step Meta := .apply "signer" (.thenCheck id fun m => m.signer.validate)
  (Staged.run ⟨.named name, none⟩ (start :: parts.map MetaPart.step)).finish

end Rim
