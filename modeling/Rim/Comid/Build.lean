import Rim.Comid
import Rim.Staged

/-!
# Building measurements and module tags

A measurement or a tag is built from a list of parts. Each part is checked when it is put in; the
first one that fails decides, and the whole is checked at the end.

* `Measurement.build`, `Comid.build`: the thing built, or why there is none.
-/

namespace Rim

open Staged (Setter)

/-- A part of a measurement. -/
inductive MeasurementPart
  | key (c : Choice)
  | version (v : Version)
  | svn (n : UInt64)
  | minSvn (n : UInt64)
  | digest (d : Digest)
  | rawValue (b : Bytes)
  | maskedRawValue (v : MaskedValue)
  | serialNumber (s : String)
  | ueid (u : Ueid)
  | uuid (u : Uuid)
  | name (s : String)
  | extension (f : Extension.Field) (v : Extension.Value)

namespace MeasurementPart

/-- What an error calls a part. -/
def label : MeasurementPart → String
  | key _ => "measurement key"
  | version _ => "version"
  | svn _ => "svn"
  | minSvn _ => "min-svn"
  | digest _ => "digest"
  | rawValue _ => "raw value"
  | maskedRawValue _ => "masked raw value"
  | serialNumber _ => "serial number"
  | ueid _ => "ueid"
  | uuid _ => "uuid"
  | name _ => "name"
  | extension f _ => f.name

/-- What is asked of a part. -/
def check : MeasurementPart → Result Unit
  | key c => c.check
  | version v => v.validate
  | svn n => (Choice.svn n).check
  | minSvn n => (Choice.minSvn n).check
  | digest d => d.validate
  | rawValue b => (Choice.bytes b).check
  | maskedRawValue v => (Choice.masked v).check
  | serialNumber s => MeasurementValues.checkText "serial number" (some s)
  | ueid u => u.validate
  | uuid u => u.validate
  | name s => MeasurementValues.checkText "name" (some s)
  | extension f v => f.check v

/-- The values with a part among them; a key is none of them. -/
def setValues (v : MeasurementValues) : MeasurementPart → MeasurementValues
  | key _ => v
  | version x => { v with version := some x }
  | svn n => { v with svn := some (.svn n) }
  | minSvn n => { v with svn := some (.minSvn n) }
  | digest d => { v with digests := some (v.digests.getD [] ++ [d]) }
  | rawValue b => { v with rawValue := some (.bytes b) }
  | maskedRawValue x => { v with rawValue := some (.masked x) }
  | serialNumber s => { v with serialNumber := some s }
  | ueid u => { v with ueid := some u }
  | uuid u => { v with uuid := some u }
  | name s => { v with name := some s }
  | extension f x => { v with extensions := v.extensions.insert ⟨f, x⟩ }

/-- The measurement with a part in it. -/
def set (p : MeasurementPart) (m : Measurement) : Measurement :=
  match p with
  | key c => { m with key := some c }
  | p => { m with values := p.setValues m.values }

/-- Texts are checked when they stand in the measurement, and all other parts before; an extension
value is set by its field. -/
def put : MeasurementPart → Setter Measurement
  | p@(serialNumber _) =>
    .thenCheck p.set fun m => MeasurementValues.checkText "serial number" m.values.serialNumber
  | p@(name _) => .thenCheck p.set fun m => MeasurementValues.checkText "name" m.values.name
  | extension f x => .ofResult fun m => do
    return { m with values := { m.values with extensions := ← m.values.extensions.set f x } }
  | p => .checked p.check p.set

def step (p : MeasurementPart) : Staged.Step Measurement := .apply p.label p.put

end MeasurementPart

/-- A measurement that nothing is set in. -/
def Measurement.empty : Measurement := ⟨none, .empty⟩

def Measurement.build (parts : List MeasurementPart) : Result Measurement := do
  let m ← (Staged.run ⟨.empty, none⟩ (parts.map MeasurementPart.step)).finish
  m.validate
  return m

/-- A part of a module tag. -/
inductive ComidPart
  | language (s : String)
  | id (i : Identifier)
  | version (n : UInt64)
  | entity (e : Entity TagRole)
  | referenceValue (e : Environment) (m : Measurement)
  | endorsedValue (e : Environment) (m : Measurement)
  | identityKey (e : Environment) (keys : List Choice)
  | attestKey (e : Environment) (keys : List Choice)

namespace ComidPart

/-- What an error calls a part. -/
def label : ComidPart → String
  | language _ => "language"
  | id _ => "tag-id"
  | version _ => "tag-version"
  | entity _ => "entity"
  | referenceValue _ _ => "reference value"
  | endorsedValue _ _ => "endorsed value"
  | identityKey _ _ => "identity key"
  | attestKey _ _ => "attestation key"

/-- What is asked of a part. -/
def check : ComidPart → Result Unit
  | language s => if s = "" then .error (.invalid "comid" "empty language") else .ok ()
  | id i => i.validate
  | version _ => .ok ()
  | entity e => e.validate
  | referenceValue e m | endorsedValue e m => (ValueTriple.mk e [m]).validate
  | identityKey e keys | attestKey e keys => (KeyTriple.mk e keys).validate

/-- The triples with a part among them, if it is a triple. -/
def setTriples (t : Triples) : ComidPart → Triples
  | referenceValue e m => { t with referenceValues := t.referenceValues ++ [⟨e, [m]⟩] }
  | endorsedValue e m => { t with endorsedValues := t.endorsedValues ++ [⟨e, [m]⟩] }
  | identityKey e keys => { t with identityKeys := t.identityKeys ++ [⟨e, keys⟩] }
  | attestKey e keys => { t with attestKeys := t.attestKeys ++ [⟨e, keys⟩] }
  | _ => t

/-- The tag with a part in it. -/
def set (p : ComidPart) (c : Comid) : Comid :=
  match p with
  | language s => { c with language := some s }
  | id i => { c with identity := { c.identity with id := i } }
  | version n => { c with identity := { c.identity with version := some n } }
  | entity e => { c with entities := c.entities ++ [e] }
  | p => { c with triples := p.setTriples c.triples }

def put (p : ComidPart) : Setter Comid := .checked p.check p.set

def step (p : ComidPart) : Staged.Step Comid := .apply p.label p.put

end ComidPart

/-- A tag that nothing is set in; the identifier is not valid. -/
def Comid.blank : Comid := ⟨none, ⟨.text "", none⟩, [], .empty⟩

/-- The module tag of some parts; without an identifier it is not valid. -/
def Comid.build (parts : List ComidPart) : Result Comid := do
  let c ← (Staged.run ⟨.blank, none⟩ (parts.map ComidPart.step)).finish
  Document.check c
  return c

end Rim
