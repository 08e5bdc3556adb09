import Rim.Comid.Environment
import Rim.Comid.Measurement

/-!
# Triples

A triple ties an environment to the measurements it should have or to the keys it holds. A list of
triples that is empty is left out of either format.
-/

namespace Rim

/-- The measurements of an environment. -/
structure ValueTriple where
  environment : Environment
  measurements : List Measurement
deriving BEq

/-- The keys of an environment. -/
structure KeyTriple where
  environment : Environment
  keys : List Choice
deriving BEq

/-- The triples of a module tag. -/
structure Triples where
  referenceValues : List ValueTriple
  endorsedValues : List ValueTriple
  identityKeys : List KeyTriple
  attestKeys : List KeyTriple
deriving BEq

namespace ValueTriple

/-- The environment is valid, there is a measurement, and each one is valid. -/
def validate (t : ValueTriple) : Result Unit := do
  t.environment.validate.context "environment validation failed"
  if t.measurements.isEmpty then .error (.invalid "value triple" "no measurements")
  checkEach "measurement" Measurement.validate t.measurements

/-- The binary form: an array of environment and measurements. -/
def toCbor (t : ValueTriple) : Cbor.Value :=
  .array [t.environment.toCbor, .array (t.measurements.map Measurement.toCbor)]

def ofCbor (s : Scope) (v : Cbor.Value) : Result ValueTriple := do
  let (environment, measurements) ← v.toPair "value triple"
  let environment ← (Environment.ofCbor s.registry environment).context "environment"
  let measurements ← (← measurements.toArray "measurements").mapM (Measurement.ofCbor s)
  return ⟨environment, measurements⟩

def toJson (t : ValueTriple) : Json.Value :=
  .ofMemberList [("environment", some t.environment.toJson),
    ("measurements", some (.array (t.measurements.map Measurement.toJson)))]

def ofJson (s : Scope) (v : Json.Value) : Result ValueTriple :=
  v.readObject "value triple" do
    let environment ← Json.Remaining.requireWith "environment" fun v =>
      (Environment.ofJson s.registry v).context "environment"
    let measurements ← Json.Remaining.requireWith "measurements" fun v => do
      (← v.toArray "measurements").mapM (Measurement.ofJson s)
    return ⟨environment, measurements⟩

end ValueTriple

namespace KeyTriple

/-- The environment is valid, there is a key, and each one is valid. -/
def validate (t : KeyTriple) : Result Unit := do
  t.environment.validate.context "environment validation failed"
  if t.keys.isEmpty then .error (.invalid "key triple" "no keys")
  checkEach "key" Choice.validate t.keys

/-- The binary form: an array of environment and keys. -/
def toCbor (t : KeyTriple) : Cbor.Value :=
  .array [t.environment.toCbor, .array (t.keys.map Choice.toCbor)]

def ofCbor (r : ChoiceRegistry) (v : Cbor.Value) : Result KeyTriple := do
  let (environment, keys) ← v.toPair "key triple"
  let environment ← (Environment.ofCbor r environment).context "environment"
  let keys ← (← keys.toArray "keys").mapM r.ofCbor
  return ⟨environment, keys⟩

def toJson (t : KeyTriple) : Json.Value :=
  .ofMemberList [("environment", some t.environment.toJson),
    ("verification-keys", some (.array (t.keys.map Choice.toJson)))]

def ofJson (r : ChoiceRegistry) (v : Json.Value) : Result KeyTriple :=
  v.readObject "key triple" do
    let environment ← Json.Remaining.requireWith "environment" fun v =>
      (Environment.ofJson r v).context "environment"
    let keys ← Json.Remaining.requireWith "verification-keys" fun v => do
      (← v.toArray "verification-keys").mapM r.ofJson
    return ⟨environment, keys⟩

end KeyTriple

namespace Triples

def empty : Triples := ⟨[], [], [], []⟩

/-- Whether there are no triples. -/
def isEmpty (t : Triples) : Bool :=
  t.referenceValues.isEmpty && t.endorsedValues.isEmpty && t.identityKeys.isEmpty &&
    t.attestKeys.isEmpty

/-- There is a triple, and each one is valid. -/
def validate (t : Triples) : Result Unit := do
  if t.isEmpty then .error (.invalid "triples" "no triples")
  checkEach "reference value" ValueTriple.validate t.referenceValues
  checkEach "endorsed value" ValueTriple.validate t.endorsedValues
  checkEach "identity key" KeyTriple.validate t.identityKeys
  checkEach "attestation key" KeyTriple.validate t.attestKeys

def toCbor (t : Triples) : Cbor.Value :=
  .ofFields [(0, Cbor.arrayIfAny ValueTriple.toCbor t.referenceValues),
    (1, Cbor.arrayIfAny ValueTriple.toCbor t.endorsedValues),
    (2, Cbor.arrayIfAny KeyTriple.toCbor t.identityKeys),
    (3, Cbor.arrayIfAny KeyTriple.toCbor t.attestKeys)]

/-- Reads a list of triples under a key of the binary form. -/
def takeCbor {α : Type} (key : Int64) (what : String) (read : Cbor.Value → Result α) :
    Cbor.Taking (List α) := do
  let triples ← Cbor.Fields.takeWith key fun v => do
    readEach what read (← v.toArray what)
  return triples.getD []

def ofCbor (s : Scope) (v : Cbor.Value) : Result Triples :=
  v.readMap "triples" do
    let referenceValues ← takeCbor 0 "reference value" (ValueTriple.ofCbor s)
    let endorsedValues ← takeCbor 1 "endorsed value" (ValueTriple.ofCbor s)
    let identityKeys ← takeCbor 2 "identity key" (KeyTriple.ofCbor s.registry)
    let attestKeys ← takeCbor 3 "attestation key" (KeyTriple.ofCbor s.registry)
    return ⟨referenceValues, endorsedValues, identityKeys, attestKeys⟩

def toJson (t : Triples) : Json.Value :=
  .ofMemberList [("reference-values", Json.arrayIfAny ValueTriple.toJson t.referenceValues),
    ("endorsed-values", Json.arrayIfAny ValueTriple.toJson t.endorsedValues),
    ("dev-identity-keys", Json.arrayIfAny KeyTriple.toJson t.identityKeys),
    ("attester-verification-keys", Json.arrayIfAny KeyTriple.toJson t.attestKeys)]

/-- Reads a list of triples under a name of the text form. -/
def takeJson {α : Type} (name : String) (read : Json.Value → Result α) :
    Json.Taking (List α) := do
  let triples ← Json.Remaining.takeWith name fun v => do (← v.toArray name).mapM read
  return triples.getD []

def ofJson (s : Scope) (v : Json.Value) : Result Triples :=
  v.readObject "triples" do
    let referenceValues ← takeJson "reference-values" (ValueTriple.ofJson s)
    let endorsedValues ← takeJson "endorsed-values" (ValueTriple.ofJson s)
    let identityKeys ← takeJson "dev-identity-keys" (KeyTriple.ofJson s.registry)
    let attestKeys ← takeJson "attester-verification-keys" (KeyTriple.ofJson s.registry)
    return ⟨referenceValues, endorsedValues, identityKeys, attestKeys⟩

end Triples

end Rim
