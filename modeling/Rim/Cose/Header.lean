import Rim.Cbor.Parser
import Rim.Cose.Registered
import Rim.Text.Blank

/-!
# Headers of signed objects

A header is a map whose keys are labels, no label twice. The parameters with the least labels have
rules of their own; the others are kept as they are. A header may carry further signatures, which
have headers themselves.

* `Header.ofValue?`, `Header.ofOctets?`: the header that a value or a byte string holds.
-/

namespace Rim.Cose

open Cbor (Value)

/-- The reading of signed objects. -/
def envelopes : Cbor.Dialect := ⟨256, true, true, true⟩

/-- A label of a header parameter. -/
inductive Label
  | number (n : Int)
  | text (s : String)
deriving DecidableEq

/-- What a header says of the algorithm. -/
inductive AlgorithmLabel
  | number (n : Int)
  | text (s : String)
deriving DecidableEq

/-- What a header says of the content. -/
inductive ContentType
  | text (s : String)
  | format (name : String)
deriving DecidableEq

/-- The parameters of a header. -/
structure Header where
  algorithm : Option AlgorithmLabel
  contentType : Option ContentType
  keyId : Bytes
  iv : Bytes
  partialIv : Bytes
  rest : List (Label × Value)

/-- The number of an item in the signed 64-bit range. -/
def number? (v : Value) : Option Int := do
  let n ← v.toInt?
  if -2 ^ 63 ≤ n ∧ n < 2 ^ 63 then some n else none

/-- The label that an item is. -/
def label? : Value → Option Label
  | .text s => some (.text s)
  | v => (number? v).map .number

/-- The algorithm that an item names: in words, or by a registered or private number. -/
def algorithm? : Value → Option AlgorithmLabel
  | .text s => some (.text s)
  | v => do
    let n ← number? v
    if isAlgorithm n ∨ n < privateAlgorithms then some (.number n) else none

/-- A media type: two parts around one slash, and no blank at either end. -/
def isMediaType (s : String) : Bool :=
  s != "" && Text.trim s.toList == s.toList && s.toList.count '/' == 1

/-- The content that an item names: a media type or the number of a registered format. -/
def contentType? : Value → Option ContentType
  | .text s => if isMediaType s then some (.text s) else none
  | v => do return .format (← formatName? (← number? v))

/-- The octets of a byte string that is not empty. -/
def octets? : Value → Option Bytes
  | .bytes b => if b = [] then none else some b
  | _ => none

/-- A list of parameters that have to be understood: not empty, each a text or registered. -/
def areCritical : Value → Bool
  | .array items => !items.isEmpty && items.all fun v =>
    match label? v with
    | some (.number n) => headerParameters.contains n
    | some (.text _) => true
    | none => false
  | _ => false

namespace Header

def empty : Header := ⟨none, none, [], [], [], []⟩

/-- The header in a byte string, which is empty for the one without parameters. -/
def inOctets? (read : Value → Option Header) (b : Bytes) : Option Header :=
  if b = [] then some empty else (Cbor.parse? envelopes b).bind read

/-- Whether an item is a further signature. -/
def isSignature (read : Value → Option Header) : Value → Bool
  | .array [.bytes p, u, .bytes _] => (inOctets? read p).isSome && (read u).isSome
  | _ => false

/-- Whether an item is one further signature or a list of them. -/
def areSignatures (read : Value → Option Header) : Value → Bool
  | .array (.bytes b :: r) => isSignature read (.array (.bytes b :: r))
  | .array (.array b :: r) => (Value.array b :: r).all (isSignature read)
  | _ => false

/-- Sets a parameter that keeps its rule. -/
def set (read : Value → Option Header) (h : Header) (label : Label) (v : Value) :
    Option Header :=
  match label with
  | .number 1 => do return { h with algorithm := some (← algorithm? v) }
  | .number 2 => if areCritical v then some h else none
  | .number 3 => do return { h with contentType := some (← contentType? v) }
  | .number 4 => do return { h with keyId := ← octets? v }
  | .number 5 => do return { h with iv := ← octets? v }
  | .number 6 => do return { h with partialIv := ← octets? v }
  | .number 7 => if areSignatures read v then some h else none
  -- everything else is kept in the order of the map
  | l => some { h with rest := h.rest ++ [(l, v)] }

def labels? (entries : Cbor.Entries) : Option (List Label) := entries.mapM fun e => label? e.1

/-- The header of a map whose further signatures have headers that `read` reads. -/
def ofEntries? (read : Value → Option Header) (entries : Cbor.Entries) : Option Header := do
  let labels ← labels? entries
  if ¬labels.Nodup then none
  else
    let h ← (labels.zip (entries.map (·.2))).foldlM (fun h e => set read h e.1 e.2) empty
    if h.iv ≠ [] ∧ h.partialIv ≠ [] then none else some h

/-- The header that a value holds, with at most so many layers of further signatures. -/
def ofValue? : (layers : Nat) → Value → Option Header
  | 0, .map entries => ofEntries? (fun _ => none) entries
  | layers + 1, .map entries => ofEntries? (ofValue? layers) entries
  | _, _ => none

def ofOctets? (layers : Nat) (b : Bytes) : Option Header := inOctets? (ofValue? layers) b

end Header

end Rim.Cose
