import Rim.Cbor.Access
import Rim.Json.Access
import Rim.Sequence
import Rim.Text.Numeral
import Rim.Text.Split

/-!
# Digests

A digest is the number of a hash algorithm and the octets that it gave. In text the algorithm is
written by its name if it has one, and the octets in base64 after a semicolon.

* `Digest.parse`, `Digest.toText`: the text form.
-/

namespace Rim

/-- A hash algorithm that has a name: its number, its name and the length of its digests. -/
structure HashAlgorithm where
  number : UInt64
  name : String
  size : Nat

namespace HashAlgorithm

/-- The algorithms that have names. -/
def all : List HashAlgorithm :=
  [⟨1, "sha-256", 32⟩, ⟨2, "sha-256-128", 16⟩, ⟨3, "sha-256-120", 15⟩, ⟨4, "sha-256-96", 12⟩,
   ⟨5, "sha-256-64", 8⟩, ⟨6, "sha-256-32", 4⟩, ⟨7, "sha-384", 48⟩, ⟨8, "sha-512", 64⟩,
   ⟨9, "sha3-224", 28⟩, ⟨10, "sha3-256", 32⟩, ⟨11, "sha3-384", 48⟩, ⟨12, "sha3-512", 64⟩]

/-- The algorithm of a number, if it has a name. -/
def ofNumber? (n : UInt64) : Option HashAlgorithm := all.find? (·.number == n)

def nameOf? (n : UInt64) : Option String := (ofNumber? n).map (·.name)

/-- The number that a name or a numeral writes. -/
def numberOf? (name : String) : Option UInt64 :=
  match all.find? (·.name == name) with
  | some a => some a.number
  | none => Text.Numeral.parse? name.toList

end HashAlgorithm

/-- A digest, which need not be valid. -/
structure Digest where
  algorithm : UInt64
  value : Bytes
deriving DecidableEq

namespace Digest

/-- The digest that a text writes. -/
def parse (text : String) : Result Digest :=
  match Text.cutAt? ';' text.toList with
  | none => .error (.malformed "digest" ("no ';' in " ++ Text.quote text))
  | some (name, value) =>
    match HashAlgorithm.numberOf? (String.ofList name) with
    | none =>
      .error (.malformed "digest"
        ("unknown hash algorithm " ++ Text.quote (String.ofList name)))
    | some n => do return ⟨n, ← Json.octetsOf "digest" (String.ofList value)⟩

/-- The text of a digest: name or number of the algorithm, and the octets in base64. -/
def toText (d : Digest) : String :=
  (HashAlgorithm.nameOf? d.algorithm).getD (toString d.algorithm.toNat) ++ ";" ++
    String.ofList (Text.Base64.encode d.value)

/-- The value is not empty and, for an algorithm with a name, as long as its digests are. -/
def validate (d : Digest) : Result Unit :=
  if d.value = [] then .error (.invalid "digest" "empty digest value")
  else
    match HashAlgorithm.ofNumber? d.algorithm with
    | some a =>
      if d.value.length = a.size then .ok ()
      else .error (.invalid "digest" ("length mismatch for hash algorithm " ++ a.name ++
        ": want " ++ toString a.size ++ " bytes, got " ++ toString d.value.length))
    | none => .ok ()

/-- A list of digests is not empty and each one is valid. -/
def validateAll (ds : List Digest) : Result Unit :=
  if ds = [] then .error (.invalid "digests" "empty digests")
  else checkEach "digest" validate ds

def toCbor (d : Digest) : Cbor.Value := .array [.natural d.algorithm, .bytes d.value]

def ofCbor (v : Cbor.Value) : Result Digest := do
  let (algorithm, value) ← v.toPair "digest"
  return ⟨← algorithm.toUInt64 "digest alg", ← value.toBytes "digest value"⟩

def toJson (d : Digest) : Json.Value := .string d.toText

def ofJson (v : Json.Value) : Result Digest := do parse (← v.toText "digest")

end Digest

end Rim
