import Rim.Cose.Header

/-!
# Objects with one signature

An object with one signature holds a header that the signature covers, one that it does not, content
and the signature. What is signed is the covered header exactly as it was received, and the content.

* `Sign1.parse?`, `Sign1.encode`: read and write an object.
* `Sign1.covered`: the octets that the signature is of.
-/

namespace Rim.Cose

open Cbor (Value)

/-- An object with one signature, without the header that the signature does not cover. -/
structure Sign1 where
  headerOctets : Bytes
  header : Header
  payload : Option Bytes
  signature : Bytes

namespace Sign1

/-- The tag of an object with one signature. -/
def tag : UInt64 := 18

/-- The content of an object: octets, or none. -/
def payload? : Value → Option (Option Bytes)
  | .bytes b => some (some b)
  | .null => some none
  | _ => none

/-- The object that a value holds; its headers have at most so many layers. -/
def ofValue? (layers : Nat) : Value → Option Sign1
  | .tag n (.array [.bytes p, u, l, .bytes s]) =>
    if n ≠ tag then none
    else do
      let header ← Header.ofOctets? layers p
      let _ ← Header.ofValue? layers u
      return ⟨p, header, ← payload? l, s⟩
  | _ => none

/-- The object that octets write; there are fewer layers in them than octets. -/
def parse? (b : Bytes) : Option Sign1 := (Cbor.parse? envelopes b).bind (ofValue? b.length)

/-- The octets that the signature of a header and content is of. -/
def covered (header payload : Bytes) : Bytes :=
  (Value.array [.text "Signature1", .bytes header, .bytes [], .bytes payload]).encode

/-- The octets of an object without parameters that the signature does not cover. -/
def encode (header payload signature : Bytes) : Bytes :=
  (Value.tag tag (.array [.bytes header, .map [], .bytes payload, .bytes signature])).encode

end Sign1

end Rim.Cose
