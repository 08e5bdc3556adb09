import Rim.Crypto.Ecdsa
import Rim.Crypto.Ed25519
import Rim.Key.Algorithm
import Rim.Key.Jwk

/-!
# Keys

A private key signs messages and may have an identifier; a public key verifies signatures. What an
envelope needs of either is a `Signer` or a `Verifier`, of which these keys are two kinds.

* `PrivateKey.ofBytes`, `PrivateKey.ofJwk`, `VerifyingKey.ofBytes`, `VerifyingKey.ofJwk`: read keys.
* `PrivateKey.signer`, `VerifyingKey.verifier`: use them.
-/

namespace Rim

open Crypto

/-- What signs: an algorithm, the identifier of the key, and the signature of a message. -/
structure Signer where
  algorithm : Algorithm
  keyId : Option Bytes
  sign : Bytes → Result Bytes

/-- What verifies: an algorithm, and whether a message has a signature. -/
structure Verifier where
  algorithm : Algorithm
  verify : (message signature : Bytes) → Result Unit

/-- The secret of a private key. -/
inductive Secret
  | es256 (d : Ecdsa.Scalar)
  | edDsa (seed : Bytes)

/-- A private key and its identifier. -/
structure PrivateKey where
  secret : Secret
  keyId : Option Bytes

/-- A public key; an Ed25519 one keeps the octets it came as. -/
inductive VerifyingKey
  | es256 (point : P256.Point)
  | edDsa (octets : Bytes) (point : Ed25519.Point)

/-- The type and the curve of an algorithm's keys in a JWK. -/
def Algorithm.keyForm : Algorithm → String × String
  | es256 => ("EC", "P-256")
  | edDsa => ("OKP", "Ed25519")

/-- The octets of an Ed25519 key, of which there are 32. -/
def checkKeyLength (b : Bytes) : Result Bytes :=
  if b.length = 32 then .ok b
  else .error (.crypto ("expecting 32 key bytes, got " ++ toString b.length))

namespace Secret

def algorithm : Secret → Algorithm
  | es256 _ => .es256
  | edDsa _ => .edDsa

/-- The secret that octets write: a number, or a seed. -/
def ofBytes (a : Algorithm) (b : Bytes) : Result Secret :=
  match a with
  | .es256 =>
    match Ecdsa.secret? b with
    | some d => .ok (es256 d)
    | none => .error (.crypto "P-256 private key: not a number below the order")
  | .edDsa => edDsa <$> checkKeyLength b

/-- The signature of a message. -/
def sign (s : Secret) (message : Bytes) : Result Bytes :=
  match s with
  | es256 d =>
    match Ecdsa.sign? d message with
    | some g => .ok g.toBytes
    | none => .error (.crypto "ES256 signing failed: no nonce")
  | edDsa seed => .ok (Ed25519.sign seed message)

end Secret

namespace VerifyingKey

def algorithm : VerifyingKey → Algorithm
  | es256 _ => .es256
  | edDsa _ _ => .edDsa

/-- The key that octets write: a point. -/
def ofBytes (a : Algorithm) (b : Bytes) : Result VerifyingKey :=
  match a with
  | .es256 =>
    match P256.Point.decode? b with
    | some p => .ok (es256 p)
    | none => .error (.crypto "P-256 public key: not a point of the curve")
  | .edDsa => do
    let b ← checkKeyLength b
    match Ed25519.Point.decode? b with
    | some p => return edDsa b p
    | none => .error (.crypto "Ed25519 public key: not a point of the curve")

/-- The key of a JWK: its coordinates. -/
def ofJwk (a : Algorithm) (text : String) : Result VerifyingKey := do
  let k ← Jwk.parse a.keyForm.1 a.keyForm.2 text
  let x ← Jwk.octets "x" 32 k.x
  match a with
  | .es256 =>
    let y ← Jwk.octets "y" 32 k.y
    ofBytes .es256 (4 :: x ++ y)
  | .edDsa => ofBytes .edDsa x

/-- A message has to have a signature. -/
def verify (k : VerifyingKey) (message signature : Bytes) : Result Unit :=
  match k with
  | es256 p =>
    match Ecdsa.Signature.ofBytes? signature with
    | none => .error (.signatureMismatch "bad ES256 signature: not two numbers below the order")
    | some g =>
      if Ecdsa.accepts p message g then .ok ()
      else .error (.signatureMismatch "the signature is not one of this message")
  | edDsa octets p =>
    if signature.length ≠ 64 then
      .error (.signatureMismatch "bad EdDSA signature: not 64 octets")
    else if Ed25519.accepts p octets message signature then .ok ()
    else .error (.signatureMismatch "the signature is not one of this message")

def verifier (k : VerifyingKey) : Verifier := ⟨k.algorithm, k.verify⟩

end VerifyingKey

namespace PrivateKey

def algorithm (k : PrivateKey) : Algorithm := k.secret.algorithm

/-- The key that octets write, without an identifier. -/
def ofBytes (a : Algorithm) (b : Bytes) : Result PrivateKey := do
  return ⟨← Secret.ofBytes a b, none⟩

/-- The key of a JWK: its private member, and its identifier as UTF-8. -/
def ofJwk (a : Algorithm) (text : String) : Result PrivateKey := do
  let k ← Jwk.parse a.keyForm.1 a.keyForm.2 text
  let d ← Jwk.octets "d" 32 k.d
  return ⟨← Secret.ofBytes a d, k.keyId.map Bytes.ofText⟩

def withKeyId (k : PrivateKey) (id : Bytes) : PrivateKey := { k with keyId := some id }

/-- The public key. -/
def verifyingKey (k : PrivateKey) : VerifyingKey :=
  match k.secret with
  | .es256 d => .es256 (Ecdsa.publicPoint d)
  | .edDsa seed => .edDsa (Ed25519.publicPoint seed).encode (Ed25519.publicPoint seed)

def signer (k : PrivateKey) : Signer := ⟨k.algorithm, k.keyId, k.secret.sign⟩

/-- How a key is described, its secret left out. -/
def describe (k : PrivateKey) : String :=
  let name := match k.algorithm with
    | .es256 => "Es256Signer"
    | .edDsa => "EdDsaSigner"
  let id := match k.keyId with
    | some id => "Some(" ++ Text.octets id ++ ")"
    | none => "None"
  name ++ " \x7b key_id: " ++ id ++ ", .. \x7d"

end PrivateKey

end Rim
