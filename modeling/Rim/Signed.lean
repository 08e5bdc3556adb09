import Rim.Cose.Sign1
import Rim.Key
import Rim.Manifest
import Rim.Manifest.Meta

/-!
# Signed manifests

A signed manifest is an object with one signature. Its covered header names the algorithm and the
content type, perhaps the key, and carries the signer's metadata; its content is a manifest without
its tag. Nothing is taken from the header that the signature does not cover.

* `SignedManifest.sign`: the octets of a signed manifest.
* `SignedManifest.decode`: reads one, its signature unchecked.
* `SignedManifest.verify`, `SignedManifest.decodeVerified`: check the signature.
-/

namespace Rim

open Cose (Sign1 Label)

/-- A manifest that was read from an envelope. -/
structure SignedManifest where
  manifest : Manifest
  metadata : Option Meta
  algorithm : Option Algorithm
  keyId : Option Bytes
  headerOctets : Bytes
  payload : Bytes
  signature : Bytes

namespace SignedManifest

def contentType : String := "application/rim+cbor"

def metadataLabel : Int64 := 8

/-- The covered header of a signed manifest. -/
def header (a : Algorithm) (keyId : Option Bytes) (metadata : Bytes) : Cbor.Value :=
  .map ([(.ofInt64 1, .ofInt64 (Int64.ofInt a.number)), (.ofInt64 3, .text contentType)] ++
    (match keyId with
      | none | some [] => []
      | some id => [(.ofInt64 4, .bytes id)]) ++
    [(.ofInt64 metadataLabel, .bytes metadata)])

/-- Signs a manifest; both documents have to be valid. -/
def sign (m : Manifest) (metadata : Meta) (signer : Option Signer) : Result Bytes :=
  match signer with
  | none => .error .nilSigner
  | some s => do
    Document.check m
    -- the content is the manifest without its tag
    let payload := m.toCbor.encode
    let header := (header s.algorithm s.keyId (← Document.encodeCbor metadata)).encode
    let signature ← s.sign (Sign1.covered header payload)
    return Sign1.encode header payload signature

/-- The content type has to be that of a signed manifest. -/
def checkContentType : Option Cose.ContentType → Result Unit
  | none => .error .missingContentType
  | some (.text t) =>
    if t = contentType then .ok () else .error (.unexpectedContentType contentType t)
  | some (.format name) => .error (.unexpectedContentType contentType name)

/-- The algorithm that a header names, if it is one of those known here. -/
def algorithmOf : Option Cose.AlgorithmLabel → Result (Option Algorithm)
  | none => .error (.missingField "protected header alg")
  | some (.number n) => .ok (Algorithm.ofNumber? n)
  | some (.text _) => .ok none

/-- The metadata that the further parameters of a header carry, if they do. -/
def metadataOf (c : Catalogue) (rest : List (Label × Cbor.Value)) : Result (Option Meta) :=
  match rest.find? (·.1 == .number metadataLabel.toInt) with
  | none => .ok none
  | some (_, .bytes b) => some <$> Document.decodeCbor c b
  | some _ => .error (.malformed "meta" "expecting a byte string")

/-- The manifest of an object with one signature. -/
def ofSign1 (c : Catalogue) (s : Sign1) : Result SignedManifest := do
  checkContentType s.header.contentType
  let algorithm ← algorithmOf s.header.algorithm
  let metadata ← (metadataOf c s.header.rest).context "decoding meta"
  match s.payload with
  | none => .error (.missingField "payload")
  | some payload =>
    let manifest ← (Document.decodeCbor c payload).context "decoding payload"
    return {
      manifest, metadata, algorithm, payload
      keyId := if s.header.keyId = [] then none else some s.header.keyId
      headerOctets := s.headerOctets
      signature := s.signature }

/-- Reads a signed manifest, its signature unchecked. -/
def decode (c : Catalogue) (input : Bytes) : Result SignedManifest :=
  match Sign1.parse? input with
  | none => .error (.notAnEnvelope "not a tagged object with one signature")
  | some s => ofSign1 c s

/-- The octets that the signature is of. -/
def covered (s : SignedManifest) : Bytes := Sign1.covered s.headerOctets s.payload

/-- The signature has to be one of the verifier's algorithm and key. -/
def verify (v : Verifier) (s : SignedManifest) : Result Unit :=
  match s.algorithm with
  | none => .error (.signatureMismatch "unsupported algorithm")
  | some a =>
    if a = v.algorithm then v.verify s.covered s.signature
    else .error (.signatureMismatch
      ("envelope uses " ++ a.name ++ ", key is " ++ v.algorithm.name))

/-- Reads a signed manifest and checks its signature. -/
def decodeVerified (c : Catalogue) (v : Verifier) (input : Bytes) : Result SignedManifest := do
  let s ← decode c input
  s.verify v
  return s

end SignedManifest

end Rim
