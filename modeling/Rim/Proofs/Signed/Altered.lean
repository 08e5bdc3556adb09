import Rim.Proofs.Cose.Layers
import Rim.Proofs.Failure
import Rim.Proofs.Signed.Decoding
import Rim.Signed.Acceptance

/-!
# Envelopes with another signature

What is read from an envelope stands in the header that the signature covers and in the content. The
signature itself is kept as it is, and the header that it does not cover only has to be one. So an
envelope in which these two are exchanged is read as before, and whether its signature holds is left to
the verifier, which has one kind of error for all that it refuses.

* `VerifyingKey.verify_failsAs`: a key refuses signatures with one kind of error.
* `decode_of_frames`: an envelope with another signature is read as before.
* `decode_altered`: what this means for the reading, the verification and the policies.
-/

namespace Rim

/-- Whatever a key refuses of a signature, its length included, it refuses as a mismatch. -/
theorem VerifyingKey.verify_failsAs (k : VerifyingKey) (message signature : Bytes) :
    (k.verify message signature).FailsAs [.signatureMismatch] := by
  cases k with
  | es256 p =>
    rw [VerifyingKey.verify]
    split
    · exact List.mem_cons_self
    · exact .ite trivial List.mem_cons_self
  | edDsa octets p =>
    rw [VerifyingKey.verify]
    refine .ite List.mem_cons_self ?_
    exact .ite trivial List.mem_cons_self

namespace SignedManifest

open Cbor (Value)
open Cose (Sign1)

variable {c : Catalogue} {v : Verifier} {b b' : Bytes} {s : SignedManifest}

/-- Another algorithm is a mismatch too. -/
theorem verify_failsAs (k : VerifyingKey) (s : SignedManifest) :
    (s.verify k.verifier).FailsAs [.signatureMismatch] := by
  unfold verify
  split
  · exact List.mem_cons_self
  · exact .ite (k.verify_failsAs _ _) List.mem_cons_self

/-- **An envelope with another signature is read as before**, whatever header the signature does not
cover. -/
theorem decode_of_frames (h : decode c b = .ok s) {u : Value} {signature : Bytes}
    (hb : Frames b' s.headerOctets u s.payload signature) (hu : Cose.Header.Accepted u) :
    decode c b' = .ok { s with signature := signature } := by
  obtain ⟨g, hg, h⟩ := decode_eq_ok.1 h
  obtain ⟨ht, ha, hm, -, hd, hk, ho, -⟩ := ofSign1_eq_ok.1 h
  obtain ⟨-, -, -, hheader, -, -⟩ := Cose.Sign1.parse?_eq_some.1 hg
  rw [← ho] at hheader
  -- the octets of the covered header are the same, so they hold the same header
  have hparse : Sign1.parse? b' = some ⟨s.headerOctets, g.header, some s.payload, signature⟩ :=
    Sign1.parse?_of_accepted hb hheader hu rfl
  exact decode_eq_ok.2 ⟨_, hparse, ofSign1_eq_ok.2 ⟨ht, ha, hm, rfl, hd, hk, rfl, rfl⟩⟩

/-- The octets of an envelope with another signature and another header that it does not cover. -/
def altered (s : SignedManifest) (unprotected : Value) (signature : Bytes) : Bytes :=
  (Value.tag Sign1.tag (.array [.bytes s.headerOctets, unprotected, .bytes s.payload,
    .bytes signature])).encode

theorem frames_altered {u : Value} {signature : Bytes} (hu : u.Canonical 254)
    (hsize : (s.altered u signature).length < 2 ^ 64) :
    Frames (s.altered u signature) s.headerOctets u s.payload signature := by
  have hparts : ∀ w ∈ [Value.bytes s.headerOctets, u, .bytes s.payload, .bytes signature],
      w.Canonical 254 := by
    intro w hw
    simp only [List.mem_cons, List.not_mem_nil, or_false] at hw
    rcases hw with rfl | rfl | rfl | rfl
    · exact .bytes _
    · exact hu
    · exact .bytes _
    · exact .bytes _
  exact Cbor.parse?_encode (.tag _ (.array hparts)) hsize

/-- **Reading depends only on what is signed.** An accepted envelope with any other signature, and any
other header that the signature does not cover, is accepted as well and read as the same manifest,
metadata, algorithm and key identifier; such envelopes can be written. A key accepts its signature or
refuses it as a mismatch. Two such envelopes with one signature are read, verified and accepted under a
policy alike. -/
theorem decode_altered (h : decode c b = .ok s) :
    (∀ b' u signature, Frames b' s.headerOctets u s.payload signature → Cose.Header.Accepted u →
      decode c b' = .ok { s with signature := signature } ∧
      ∀ k : VerifyingKey, verify k.verifier { s with signature := signature } = .ok () ∨
        ∃ e, verify k.verifier { s with signature := signature } = .error e ∧
          e.kind = .signatureMismatch) ∧
    (∀ u signature, u.Canonical 254 → (s.altered u signature).length < 2 ^ 64 →
      Frames (s.altered u signature) s.headerOctets u s.payload signature) ∧
    ∀ b₁ b₂ u₁ u₂ signature, Frames b₁ s.headerOctets u₁ s.payload signature →
      Frames b₂ s.headerOctets u₂ s.payload signature → Cose.Header.Accepted u₁ →
      Cose.Header.Accepted u₂ → decode c b₁ = decode c b₂ ∧
        ∀ v, decodeVerified c v b₁ = decodeVerified c v b₂ ∧ ∀ p now,
          (decode c b₁ >>= verifyUnder p now v) = (decode c b₂ >>= verifyUnder p now v) := by
  refine ⟨?_, fun u signature => frames_altered, ?_⟩
  · intro b' u signature hb hu
    refine ⟨decode_of_frames h hb hu, fun k => ?_⟩
    have hverify := verify_failsAs k { s with signature := signature }
    cases hv : verify k.verifier { s with signature := signature } with
    | ok _ => exact .inl rfl
    | error e => exact .inr ⟨e, rfl, List.mem_singleton.1 (hverify.of_error hv)⟩
  · intro b₁ b₂ u₁ u₂ signature hb₁ hb₂ hu₁ hu₂
    have hsame : decode c b₁ = decode c b₂ :=
      (decode_of_frames h hb₁ hu₁).trans (decode_of_frames h hb₂ hu₂).symm
    refine ⟨hsame, fun v => ⟨?_, fun p now => by rw [hsame]⟩⟩
    unfold decodeVerified
    rw [hsame]

/-- A header that names a key. -/
def sampleHeader : Value := .map [(.ofInt64 4, .bytes [1])]

/-- The envelope of the sample with another signature and a header that the signature does not cover. -/
def alteredEnvelope (u : Value) : Bytes :=
  match decode Catalogue.bundled sampleEnvelope with
  | .ok s => s.altered u [0]
  | .error _ => []

/-- The sample is read as before, with the header and without it, and no key takes the signature for
anything but one that may not match. -/
theorem decode_altered_sample : ∃ s, decode Catalogue.bundled sampleEnvelope = .ok s ∧
    decode Catalogue.bundled (alteredEnvelope sampleHeader) = .ok { s with signature := [0] } ∧
    (∀ k : VerifyingKey, verify k.verifier { s with signature := [0] } = .ok () ∨
      ∃ e, verify k.verifier { s with signature := [0] } = .error e ∧
        e.kind = .signatureMismatch) ∧
    decode Catalogue.bundled (alteredEnvelope sampleHeader) =
      decode Catalogue.bundled (alteredEnvelope (.map [])) := by
  have hok : (decode Catalogue.bundled sampleEnvelope).isOk := by decide +kernel
  have hsize : (alteredEnvelope sampleHeader).length < 2 ^ 64 ∧
      (alteredEnvelope (.map [])).length < 2 ^ 64 := by decide +kernel
  have haccepted : Cose.Header.Accepted sampleHeader ∧ Cose.Header.Accepted (.map []) :=
    ⟨⟨0, rfl⟩, ⟨0, rfl⟩⟩
  cases h : decode Catalogue.bundled sampleEnvelope with
  | error e =>
    rw [h] at hok
    cases hok
  | ok s =>
    have hwritten (u : Value) : alteredEnvelope u = s.altered u [0] := by
      unfold alteredEnvelope
      rw [h]
    rw [hwritten, hwritten] at hsize
    rw [hwritten, hwritten]
    obtain ⟨hread, hframes, hsame⟩ := decode_altered h
    have hnamed := hframes sampleHeader [0] (.map (List.pairwise_singleton _ _) ?_ ?_) hsize.1
    have hempty := hframes (.map []) [0] (.map .nil nofun nofun) hsize.2
    · obtain ⟨hdecode, hverify⟩ := hread _ _ _ hnamed haccepted.1
      exact ⟨s, rfl, hdecode, hverify,
        (hsame _ _ _ _ _ hnamed hempty haccepted.1 haccepted.2).1⟩
    · exact List.forall_mem_singleton.2 (.natural 4)
    · exact List.forall_mem_singleton.2 (.bytes [1])

end SignedManifest

end Rim
