import Rim.Proofs.Manifest.Cbor
import Rim.Proofs.Signed.Decoding

/-!
# Signed manifests that are written and read

What is signed is read back under a verifier of the signer's algorithm that accepts its signatures:
the manifest, the metadata, the algorithm and the identifier of the key. Nothing is signed unless
both documents are valid.

* `sign_eq_ok`: what is signed, and when.
* `parse?_encode`: reading an object that was written.
* `sign_decodeVerified`: signer and verifier agree.
-/

namespace Rim.SignedManifest

open Cbor (Value)
open Cose (Sign1 Header)

variable {c : Catalogue} {m : Manifest} {metadata : Meta} {s : Signer}

/-! ### Signing -/

/-- The octets of the covered header. -/
def headerOctetsOf (s : Signer) (metadata : Meta) : Bytes :=
  (header s.algorithm s.keyId metadata.toCbor.encode).encode

/-- **A manifest is signed only if both documents are valid and there is a signer.** -/
theorem sign_eq_ok {signer : Option Signer} {b : Bytes} :
    sign m metadata signer = .ok b ↔ ∃ s signature, signer = some s ∧ m.validate = .ok () ∧
      metadata.validate = .ok () ∧
      s.sign (Sign1.covered (headerOctetsOf s metadata) m.toCbor.encode) = .ok signature ∧
      Sign1.encode (headerOctetsOf s metadata) m.toCbor.encode signature = b := by
  unfold sign
  cases signer with
  | none => exact ⟨nofun, fun ⟨_, _, h, _⟩ => by cases h⟩
  | some s =>
    dsimp only
    rw [Result.check_eq_ok, Document.check_eq_ok]
    constructor
    · rintro ⟨hm, h⟩
      obtain ⟨o, ho, h⟩ := Result.bind_eq_ok.1 h
      obtain ⟨hv, rfl⟩ := Document.encodeCbor_eq_ok.1 ho
      obtain ⟨signature, hs, h⟩ := Result.bind_eq_ok.1 h
      exact ⟨s, signature, rfl, hm, hv, hs, Result.pure_eq_ok.1 h⟩
    · rintro ⟨s', signature, hs', hm, hv, hs, rfl⟩
      obtain rfl := Option.some.inj hs'
      refine ⟨hm, Result.bind_eq_ok.2 ⟨_, Document.encodeCbor_eq_ok.2 ⟨hv, rfl⟩, ?_⟩⟩
      exact Result.bind_eq_ok.2 ⟨signature, hs, rfl⟩

/-! ### The covered header -/

/-- A header is written as a map of four fields. -/
theorem header_eq (a : Algorithm) (keyId : Option Bytes) (o : Bytes) :
    header a keyId o = .ofFields [(1, some (.ofInt64 (Int64.ofInt a.number))),
      (3, some (.text contentType)), (4, (keyId.bind keyIdOf).map .bytes), (8, some (.bytes o))] := by
  rcases keyId with _ | _ | ⟨x, xs⟩ <;> rfl

theorem header_canonical (a : Algorithm) (keyId : Option Bytes) (o : Bytes) :
    (header a keyId o).Canonical 1 := by
  rw [header_eq]
  exact .ofFields (.some (.ofInt64 _) (.some (.text _) (.map .bytes (.some (.bytes _) .nil))))

/-- The metadata is not longer than the header. -/
theorem metadata_le_header (s : Signer) (metadata : Meta) :
    metadata.toCbor.encode.length ≤ (headerOctetsOf s metadata).length := by
  rw [headerOctetsOf, header_eq]
  refine Nat.le_trans (Value.length_le_bytes _) (Value.encode_le_ofFields 8 ?_ (by simp))
  show [1, 3, 4, 8].Nodup
  decide

/-- What a written header is read as. -/
def headerOf (a : Algorithm) (keyId : Option Bytes) (o : Bytes) : Header :=
  ⟨some (.number a.number), some (.text contentType), keyId.getD [], [], [],
    [(.number 8, .bytes o)]⟩

theorem ofValue?_header (layers : Nat) (a : Algorithm) (keyId : Option Bytes) (o : Bytes) :
    Header.ofValue? layers (header a keyId o) = some (headerOf a keyId o) := by
  cases layers <;> cases a <;> rcases keyId with _ | _ | ⟨x, xs⟩ <;> rfl

/-! ### Reading an envelope that was written -/

/-- An object is longer than its header and its content. -/
theorem length_lt_encode (header payload signature : Bytes) :
    header.length + payload.length + 4 ≤ (Sign1.encode header payload signature).length := by
  have h1 := Cbor.head_length_pos 6 Sign1.tag.toNat
  have h2 := Cbor.head_length_pos 4 [Value.bytes header, .map [], .bytes payload, .bytes signature].length
  have h3 := (Value.map []).encode_length_pos
  have h4 := Cbor.head_length_pos 2 header.length
  have hb (b : Bytes) : (Value.bytes b).encode.length = (Cbor.head 2 b.length).length + b.length := by
    rw [Value.encode, List.length_append]
  rw [Sign1.encode, Value.encode, Value.encode]
  simp only [Value.encodeItems, List.length_append, hb]
  omega

theorem parse?_encode {payload signature : Bytes}
    (hsize : (Sign1.encode (headerOctetsOf s metadata) payload signature).length < 2 ^ 64) :
    Sign1.parse? (Sign1.encode (headerOctetsOf s metadata) payload signature) =
      some ⟨headerOctetsOf s metadata, headerOf s.algorithm s.keyId metadata.toCbor.encode,
        some payload, signature⟩ := by
  have hlen := length_lt_encode (headerOctetsOf s metadata) payload signature
  -- the object is canonical, and so is the header in it
  have hcan : (Value.tag Sign1.tag (.array [.bytes (headerOctetsOf s metadata), .map [],
      .bytes payload, .bytes signature])).Canonical 3 := by
    refine .tag _ (.array fun v hv => ?_)
    simp only [List.mem_cons, List.not_mem_nil, or_false] at hv
    rcases hv with rfl | rfl | rfl | rfl
    · exact .bytes _
    · exact .map .nil nofun nofun
    · exact .bytes _
    · exact .bytes _
  refine Sign1.parse?_eq_some.2 ⟨.map [], .bytes payload, ?_, ?_, ?_, rfl⟩
  · exact Cbor.parse?_encode (hcan.mono (by decide)) hsize
  · have hne : headerOctetsOf s metadata ≠ [] := List.ne_nil_of_length_pos (Value.encode_length_pos _)
    rw [Header.ofOctets?, Header.inOctets?, if_neg hne, headerOctetsOf,
      Cbor.parse?_encode ((header_canonical _ _ _).mono (by decide)) (by rw [← headerOctetsOf]; omega)]
    exact ofValue?_header _ _ _ _
  · cases (Sign1.encode (headerOctetsOf s metadata) payload signature).length <;> rfl

/-! ### Signer and verifier -/

/-- A signer signs everything, and the verifier is of its algorithm and accepts what it signs; the
signer's key has an identifier that is not empty, or none. -/
structure Agree (s : Signer) (v : Verifier) : Prop where
  algorithm : s.algorithm = v.algorithm
  signs : ∀ message, ∃ signature, s.sign message = .ok signature
  accepts : ∀ message signature, s.sign message = .ok signature →
    v.verify message signature = .ok ()
  keyId : s.keyId ≠ some []

/-- An envelope that was written is read as what was signed. -/
theorem decode_encode {signature : Bytes} (hm : m.validate = .ok ())
    (hread : Manifest.ofCbor c m.toCbor = .ok m) (hv : metadata.validate = .ok ())
    (hsize : (Sign1.encode (headerOctetsOf s metadata) m.toCbor.encode signature).length < 2 ^ 64) :
    decode c (Sign1.encode (headerOctetsOf s metadata) m.toCbor.encode signature) = .ok
      ⟨m, some metadata, some s.algorithm, keyIdOf (s.keyId.getD []), headerOctetsOf s metadata,
        m.toCbor.encode, signature⟩ := by
  have hlen := length_lt_encode (headerOctetsOf s metadata) m.toCbor.encode signature
  have hle := metadata_le_header s metadata
  have hmetadata : Document.decodeCbor c metadata.toCbor.encode = .ok metadata :=
    Document.decodeCbor_of_ofCbor hv (metadata.canonical_toCbor.mono (by decide)) (by omega)
      (Document.untagged_map _) (Meta.ofCbor_toCbor hv)
  have hpayload : Document.decodeCbor c m.toCbor.encode = .ok m :=
    Document.decodeCbor_of_ofCbor hm (m.canonical_toCbor.mono (by decide)) (by omega)
      (Document.untagged_map _) hread
  refine decode_eq_ok.2 ⟨_, parse?_encode hsize, ofSign1_eq_ok.2 ⟨?_, ?_, ?_, rfl, hpayload, rfl, rfl, rfl⟩⟩
  · exact checkContentType_eq_ok.2 rfl
  · exact congrArg Except.ok (Algorithm.ofNumber?_number s.algorithm)
  · exact metadataOf_eq_ok.2 (.inr ⟨_, _, metadata, rfl, hmetadata, rfl⟩)

/-- What an agreeing signer signed is accepted as what was signed. -/
theorem decodeVerified_encode {v : Verifier} {signature : Bytes} (hagree : Agree s v)
    (hm : m.validate = .ok ()) (hread : Manifest.ofCbor c m.toCbor = .ok m)
    (hv : metadata.validate = .ok ())
    (hs : s.sign (Sign1.covered (headerOctetsOf s metadata) m.toCbor.encode) = .ok signature)
    (hsize : (Sign1.encode (headerOctetsOf s metadata) m.toCbor.encode signature).length < 2 ^ 64) :
    ∃ e, decodeVerified c v (Sign1.encode (headerOctetsOf s metadata) m.toCbor.encode signature) =
      .ok e ∧ e.manifest = m ∧ e.metadata = some metadata ∧ e.algorithm = some s.algorithm ∧
        e.keyId = s.keyId := by
  have hdecode := decode_encode hm hread hv hsize
  have halgorithm : some s.algorithm = some v.algorithm := congrArg some hagree.algorithm
  have haccepts := hagree.accepts _ _ hs
  have hkey : keyIdOf (s.keyId.getD []) = s.keyId := by
    have hne := hagree.keyId
    -- an empty identifier would be read as none
    rcases hid : s.keyId with _ | _ | ⟨x, xs⟩
    · rfl
    · exact absurd hid hne
    · rfl
  refine ⟨_, decodeVerified_eq_ok.2 ⟨hdecode, ?_⟩, rfl, rfl, rfl, hkey⟩
  exact verify_eq_ok.2 ⟨halgorithm, haccepts⟩

/-- **Signer and verifier agree.** A manifest that is read back from its binary form is signed with
valid metadata, and the envelope, an octet string shorter than `2^64`, is read and accepted as what
was signed. Nothing is signed without a signer or with a document that is not valid. -/
theorem sign_decodeVerified :
    (∀ (s : Signer) (v : Verifier), Agree s v →
      (∃ o, Document.encodeCbor m = .ok o ∧ Document.decodeCbor c o = .ok m) →
      metadata.validate = .ok () →
      ∃ b, sign m metadata (some s) = .ok b ∧ (b.length < 2 ^ 64 →
        ∃ e, decodeVerified c v b = .ok e ∧ e.manifest = m ∧ e.metadata = some metadata ∧
          e.algorithm = some s.algorithm ∧ e.keyId = s.keyId)) ∧
    ∀ (signer : Option Signer) (b : Bytes), sign m metadata signer = .ok b →
      signer.isSome ∧ m.validate = .ok () ∧ metadata.validate = .ok () := by
  constructor
  · rintro s v hagree ⟨o, ho, hdec⟩ hv
    obtain ⟨hm, rfl⟩ := Document.encodeCbor_eq_ok.1 ho
    obtain ⟨signature, hs⟩ :=
      hagree.signs (Sign1.covered (headerOctetsOf s metadata) m.toCbor.encode)
    refine ⟨_, sign_eq_ok.2 ⟨s, signature, rfl, hm, hv, hs, rfl⟩, ?_⟩
    intro hsize
    -- the envelope bounds the content, so that it can be read with its tag, too
    have hlen := length_lt_encode (headerOctetsOf s metadata) m.toCbor.encode signature
    have htagged : (Document.tagged m).encode.length = 3 + m.toCbor.encode.length := by
      show (Value.tag Manifest.tag m.toCbor).encode.length = _
      rw [Value.encode, List.length_append]
      rfl
    have hread : Manifest.ofCbor c m.toCbor = .ok m :=
      Document.ofCbor_of_decodeCbor rfl m.canonical_tagged (by omega) hdec
    exact decodeVerified_encode hagree hm hread hv hs hsize
  · intro signer b h
    obtain ⟨s, signature, rfl, hm, hv, -, -⟩ := sign_eq_ok.1 h
    exact ⟨rfl, hm, hv⟩

theorem sample_agree : Agree sampleSigner sampleVerifier where
  algorithm := rfl
  signs _ := ⟨_, rfl⟩
  accepts _ _ h := if_pos (Except.ok.inj h).symm
  keyId := by decide

/-- The sample is signed, accepted and read back. -/
theorem sign_decodeVerified_sample :
    ∃ b, sign .sample sampleMeta (some sampleSigner) = .ok b ∧
      ∃ e, decodeVerified Catalogue.bundled sampleVerifier b = .ok e ∧ e.manifest = .sample ∧
        e.metadata = some sampleMeta ∧ e.algorithm = some .es256 ∧ e.keyId = some [7] := by
  have ho : Document.encodeCbor Manifest.sample = .ok (Document.tagged Manifest.sample).encode := rfl
  have hread : Document.decodeCbor Catalogue.bundled (Document.tagged Manifest.sample).encode =
      .ok Manifest.sample :=
    Document.decodeCbor_of_ofCbor rfl Manifest.sample.canonical_tagged (by decide +kernel)
      (Document.untagged_tagged rfl) (Manifest.ofCbor_of_valid Catalogue.bundled_reachable rfl
        Manifest.sample_octets (by decide +kernel) Manifest.sample_fields (by decide +kernel))
  have hv : sampleMeta.validate = .ok () := rfl
  obtain ⟨b, hb, h⟩ := sign_decodeVerified.1 sampleSigner sampleVerifier sample_agree
    ⟨_, ho, hread⟩ hv
  have hlen : b.length < 2 ^ 64 := by
    have he : b = sampleEnvelope := by
      unfold sampleEnvelope
      rw [hb]
    rw [he]
    decide +kernel
  exact ⟨b, hb, h hlen⟩

end Rim.SignedManifest
