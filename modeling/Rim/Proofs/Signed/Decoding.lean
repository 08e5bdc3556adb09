import Rim.Proofs.Contents
import Rim.Proofs.Cose.Header
import Rim.Proofs.Document
import Rim.Signed

/-!
# What an accepted envelope says

All that is read from an envelope stands in its covered header and its content, exactly as they were
received. So whoever accepts the signature accepts everything that was read.

* `ofSign1_eq_ok`: the parts of an object that a signed manifest is made of.
* `decode_unique`: the manifest is a function of header and content.
* `decodeVerified_sound`: what holds of every envelope that is accepted.
-/

namespace Rim.SignedManifest

open Cbor (Value Entries)
open Cose (Sign1 Label)
open Cose.Header (parameter?)

variable {c : Catalogue} {v : Verifier} {b : Bytes} {g : Sign1} {s : SignedManifest}

/-- The key identifier of a header, unless it is empty. -/
def keyIdOf (o : Bytes) : Option Bytes := if o = [] then none else some o

/-- **The parts of an object that a signed manifest is made of.** -/
theorem ofSign1_eq_ok : ofSign1 c g = .ok s ↔
    checkContentType g.header.contentType = .ok () ∧
    algorithmOf g.header.algorithm = .ok s.algorithm ∧
    metadataOf c g.header.rest = .ok s.metadata ∧ g.payload = some s.payload ∧
    Document.decodeCbor c s.payload = .ok s.manifest ∧
    s.keyId = keyIdOf g.header.keyId ∧ s.headerOctets = g.headerOctets ∧
    s.signature = g.signature := by
  unfold ofSign1
  rw [Result.check_eq_ok, Result.bind_eq_ok]
  refine and_congr_right ?_
  intro _
  constructor
  · rintro ⟨a, ha, h⟩
    obtain ⟨metadata, hm, h⟩ := Result.bind_eq_ok.1 h
    cases hp : g.payload with
    | none =>
      rw [hp] at h
      cases h
    | some payload =>
      rw [hp] at h
      obtain ⟨manifest, hd, h⟩ := Result.bind_eq_ok.1 h
      obtain rfl := Except.ok.inj h
      exact ⟨ha, Result.context_eq_ok.1 hm, rfl, Result.context_eq_ok.1 hd, rfl, rfl, rfl⟩
  · rintro ⟨ha, hm, hp, hd, hk, ho, hs⟩
    refine ⟨s.algorithm, ha, Result.bind_eq_ok.2 ⟨s.metadata, Result.context_eq_ok.2 hm, ?_⟩⟩
    rw [hp]
    refine Result.bind_eq_ok.2 ⟨s.manifest, Result.context_eq_ok.2 hd, ?_⟩
    obtain ⟨manifest, metadata, algorithm, keyId, headerOctets, payload, signature⟩ := s
    rw [show keyId = _ from hk, show headerOctets = _ from ho, show signature = _ from hs]
    rfl

theorem decode_eq_ok : decode c b = .ok s ↔ ∃ g, Sign1.parse? b = some g ∧ ofSign1 c g = .ok s := by
  unfold decode
  cases Sign1.parse? b with
  | none => exact ⟨nofun, nofun⟩
  | some g =>
    constructor
    · intro h
      exact ⟨g, rfl, h⟩
    · rintro ⟨f, hf, h⟩
      exact Option.some.inj hf ▸ h

/-- What octets have to be to be read as a signed manifest. -/
def Frames (b headerOctets : Bytes) (unprotected : Value) (payload signature : Bytes) : Prop :=
  Cbor.parse? Cose.envelopes b = some
    (.tag Sign1.tag (.array [.bytes headerOctets, unprotected, .bytes payload, .bytes signature]))

theorem frames_of_decode (h : decode c b = .ok s) :
    ∃ u, Frames b s.headerOctets u s.payload s.signature := by
  obtain ⟨g, hg, h⟩ := decode_eq_ok.1 h
  obtain ⟨-, -, -, hp, -, -, ho, hs⟩ := ofSign1_eq_ok.1 h
  obtain ⟨u, l, hb, -, -, hl⟩ := Cose.Sign1.parse?_eq_some.1 hg
  rw [hp] at hl
  -- a content that is not null is a byte string
  cases l with
  | bytes o =>
    obtain rfl := Option.some.inj (Option.some.inj hl)
    rw [← ho, ← hs] at hb
    exact ⟨u, hb⟩
  | _ => cases hl

/-- **What is read is a function of header and content**, the signature apart. -/
theorem decode_unique {b' signature : Bytes} {u : Value} {s' : SignedManifest}
    (h : decode c b = .ok s) (hb : Frames b' s.headerOctets u s.payload signature)
    (h' : decode c b' = .ok s') : s' = { s with signature := signature } := by
  obtain ⟨w, hw⟩ := frames_of_decode h'
  obtain ⟨g, hg, h⟩ := decode_eq_ok.1 h
  obtain ⟨g', hg', h'⟩ := decode_eq_ok.1 h'
  obtain ⟨-, ha, hm, -, hd, hk, ho, -⟩ := ofSign1_eq_ok.1 h
  obtain ⟨-, ha', hm', -, hd', hk', ho', -⟩ := ofSign1_eq_ok.1 h'
  obtain ⟨-, -, -, hh, -, -⟩ := Cose.Sign1.parse?_eq_some.1 hg
  obtain ⟨-, -, -, hh', -, -⟩ := Cose.Sign1.parse?_eq_some.1 hg'
  -- both inputs hold the same octets for header and content
  have hf := Option.some.inj (hb.symm.trans hw)
  simp only [Value.tag.injEq, Value.array.injEq, List.cons.injEq, Value.bytes.injEq] at hf
  obtain ⟨-, hheader, -, hpayload, hsignature, -⟩ := hf
  -- the same octets hold the same header, however far the layers may go
  have hsame : g'.header = g.header := by
    rw [← ho', ← hheader, ho] at hh'
    exact Cose.Header.ofOctets?_unique hh' hh
  rw [hsame] at ha' hm' hk'
  rw [← hpayload] at hd'
  obtain ⟨manifest, metadata, algorithm, keyId, headerOctets, payload, sig⟩ := s
  obtain ⟨manifest', metadata', algorithm', keyId', headerOctets', payload', sig'⟩ := s'
  simp only [mk.injEq]
  exact ⟨Except.ok.inj (hd'.symm.trans hd), Except.ok.inj (hm'.symm.trans hm),
    Except.ok.inj (ha'.symm.trans ha), hk'.trans hk.symm, hheader.symm, hpayload.symm,
    hsignature.symm⟩

/-! ### Accepted envelopes -/

theorem verify_eq_ok : s.verify v = .ok () ↔
    s.algorithm = some v.algorithm ∧ v.verify s.covered s.signature = .ok () := by
  unfold verify
  cases s.algorithm with
  | none => exact ⟨nofun, nofun⟩
  | some a =>
    dsimp only
    rw [Result.demand_eq_ok, Option.some.injEq]

theorem decodeVerified_eq_ok :
    decodeVerified c v b = .ok s ↔ decode c b = .ok s ∧ s.verify v = .ok () := by
  unfold decodeVerified
  rw [Result.bind_eq_ok]
  constructor
  · rintro ⟨t, ht, h⟩
    obtain ⟨hv, h⟩ := Result.check_eq_ok.1 h
    obtain rfl := Except.ok.inj h
    exact ⟨ht, hv⟩
  · rintro ⟨hd, hv⟩
    exact ⟨s, hd, Result.check_eq_ok.2 ⟨hv, rfl⟩⟩

/-- What a header says of a signed manifest: the algorithm, the content type, the key and the
metadata, each at its label. -/
structure Describes (c : Catalogue) (entries : Entries) (s : SignedManifest) : Prop where
  distinct : ∃ labels, Cose.Header.labels? entries = some labels ∧ labels.Nodup
  algorithm : ∀ a, s.algorithm = some a →
    (parameter? entries (.number 1)).bind Value.toInt? = some a.number
  contentType : parameter? entries (.number 3) = some (.text contentType)
  keyId : s.keyId = (parameter? entries (.number 4)).bind Cose.octets?
  noMetadata : s.metadata = none ↔ parameter? entries (.number 8) = none
  metadata : ∀ w, parameter? entries (.number 8) = some w → ∃ o metadata, w = .bytes o ∧
    s.metadata = some metadata ∧ Document.decodeCbor c o = .ok metadata ∧
    metadata.validate = .ok ()

theorem checkContentType_eq_ok {o : Option Cose.ContentType} :
    checkContentType o = .ok () ↔ o = some (.text contentType) := by
  unfold checkContentType
  split
  · exact ⟨nofun, nofun⟩
  · rw [Result.demand_eq_ok, and_iff_left rfl, Option.some.injEq, Cose.ContentType.text.injEq]
  · exact ⟨nofun, nofun⟩

theorem toInt?_of_algorithm? {w : Value} {n : Int} (h : Cose.algorithm? w = some (.number n)) :
    w.toInt? = some n := by
  unfold Cose.algorithm? at h
  split at h
  · cases h
  · obtain ⟨m, hm, h⟩ := Option.bind_eq_some_iff.1 h
    obtain ⟨k, hk, hm⟩ := Option.bind_eq_some_iff.1 hm
    have hkm := (Option.ite_none_right_eq_some.1 hm).2
    have hmn := (Option.ite_none_right_eq_some.1 h).2
    cases hkm
    cases hmn
    exact hk

theorem text_of_contentType? {w : Value} {t : String} (h : Cose.contentType? w = some (.text t)) :
    w = .text t := by
  unfold Cose.contentType? at h
  split at h
  · obtain ⟨-, h⟩ := Option.ite_none_right_eq_some.1 h
    cases h
    rfl
  · obtain ⟨n, -, h⟩ := Option.bind_eq_some_iff.1 h
    obtain ⟨m, -, h⟩ := Option.bind_eq_some_iff.1 h
    cases h

theorem number_of_algorithmOf {o : Option Cose.AlgorithmLabel} {a : Algorithm}
    (h : algorithmOf o = .ok (some a)) : o = some (.number a.number) := by
  unfold algorithmOf at h
  split at h
  · cases h
  · rename_i n
    have ha : Algorithm.ofNumber? n = some a := Except.ok.inj h
    have hn := List.find?_some ha
    rw [← beq_iff_eq.1 hn]
  · cases h

theorem keyIdOf_getD (o : Option Value) :
    keyIdOf ((o.bind Cose.octets?).getD []) = o.bind Cose.octets? := by
  cases ho : o.bind Cose.octets? with
  | none => rfl
  | some b =>
    obtain ⟨w, -, hw⟩ := Option.bind_eq_some_iff.1 ho
    cases w with
    | bytes d =>
      obtain ⟨hne, hd⟩ := Option.ite_none_left_eq_some.1 hw
      cases hd
      exact if_neg hne
    | _ => cases hw

/-- The metadata of the further parameters stand at their label, in a byte string. -/
theorem metadataOf_eq_ok {rest : List (Label × Value)} {o : Option Meta} :
    metadataOf c rest = .ok o ↔ (rest.find? (·.1 == .number 8) = none ∧ o = none) ∨
      ∃ l d metadata, rest.find? (·.1 == .number 8) = some (l, .bytes d) ∧
        Document.decodeCbor c d = .ok metadata ∧ o = some metadata := by
  have hl : metadataLabel.toInt = 8 := by decide
  unfold metadataOf
  rw [hl]
  cases rest.find? (·.1 == .number 8) with
  | none =>
    constructor
    · intro h
      exact .inl ⟨rfl, (Except.ok.inj h).symm⟩
    · rintro (⟨-, rfl⟩ | ⟨l, d, metadata, h, -⟩)
      · rfl
      · cases h
  | some e =>
    obtain ⟨l, w⟩ := e
    constructor
    · intro h
      cases w with
      | bytes d =>
        obtain ⟨metadata, hd, rfl⟩ := Result.map_eq_ok.1 h
        exact .inr ⟨l, d, metadata, rfl, hd, rfl⟩
      | _ => cases h
    · rintro (⟨h, -⟩ | ⟨l', d, metadata, h, hd, rfl⟩)
      · cases h
      · obtain ⟨rfl, rfl⟩ := Prod.mk.inj (Option.some.inj h)
        exact Result.map_eq_ok.2 ⟨metadata, hd, rfl⟩

/-- **A header says all that is read from it.** -/
theorem describes_of_decode (h : decode c b = .ok s) :
    ∃ entries, Cbor.parse? Cose.envelopes s.headerOctets = some (.map entries) ∧
      Describes c entries s := by
  obtain ⟨g, hg, h⟩ := decode_eq_ok.1 h
  obtain ⟨ht, ha, hm, -, -, hk, ho, -⟩ := ofSign1_eq_ok.1 h
  obtain ⟨-, -, -, hh, -, -⟩ := Cose.Sign1.parse?_eq_some.1 hg
  rw [checkContentType_eq_ok] at ht
  -- an empty header has no content type
  have hne : g.headerOctets ≠ [] := by
    intro he
    rw [he] at hh
    rw [← Option.some.inj hh] at ht
    cases ht
  obtain ⟨entries, hp, hd⟩ := Cose.Header.describes_of_ofOctets? hne hh
  rw [metadataOf_eq_ok, hd.further (.number 8) (by decide)] at hm
  rw [ho]
  refine ⟨entries, hp, hd.distinct, fun a hs => ?_, ?_, ?_, ?_, fun w hw => ?_⟩
  · -- the algorithm
    rw [hs] at ha
    have hn := hd.algorithm.symm.trans (number_of_algorithmOf ha)
    obtain ⟨w, hw, hn⟩ := Option.bind_eq_some_iff.1 hn
    rw [hw, Option.bind_some, toInt?_of_algorithm? hn]
  · obtain ⟨w, hw, hn⟩ := Option.bind_eq_some_iff.1 (hd.contentType.symm.trans ht)
    rw [hw, text_of_contentType? hn]
  · rw [hk, hd.keyId, keyIdOf_getD]
  · -- there is metadata if and only if its label is there
    rcases hm with ⟨hn, ho⟩ | ⟨l, d, metadata, hs, -, ho⟩
    · exact ⟨fun _ => Option.map_eq_none_iff.1 hn, fun _ => ho⟩
    · obtain ⟨w, hw, -⟩ := Option.map_eq_some_iff.1 hs
      rw [ho, hw]
      exact ⟨nofun, nofun⟩
  · rcases hm with ⟨hn, -⟩ | ⟨l, d, metadata, hs, hd, ho⟩
    · rw [hw] at hn
      cases hn
    · rw [hw] at hs
      obtain ⟨rfl, rfl⟩ := Prod.mk.inj (Option.some.inj hs)
      exact ⟨d, metadata, rfl, ho, hd, Document.validate_of_decodeCbor hd⟩

/-- **An accepted envelope is signed, and it says all that was read.** -/
theorem decodeVerified_sound (h : decodeVerified c v b = .ok s) :
    (∃ u, Frames b s.headerOctets u s.payload s.signature) ∧
    v.verify (Value.array [.text "Signature1", .bytes s.headerOctets, .bytes [],
      .bytes s.payload]).encode s.signature = .ok () ∧
    s.algorithm = some v.algorithm ∧
    (∃ entries, Cbor.parse? Cose.envelopes s.headerOctets = some (.map entries) ∧
      Describes c entries s) ∧
    Document.decodeCbor c s.payload = .ok s.manifest ∧ s.manifest.validate = .ok () ∧
    ∀ b' u' signature s', Frames b' s.headerOctets u' s.payload signature →
      decode c b' = .ok s' → s' = { s with signature := signature } := by
  obtain ⟨hd, hv⟩ := decodeVerified_eq_ok.1 h
  obtain ⟨ha, hsig⟩ := verify_eq_ok.1 hv
  obtain ⟨g, -, hg⟩ := decode_eq_ok.1 hd
  obtain ⟨-, -, -, -, hm, -, -, -⟩ := ofSign1_eq_ok.1 hg
  exact ⟨frames_of_decode hd, hsig, ha, describes_of_decode hd, hm,
    Document.validate_of_decodeCbor hm, fun _ _ _ _ hb hd' => decode_unique hd hb hd'⟩

/-- A signer whose signatures are the starts of messages. -/
def sampleSigner : Signer := ⟨.es256, some [7], fun message => .ok (message.take 8)⟩

/-- The verifier of those signatures. -/
def sampleVerifier : Verifier where
  algorithm := .es256
  verify message signature :=
    if signature = message.take 8 then .ok () else .error (.signatureMismatch "another start")

/-- Metadata without a window. -/
def sampleMeta : Meta := ⟨⟨"ACME Ltd", some "https://acme.example"⟩, none⟩

/-- The sample in an envelope. -/
def sampleEnvelope : Bytes :=
  match sign .sample sampleMeta (some sampleSigner) with
  | .ok b => b
  | .error _ => []

/-- The envelope of the sample is accepted, so it is signed and valid. -/
theorem decodeVerified_sound_sample :
    ∃ s, decodeVerified Catalogue.bundled sampleVerifier sampleEnvelope = .ok s ∧
      sampleVerifier.verify (Value.array [.text "Signature1", .bytes s.headerOctets, .bytes [],
        .bytes s.payload]).encode s.signature = .ok () ∧
      s.algorithm = some .es256 ∧ s.manifest.validate = .ok () := by
  have hok : (decodeVerified Catalogue.bundled sampleVerifier sampleEnvelope).isOk := by
    decide +kernel
  cases h : decodeVerified Catalogue.bundled sampleVerifier sampleEnvelope with
  | error e =>
    rw [h] at hok
    cases hok
  | ok s =>
    obtain ⟨-, hs, ha, -, -, hm, -⟩ := decodeVerified_sound h
    exact ⟨s, rfl, hs, ha, hm⟩

end Rim.SignedManifest
