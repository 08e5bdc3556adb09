import Rim.Proofs.Manifest.Failure
import Rim.Proofs.Signed.Altered

/-!
# The outcomes of a signed manifest

A signed manifest can be malformed, invalid or untrusted. What refuses to read an envelope says that it
is malformed or that it is invalid, never both and never that it is untrusted; what refuses the signature
of one that was read says that it is untrusted and nothing else. The content type is looked at before
anything else that a header or the content says.

* `ErrorKind.refusals`: the kinds of errors of envelopes that are not read.
* `decode_failsAs`: envelopes that are not read are refused with one of them.
* `ofSign1_of_contentType`: another content type is refused before all else.
* `decode_outcomes`: which outcome every input has.
-/

namespace Rim

/-- The kinds of errors of envelopes that are not read. -/
def ErrorKind.refusals : List ErrorKind :=
  [.unknownTypeChoice, .malformed, .notAnEnvelope, .invalid, .missingField, .emptyIdentifier,
   .missingContentType, .unexpectedContentType]

/-- An error of one of these kinds has exactly one outcome, and the signature has no part in it. -/
theorem Error.outcome_of_refusals {e : Error} (h : e.kind ∈ ErrorKind.refusals) :
    (e.isMalformed ^^ e.isInvalid) = true ∧ e.isUntrusted = false := by
  unfold isMalformed isInvalid isUntrusted
  generalize e.kind = k at h ⊢
  revert k
  decide

/-- The error of a signature has one outcome. -/
theorem Error.outcome_of_signatureMismatch {e : Error} (h : e.kind = .signatureMismatch) :
    e.isUntrusted = true ∧ e.isMalformed = false ∧ e.isInvalid = false := by
  unfold isMalformed isInvalid isUntrusted
  rw [h]
  decide

namespace SignedManifest

open Cose (Sign1)
open ErrorKind (documents refusals)

variable {c : Catalogue} {g : Sign1}

theorem checkContentType_failsAs (t : Option Cose.ContentType) :
    (checkContentType t).FailsAs refusals := by
  have hmissing : ErrorKind.missingContentType ∈ refusals := by decide
  have hunexpected : ErrorKind.unexpectedContentType ∈ refusals := by decide
  cases t with
  | none => exact hmissing
  | some t =>
    cases t with
    | text s => exact .ite trivial hunexpected
    | format name => exact hunexpected

theorem algorithmOf_failsAs (a : Option Cose.AlgorithmLabel) :
    (algorithmOf a).FailsAs documents := by
  cases a with
  | none => exact (by decide : ErrorKind.missingField ∈ documents)
  | some a => cases a <;> trivial

theorem metadataOf_failsAs (rest : List (Cose.Label × Cbor.Value)) :
    (metadataOf c rest).FailsAs documents := by
  unfold metadataOf
  split
  · trivial
  · exact (Meta.decodeCbor_failsAs _).map fun _ _ => trivial
  · exact Result.Ends.malformed.mono (by decide)

/-- **An envelope that is not read** is none, or its header, its metadata or its content is refused. -/
theorem decode_failsAs (hc : c.Consistent) (ho : c.registry.Owned) (hf : c.Lawful) (b : Bytes) :
    (decode c b).FailsAs refusals := by
  unfold decode
  split
  · exact (by decide : ErrorKind.notAnEnvelope ∈ refusals)
  · rename_i g _
    have hdocuments : documents ⊆ refusals := by decide
    refine (checkContentType_failsAs _).bind fun _ _ => ?_
    refine ((algorithmOf_failsAs _).mono hdocuments).bind fun _ _ => ?_
    refine (((metadataOf_failsAs _).mono hdocuments).context _).bind fun _ _ => ?_
    split
    · exact (by decide : ErrorKind.missingField ∈ refusals)
    · rename_i payload _
      have hpayload := Manifest.decodeCbor_failsAs hc ho hf payload
      exact ((hpayload.mono hdocuments).context _).bind fun _ _ => trivial

/-- **Another content type is refused before all else**, and so is none. -/
theorem ofSign1_of_contentType {e : Error} (h : checkContentType g.header.contentType = .error e) :
    ofSign1 c g = .error e := by
  unfold ofSign1
  rw [h]
  rfl

/-- **Which outcome every input has.** With kinds and registered profiles whose rules refuse values as
invalid, an input that is not read is malformed or invalid, not both and not untrusted. If it is read,
each key accepts the signature or finds it untrusted, and nothing else. An envelope without a content
type, or with another one, is refused for that whatever else is in it. -/
theorem decode_outcomes (hc : c.Reachable) (ho : c.registry.Owned) (hf : c.Lawful) (b : Bytes) :
    (∀ e, decode c b = .error e → e.kind ∈ refusals ∧ (e.isMalformed ^^ e.isInvalid) = true ∧
      e.isUntrusted = false) ∧
    (∀ s, decode c b = .ok s → ∀ k : VerifyingKey, s.verify k.verifier = .ok () ∨
      ∃ e, s.verify k.verifier = .error e ∧ e.isUntrusted = true ∧ e.isMalformed = false ∧
        e.isInvalid = false) ∧
    ∀ g, Sign1.parse? b = some g →
      (g.header.contentType = none → decode c b = .error .missingContentType) ∧
      (∀ t, g.header.contentType = some (.text t) → t ≠ contentType →
        decode c b = .error (.unexpectedContentType contentType t)) ∧
      ∀ name, g.header.contentType = some (.format name) →
        decode c b = .error (.unexpectedContentType contentType name) := by
  have hconsistent := Catalogue.consistent_of_reachable hc
  refine ⟨fun e he => ?_, fun s _ k => ?_, fun g hg => ?_⟩
  · have hkind := (decode_failsAs hconsistent ho hf b).of_error he
    exact ⟨hkind, Error.outcome_of_refusals hkind⟩
  · cases hv : s.verify k.verifier with
    | ok _ => exact .inl rfl
    | error e =>
      have hkind := (verify_failsAs k s).of_error hv
      exact .inr ⟨e, rfl, Error.outcome_of_signatureMismatch (List.mem_singleton.1 hkind)⟩
  · have hdecode : decode c b = ofSign1 c g := by
      unfold decode
      rw [hg]
    rw [hdecode]
    refine ⟨fun h => ?_, fun t h ht => ?_, fun name h => ?_⟩
    · exact ofSign1_of_contentType (by rw [h]; rfl)
    · refine ofSign1_of_contentType ?_
      rw [h]
      exact if_neg ht
    · exact ofSign1_of_contentType (by rw [h]; rfl)

/-- An envelope that says nothing. -/
def bareEnvelope : Bytes := Sign1.encode [] [] []

/-- No octets at all are malformed or invalid, the envelope that says nothing has no content type, and
each key accepts the signature of the sample or finds it untrusted. -/
theorem decode_outcomes_sample :
    (∃ e, decode Catalogue.bundled [] = .error e ∧ e.kind ∈ refusals ∧
      (e.isMalformed ^^ e.isInvalid) = true ∧ e.isUntrusted = false) ∧
    decode Catalogue.bundled bareEnvelope = .error .missingContentType ∧
    ∃ s, decode Catalogue.bundled sampleEnvelope = .ok s ∧ ∀ k : VerifyingKey,
      s.verify k.verifier = .ok () ∨ ∃ e, s.verify k.verifier = .error e ∧ e.isUntrusted = true ∧
        e.isMalformed = false ∧ e.isInvalid = false := by
  have houtcomes := decode_outcomes Catalogue.bundled_reachable (by decide)
    Catalogue.bundled_lawful
  refine ⟨?_, ?_, ?_⟩
  · exact ⟨_, rfl, (houtcomes []).1 _ rfl⟩
  · have hparse : Sign1.parse? bareEnvelope = some ⟨[], .empty, some [], []⟩ := rfl
    exact ((houtcomes bareEnvelope).2.2 _ hparse).1 rfl
  · have hok : (decode Catalogue.bundled sampleEnvelope).isOk := by decide +kernel
    cases h : decode Catalogue.bundled sampleEnvelope with
    | error e =>
      rw [h] at hok
      cases hok
    | ok s => exact ⟨s, rfl, (houtcomes sampleEnvelope).2.1 s h⟩

end SignedManifest

end Rim
