import Rim.Proofs.Signed.Decoding
import Rim.Signed.Acceptance

/-!
# What a policy accepts

A policy asks for an algorithm, perhaps for metadata and perhaps for windows that hold the instant, and
then the signature has to hold. Each of these is asked for on its own, so a policy that asks for less
accepts whatever a policy that asks for more accepts.

* `Validity.Holds`, `SignedManifest.Meets`: what windows and policies ask for.
* `verifyUnder_eq_ok`: acceptance is a valid policy that is met and a signature that holds.
* `Meets.mono`: a manifest that meets a policy meets those that it tightens.
* `verifyUnder_standard`: the standard policy asks for the signature and nothing else.
* `verifyUnder_spec`: the three together, for every signed manifest and every verifier.
-/

namespace Rim

open Time (Instant)

/-- An instant is not before the start of a window, if it has one, and not after its end. -/
structure Validity.Holds (w : Validity) (now : Instant) : Prop where
  start : ∀ t ∈ w.notBefore, t ≤ now
  finish : now ≤ w.notAfter

theorem Validity.checkAt_eq_ok {w : Validity} {now : Instant} :
    w.checkAt now = .ok () ↔ w.Holds now := by
  have hcontains : w.contains now = true ↔ w.Holds now := by
    unfold contains
    rw [Bool.and_eq_true, decide_eq_true_iff]
    cases hw : w.notBefore with
    | none =>
      constructor
      · rintro ⟨-, hend⟩
        exact ⟨by simp [hw], hend⟩
      · intro h
        exact ⟨rfl, h.finish⟩
    | some t =>
      constructor
      · rintro ⟨hstart, hend⟩
        exact ⟨by simpa [hw] using hstart, hend⟩
      · intro h
        exact ⟨decide_eq_true (h.start t hw), h.finish⟩
  unfold checkAt
  rw [Result.demand_eq_ok, and_iff_left rfl, hcontains]

namespace Policy

/-- A policy asks for at least what another one asks for: it allows no further algorithms, and it asks
for metadata and windows where the other one does. -/
structure Tightens (q p : Policy) : Prop where
  algorithms : q.algorithms ⊆ p.algorithms
  requireMeta : p.requireMeta = true → q.requireMeta = true
  checkValidity : p.checkValidity = true → q.checkValidity = true

/-- A policy that asks for everything there is to ask for, with one algorithm. -/
def strict : Policy := ⟨["ES256"], true, true⟩

theorem allows_iff {p : Policy} {a : Algorithm} : p.allows a = true ↔ a.name ∈ p.algorithms :=
  List.contains_iff_mem

theorem standard_validate : standard.validate = .ok () := by decide

theorem name_mem_standard (a : Algorithm) : a.name ∈ standard.algorithms := by
  cases a <;> decide

end Policy

namespace SignedManifest

variable {p q : Policy} {now : Instant} {v : Verifier} {s : SignedManifest}

/-- What a policy asks of a signed manifest at an instant, apart from the signature. -/
structure Meets (p : Policy) (now : Instant) (s : SignedManifest) : Prop where
  algorithm : ∃ a, s.algorithm = some a ∧ a.name ∈ p.algorithms
  metadata : p.requireMeta = true → ∃ metadata, s.metadata = some metadata
  metadataWindow : p.checkValidity = true →
    ∀ metadata ∈ s.metadata, ∀ w ∈ metadata.validity, w.Holds now
  manifestWindow : p.checkValidity = true → ∀ w ∈ s.manifest.validity, w.Holds now

theorem checkAlgorithm_eq_ok :
    checkAlgorithm p s = .ok () ↔ ∃ a, s.algorithm = some a ∧ a.name ∈ p.algorithms := by
  unfold checkAlgorithm
  cases s.algorithm with
  | none => exact ⟨nofun, nofun⟩
  | some a =>
    dsimp only
    rw [Result.demand_eq_ok, and_iff_left rfl, Policy.allows_iff]
    constructor
    · intro ha
      exact ⟨a, rfl, ha⟩
    · rintro ⟨b, hb, ha⟩
      exact Option.some.inj hb ▸ ha

theorem checkMetadata_eq_ok : checkMetadata p s = .ok () ↔
    (p.requireMeta = true → ∃ metadata, s.metadata = some metadata) := by
  unfold checkMetadata
  rw [Result.refuse_eq_ok, and_iff_left rfl, not_and, Option.isNone_iff_eq_none]
  exact imp_congr_right fun _ => Option.ne_none_iff_exists'

theorem checkWindows_eq_ok : checkWindows p now s = .ok () ↔ (p.checkValidity = true →
    (∀ metadata ∈ s.metadata, ∀ w ∈ metadata.validity, w.Holds now) ∧
      ∀ w ∈ s.manifest.validity, w.Holds now) := by
  unfold checkWindows
  split
  · rename_i hp
    rw [Result.check_eq_ok, forall_prop_of_true hp, checkOptional_eq_ok]
    unfold Meta.checkValidity Manifest.checkValidity
    simp only [Result.context_eq_ok, checkOptional_eq_ok, Validity.checkAt_eq_ok]
  · rename_i hp
    exact ⟨fun _ h => absurd h hp, fun _ => rfl⟩

/-- **When a signed manifest is accepted**: the policy is valid, the manifest meets it, and the signature
holds. -/
theorem verifyUnder_eq_ok : verifyUnder p now v s = .ok () ↔
    p.validate = .ok () ∧ Meets p now s ∧ s.verify v = .ok () := by
  unfold verifyUnder
  rw [Result.check_eq_ok, Result.check_eq_ok, Result.check_eq_ok, Result.check_eq_ok,
    checkAlgorithm_eq_ok, checkMetadata_eq_ok, checkWindows_eq_ok]
  constructor
  · rintro ⟨hp, ha, hm, hw, hv⟩
    exact ⟨hp, ⟨ha, hm, fun h => (hw h).1, fun h => (hw h).2⟩, hv⟩
  · rintro ⟨hp, h, hv⟩
    exact ⟨hp, h.algorithm, h.metadata, fun hc => ⟨h.metadataWindow hc, h.manifestWindow hc⟩, hv⟩

/-- **A manifest that meets a policy meets those that it tightens.** -/
theorem Meets.mono (hq : q.Tightens p) (h : Meets q now s) : Meets p now s := by
  obtain ⟨a, ha, hname⟩ := h.algorithm
  exact {
    algorithm := ⟨a, ha, hq.algorithms hname⟩
    metadata := fun hp => h.metadata (hq.requireMeta hp)
    metadataWindow := fun hp => h.metadataWindow (hq.checkValidity hp)
    manifestWindow := fun hp => h.manifestWindow (hq.checkValidity hp) }

/-- **The standard policy asks for the signature and nothing else**: the failures are the same too. -/
theorem verifyUnder_standard : verifyUnder .standard now v s = s.verify v := by
  unfold verifyUnder
  rw [Policy.standard_validate, Result.ok_bind]
  cases hs : s.algorithm with
  | none =>
    -- both refuse an unknown algorithm in the same words
    have hverify : s.verify v = .error (.signatureMismatch "unsupported algorithm") := by
      unfold verify
      rw [hs]
    have hcheck : checkAlgorithm .standard s =
        .error (.signatureMismatch "unsupported algorithm") := by
      unfold checkAlgorithm
      rw [hs]
    rw [hcheck, hverify, Result.error_bind]
  | some a =>
    have halgorithm := checkAlgorithm_eq_ok.2 ⟨a, hs, Policy.name_mem_standard a⟩
    have hmetadata : checkMetadata .standard s = .ok () := checkMetadata_eq_ok.2 nofun
    have hwindows : checkWindows .standard now s = .ok () := checkWindows_eq_ok.2 nofun
    rw [halgorithm, hmetadata, hwindows, Result.ok_bind, Result.ok_bind, Result.ok_bind]

/-- **Acceptance is exact and monotone.** A signed manifest is accepted under a policy if and only if the
policy is valid, the algorithm is a known one that it names, the metadata that it asks for is there, the
instant lies in the windows that it looks at, and the signature holds. What a policy accepts is accepted
under each valid policy that it tightens, and by the signature alone. Under the standard policy the
signature alone decides, at every instant. -/
theorem verifyUnder_spec (s : SignedManifest) (v : Verifier) :
    (∀ p now, verifyUnder p now v s = .ok () ↔
      p.validate = .ok () ∧ Meets p now s ∧ s.verify v = .ok ()) ∧
    (∀ p q now, p.validate = .ok () → q.Tightens p → verifyUnder q now v s = .ok () →
      verifyUnder p now v s = .ok () ∧ s.verify v = .ok ()) ∧
    ∀ now, verifyUnder .standard now v s = s.verify v := by
  refine ⟨fun p now => verifyUnder_eq_ok, fun p q now hp hq h => ?_, fun now =>
    verifyUnder_standard⟩
  obtain ⟨-, hmeets, hv⟩ := verifyUnder_eq_ok.1 h
  exact ⟨verifyUnder_eq_ok.2 ⟨hp, hmeets.mono hq, hv⟩, hv⟩

/-- The year 2026, which lies in the window of the sample. -/
def year2026 : Validity := ⟨some ⟨1767225600, 0, by decide⟩, ⟨1798761599, 0, by decide⟩⟩

/-- An envelope of the sample whose metadata is valid in that year. -/
def windowedEnvelope : Bytes :=
  match sign .sample ⟨⟨"ACME Ltd", none⟩, some year2026⟩ (some sampleSigner) with
  | .ok b => b
  | .error _ => []

/-- On the first of July the envelope is accepted under the policy that asks for everything, so it is
under the standard one, and its signature holds. -/
theorem verifyUnder_spec_windowed :
    ∃ s, decode Catalogue.bundled windowedEnvelope = .ok s ∧
      verifyUnder .strict ⟨1782864000, 0, by decide⟩ sampleVerifier s = .ok () ∧
      verifyUnder .standard ⟨1782864000, 0, by decide⟩ sampleVerifier s = .ok () ∧
      s.verify sampleVerifier = .ok () := by
  have hok : (do
      let s ← decode Catalogue.bundled windowedEnvelope
      verifyUnder .strict ⟨1782864000, 0, by decide⟩ sampleVerifier s) = .ok () := by
    decide +kernel
  obtain ⟨s, hs, hstrict⟩ := Result.bind_eq_ok.1 hok
  have htightens : Policy.strict.Tightens .standard := ⟨by decide, by decide, by decide⟩
  obtain ⟨-, hmono, -⟩ := verifyUnder_spec s sampleVerifier
  obtain ⟨hstandard, hsignature⟩ := hmono _ _ _ Policy.standard_validate htightens hstrict
  exact ⟨s, hs, hstrict, hstandard, hsignature⟩

end SignedManifest

end Rim
