import Rim.Proofs.Comid.Growth
import Rim.Proofs.Manifest.Cbor
import Rim.Proofs.Manifest.Json
import Rim.Proofs.Signed.Decoding

/-!
# What is accepted stays accepted

A manifest or a signed manifest that is read with a catalogue is read with every catalogue that the
first one grows to, and is the same one. So no run of registrations, successful or not, changes what an
accepted document means; a document may name a profile before it is registered.

* `Manifest.ofCbor_within`, `Manifest.ofJson_within`: manifests in either format.
* `SignedManifest.decode_within`: signed manifests.
* `Catalogue.accepted_after_run`: all three after any run of calls.
-/

namespace Rim

variable {c c' : Catalogue} {s s' : Scope}

/-! ### Embedded tags -/

namespace EmbeddedTag

theorem ofCbor_within (h : s.Grows s') (v : Cbor.Value) :
    (EmbeddedTag.ofCbor s v).Within (EmbeddedTag.ofCbor s' v) := by
  refine .bind (.refl _) fun b => ?_
  unfold ofOctets
  split
  · refine .bind (.refl _) fun _ => .bind (.refl _) fun body => ?_
    exact .bind (Comid.ofCbor_within h body) fun _ => .refl _
  · exact .refl _

theorem ofJson_within (h : s.Grows s') (v : Json.Value) :
    (EmbeddedTag.ofJson s v).Within (EmbeddedTag.ofJson s' v) := by
  refine .bind (.refl _) fun t => ?_
  dsimp only
  split
  · exact .bind (Comid.ofJson_within h t.2) fun _ => .refl _
  · exact .refl _

end EmbeddedTag

/-! ### Manifests -/

namespace Manifest

/-- **A manifest is read as before.** -/
theorem ofCbor_within (h : c.Grows c') (v : Cbor.Value) :
    (Manifest.ofCbor c v).Within (Manifest.ofCbor c' v) := by
  refine Cbor.Value.readMap_within ?_ _ v
  -- the profile it names may have been registered since
  refine .bind (.refl _) fun profile => ?_
  refine .bind (.refl _) fun id => ?_
  refine .bind (.requireWith (fun v => ?_) _ _) fun _ => .refl _
  refine .bind (.refl _) fun items => ?_
  exact readEach_within (EmbeddedTag.ofCbor_within (h.scope profile)) _ items

/-- **A printed manifest is read as before.** -/
theorem ofJson_within (h : c.Grows c') (v : Json.Value) :
    (Manifest.ofJson c v).Within (Manifest.ofJson c' v) := by
  refine Json.Value.readObject_within ?_ _ v
  refine .bind (.refl _) fun profile => ?_
  refine .bind (.refl _) fun id => ?_
  refine .bind (.requireWith (fun v => ?_) _ _) fun _ => .refl _
  refine .bind (.refl _) fun items => ?_
  exact readEach_within (EmbeddedTag.ofJson_within (h.scope profile)) _ items

end Manifest

/-! ### Documents -/

namespace Document

variable {δ : Type} [Document δ]

theorem decodeCbor_within (h : ∀ v, (ofCbor c v : Result δ).Within (ofCbor c' v)) (b : Bytes) :
    (decodeCbor c b : Result δ).Within (decodeCbor c' b) := by
  refine .bind (.refl _) fun _ => .bind (.refl _) fun w => ?_
  exact .bind ((h w).context _) fun _ => .refl _

theorem decodeJson_within (h : ∀ v, (ofJson c v : Result δ).Within (ofJson c' v)) (t : String) :
    (decodeJson c t : Result δ).Within (decodeJson c' t) :=
  .bind (.refl _) fun v => .bind ((h v).context _) fun _ => .refl _

end Document

/-- **A signed manifest is read as before**; its metadata do not depend on the catalogue. -/
theorem SignedManifest.decode_within (h : c.Grows c') (b : Bytes) :
    (SignedManifest.decode c b).Within (SignedManifest.decode c' b) := by
  intro s hs
  obtain ⟨g, hg, hs⟩ := decode_eq_ok.1 hs
  obtain ⟨ht, ha, hm, hp, hd, hrest⟩ := ofSign1_eq_ok.1 hs
  have hd' : Document.decodeCbor c' s.payload = .ok s.manifest :=
    Document.decodeCbor_within (Manifest.ofCbor_within h) s.payload s.manifest hd
  exact decode_eq_ok.2 ⟨g, hg, ofSign1_eq_ok.2 ⟨ht, ha, hm, hp, hd', hrest⟩⟩

namespace Catalogue

/-- **What is accepted stays accepted, and it means the same**, in either format and signed, after any
run of registrations of readings, kinds and profiles, whether they succeed or fail. -/
theorem accepted_after_run (c : Catalogue) (calls : List Call) :
    (∀ b (m : Manifest), Document.decodeCbor c b = .ok m →
      Document.decodeCbor (calls.foldl call c) b = .ok m) ∧
    (∀ t (m : Manifest), Document.decodeJson c t = .ok m →
      Document.decodeJson (calls.foldl call c) t = .ok m) ∧
    ∀ b s, SignedManifest.decode c b = .ok s →
      SignedManifest.decode (calls.foldl call c) b = .ok s := by
  have h := run_grows c calls
  exact ⟨Document.decodeCbor_within (Manifest.ofCbor_within h),
    Document.decodeJson_within (Manifest.ofJson_within h), SignedManifest.decode_within h⟩

end Catalogue

/-- A manifest that names the TDX profile and has no extension values. -/
def Manifest.early : Manifest := { single (.comid .plain) with profile := some Tdx.profileId }

/-- The manifest in an envelope. -/
def SignedManifest.earlyEnvelope : Bytes :=
  match sign .early sampleMeta (some sampleSigner) with
  | .ok b => b
  | .error _ => []

namespace Catalogue

open Manifest (early)
open SignedManifest (earlyEnvelope)

theorem early_tags (t : EmbeddedTag) (ht : t ∈ early.tags) :
    t.Readable initial.core ∧ t.ReadableText initial.core := by
  obtain rfl := List.mem_singleton.1 ht
  have hr : initial.core.Reads [.oid ⟨[0x2a, 0x03]⟩, .svn 7] [] :=
    ⟨by decide +kernel, by decide +kernel, nofun, nofun⟩
  exact ⟨hr, hr, fun u hu => by cases hu⟩

/-- The manifest is read before the profile that it names is registered, and after. -/
theorem accepted_after_run_sample :
    initial.profile? Tdx.profileId = none ∧
      ((initial.call (.registerProfile Tdx.profile)).profile? Tdx.profileId).isSome ∧
      Document.decodeCbor (initial.call (.registerProfile Tdx.profile))
        (Document.tagged early).encode = .ok early ∧
      Document.decodeJson (initial.call (.registerProfile Tdx.profile)) early.toJson.render =
        .ok early ∧
      ∃ s, SignedManifest.decode initial earlyEnvelope = .ok s ∧
        SignedManifest.decode (initial.call (.registerProfile Tdx.profile)) earlyEnvelope = .ok s := by
  obtain ⟨hb, hj, hs⟩ := accepted_after_run initial [.registerProfile Tdx.profile]
  have hscope : (initial.scope early.profile).Consistent := initial_consistent.scope _
  have hwindow (v : Validity) : v ∉ early.validity := Option.not_mem_none v
  have hcbor : Manifest.ofCbor initial early.toCbor = .ok early :=
    Manifest.ofCbor_toCbor hscope (fun t ht => (early_tags t ht).1) (by decide +kernel)
      fun v hv => absurd hv (hwindow v)
  have hjson : Manifest.ofJson initial early.toJson = .ok early :=
    Manifest.ofJson_toJson hscope (fun u hu => by cases hu) (fun t ht => (early_tags t ht).2)
      (by decide +kernel) (fun v hv => absurd hv (hwindow v)) fun v hv => absurd hv (hwindow v)
  have hsigned : (SignedManifest.decode initial earlyEnvelope).isOk := by decide +kernel
  refine ⟨rfl, rfl, hb _ _ ?_, hj _ _ ?_, ?_⟩
  · exact Document.decodeCbor_of_ofCbor rfl early.canonical_tagged (by decide +kernel)
      (Document.untagged_tagged rfl) hcbor
  · exact Document.decodeJson_of_ofJson rfl (early.canonical_toJson.mono (by decide)) hjson
  · cases h : SignedManifest.decode initial earlyEnvelope with
    | error e =>
      rw [h] at hsigned
      cases hsigned
    | ok s => exact ⟨s, rfl, hs _ s h⟩

end Catalogue

end Rim
