import Rim.Proofs.Comid.Json
import Rim.Proofs.Document

/-!
# Manifests in the text format

A valid manifest is read back from its printed form if what it holds is known, no text identifier in
it writes a UUID, and the years of its window have four digits. Embedded octets may be any.

* `EmbeddedTag.ofJson_toJson`: the two kinds of embedded tags have types of their own.
* `Manifest.ofJson_toJson`: the text form.
* `Manifest.json_roundtrip`: the printed form, after any run of registrations.
-/

namespace Rim

open Json Unread

namespace EmbeddedTag

/-- What it takes to read an embedded tag from the text format. -/
def ReadableText (s : Scope) : EmbeddedTag → Prop
  | comid c => s.Reads c.triples.choices c.triples.extensionEntries ∧ c.identity.id.Unmistakable
  | opaqueOctets _ => True

theorem ofJson_toJson {s : Scope} (hs : s.Consistent) {t : EmbeddedTag} (h : t.ReadableText s) :
    EmbeddedTag.ofJson s t.toJson = .ok t := by
  cases t with
  | comid c =>
    obtain ⟨hr, hid⟩ := h
    unfold ofJson toJson
    rw [Value.untyped_typed]
    show (do return comid (← Comid.ofJson s c.toJson) : Result EmbeddedTag) = _
    rw [Comid.ofJson_toJson hs hr hid]
    rfl
  | opaqueOctets b =>
    unfold ofJson toJson
    rw [Value.untyped_typed]
    show (do return opaqueOctets (← (Value.ofBytes b).toBytes "opaque tag") : Result EmbeddedTag) = _
    rw [Value.toBytes_ofBytes]
    rfl

theorem canonical_toJson (t : EmbeddedTag) : t.toJson.Canonical 10 := by
  cases t with
  | comid c => exact .typed c.canonical_toJson
  | opaqueOctets b => exact .typed (.ofBytes b)

end EmbeddedTag

namespace Manifest

variable {c : Catalogue} {m : Manifest}

theorem ofJson_toJson (hs : (c.scope m.profile).Consistent) (hid : m.id.Unmistakable)
    (ht : ∀ t ∈ m.tags, t.ReadableText (c.scope m.profile))
    (hp : ∀ p ∈ m.profile, p.validate = .ok ()) (hv : ∀ v ∈ m.validity, v.validate = .ok ())
    (hy : ∀ v ∈ m.validity, ∀ t ∈ v.bounds, t.FourDigitYear) :
    Manifest.ofJson c m.toJson = .ok m := by
  refine Value.readObject_ofMemberList
    ["corim-id", "tags", "dependent-rims", "profile", "validity", "entities"] rfl (by decide) ?_
  -- the profile is read before everything else
  refine .front [_, _, _] ?_
  refine .bind (.takeWith fun p h => Result.context_eq_ok.2 (ProfileId.ofJson_toJson (hp p h))) ?_
  refine .bind (.requireWith (Result.context_eq_ok.2 (Identifier.ofJson_toJson hid))) ?_
  refine .bind (.requireWith (readEach_map fun t h => EmbeddedTag.ofJson_toJson hs (ht t h))) ?_
  refine .bind (.takeList (fun _ => rfl) (mapM_map fun l _ => l.ofJson_toJson)) ?_
  refine .bind (.takeWith fun v h =>
    Result.context_eq_ok.2 (Validity.ofJson_toJson (hv v h) (hy v h))) ?_
  refine .bind (.takeList (fun _ => rfl) (mapM_map fun e _ => e.ofJson_toJson)) ?_
  rw [nonempty?_getD, nonempty?_getD]
  exact .pure _ _

theorem canonical_toJson (m : Manifest) : m.toJson.Canonical 12 :=
  .ofMemberList (.some m.id.canonical_toJson
    (.some (.array_map EmbeddedTag.canonical_toJson _)
      (.list (.array_map (fun l => l.canonical_toJson.mono (by omega)) _)
        (.map ProfileId.canonical_toJson (.map (fun v => v.canonical_toJson.mono (by omega))
          (.list (.array_map (fun e => e.canonical_toJson.mono (by omega)) _) .nil))))))

/-- **A valid manifest is read back from what is printed of it.** No text identifier may write a UUID,
the years of the window have four digits, and what the manifest holds has to be known when it is read:
the kinds of its choices, and the fields of its extension values as those of the profile that it
names. -/
theorem json_roundtrip (hc : c.Reachable) (hv : m.validate = .ok ())
    (hids : ∀ s, .text s ∈ m.identifiers → ∀ u, Uuid.parse s ≠ .ok u)
    (hyears : ∀ t ∈ m.bounds, 0 ≤ t.date.year ∧ t.date.year ≤ 9999)
    (hchoices : ∀ x ∈ m.choices, c.registry.holds x.kind)
    (hfields : ∀ e ∈ m.extensionEntries, e.field ∈ (c.scope m.profile).fields) :
    Document.encodeJson m = .ok m.toJson.render ∧ Document.decodeJson c m.toJson.render = .ok m := by
  obtain ⟨-, -, -, -, hprofile, hvalidity, -⟩ := validate_eq_ok.1 hv
  have hunmistakable (i : Identifier) (hi : i ∈ m.identifiers) : i.Unmistakable := by
    cases i with
    | text s => exact hids s hi
    | uuid u => trivial
  have htags : ∀ t ∈ m.tags, t.ReadableText (c.scope m.profile) := by
    intro t ht
    cases t with
    | opaqueOctets b => trivial
    | comid d =>
      have hd : d ∈ m.comids := mem_comids.2 ht
      refine ⟨reads_of_mem_comids hv hchoices hfields hd, hunmistakable _ ?_⟩
      exact List.mem_cons_of_mem _ (List.mem_map.2 ⟨d, hd, rfl⟩)
  have hbounds (v : Validity) (h : v ∈ m.validity) (t : Time.Instant) (ht : t ∈ v.bounds) :
      t.FourDigitYear :=
    hyears t (List.mem_flatMap.2 ⟨v, Option.mem_toList.2 h, ht⟩)
  have hread : Manifest.ofJson c m.toJson = .ok m :=
    ofJson_toJson ((Catalogue.consistent_of_reachable hc).scope m.profile)
      (hunmistakable m.id List.mem_cons_self) htags hprofile hvalidity hbounds
  have hcanonical : m.toJson.Canonical maxLevels := m.canonical_toJson.mono (by decide)
  exact ⟨Document.encodeJson_eq_ok.2 ⟨hv, rfl⟩, Document.decodeJson_of_ofJson hv hcanonical hread⟩

theorem sample_identifiers (s : String) (h : .text s ∈ sample.identifiers) (u : Uuid) :
    Uuid.parse s ≠ .ok u := by
  -- neither text has the length of a UUID
  have hsize : s.utf8ByteSize ≠ 36 := by
    rcases List.mem_cons.1 h with h | h
    · rw [Identifier.text.inj h]
      decide
    · rw [Identifier.text.inj (List.mem_singleton.1 h)]
      decide
  rw [Uuid.parse, if_pos hsize]
  intro h
  cases h

/-- The sample is read back where the bundled profiles are registered. -/
theorem json_roundtrip_sample :
    Document.encodeJson sample = .ok sample.toJson.render ∧
      Document.decodeJson Catalogue.bundled sample.toJson.render = .ok sample :=
  json_roundtrip Catalogue.bundled_reachable rfl sample_identifiers (by decide +kernel)
    (by decide +kernel) sample_fields

end Manifest

end Rim
