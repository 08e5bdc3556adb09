import Rim.Proofs.Manifest.Json

/-!
# Identifiers in both formats

The binary format keeps texts and UUIDs apart. The text format writes both as a string, and reads a
string in the grouped form of a UUID as that UUID. So what an identifier is read back as depends on its
text alone, and a manifest that is printed and read back has exactly these identifiers.

* `Identifier.reread`: what an identifier is read back as from the text format.
* `Identifier.reread_eq_iff`: it is the same one unless it is a text that writes a UUID.
* `Manifest.identifiers_of_ofJson`: the identifiers of a manifest that was read of a text form.
* `Identifier.same_in_both_formats`: what this says of the identifiers of accepted manifests.
-/

namespace Rim

open Json Unread

namespace Identifier

/-- What an identifier is read back as from its text form. -/
def reread (i : Identifier) : Identifier := ofText i.toText

theorem ofJson_toJson_eq (i : Identifier) : ofJson i.toJson = .ok i.reread := rfl

/-- A text that writes a UUID is read back as that UUID. -/
theorem reread_of_parse {s : String} {u : Uuid} (h : Uuid.parse s = .ok u) :
    (text s).reread = uuid u := by
  show ofText s = _
  rw [ofText, h]

/-- **Only a text that writes a UUID is read back as something else.** -/
theorem reread_eq_iff {i : Identifier} : i.reread = i ↔ i.Unmistakable := by
  constructor
  · intro h
    cases i with
    | uuid u => trivial
    | text s =>
      intro u hu
      rw [reread_of_parse hu] at h
      cases h
  · intro h
    exact Except.ok.inj ((ofJson_toJson_eq i).symm.trans (ofJson_toJson h))

end Identifier

/-! ### Tags that were printed and read back -/

theorem TagIdentity.id_of_ofJson {t t' : TagIdentity} (h : TagIdentity.ofJson t.toJson = .ok t') :
    t'.id = t.id.reread := by
  obtain ⟨u, rest, hu, h⟩ := LeftOf.start ["id", "version"] rfl (by decide) h
  obtain ⟨⟨id, u₁⟩, h₁, h⟩ := Result.bind_eq_ok.1 h
  obtain ⟨-, w, hw, hid⟩ := hu.requireWith h₁
  -- no other member has the name of the identifier
  have hwritten : w = t.id.toJson := by simpa using hw
  rw [hwritten, Identifier.ofJson_toJson_eq] at hid
  obtain rfl := Except.ok.inj hid
  have hkept : Gives (do
      let version ← Remaining.takeWith "version" (·.toUInt64 "tag-version")
      return ⟨t.id.reread, version⟩) fun t' : TagIdentity => t'.id = t.id.reread :=
    .skip fun _ => .pure rfl
  exact hkept u₁ t' rest h

theorem Comid.id_valid {d : Comid} (h : d.validate = .ok ()) : d.identity.id.validate = .ok () := by
  simp only [Comid.validate, Result.error_bind, Result.refuse_eq_ok, Result.check_eq_ok,
    Result.context_eq_ok] at h
  exact Result.context_eq_ok.1 h.2.1

theorem Comid.id_of_ofJson {s : Scope} {d d' : Comid} (h : Comid.ofJson s d.toJson = .ok d') :
    d'.identity.id = d.identity.id.reread := by
  obtain ⟨u, rest, hu, h⟩ :=
    LeftOf.start ["lang", "tag-identity", "entities", "triples"] rfl (by decide) h
  obtain ⟨⟨language, u₁⟩, h₁, h⟩ := Result.bind_eq_ok.1 h
  obtain ⟨⟨identity, u₂⟩, h₂, h⟩ := Result.bind_eq_ok.1 h
  obtain ⟨-, w, hw, hidentity⟩ := (hu.takeWith h₁).1.requireWith h₂
  have hwritten : w = d.identity.toJson := by simpa using hw
  rw [hwritten] at hidentity
  have hid := TagIdentity.id_of_ofJson (Result.context_eq_ok.1 hidentity)
  have hkept : d'.identity = identity := by
    refine Gives.skip (Q := fun d' : Comid => d'.identity = identity) ?_ u₂ d' rest h
    exact fun _ => .skip fun _ => .pure rfl
  rw [hkept, hid]

namespace EmbeddedTag

/-- The identifier of a module tag. -/
def id? (t : EmbeddedTag) : Option Identifier := t.comid?.map fun d => d.identity.id

theorem id?_of_ofJson {s : Scope} {t t' : EmbeddedTag} (h : EmbeddedTag.ofJson s t.toJson = .ok t') :
    t'.id? = t.id?.map Identifier.reread := by
  unfold ofJson at h
  cases t with
  | comid d =>
    rw [toJson, Value.untyped_typed, Result.ok_bind] at h
    dsimp only at h
    rw [if_pos rfl] at h
    obtain ⟨d', hd, h⟩ := Result.bind_eq_ok.1 h
    obtain rfl := Except.ok.inj h
    exact congrArg some (Comid.id_of_ofJson hd)
  | opaqueOctets b =>
    rw [toJson, Value.untyped_typed, Result.ok_bind] at h
    dsimp only at h
    rw [if_neg (by decide), if_pos rfl] at h
    obtain ⟨b', -, h⟩ := Result.bind_eq_ok.1 h
    obtain rfl := Except.ok.inj h
    rfl

end EmbeddedTag

/-! ### Manifests that were printed and read back -/

namespace Manifest

variable {c : Catalogue} {m m' : Manifest}

theorem identifiers_eq (m : Manifest) : m.identifiers = m.id :: m.tags.filterMap EmbeddedTag.id? := by
  unfold identifiers comids
  rw [List.map_filterMap]
  rfl

/-- **The identifiers of a manifest that was printed and read back** are those that the texts of its
own identifiers write. -/
theorem identifiers_of_ofJson (h : Manifest.ofJson c m.toJson = .ok m') :
    m'.identifiers = m.identifiers.map Identifier.reread := by
  obtain ⟨u, rest, hu, h⟩ := LeftOf.start
    ["corim-id", "tags", "dependent-rims", "profile", "validity", "entities"] rfl (by decide) h
  obtain ⟨⟨profile, u₁⟩, h₁, h⟩ := Result.bind_eq_ok.1 h
  obtain ⟨⟨id, u₂⟩, h₂, h⟩ := Result.bind_eq_ok.1 h
  obtain ⟨⟨tags, u₃⟩, h₃, h⟩ := Result.bind_eq_ok.1 h
  obtain ⟨hu₂, w, hw, hid⟩ := (hu.takeWith h₁).1.requireWith h₂
  obtain ⟨-, ws, hws, htags⟩ := hu₂.requireWith h₃
  have hkept : m'.id = id ∧ m'.tags = tags := by
    refine Gives.skip (Q := fun m' : Manifest => m'.id = id ∧ m'.tags = tags) ?_ u₃ m' rest h
    exact fun _ => .skip fun _ => .skip fun _ => .pure ⟨rfl, rfl⟩
  -- no two members have one name
  have hwritten : w = m.id.toJson := by simpa using hw
  have hitems : ws = .array (m.tags.map EmbeddedTag.toJson) := by simpa using hws
  rw [hwritten] at hid
  have hreread : id = m.id.reread := (Except.ok.inj (Result.context_eq_ok.1 hid)).symm
  rw [hitems] at htags
  have hread := readEach_eq_ok.1 htags
  rw [List.mapM_map] at hread
  have hids : tags.map EmbeddedTag.id? = m.tags.map fun t => t.id?.map Identifier.reread :=
    map_of_mapM (fun t _ t' ht => EmbeddedTag.id?_of_ofJson ht) hread
  have hnamed : tags.filterMap EmbeddedTag.id? =
      m.tags.filterMap fun t => t.id?.map Identifier.reread := by
    rw [← Function.id_comp EmbeddedTag.id?, ← List.filterMap_map, hids, List.filterMap_map]
    rfl
  rw [identifiers_eq, identifiers_eq, hkept.1, hkept.2, hreread, hnamed, List.map_cons,
    List.map_filterMap]

/-- Every identifier in a valid manifest is valid. -/
theorem identifiers_valid (h : m.validate = .ok ()) : ∀ i ∈ m.identifiers, i.validate = .ok () := by
  intro i hi
  rcases List.mem_cons.1 hi with rfl | hi
  · exact (validate_eq_ok.1 h).1
  · obtain ⟨d, hd, rfl⟩ := List.mem_map.1 hi
    exact Comid.id_valid (comids_valid h d hd)

/-- A manifest that is read of what was printed was read of the text form. -/
theorem ofJson_of_decodeJson (h : Document.decodeJson c m.toJson.render = .ok m') :
    Manifest.ofJson c m.toJson = .ok m' := by
  have hcanonical : m.toJson.Canonical maxLevels := m.canonical_toJson.mono (by decide)
  exact Document.ofJson_of_decodeJson hcanonical h

end Manifest

/-- **An identifier means the same in both formats, unless it is a text that writes a UUID.** A valid
identifier is read back from the binary format, and from the text format if it is no such text; a text
that writes a UUID is read from the text format as that UUID. The identifiers of a manifest that is valid
or was accepted in the binary format are valid, so each of them that is no such text is read back; and
when the manifest is printed and read back, it stands in its place again and stays valid. -/
theorem Identifier.same_in_both_formats :
    (∀ i : Identifier, i.validate = .ok () → Identifier.ofCbor i.toCbor = .ok i ∧
      (i.Unmistakable → Identifier.ofJson i.toJson = .ok i) ∧
      ∀ s u, i = .text s → Uuid.parse s = .ok u → Identifier.ofJson i.toJson = .ok (.uuid u)) ∧
    ∀ (c : Catalogue) (m : Manifest),
      m.validate = .ok () ∨ (∃ b, Document.decodeCbor c b = .ok m) →
      (∀ i ∈ m.identifiers, i.validate = .ok () ∧
        (i.Unmistakable → Identifier.ofJson i.toJson = .ok i)) ∧
      ∃ text, Document.encodeJson m = .ok text ∧
        ∀ (c' : Catalogue) (m' : Manifest), Document.decodeJson c' text = .ok m' →
          List.Forall₂ (fun i i' => i.Unmistakable → i' = i ∧ i'.validate = .ok ())
            m.identifiers m'.identifiers := by
  refine ⟨fun i _ => ⟨i.ofCbor_toCbor, ofJson_toJson, ?_⟩, ?_⟩
  · rintro s u rfl hu
    rw [ofJson_toJson_eq, reread_of_parse hu]
  · intro c m haccepted
    have hv : m.validate = .ok () := haccepted.elim id fun ⟨_, hb⟩ =>
      Document.validate_of_decodeCbor hb
    have hids := Manifest.identifiers_valid hv
    refine ⟨fun i hi => ⟨hids i hi, ofJson_toJson⟩, m.toJson.render, ?_, fun c' m' h => ?_⟩
    · exact Document.encodeJson_eq_ok.2 ⟨hv, rfl⟩
    · rw [Manifest.identifiers_of_ofJson (Manifest.ofJson_of_decodeJson h)]
      refine List.forall₂_map_right_iff.2 (List.forall₂_same.2 fun i hi hplain => ?_)
      rw [reread_eq_iff.2 hplain]
      exact ⟨rfl, hids i hi⟩

/-- A random UUID. -/
def Uuid.sample : Uuid where
  octets := [0x43, 0xbb, 0xe3, 0x7f, 0x2e, 0x61, 0x4b, 0x33, 0xae, 0xd3, 0x53, 0xcf, 0xf1, 0x42, 0x8b,
    0x16]
  length_octets := rfl

theorem Uuid.parse_sample : Uuid.parse "43bbe37f-2e61-4b33-aed3-53cff1428b16" = .ok .sample := rfl

theorem Manifest.sample_unmistakable : ∀ i ∈ sample.identifiers, i.Unmistakable := by
  intro i hi
  cases i with
  | text s => exact sample_identifiers s hi
  | uuid u => trivial

set_option maxRecDepth 4000 in
theorem Manifest.ofJson_sample : Manifest.ofJson Catalogue.bundled sample.toJson = .ok sample := rfl

/-- A UUID is read back from both formats, its text is read as that UUID, and the identifiers of the
sample, texts of other forms, stand in their places again. -/
theorem Identifier.same_in_both_formats_sample :
    Identifier.ofCbor (uuid .sample).toCbor = .ok (uuid .sample) ∧
      Identifier.ofJson (uuid .sample).toJson = .ok (uuid .sample) ∧
      Identifier.ofJson (text "43bbe37f-2e61-4b33-aed3-53cff1428b16").toJson = .ok (uuid .sample) ∧
      (∀ i ∈ Manifest.sample.identifiers, i.Unmistakable ∧ Identifier.ofJson i.toJson = .ok i) ∧
      ∃ m' : Manifest, Document.decodeJson Catalogue.bundled Manifest.sample.toJson.render = .ok m' ∧
        List.Forall₂ (fun i i' => i.Unmistakable → i' = i ∧ i'.validate = .ok ())
          Manifest.sample.identifiers m'.identifiers := by
  obtain ⟨hparts, hwhole⟩ := same_in_both_formats
  obtain ⟨hcbor, hjson, -⟩ := hparts (uuid .sample) rfl
  obtain ⟨-, -, htext⟩ := hparts (text "43bbe37f-2e61-4b33-aed3-53cff1428b16") rfl
  obtain ⟨hids, printed, hprinted, hread⟩ := hwhole Catalogue.bundled Manifest.sample (.inl rfl)
  obtain ⟨-, rfl⟩ := Document.encodeJson_eq_ok.1 hprinted
  have hplain := Manifest.sample_unmistakable
  have hsample := Document.decodeJson_of_ofJson (c := Catalogue.bundled) (d := Manifest.sample) rfl
    (Manifest.sample.canonical_toJson.mono (by decide)) Manifest.ofJson_sample
  exact ⟨hcbor, hjson trivial, htext _ _ rfl Uuid.parse_sample,
    fun i hi => ⟨hplain i hi, (hids i hi).2 (hplain i hi)⟩, _, hsample, hread _ _ hsample⟩

/-- A text that writes a UUID is a valid identifier and is read back from the binary format, but not
from the text format. -/
theorem Identifier.uuid_text_not_read_back :
    (text "43bbe37f-2e61-4b33-aed3-53cff1428b16").validate = .ok () ∧
      Identifier.ofCbor (text "43bbe37f-2e61-4b33-aed3-53cff1428b16").toCbor =
        .ok (text "43bbe37f-2e61-4b33-aed3-53cff1428b16") ∧
      Identifier.ofJson (text "43bbe37f-2e61-4b33-aed3-53cff1428b16").toJson ≠
        .ok (text "43bbe37f-2e61-4b33-aed3-53cff1428b16") := by
  refine ⟨rfl, rfl, ?_⟩
  rw [ofJson_toJson_eq, reread_of_parse Uuid.parse_sample]
  intro h
  cases h

end Rim
