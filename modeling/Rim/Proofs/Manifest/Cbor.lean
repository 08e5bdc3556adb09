import Rim.Proofs.Comid.Cbor
import Rim.Proofs.Document

/-!
# Manifests in the binary format

A valid manifest is read back from its written form, with and without its tag, if no octets that it
embeds as they are start like a module tag, the kinds of its choices are known, and its extension
values stand under fields of the profile that it names.

* `EmbeddedTag.ofOctets_eq_ok`: what it takes to read the octets of a tag.
* `EmbeddedTag.ofCbor_toCbor`: the two kinds of embedded tags are told apart.
* `Manifest.ofCbor_toCbor`: the binary form.
* `Manifest.cbor_roundtrip`: the written form, after any run of registrations.
-/

namespace Rim

open Cbor Unread

namespace EmbeddedTag

/-- The head of a module tag is its tag's. -/
theorem comidHead_eq : comidHead = head 6 Comid.tag.toNat := by decide

/-- **What it takes to read the octets of a tag**: a module tag and nothing else under its head, and
nothing at all under any other. -/
theorem ofOctets_eq_ok {s : Scope} {b : Bytes} {t : EmbeddedTag} : ofOctets s b = .ok t ↔
    (comidHead <+: b ∧ ∃ body d, decode b = .ok (.tag Comid.tag body) ∧
      Comid.ofCbor s body = .ok d ∧ t = comid d) ∨
    (¬comidHead <+: b ∧ t = opaqueOctets b) := by
  unfold ofOctets
  by_cases hp : comidHead <+: b
  · rw [if_pos (List.isPrefixOf_iff_prefix.2 hp)]
    constructor
    · intro h
      obtain ⟨v, hb, h⟩ := Result.bind_eq_ok.1 h
      obtain ⟨body, hv, h⟩ := Result.bind_eq_ok.1 h
      obtain ⟨d, hd, h⟩ := Result.bind_eq_ok.1 h
      obtain rfl := Except.ok.inj h
      cases v with
      | tag n w =>
        obtain ⟨rfl, hw⟩ := Result.demand_eq_ok.1 hv
        obtain rfl := Except.ok.inj hw
        exact .inl ⟨hp, w, d, hb, hd, rfl⟩
      | _ => cases hv
    · rintro (⟨-, body, d, hb, hd, rfl⟩ | ⟨hn, -⟩)
      · refine Result.bind_eq_ok.2 ⟨_, hb, Result.bind_eq_ok.2 ⟨body, rfl, ?_⟩⟩
        exact Result.bind_eq_ok.2 ⟨d, hd, rfl⟩
      · exact absurd hp hn
  · rw [if_neg fun h => hp (List.isPrefixOf_iff_prefix.1 h)]
    constructor
    · intro h
      exact .inr ⟨hp, (Except.ok.inj h).symm⟩
    · rintro (⟨h, -⟩ | ⟨-, rfl⟩)
      · exact absurd h hp
      · rfl

/-- What a scope has to know to read an embedded tag. -/
def Readable (s : Scope) : EmbeddedTag → Prop
  | comid c => s.Reads c.triples.choices c.triples.extensionEntries
  | opaqueOctets b => ¬comidHead <+: b

theorem ofCbor_toCbor {s : Scope} (hs : s.Consistent) {t : EmbeddedTag} (h : t.Readable s)
    (hsize : t.toCbor.encode.length < 2 ^ 64) : EmbeddedTag.ofCbor s t.toCbor = .ok t := by
  cases t with
  | opaqueOctets b =>
    show ofOctets s b = _
    rw [ofOctets, if_neg fun hp => h (List.isPrefixOf_iff_prefix.1 hp)]
  | comid c =>
    -- the octets are told from others by their head, and hold a module tag and nothing else
    have hp : comidHead.isPrefixOf (Value.tag Comid.tag c.toCbor).encode := by
      rw [List.isPrefixOf_iff_prefix, comidHead_eq, Value.encode]
      exact List.prefix_append _ _
    have hlen : (Value.tag Comid.tag c.toCbor).encode.length < 2 ^ 64 :=
      Nat.lt_of_le_of_lt (Value.length_le_bytes _) hsize
    have hd : Cbor.decode (Value.tag Comid.tag c.toCbor).encode = .ok (.tag Comid.tag c.toCbor) :=
      decode_encode ((Value.Canonical.tag _ c.canonical_toCbor).mono (by decide)) hlen
    show ofOctets s (Value.tag Comid.tag c.toCbor).encode = _
    rw [ofOctets, if_pos hp, hd]
    show (do return comid (← Comid.ofCbor s c.toCbor) : Result EmbeddedTag) = _
    rw [Comid.ofCbor_toCbor hs h]
    rfl

theorem canonical_toCbor {levels : Nat} (t : EmbeddedTag) : t.toCbor.Canonical levels := by
  cases t <;> exact .bytes _

end EmbeddedTag

namespace Manifest

variable {c : Catalogue} {m : Manifest}

theorem ofCbor_toCbor (hs : (c.scope m.profile).Consistent)
    (ht : ∀ t ∈ m.tags, t.Readable (c.scope m.profile))
    (hsize : ∀ t ∈ m.tags, t.toCbor.encode.length < 2 ^ 64)
    (hv : ∀ v ∈ m.validity, v.validate = .ok ()) : Manifest.ofCbor c m.toCbor = .ok m := by
  refine Value.readMap_ofFields [0, 1, 2, 3, 4, 5] rfl (by decide) ?_
  -- the profile is read before everything else
  refine .front [_, _, _] ?_
  refine .bind (.takeWith fun p _ => Result.context_eq_ok.2 p.ofCbor_toCbor) ?_
  refine .bind (.requireWith (Result.context_eq_ok.2 m.id.ofCbor_toCbor)) ?_
  refine .bind (.requireWith (readEach_map fun t h =>
    EmbeddedTag.ofCbor_toCbor hs (ht t h) (hsize t h))) ?_
  refine .bind (.takeList (fun _ => rfl) (mapM_map fun l _ => l.ofCbor_toCbor)) ?_
  refine .bind (.takeWith fun v h => Result.context_eq_ok.2 (Validity.ofCbor_toCbor (hv v h))) ?_
  refine .bind (.takeList (fun _ => rfl) (mapM_map fun e _ => e.ofCbor_toCbor)) ?_
  rw [nonempty?_getD, nonempty?_getD]
  exact .pure _ _

theorem canonical_toCbor (m : Manifest) : m.toCbor.Canonical 4 :=
  .ofFields (.some m.id.canonical_toCbor
    (.some (.array_map (fun t => t.canonical_toCbor) _)
      (.list (.array_map Locator.canonical_toCbor _) (.map (fun p => p.canonical_toCbor.mono (by omega))
        (.map (fun v => v.canonical_toCbor.mono (by omega))
          (.list (.array_map Entity.canonical_toCbor _) .nil))))))

theorem canonical_tagged (m : Manifest) : (Document.tagged m).Canonical documents.levels :=
  (Value.Canonical.tag _ m.canonical_toCbor).mono (by decide)

/-- An embedded tag is not longer than the manifest. -/
theorem encode_tag_le {t : EmbeddedTag} (h : t ∈ m.tags) :
    t.toCbor.encode.length ≤ m.toCbor.encode.length := by
  have ha : t.toCbor ∈ m.tags.map EmbeddedTag.toCbor := List.mem_map.2 ⟨t, h, rfl⟩
  refine Nat.le_trans (Value.encode_le_array ha) ?_
  refine Value.encode_le_ofFields 1 ?_ (by simp)
  show [0, 1, 2, 3, 4, 5].Nodup
  decide

/-- What a scope has to know to read the tags of a valid manifest. -/
theorem tags_readable {s : Scope} (hv : m.validate = .ok ())
    (hoctets : ∀ b, EmbeddedTag.opaqueOctets b ∈ m.tags → ¬EmbeddedTag.comidHead <+: b)
    (hchoices : ∀ x ∈ m.choices, s.registry.holds x.kind)
    (hfields : ∀ e ∈ m.extensionEntries, e.field ∈ s.fields) : ∀ t ∈ m.tags, t.Readable s := by
  intro t ht
  cases t with
  | opaqueOctets b => exact hoctets b ht
  | comid d => exact reads_of_mem_comids hv hchoices hfields (mem_comids.2 ht)

/-- A valid manifest is read back from its binary form, if what it holds is known. -/
theorem ofCbor_of_valid (hc : c.Reachable) (hv : m.validate = .ok ())
    (hoctets : ∀ b, EmbeddedTag.opaqueOctets b ∈ m.tags → ¬EmbeddedTag.comidHead <+: b)
    (hchoices : ∀ x ∈ m.choices, c.registry.holds x.kind)
    (hfields : ∀ e ∈ m.extensionEntries, e.field ∈ (c.scope m.profile).fields)
    (hsize : m.toCbor.encode.length < 2 ^ 64) : Manifest.ofCbor c m.toCbor = .ok m := by
  obtain ⟨-, -, -, -, -, hvalidity, -⟩ := validate_eq_ok.1 hv
  have hs : (c.scope m.profile).Consistent := (Catalogue.consistent_of_reachable hc).scope m.profile
  have htags : ∀ t ∈ m.tags, t.Readable (c.scope m.profile) :=
    tags_readable hv hoctets hchoices hfields
  have hlen : ∀ t ∈ m.tags, t.toCbor.encode.length < 2 ^ 64 := by
    intro t ht
    exact Nat.lt_of_le_of_lt (encode_tag_le ht) hsize
  exact ofCbor_toCbor hs htags hlen hvalidity

/-- **A valid manifest is read back from what is written of it**, under its tag and, as it stands in
a signed envelope, without it. No embedded octets may start like a module tag, and what the manifest
holds has to be known when it is read: the kinds of its choices, and the fields of its extension
values as those of the profile that it names. Octet strings in memory are shorter than `2^64`. -/
theorem cbor_roundtrip (hc : c.Reachable) (hv : m.validate = .ok ())
    (hoctets : ∀ b, EmbeddedTag.opaqueOctets b ∈ m.tags → ¬EmbeddedTag.comidHead <+: b)
    (hchoices : ∀ x ∈ m.choices, c.registry.holds x.kind)
    (hfields : ∀ e ∈ m.extensionEntries, e.field ∈ (c.scope m.profile).fields)
    (hsize : (Document.tagged m).encode.length < 2 ^ 64) :
    Document.encodeCbor m = .ok (Document.tagged m).encode ∧
      Document.decodeCbor c (Document.tagged m).encode = .ok m ∧
      Document.decodeCbor c m.toCbor.encode = .ok m := by
  have hle : m.toCbor.encode.length ≤ (Document.tagged m).encode.length :=
    Value.encode_le_tag tag m.toCbor
  have hbare : m.toCbor.encode.length < 2 ^ 64 := Nat.lt_of_le_of_lt hle hsize
  have hread := ofCbor_of_valid hc hv hoctets hchoices hfields hbare
  refine ⟨Document.encodeCbor_eq_ok.2 ⟨hv, rfl⟩, ?_, ?_⟩
  · exact Document.decodeCbor_of_ofCbor hv m.canonical_tagged hsize (Document.untagged_tagged rfl) hread
  · exact Document.decodeCbor_of_ofCbor hv (m.canonical_toCbor.mono (by decide)) hbare
      (Document.untagged_map _) hread

theorem sample_octets (b : Bytes) (h : EmbeddedTag.opaqueOctets b ∈ sample.tags) :
    ¬EmbeddedTag.comidHead <+: b := by
  obtain rfl : b = [0xd9, 0x01, 0xf9, 0xa0] := by
    simpa [sample] using h
  decide

/-- The sample is read back where the bundled profiles are registered. -/
theorem cbor_roundtrip_sample :
    Document.encodeCbor sample = .ok (Document.tagged sample).encode ∧
      Document.decodeCbor Catalogue.bundled (Document.tagged sample).encode = .ok sample ∧
      Document.decodeCbor Catalogue.bundled sample.toCbor.encode = .ok sample :=
  cbor_roundtrip Catalogue.bundled_reachable rfl sample_octets (by decide +kernel) sample_fields
    (by decide +kernel)

end Manifest

end Rim
