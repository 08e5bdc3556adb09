import Rim.Proofs.Accepted
import Rim.Proofs.Cbor.Heads

/-!
# Which embedded octets are module tags

Embedded octets are told apart by the shortest head of a module tag, before they are read. Octets that
are kept as they are and start with this head are not read back, and share their written form with a
module tag if they hold one. A module tag under a longer head is kept as octets, and is neither checked
nor listed among the module tags of its manifest.

* `EmbeddedTag.Disguised`: octets that start like a module tag.
* `EmbeddedTag.told_apart`: tags are read back, and have written forms of their own, but for these.
* `Manifest.ofCbor_tags`: the embedded tags of a manifest are read one by one.
* `EmbeddedTag.longHeads`: the heads under which a module tag is passed over.
* `EmbeddedTag.read_by_head`: any other module tag of an accepted manifest is read, valid and listed.
-/

namespace Rim

open Cbor

namespace EmbeddedTag

variable {s : Scope} {b : Bytes} {t u : EmbeddedTag}

/-! ### Written and read back -/

/-- A valid tag that can be read whatever the profile is: of known kinds, without extension values and
of a size that can be written. -/
structure Plain (r : ChoiceRegistry) (t : EmbeddedTag) : Prop where
  valid : t.validate = .ok ()
  known : ∀ d ∈ t.comid?, ∀ x ∈ d.triples.choices, r.holds x.kind
  bare : ∀ d ∈ t.comid?, d.triples.extensionEntries = []
  size : t.toCbor.encode.length < 2 ^ 64

/-- Octets that start like a module tag. -/
def Disguised (t : EmbeddedTag) : Prop := ∃ b, t = opaqueOctets b ∧ comidHead <+: b

/-- The octets of a module tag, kept as they are. -/
def disguise (d : Comid) : EmbeddedTag := opaqueOctets (Value.tag Comid.tag d.toCbor).encode

/-- Other octets are kept, those that start like a module tag never are. -/
theorem ofCbor_opaqueOctets :
    EmbeddedTag.ofCbor s (opaqueOctets b).toCbor = .ok (opaqueOctets b) ↔ ¬comidHead <+: b := by
  show ofOctets s b = _ ↔ _
  rw [ofOctets_eq_ok]
  constructor
  · rintro (⟨-, _, _, -, -, h⟩ | ⟨hn, -⟩)
    · cases h
    · exact hn
  · exact fun hn => .inr ⟨hn, rfl⟩

variable {r : ChoiceRegistry}

/-- A plain module tag is read back, whatever the profile is. -/
theorem ofCbor_comid (hr : r.Consistent) {d : Comid} (ht : (comid d).Plain r) (p : Option Profile) :
    EmbeddedTag.ofCbor ⟨r, p⟩ (comid d).toCbor = .ok (comid d) := by
  have hcore : Scope.Consistent ⟨r, none⟩ := ⟨hr, nofun, .nil⟩
  have hreads : Scope.Reads ⟨r, none⟩ d.triples.choices d.triples.extensionEntries := by
    rw [ht.bare d rfl]
    exact ⟨ht.known d rfl, Triples.choices_valid (Comid.triples_valid ht.valid), nofun, nofun⟩
  -- it is read without a profile, and fields beyond the core do not change what is read
  have hgrows : Scope.Grows ⟨r, none⟩ ⟨r, p⟩ := ⟨.refl r, .inr rfl⟩
  exact ofCbor_within hgrows _ _ (EmbeddedTag.ofCbor_toCbor hcore hreads ht.size)

theorem ofCbor_toCbor_iff (hr : r.Consistent) (ht : t.Plain r) (p : Option Profile) :
    EmbeddedTag.ofCbor ⟨r, p⟩ t.toCbor = .ok t ↔ ¬t.Disguised := by
  cases t with
  | comid d =>
    refine iff_of_true (ofCbor_comid hr ht p) ?_
    rintro ⟨b, hb, -⟩
    cases hb
  | opaqueOctets b =>
    rw [ofCbor_opaqueOctets]
    refine not_congr ⟨fun h => ⟨b, rfl, h⟩, ?_⟩
    rintro ⟨b', hb, h⟩
    rwa [opaqueOctets.inj hb]

/-- **Tags are told apart by their written forms**, whatever the profile is. A plain tag is read back
unless it is disguised, and two different ones share a form only if one of them is a module tag and the
other one its octets. -/
theorem told_apart {c : Catalogue} (hc : c.Reachable) (ht : t.Plain c.registry)
    (hu : u.Plain c.registry) :
    (∀ p, EmbeddedTag.ofCbor ⟨c.registry, p⟩ t.toCbor = .ok t ↔ ¬t.Disguised) ∧
      (t.toCbor = u.toCbor ↔
        t = u ∨ ∃ d, (t = comid d ∧ u = disguise d) ∨ (u = comid d ∧ t = disguise d)) := by
  have hr := (Catalogue.consistent_of_reachable hc).registry
  refine ⟨ofCbor_toCbor_iff hr ht, ?_, ?_⟩
  · intro h
    cases t with
    | comid d =>
      cases u with
      | comid e =>
        -- both are read back from the one form
        have hd := ofCbor_comid hr ht none
        rw [h, ofCbor_comid hr hu none] at hd
        exact .inl (Except.ok.inj hd).symm
      | opaqueOctets b =>
        obtain rfl := Value.bytes.inj h
        exact .inr ⟨d, .inl ⟨rfl, rfl⟩⟩
    | opaqueOctets b =>
      cases u with
      | comid e =>
        obtain rfl := Value.bytes.inj h
        exact .inr ⟨e, .inr ⟨rfl, rfl⟩⟩
      | opaqueOctets b' =>
        obtain rfl := Value.bytes.inj h
        exact .inl rfl
  · rintro (rfl | ⟨d, ⟨rfl, rfl⟩ | ⟨rfl, rfl⟩⟩) <;> rfl

theorem plain_comid : (comid .plain).Plain Catalogue.bundled.registry where
  valid := rfl
  known := by
    rintro d ⟨⟩
    decide +kernel
  bare := by
    rintro d ⟨⟩
    rfl
  size := by decide +kernel

theorem plain_disguise : (disguise .plain).Plain Catalogue.bundled.registry where
  valid := rfl
  known := nofun
  bare := nofun
  size := by decide +kernel

/-- A module tag is read back under every profile, and its octets kept as they are share its written
form. -/
theorem told_apart_plain :
    (∀ p, EmbeddedTag.ofCbor ⟨Catalogue.bundled.registry, p⟩ (comid .plain).toCbor =
        .ok (comid .plain)) ∧
      (comid .plain).toCbor = (disguise .plain).toCbor := by
  obtain ⟨hread, hform⟩ := told_apart Catalogue.bundled_reachable plain_comid plain_disguise
  refine ⟨fun p => (hread p).2 ?_, hform.2 (.inr ⟨.plain, .inl ⟨rfl, rfl⟩⟩)⟩
  rintro ⟨b, hb, -⟩
  cases hb

/-- The bare head of a module tag is valid as octets, and what is written of it is not read at all. -/
theorem bare_head_not_read :
    (opaqueOctets comidHead).validate = .ok () ∧
      ∀ s t, EmbeddedTag.ofCbor s (opaqueOctets comidHead).toCbor ≠ .ok t := by
  refine ⟨rfl, fun s t h => ?_⟩
  cases h

end EmbeddedTag

/-! ### The embedded tags of a manifest -/

/-- Embedded tags are read of byte strings. -/
theorem EmbeddedTag.octets_of_mapM {s : Scope} {items : List Value} {tags : List EmbeddedTag}
    (h : items.mapM (EmbeddedTag.ofCbor s) = .ok tags) : ∃ octets : List Bytes,
      items = octets.map Value.bytes ∧ octets.mapM (EmbeddedTag.ofOctets s) = .ok tags := by
  obtain ⟨octets, hoctets, htags⟩ := mapM_bind h
  have hbytes : octets.map Value.bytes = items.map fun x => x :=
    map_of_mapM (fun _ _ _ hb => (Value.toBytes_eq_ok.1 hb).symm) hoctets
  rw [List.map_id'] at hbytes
  exact ⟨octets, hbytes.symm, htags⟩

namespace Manifest

open Keyed Unread

variable {c : Catalogue} {m : Manifest} {v : Value}

/-- **The embedded tags of a manifest are read one by one** from the octets under their key. -/
theorem ofCbor_tags (h : Manifest.ofCbor c v = .ok m) : ∃ (entries : Entries) (octets : List Bytes),
    v = .map entries ∧ (Value.ofInt64 1, Value.array (octets.map Value.bytes)) ∈ entries ∧
      octets.mapM (EmbeddedTag.ofOctets (c.scope m.profile)) = .ok m.tags := by
  obtain ⟨u, hu, h⟩ := Result.bind_eq_ok.1 h
  obtain ⟨rest, hp, -⟩ := readAll_eq_ok.1 h
  -- the profile and the identifier are taken before the tags
  obtain ⟨⟨profile, u₁⟩, h₁, hp₁⟩ := Result.bind_eq_ok.1 hp
  obtain ⟨⟨id, u₂⟩, h₂, hp₂⟩ := Result.bind_eq_ok.1 hp₁
  obtain ⟨⟨tags, u₃⟩, h₃, hp₃⟩ := Result.bind_eq_ok.1 hp₂
  have hkept : m.profile = profile ∧ m.tags = tags := by
    refine Gives.skip (Q := fun m : Manifest => m.profile = profile ∧ m.tags = tags) ?_ u₃ m rest hp₃
    exact fun _ => .skip fun _ => .skip fun _ => .pure ⟨rfl, rfl⟩
  obtain ⟨rfl, -⟩ := takeWith_eq_ok h₁
  obtain ⟨rfl, -⟩ := requireWith_eq_ok h₂
  obtain ⟨-, w, hget, hw⟩ := requireWith_eq_ok h₃
  rw [← hkept.1, ← hkept.2] at hw
  -- the entry was there before the others were taken
  obtain ⟨k, hk, hmem⟩ := mem_of_get? hget
  obtain rfl := Value.eq_of_compare_ofInt64 hk
  have hentry : (Value.ofInt64 1, w) ∈ u.entries :=
    (without_sublist _ _).mem ((without_sublist _ _).mem hmem)
  obtain ⟨items, hitems, hw⟩ := Result.bind_eq_ok.1 hw
  obtain ⟨octets, rfl, htags⟩ := EmbeddedTag.octets_of_mapM (readEach_eq_ok.1 hw)
  rw [Value.toArray_eq_ok.1 hitems] at hentry
  exact ⟨u.entries, octets, Fields.ofValue_eq_ok hu, hentry, htags⟩

/-- The octets are among the embedded tags of a manifest, with or without its tag. -/
def Embeds (v : Value) (b : Bytes) : Prop := ∃ entries items,
  (v = .map entries ∨ v = .tag tag (.map entries)) ∧
    (Value.ofInt64 1, Value.array items) ∈ entries ∧ Value.bytes b ∈ items

/-- Embedded octets of a manifest that is read are read as one of its tags. -/
theorem mem_tags_of_embeds {input : Bytes} (h : Document.decodeCbor c input = .ok m)
    (hv : Cbor.decode input = .ok v) {b : Bytes} (hb : Embeds v b) :
    ∃ t ∈ m.tags, EmbeddedTag.ofOctets (c.scope m.profile) b = .ok t := by
  obtain ⟨v', w, hv', hw, hm, -⟩ := Document.decodeCbor_eq_ok.1 h
  obtain rfl := Except.ok.inj (hv'.symm.trans hv)
  obtain ⟨entries, items, hshape, hitems, hmem⟩ := hb
  have horder := decode_inOrder hv
  -- taking the tag off leaves the map, which is in order
  have hmap : w = .map entries ∧ Keyed.Sorted entries := by
    rcases hshape with rfl | rfl
    · exact ⟨(Except.ok.inj ((Document.untagged_map entries).symm.trans hw)).symm, horder.sorted⟩
    · exact ⟨(Except.ok.inj hw).symm, horder.body.sorted⟩
  obtain ⟨rfl, hsorted⟩ := hmap
  obtain ⟨_, octets, heq, hoctets, htags⟩ := ofCbor_tags hm
  obtain rfl := Value.map.inj heq
  -- no two entries have the key of the tags
  have hone := (get?_of_mem hsorted.distinct hitems).symm.trans (get?_of_mem hsorted.distinct hoctets)
  rw [Value.array.inj (Option.some.inj hone)] at hmem
  obtain ⟨b', hb', hbytes⟩ := List.mem_map.1 hmem
  obtain rfl := Value.bytes.inj hbytes
  exact exists_of_mapM htags hb'

end Manifest

/-! ### Heads of module tags -/

namespace EmbeddedTag

/-- The longer heads of a module tag. -/
def longHeads : List Bytes := [[0xda, 0, 0, 1, 0xfa], [0xdb, 0, 0, 0, 0, 0, 0, 1, 0xfa]]

theorem forms_comid : forms 6 Comid.tag.toNat = comidHead :: longHeads := by decide +kernel

/-- A module tag under its shortest head is read from its body. -/
theorem ofOctets_of_head {s : Scope} {b : Bytes} {body : Value} (hp : comidHead <+: b)
    (h : Cbor.decode b = .ok (.tag Comid.tag body)) :
    ofOctets s b = comid <$> Comid.ofCbor s body := by
  rw [ofOctets, if_pos (List.isPrefixOf_iff_prefix.2 hp), h]
  show (do return comid (← Comid.ofCbor s body) : Result EmbeddedTag) = _
  cases Comid.ofCbor s body <;> rfl

/-- Octets under a longer head do not start with the shortest one. -/
theorem not_comidHead_of_longHead {b f : Bytes} (hf : f ∈ longHeads) (h : f <+: b) :
    ¬comidHead <+: b := by
  intro hp
  have hapart : ∀ f ∈ longHeads, ¬comidHead <+: f ∧ ¬f <+: comidHead := by decide
  exact (List.prefix_or_prefix_of_prefix hp h).elim (hapart f hf).1 (hapart f hf).2

/-- **A module tag is read by its head.** Under its shortest head it is read from its body or refused,
whatever it is read with, and in a manifest that is accepted it is valid and listed. Under a longer head
it is kept as octets. -/
theorem read_by_head {b : Bytes} {body : Value} (h : Cbor.decode b = .ok (.tag Comid.tag body)) :
    (comidHead <+: b ∧ (∀ s, ofOctets s b = comid <$> Comid.ofCbor s body) ∧
      ∀ c input v (m : Manifest), Document.decodeCbor c input = .ok m →
        Cbor.decode input = .ok v → Manifest.Embeds v b →
        ∃ d ∈ m.comids, Comid.ofCbor (c.scope m.profile) body = .ok d ∧ d.validate = .ok ()) ∨
    ((∃ f ∈ longHeads, f <+: b) ∧ (∀ s, ofOctets s b = .ok (opaqueOctets b)) ∧
      ∀ c input v (m : Manifest), Document.decodeCbor c input = .ok m →
        Cbor.decode input = .ok v → Manifest.Embeds v b → opaqueOctets b ∈ m.tags) := by
  obtain ⟨f, hf, hp⟩ := decode_tag_forms h
  rw [forms_comid] at hf
  rcases List.mem_cons.1 hf with rfl | hf
  · have hread (s : Scope) : ofOctets s b = comid <$> Comid.ofCbor s body := ofOctets_of_head hp h
    refine .inl ⟨hp, hread, fun c input v m hm hv hb => ?_⟩
    obtain ⟨t, ht, hoctets⟩ := Manifest.mem_tags_of_embeds hm hv hb
    rw [hread] at hoctets
    obtain ⟨d, hd, rfl⟩ := Result.map_eq_ok.1 hoctets
    obtain ⟨-, -, hvalid, -⟩ := Manifest.validate_eq_ok.1 (Document.validate_of_decodeCbor hm)
    exact ⟨d, Manifest.mem_comids.2 ht, hd, hvalid _ ht⟩
  · have hkept (s : Scope) : ofOctets s b = .ok (opaqueOctets b) :=
      ofOctets_eq_ok.2 (.inr ⟨not_comidHead_of_longHead hf hp, rfl⟩)
    refine .inr ⟨⟨f, hf, hp⟩, hkept, fun c input v m hm hv hb => ?_⟩
    obtain ⟨t, ht, hoctets⟩ := Manifest.mem_tags_of_embeds hm hv hb
    rw [hkept] at hoctets
    obtain rfl := Except.ok.inj hoctets
    exact ht

theorem embeds_single {t : EmbeddedTag} {b : Bytes} (h : t.toCbor = .bytes b) :
    Manifest.Embeds (Document.tagged (Manifest.single t)) b :=
  ⟨_, [t.toCbor], .inr rfl, List.mem_cons_of_mem _ List.mem_cons_self, h ▸ List.mem_cons_self⟩

/-- A module tag under its shortest head is listed in the manifest that embeds it. -/
theorem read_by_head_plain :
    Document.decodeCbor Catalogue.bundled (Document.tagged (Manifest.single (comid .plain))).encode =
        .ok (Manifest.single (comid .plain)) ∧
      (∀ s, ofOctets s (Value.tag Comid.tag Comid.plain.toCbor).encode =
        comid <$> Comid.ofCbor s Comid.plain.toCbor) ∧
      ∃ d ∈ (Manifest.single (comid .plain)).comids,
        Comid.ofCbor (Catalogue.bundled.scope none) Comid.plain.toCbor = .ok d ∧
          d.validate = .ok () := by
  have hsize : (Document.tagged (Manifest.single (comid .plain))).encode.length < 2 ^ 64 := by
    decide +kernel
  have hm := Document.decodeCbor_of_ofCbor (c := Catalogue.bundled) rfl
    (Manifest.single (comid .plain)).canonical_tagged hsize (Document.untagged_tagged rfl) rfl
  have hv := decode_encode (Manifest.single (comid .plain)).canonical_tagged hsize
  have hb : Cbor.decode (Value.tag Comid.tag Comid.plain.toCbor).encode =
      .ok (.tag Comid.tag Comid.plain.toCbor) := rfl
  rcases read_by_head hb with ⟨-, hread, hlisted⟩ | ⟨⟨f, hf, hp⟩, -⟩
  · exact ⟨hm, hread, hlisted _ _ _ _ hm hv (embeds_single rfl)⟩
  · exact absurd (by decide +kernel) (not_comidHead_of_longHead hf hp)

/-- A module tag under a head of five octets. -/
def hidden : Bytes := [0xda, 0, 0, 1, 0xfa] ++ Comid.plain.toCbor.encode

/-- A module tag under a longer head is accepted as octets, and its manifest lists no module tag. -/
theorem hidden_passed_over :
    Cbor.decode hidden = .ok (.tag Comid.tag Comid.plain.toCbor) ∧
      (∀ s, ofOctets s hidden = .ok (opaqueOctets hidden)) ∧
      Document.decodeCbor Catalogue.bundled
        (Document.tagged (Manifest.single (opaqueOctets hidden))).encode =
          .ok (Manifest.single (opaqueOctets hidden)) ∧
      (Manifest.single (opaqueOctets hidden)).comids = [] :=
  ⟨rfl, fun _ => rfl, rfl, rfl⟩

end EmbeddedTag

end Rim
