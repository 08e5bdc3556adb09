import Rim.Proofs.Comid.Cbor
import Rim.Proofs.Manifest.PartsJson

/-!
# Module tags in the text format

Everything in a module tag is read back from the text format under the same conditions as from the
binary format, and one more: no text identifier may write a UUID.

* `Environment.ofJson_toJson`, `MeasurementValues.ofJson_toJson`, `Triples.ofJson_toJson`: the parts.
* `Comid.ofJson_toJson`: a whole module tag.
* `Comid.canonical_toJson`: what is written is canonical, valid or not.
-/

namespace Rim

open Json Unread Keyed

variable {s : Scope}

/-- A choice among those that a scope reads. -/
theorem Scope.Reads.named {xs : List Choice} {es : List Extension.Entry} (h : s.Reads xs es)
    (hs : s.Consistent) {x : Choice} (hx : x ∈ xs) : s.registry.ofJson x.toJson = .ok x :=
  ChoiceRegistry.ofJson_toJson hs.registry (h.held x hx) (h.valid x hx)

/-! ### Versions and environments -/

namespace Version

/-- The name of a scheme is read as its number. -/
theorem schemeNumber?_of_name {n : Int64} {name : String} (h : schemeName? n = some name) :
    schemeNumber? name = some n := by
  -- no two schemes share a name
  have hall : ∀ e ∈ schemes, schemeNumber? e.2 = some e.1 := by decide
  obtain ⟨e, he, rfl⟩ := Option.map_eq_some_iff.1 h
  have hn := List.find?_some he
  rw [← beq_iff_eq.1 hn]
  exact hall e (List.mem_of_find?_eq_some he)

theorem schemeOfJson_schemeToJson (n : Int64) : schemeOfJson (schemeToJson n) = .ok n := by
  unfold schemeToJson
  cases h : schemeName? n with
  | some name =>
    rw [schemeOfJson, schemeNumber?_of_name h]
  | none => exact Value.toInt64_ofInt64 _ n

theorem ofJson_toJson (v : Version) : ofJson v.toJson = .ok v := by
  refine Value.readObject_ofMemberList ["value", "scheme"] rfl (by decide) ?_
  refine .bind (.requireWith rfl) ?_
  exact .bind (.takeWith fun n _ => schemeOfJson_schemeToJson n) (.pure _ _)

theorem canonical_toJson (v : Version) : v.toJson.Canonical 1 := by
  have hscheme (n : Int64) : (schemeToJson n).Canonical 0 := by
    unfold schemeToJson
    split
    · exact .string _
    · exact .ofInt64 n
  exact .ofMemberList (.some (.string _) (.map hscheme .nil))

end Version

theorem ModuleClass.ofJson_toJson {c : ModuleClass} (hs : s.Consistent)
    (h : s.Reads c.id.toList []) : ModuleClass.ofJson s.registry c.toJson = .ok c := by
  refine Value.readObject_ofMemberList ["id", "vendor", "model", "layer", "index"] rfl (by decide) ?_
  refine .bind (.takeWith fun x hx => h.named hs (Option.mem_toList.2 hx)) ?_
  refine .bind (.takeWith fun _ _ => rfl) ?_
  refine .bind (.takeWith fun _ _ => rfl) ?_
  refine .bind (.takeWith fun n _ => Value.toUInt64_ofUInt64 _ n) ?_
  exact .bind (.takeWith fun n _ => Value.toUInt64_ofUInt64 _ n) (.pure _ _)

theorem ModuleClass.canonical_toJson (c : ModuleClass) : c.toJson.Canonical 3 :=
  .ofMemberList (.map Choice.canonical_toJson (.map .string (.map .string
    (.map Value.Canonical.ofUInt64 (.map Value.Canonical.ofUInt64 .nil)))))

namespace Environment

theorem ofJson_toJson {e : Environment} (hs : s.Consistent) (h : s.Reads e.choices []) :
    Environment.ofJson s.registry e.toJson = .ok e := by
  refine Value.readObject_ofMemberList ["class", "instance", "group"] rfl (by decide) ?_
  refine .bind (.takeWith fun c hc => ModuleClass.ofJson_toJson hs (h.moduleClass hc)) ?_
  refine .bind (.takeWith fun x hx => h.named hs (mem_choices_of_instanceId hx)) ?_
  exact .bind (.takeWith fun x hx => h.named hs (mem_choices_of_group hx)) (.pure _ _)

theorem canonical_toJson (e : Environment) : e.toJson.Canonical 4 :=
  .ofMemberList (.map ModuleClass.canonical_toJson
    (.map (fun x => x.canonical_toJson.mono (by omega))
      (.map (fun x => x.canonical_toJson.mono (by omega)) .nil)))

end Environment

/-! ### Measurements -/

namespace MeasurementValues

/-- The members of the core values. -/
def coreMemberList (v : MeasurementValues) : List (String × Option Value) :=
  [("version", v.version.map Version.toJson), ("svn", v.svn.map Choice.toJson),
    ("digests", v.digests.map fun ds => .array (ds.map Digest.toJson)),
    ("raw-value", v.rawValue.map Choice.toJson), ("raw-value-mask", v.rawValueMask.map .ofBytes),
    ("serial-number", v.serialNumber.map .string), ("ueid", v.ueid.map Ueid.toJson),
    ("uuid", v.uuid.map Uuid.toJson), ("name", v.name.map .string)]

/-- No extension field has a name of the core or of another extension field. -/
theorem names_nodup {v : MeasurementValues} (hs : s.Consistent)
    (hf : ∀ e ∈ v.extensions.entries, e.field ∈ s.fields) :
    ((v.coreMemberList ++ v.extensions.jsonMembers).map Prod.fst).Nodup := by
  rw [List.map_append]
  refine List.nodup_append.2 ⟨?_, ?_, ?_⟩
  · show Rim.coreMembers.Nodup
    decide
  · rw [Extensions.jsonMembers, List.map_map]
    exact List.pairwise_map.2 (Extensions.names_distinct hs.apart hf)
  · intro k hk l hl hkl
    obtain ⟨f, hmem, rfl⟩ := List.mem_map.1 hl
    obtain ⟨e, he, rfl⟩ := List.mem_map.1 hmem
    subst hkl
    exact (hs.beside _ (hf e he)).2 hk

/-- The values are written as one list of members. -/
theorem toJson_eq {v : MeasurementValues} (hs : s.Consistent)
    (hf : ∀ e ∈ v.extensions.entries, e.field ∈ s.fields) :
    v.toJson = .ofMemberList (v.coreMemberList ++ v.extensions.jsonMembers) := by
  -- core and extension members are merged as if all had been set at once
  have hd := (distinct_iff.2 (names_nodup hs hf)).present
  rw [present_append] at hd
  have hm : v.coreMembers.merge v.extensions.toJson =
      Members.ofList (v.coreMemberList ++ v.extensions.jsonMembers) := by
    rw [Members.ofList, Keyed.ofFields, present_append]
    exact merge_ofList hd
  rw [toJson, hm, Value.ofMemberList]

theorem ofJson_toJson {v : MeasurementValues} (hs : s.Consistent)
    (h : s.Reads v.choices v.extensions.entries) : MeasurementValues.ofJson s v.toJson = .ok v := by
  have hsvn (x : Choice) (hx : x ∈ v.svn) : s.registry.ofJson x.toJson = .ok x :=
    h.named hs (List.mem_append_left _ (Option.mem_toList.2 hx))
  have hraw (x : Choice) (hx : x ∈ v.rawValue) : s.registry.ofJson x.toJson = .ok x :=
    h.named hs (List.mem_append_right _ (Option.mem_toList.2 hx))
  have hext : Extensions.ofJson s.fields v.extensions.toJson = .ok v.extensions :=
    Extensions.ofJson_toJson hs.apart h.fields h.kept
  rw [toJson_eq hs h.fields]
  refine Value.readObject_ofMemberList _ rfl (names_nodup hs h.fields) ?_
  refine .bind (.takeWith fun x _ => Result.context_eq_ok.2 x.ofJson_toJson) ?_
  refine .bind (.takeWith fun x hx => Result.context_eq_ok.2 (hsvn x hx)) ?_
  refine .bind (.takeWith fun ds _ => Result.context_eq_ok.2 (mapM_map fun d _ => d.ofJson_toJson)) ?_
  refine .bind (.takeWith fun x hx => Result.context_eq_ok.2 (hraw x hx)) ?_
  refine .bind (.takeWith fun b _ => Value.toBytes_ofBytes _ b) ?_
  refine .bind (.takeWith fun _ _ => rfl) ?_
  refine .bind (.takeWith fun u _ => u.ofJson_toJson) ?_
  refine .bind (.takeWith fun u _ => u.parse_toText) ?_
  refine .bind (.takeWith fun _ _ => rfl) ?_
  -- what the core leaves are the extension values
  refine .bind (.takeRest _) ?_
  exact .bind (.ofResult hext _) (.pure _ _)

theorem canonical_toJson (v : MeasurementValues) : v.toJson.Canonical 3 := by
  have hcore : CanonicalMembers 2 v.coreMemberList :=
    .map (fun x => x.canonical_toJson.mono (by omega)) (.map Choice.canonical_toJson
      (.map (.array_map Digest.canonical_toJson) (.map Choice.canonical_toJson
        (.map .ofBytes (.map .string (.map (fun _ => .string _) (.map (fun _ => .string _)
          (.map .string .nil))))))))
  have hext : CanonicalMembers 2 v.extensions.jsonMembers :=
    v.extensions.canonical_jsonMembers.imp fun _ hw => hw.mono (by omega)
  have hall : ∀ m ∈ v.coreMembers.merge v.extensions.toJson, True ∧ m.2.Canonical 2 :=
    merge_forall (p := fun _ => True) (Value.Canonical.members hcore) (Value.Canonical.members hext)
  exact .object (merge_sorted (ofList_sorted _) _) fun m hm => (hall m hm).2

end MeasurementValues

namespace Measurement

theorem ofJson_toJson {m : Measurement} (hs : s.Consistent)
    (h : s.Reads m.choices m.values.extensions.entries) : Measurement.ofJson s m.toJson = .ok m := by
  have hk (x : Choice) (hx : x ∈ m.key) : s.registry.ofJson x.toJson = .ok x :=
    h.named hs (List.mem_append_left _ (Option.mem_toList.2 hx))
  refine Value.readObject_ofMemberList ["key", "value"] rfl (by decide) ?_
  refine .bind (.takeWith fun x hx => Result.context_eq_ok.2 (hk x hx)) ?_
  exact .bind (.requireWith (MeasurementValues.ofJson_toJson hs h.values)) (.pure _ _)

theorem canonical_toJson (m : Measurement) : m.toJson.Canonical 4 :=
  .ofMemberList (.map (fun x => x.canonical_toJson.mono (by omega))
    (.some m.values.canonical_toJson .nil))

end Measurement

/-! ### Triples -/

namespace ValueTriple

theorem ofJson_toJson {t : ValueTriple} (hs : s.Consistent)
    (h : s.Reads t.choices t.extensionEntries) : ValueTriple.ofJson s t.toJson = .ok t := by
  have he := Environment.ofJson_toJson hs h.valueEnvironment
  have hm : (t.measurements.map Measurement.toJson).mapM (Measurement.ofJson s) =
      .ok t.measurements :=
    mapM_map fun m hm => Measurement.ofJson_toJson hs (h.measurement hm)
  refine Value.readObject_ofMemberList ["environment", "measurements"] rfl (by decide) ?_
  refine .bind (.requireWith (Result.context_eq_ok.2 he)) ?_
  exact .bind (.requireWith hm) (.pure _ _)

theorem canonical_toJson (t : ValueTriple) : t.toJson.Canonical 6 :=
  .ofMemberList (.some (t.environment.canonical_toJson.mono (by omega))
    (.some (.array_map Measurement.canonical_toJson _) .nil))

end ValueTriple

namespace KeyTriple

theorem ofJson_toJson {t : KeyTriple} (hs : s.Consistent) (h : s.Reads t.choices []) :
    KeyTriple.ofJson s.registry t.toJson = .ok t := by
  have he := Environment.ofJson_toJson hs h.keyEnvironment
  have hk : (t.keys.map Choice.toJson).mapM s.registry.ofJson = .ok t.keys :=
    mapM_map fun x hx => h.named hs (List.mem_append_right _ hx)
  refine Value.readObject_ofMemberList ["environment", "verification-keys"] rfl (by decide) ?_
  refine .bind (.requireWith (Result.context_eq_ok.2 he)) ?_
  exact .bind (.requireWith hk) (.pure _ _)

theorem canonical_toJson (t : KeyTriple) : t.toJson.Canonical 5 :=
  .ofMemberList (.some t.environment.canonical_toJson
    (.some (.array_map (fun x => x.canonical_toJson.mono (by omega)) _) .nil))

end KeyTriple

namespace Triples

/-- A list of triples is taken if its members are read back. -/
theorem reads_takeJson {α : Type} {name : String} {read : Value → Result α} {write : α → Value}
    {xs : List α} {members : List (String × Option Value)}
    (h : ∀ x ∈ xs, read (write x) = .ok x) :
    Unread.Reads (takeJson name read) ((name, arrayIfAny write xs) :: members) xs members := by
  have ht : Unread.Reads (Remaining.takeWith name fun v => do (← v.toArray name).mapM read)
      ((name, arrayIfAny write xs) :: members) (nonempty? xs) members :=
    .takeList (fun _ => rfl) (mapM_map h)
  have hb : Unread.Reads (takeJson name read) ((name, arrayIfAny write xs) :: members)
      ((nonempty? xs).getD []) members := ht.bind (.pure _ _)
  rwa [nonempty?_getD] at hb

theorem ofJson_toJson {t : Triples} (hs : s.Consistent)
    (h : s.Reads t.choices t.extensionEntries) : Triples.ofJson s t.toJson = .ok t := by
  have hv (v : ValueTriple) (hm : v ∈ t.referenceValues ++ t.endorsedValues) :
      ValueTriple.ofJson s v.toJson = .ok v :=
    ValueTriple.ofJson_toJson hs (h.valueTriple hm)
  have hk (k : KeyTriple) (hm : k ∈ t.identityKeys ++ t.attestKeys) :
      KeyTriple.ofJson s.registry k.toJson = .ok k :=
    KeyTriple.ofJson_toJson hs (h.keyTriple hm)
  refine Value.readObject_ofMemberList
    ["reference-values", "endorsed-values", "dev-identity-keys", "attester-verification-keys"] rfl
    (by decide) ?_
  refine .bind (reads_takeJson fun v m => hv v (List.mem_append_left _ m)) ?_
  refine .bind (reads_takeJson fun v m => hv v (List.mem_append_right _ m)) ?_
  refine .bind (reads_takeJson fun k m => hk k (List.mem_append_left _ m)) ?_
  exact .bind (reads_takeJson fun k m => hk k (List.mem_append_right _ m)) (.pure _ _)

theorem canonical_toJson (t : Triples) : t.toJson.Canonical 8 :=
  .ofMemberList (.list (.array_map ValueTriple.canonical_toJson _)
    (.list (.array_map ValueTriple.canonical_toJson _)
      (.list (.array_map (fun k => k.canonical_toJson.mono (by omega)) _)
        (.list (.array_map (fun k => k.canonical_toJson.mono (by omega)) _) .nil))))

end Triples

/-! ### Module tags -/

theorem TagIdentity.ofJson_toJson {t : TagIdentity} (h : t.id.Unmistakable) :
    TagIdentity.ofJson t.toJson = .ok t := by
  refine Value.readObject_ofMemberList ["id", "version"] rfl (by decide) ?_
  refine .bind (.requireWith (Identifier.ofJson_toJson h)) ?_
  exact .bind (.takeWith fun n _ => Value.toUInt64_ofUInt64 _ n) (.pure _ _)

theorem TagIdentity.canonical_toJson (t : TagIdentity) : t.toJson.Canonical 1 :=
  .ofMemberList (.some t.id.canonical_toJson (.map Value.Canonical.ofUInt64 .nil))

namespace Comid

/-- **A module tag is read back** if its identifier is no text that writes a UUID. -/
theorem ofJson_toJson {c : Comid} (hs : s.Consistent)
    (h : s.Reads c.triples.choices c.triples.extensionEntries) (hid : c.identity.id.Unmistakable) :
    Comid.ofJson s c.toJson = .ok c := by
  have hi := TagIdentity.ofJson_toJson hid
  have ht := Triples.ofJson_toJson hs h
  refine Value.readObject_ofMemberList ["lang", "tag-identity", "entities", "triples"] rfl
    (by decide) ?_
  refine .bind (.takeWith fun _ _ => rfl) ?_
  refine .bind (.requireWith (Result.context_eq_ok.2 hi)) ?_
  refine .bind (.takeList (fun _ => rfl) (mapM_map fun e _ => e.ofJson_toJson)) ?_
  refine .bind (.requireWith (Result.context_eq_ok.2 ht)) ?_
  rw [nonempty?_getD]
  exact .pure _ _

theorem canonical_toJson (c : Comid) : c.toJson.Canonical 9 :=
  .ofMemberList (.map .string (.some (c.identity.canonical_toJson.mono (by omega))
    (.list (.array_map (fun e => e.canonical_toJson.mono (by omega)) _)
      (.some c.triples.canonical_toJson .nil))))

end Comid

end Rim
