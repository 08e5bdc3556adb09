import Rim.Proofs.Comid.Reads
import Rim.Proofs.Manifest.PartsCbor
import Rim.Proofs.Profile.Extension

/-!
# Module tags in the binary format

Everything in a module tag is read back if its choices are of kinds that are held, its extension
values stand under fields of the scope, and all of them are valid.

* `Environment.ofCbor_toCbor`, `MeasurementValues.ofCbor_toCbor`, `Triples.ofCbor_toCbor`: the parts.
* `Comid.ofCbor_toCbor`: a whole module tag.
* `Comid.canonical_toCbor`: what is written is canonical, valid or not.
-/

namespace Rim

open Cbor Unread Keyed

variable {s : Scope}

/-- A choice among those that a scope reads. -/
theorem Scope.Reads.choice {xs : List Choice} {es : List Extension.Entry} (h : s.Reads xs es)
    (hs : s.Consistent) {x : Choice} (hx : x ∈ xs) : s.registry.ofCbor x.toCbor = .ok x :=
  ChoiceRegistry.ofCbor_toCbor hs.registry (h.held x hx) (h.valid x hx)

/-! ### Versions and environments -/

theorem Version.ofCbor_toCbor (v : Version) : Version.ofCbor v.toCbor = .ok v := by
  refine Value.readMap_ofFields [0, 1] rfl (by decide) ?_
  refine .bind (.requireWith rfl) ?_
  exact .bind (.takeWith fun n _ => Value.toInt64_ofInt64 _ n) (.pure _ _)

theorem Version.canonical_toCbor (v : Version) : v.toCbor.Canonical 1 :=
  .ofFields (.some (.text _) (.map Value.Canonical.ofInt64 .nil))

theorem ModuleClass.ofCbor_toCbor {c : ModuleClass} (hs : s.Consistent)
    (h : s.Reads c.id.toList []) : ModuleClass.ofCbor s.registry c.toCbor = .ok c := by
  refine Value.readMap_ofFields [0, 1, 2, 3, 4] rfl (by decide) ?_
  refine .bind (.takeWith fun x hx => h.choice hs (Option.mem_toList.2 hx)) ?_
  refine .bind (.takeWith fun _ _ => rfl) ?_
  refine .bind (.takeWith fun _ _ => rfl) ?_
  refine .bind (.takeWith fun _ _ => rfl) ?_
  exact .bind (.takeWith fun _ _ => rfl) (.pure _ _)

theorem ModuleClass.canonical_toCbor (c : ModuleClass) : c.toCbor.Canonical 3 :=
  .ofFields (.map Choice.canonical_toCbor (.map .text (.map .text (.map .natural
    (.map .natural .nil)))))

namespace Environment

theorem ofCbor_toCbor {e : Environment} (hs : s.Consistent) (h : s.Reads e.choices []) :
    Environment.ofCbor s.registry e.toCbor = .ok e := by
  refine Value.readMap_ofFields [0, 1, 2] rfl (by decide) ?_
  refine .bind (.takeWith fun c hc => ModuleClass.ofCbor_toCbor hs (h.moduleClass hc)) ?_
  refine .bind (.takeWith fun x hx => h.choice hs (mem_choices_of_instanceId hx)) ?_
  exact .bind (.takeWith fun x hx => h.choice hs (mem_choices_of_group hx)) (.pure _ _)

theorem canonical_toCbor (e : Environment) : e.toCbor.Canonical 4 :=
  .ofFields (.map ModuleClass.canonical_toCbor
    (.map (fun x => x.canonical_toCbor.mono (by omega))
      (.map (fun x => x.canonical_toCbor.mono (by omega)) .nil)))

end Environment

/-! ### Measurements -/

namespace MeasurementValues

/-- The fields of the core values. -/
def coreFields (v : MeasurementValues) : List (Int64 × Option Value) :=
  [(0, v.version.map Version.toCbor), (1, v.svn.map Choice.toCbor),
    (2, v.digests.map fun ds => .array (ds.map Digest.toCbor)),
    (4, v.rawValue.map Choice.toCbor), (5, v.rawValueMask.map .bytes),
    (8, v.serialNumber.map .text), (9, v.ueid.map Ueid.toCbor), (10, v.uuid.map Uuid.toCbor),
    (11, v.name.map .text)]

/-- No extension field has a key of the core or of another extension field. -/
theorem keys_nodup {v : MeasurementValues} (hs : s.Consistent)
    (hf : ∀ e ∈ v.extensions.entries, e.field ∈ s.fields) :
    ((v.coreFields ++ v.extensions.cborFields).map Prod.fst).Nodup := by
  rw [List.map_append]
  refine List.nodup_append.2 ⟨?_, ?_, ?_⟩
  · show [0, 1, 2, 4, 5, 8, 9, 10, 11].Nodup
    decide
  · rw [Extensions.cborFields, List.map_map]
    exact List.pairwise_map.2 (v.extensions.ordered.imp fun hlt => Int64.ne_of_lt hlt)
  · intro k hk l hl hkl
    obtain ⟨f, hmem, rfl⟩ := List.mem_map.1 hl
    obtain ⟨e, he, rfl⟩ := List.mem_map.1 hmem
    -- the core keys lie in the range that no field of a profile may use
    refine (hs.beside _ (hf e he)).1 ?_
    have hcore : ([0, 1, 2, 4, 5, 8, 9, 10, 11] : List Int64).all
        (fun k => coreKeys.1 ≤ k && k ≤ coreKeys.2) = true := by decide
    rw [show k = e.field.key from hkl] at hk
    simpa using List.all_eq_true.1 hcore _ hk

/-- The values are written as one list of fields. -/
theorem toCbor_eq {v : MeasurementValues} (hs : s.Consistent)
    (hf : ∀ e ∈ v.extensions.entries, e.field ∈ s.fields) :
    v.toCbor = .ofFields (v.coreFields ++ v.extensions.cborFields) := by
  -- core and extension entries are merged as if all had been set at once
  have hd := (Value.distinct_iff.2 (keys_nodup hs hf)).present
  rw [List.map_append, present_append] at hd
  have hm : v.coreEntries.merge v.extensions.toCbor =
      Entries.ofFields (v.coreFields ++ v.extensions.cborFields) := by
    rw [Entries.ofFields, Keyed.ofFields, List.map_append, present_append]
    exact merge_ofList hd
  rw [toCbor, hm, Value.ofFields]

theorem ofCbor_toCbor {v : MeasurementValues} (hs : s.Consistent)
    (h : s.Reads v.choices v.extensions.entries) : MeasurementValues.ofCbor s v.toCbor = .ok v := by
  have hsvn (x : Choice) (hx : x ∈ v.svn) : svnOfCbor s.registry x.toCbor = .ok x :=
    h.choice hs (List.mem_append_left _ (Option.mem_toList.2 hx))
  have hraw (x : Choice) (hx : x ∈ v.rawValue) : s.registry.ofCbor x.toCbor = .ok x :=
    h.choice hs (List.mem_append_right _ (Option.mem_toList.2 hx))
  have hext : Extensions.ofCbor s.fields v.extensions.toCbor = .ok v.extensions :=
    Extensions.ofCbor_toCbor hs.apart h.fields h.kept
  rw [toCbor_eq hs h.fields]
  refine Value.readMap_ofFields _ rfl (keys_nodup hs h.fields) ?_
  refine .bind (.takeWith fun x _ => Result.context_eq_ok.2 x.ofCbor_toCbor) ?_
  refine .bind (.takeWith fun x hx => Result.context_eq_ok.2 (hsvn x hx)) ?_
  refine .bind (.takeWith fun ds _ => Result.context_eq_ok.2 (mapM_map fun d _ => d.ofCbor_toCbor)) ?_
  refine .bind (.takeWith fun x hx => Result.context_eq_ok.2 (hraw x hx)) ?_
  refine .bind (.takeWith fun _ _ => rfl) ?_
  refine .bind (.takeWith fun _ _ => rfl) ?_
  refine .bind (.takeWith fun _ _ => rfl) ?_
  refine .bind (.takeWith fun u _ => u.ofBytes_octets) ?_
  refine .bind (.takeWith fun _ _ => rfl) ?_
  -- what the core leaves are the extension values
  refine .bind (.takeRest _) ?_
  exact .bind (.ofResult hext _) (.pure _ _)

theorem canonical_toCbor (v : MeasurementValues) : v.toCbor.Canonical 3 := by
  have hcore : CanonicalFields 2 v.coreFields :=
    .map (fun x => x.canonical_toCbor.mono (by omega)) (.map Choice.canonical_toCbor
      (.map (.array_map Digest.canonical_toCbor) (.map Choice.canonical_toCbor (.map .bytes
        (.map .text (.map (fun _ => .bytes _) (.map (fun _ => .bytes _) (.map .text .nil))))))))
  have hext : CanonicalFields 2 v.extensions.cborFields :=
    v.extensions.canonical_cborFields.imp fun _ hw => hw.mono (by omega)
  have hall := merge_forall (Value.Canonical.entries hcore) (Value.Canonical.entries hext)
  exact .map (merge_sorted (ofList_sorted _) _) (fun e he => (hall e he).1) fun e he => (hall e he).2

end MeasurementValues

namespace Measurement

theorem ofCbor_toCbor {m : Measurement} (hs : s.Consistent)
    (h : s.Reads m.choices m.values.extensions.entries) : Measurement.ofCbor s m.toCbor = .ok m := by
  have hk (x : Choice) (hx : x ∈ m.key) : s.registry.ofCbor x.toCbor = .ok x :=
    h.choice hs (List.mem_append_left _ (Option.mem_toList.2 hx))
  have hv : MeasurementValues.ofCbor s m.values.toCbor = .ok m.values :=
    MeasurementValues.ofCbor_toCbor hs h.values
  refine Value.readMap_ofFields [0, 1] rfl (by decide) ?_
  refine .bind (.takeWith fun x hx => Result.context_eq_ok.2 (hk x hx)) ?_
  exact .bind (.requireWith hv) (.pure _ _)

theorem canonical_toCbor (m : Measurement) : m.toCbor.Canonical 4 :=
  .ofFields (.map (fun x => x.canonical_toCbor.mono (by omega)) (.some m.values.canonical_toCbor .nil))

end Measurement

/-! ### Triples -/

/-- An array of two items is canonical if they are. -/
theorem Cbor.Value.Canonical.pair {levels : Nat} {a b : Value} (ha : a.Canonical levels)
    (hb : b.Canonical levels) : (Value.array [a, b]).Canonical (levels + 1) :=
  .array (List.forall_mem_cons.2 ⟨ha, List.forall_mem_singleton.2 hb⟩)

namespace ValueTriple

theorem ofCbor_toCbor {t : ValueTriple} (hs : s.Consistent)
    (h : s.Reads t.choices t.extensionEntries) : ValueTriple.ofCbor s t.toCbor = .ok t := by
  have he : Environment.ofCbor s.registry t.environment.toCbor = .ok t.environment :=
    Environment.ofCbor_toCbor hs h.valueEnvironment
  have hm : (t.measurements.map Measurement.toCbor).mapM (Measurement.ofCbor s) =
      .ok t.measurements :=
    mapM_map fun m hm => Measurement.ofCbor_toCbor hs (h.measurement hm)
  show (do let environment ← (Environment.ofCbor s.registry t.environment.toCbor).context _
           let measurements ← (t.measurements.map Measurement.toCbor).mapM (Measurement.ofCbor s)
           return ⟨environment, measurements⟩ : Result ValueTriple) = _
  rw [he, hm]
  rfl

theorem canonical_toCbor (t : ValueTriple) : t.toCbor.Canonical 6 :=
  .pair (t.environment.canonical_toCbor.mono (by omega)) (.array_map Measurement.canonical_toCbor _)

end ValueTriple

namespace KeyTriple

theorem ofCbor_toCbor {t : KeyTriple} (hs : s.Consistent) (h : s.Reads t.choices []) :
    KeyTriple.ofCbor s.registry t.toCbor = .ok t := by
  have he : Environment.ofCbor s.registry t.environment.toCbor = .ok t.environment :=
    Environment.ofCbor_toCbor hs h.keyEnvironment
  have hk : (t.keys.map Choice.toCbor).mapM s.registry.ofCbor = .ok t.keys :=
    mapM_map fun x hx => h.choice hs (List.mem_append_right _ hx)
  show (do let environment ← (Environment.ofCbor s.registry t.environment.toCbor).context _
           let keys ← (t.keys.map Choice.toCbor).mapM s.registry.ofCbor
           return ⟨environment, keys⟩ : Result KeyTriple) = _
  rw [he, hk]
  rfl

theorem canonical_toCbor (t : KeyTriple) : t.toCbor.Canonical 5 :=
  .pair t.environment.canonical_toCbor
    (.array_map (fun x => x.canonical_toCbor.mono (by omega)) _)

end KeyTriple

namespace Triples

/-- A list of triples is taken if its members are read back. -/
theorem reads_takeCbor {α : Type} {key : Int64} {what : String} {read : Value → Result α}
    {write : α → Value} {xs : List α} {fields : List (Value × Option Value)}
    (h : ∀ x ∈ xs, read (write x) = .ok x) :
    Unread.Reads (takeCbor key what read) ((.ofInt64 key, arrayIfAny write xs) :: fields) xs
      fields := by
  have ht : Unread.Reads (Fields.takeWith key fun v => do readEach what read (← v.toArray what))
      ((.ofInt64 key, arrayIfAny write xs) :: fields) (nonempty? xs) fields :=
    .takeList (fun _ => rfl) (readEach_map h)
  have hb : Unread.Reads (takeCbor key what read) ((.ofInt64 key, arrayIfAny write xs) :: fields)
      ((nonempty? xs).getD []) fields := ht.bind (.pure _ _)
  rwa [nonempty?_getD] at hb

theorem ofCbor_toCbor {t : Triples} (hs : s.Consistent)
    (h : s.Reads t.choices t.extensionEntries) : Triples.ofCbor s t.toCbor = .ok t := by
  have hv (v : ValueTriple) (hm : v ∈ t.referenceValues ++ t.endorsedValues) :
      ValueTriple.ofCbor s v.toCbor = .ok v :=
    ValueTriple.ofCbor_toCbor hs (h.valueTriple hm)
  have hk (k : KeyTriple) (hm : k ∈ t.identityKeys ++ t.attestKeys) :
      KeyTriple.ofCbor s.registry k.toCbor = .ok k :=
    KeyTriple.ofCbor_toCbor hs (h.keyTriple hm)
  refine Value.readMap_ofFields [0, 1, 2, 3] rfl (by decide) ?_
  refine .bind (reads_takeCbor fun v m => hv v (List.mem_append_left _ m)) ?_
  refine .bind (reads_takeCbor fun v m => hv v (List.mem_append_right _ m)) ?_
  refine .bind (reads_takeCbor fun k m => hk k (List.mem_append_left _ m)) ?_
  exact .bind (reads_takeCbor fun k m => hk k (List.mem_append_right _ m)) (.pure _ _)

theorem canonical_toCbor (t : Triples) : t.toCbor.Canonical 8 :=
  .ofFields (.list (.array_map ValueTriple.canonical_toCbor _)
    (.list (.array_map ValueTriple.canonical_toCbor _)
      (.list (.array_map (fun k => k.canonical_toCbor.mono (by omega)) _)
        (.list (.array_map (fun k => k.canonical_toCbor.mono (by omega)) _) .nil))))

end Triples

/-! ### Module tags -/

theorem TagIdentity.ofCbor_toCbor (t : TagIdentity) : TagIdentity.ofCbor t.toCbor = .ok t := by
  refine Value.readMap_ofFields [0, 1] rfl (by decide) ?_
  refine .bind (.requireWith t.id.ofCbor_toCbor) ?_
  exact .bind (.takeWith fun _ _ => rfl) (.pure _ _)

theorem TagIdentity.canonical_toCbor (t : TagIdentity) : t.toCbor.Canonical 1 :=
  .ofFields (.some t.id.canonical_toCbor (.map .natural .nil))

namespace Comid

/-- **A module tag is read back.** -/
theorem ofCbor_toCbor {c : Comid} (hs : s.Consistent)
    (h : s.Reads c.triples.choices c.triples.extensionEntries) : Comid.ofCbor s c.toCbor = .ok c := by
  have ht := Triples.ofCbor_toCbor hs h
  refine Value.readMap_ofFields [0, 1, 2, 4] rfl (by decide) ?_
  refine .bind (.takeWith fun _ _ => rfl) ?_
  refine .bind (.requireWith (Result.context_eq_ok.2 c.identity.ofCbor_toCbor)) ?_
  refine .bind (.takeList (fun _ => rfl) (mapM_map fun e _ => e.ofCbor_toCbor)) ?_
  refine .bind (.requireWith (Result.context_eq_ok.2 ht)) ?_
  rw [nonempty?_getD]
  exact .pure _ _

theorem canonical_toCbor (c : Comid) : c.toCbor.Canonical 9 :=
  .ofFields (.map .text (.some (c.identity.canonical_toCbor.mono (by omega))
    (.list (.array_map (fun e => e.canonical_toCbor.mono (by omega)) _)
      (.some c.triples.canonical_toCbor .nil))))

end Comid

end Rim
