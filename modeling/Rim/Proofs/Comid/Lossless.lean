import Rim.Proofs.Comid.Cbor
import Rim.Proofs.Manifest.PartsLossless

/-!
# Module tags are read without loss

A module tag is written as it was read, but for two things: a security version that stands as a plain
number is written under its tag, and an empty list of entities or of triples is left out.

* `MeasurementValues.tidied`, `Measurement.tidied`, `ValueTriple.tidied`, `Triples.tidied`,
  `Comid.tidied`: the value of a part with these two changes.
* `Extensions.perm_of_ofCbor`: each entry that the core leaves becomes one extension value.
* `Comid.restores`: a module tag is written as it was read, tidied.
-/

namespace Rim

open Cbor Unread Keyed

variable {r : ChoiceRegistry} {s : Scope}

theorem Version.lossless : Lossless Version.toCbor Version.ofCbor := by
  refine Accounts.readMap_lossless ?_
  refine .requireWith (Value.lossless_toText _) rfl fun value => ?_
  exact .takeWith (Value.lossless_toInt64 _) rfl fun scheme => .pure (.refl _)

/-! ### Environments -/

theorem ModuleClass.lossless (hr : r.Consistent) (ho : r.Owned) :
    Lossless ModuleClass.toCbor (ModuleClass.ofCbor r) := by
  refine Accounts.readMap_lossless ?_
  refine .takeWith (ChoiceRegistry.lossless hr ho) rfl fun id => ?_
  refine .takeWith (Value.lossless_toText _) rfl fun vendor => ?_
  refine .takeWith (Value.lossless_toText _) rfl fun model => ?_
  refine .takeWith (Value.lossless_toUInt64 _) rfl fun layer => ?_
  exact .takeWith (Value.lossless_toUInt64 _) rfl fun index => .pure (.refl _)

theorem Environment.lossless (hr : r.Consistent) (ho : r.Owned) :
    Lossless Environment.toCbor (Environment.ofCbor r) := by
  refine Accounts.readMap_lossless ?_
  refine .takeWith (ModuleClass.lossless hr ho) rfl fun moduleClass => ?_
  refine .takeWith (ChoiceRegistry.lossless hr ho) rfl fun instanceId => ?_
  exact .takeWith (ChoiceRegistry.lossless hr ho) rfl fun group => .pure (.refl _)

/-! ### Extension values -/

theorem Extension.Field.lossless (f : Extension.Field) :
    Lossless Extension.Value.toCbor f.ofCbor := by
  intro v x hv h
  unfold Extension.Field.ofCbor at h
  -- one case for each shape of the field
  split at h
  · exact (Value.lossless_toUInt64 f.name).map (f := Extension.Value.uint) (fun _ => rfl) v x hv h
  · exact (Value.lossless_toInt64 f.name).map (f := Extension.Value.int) (fun _ => rfl) v x hv h
  · exact (Value.lossless_toText f.name).map (f := Extension.Value.text) (fun _ => rfl) v x hv h
  · exact (Value.lossless_toBytes f.name).map (f := Extension.Value.bytes) (fun _ => rfl) v x hv h
  · obtain ⟨items, hi, h⟩ := Result.bind_eq_ok.1 h
    obtain ⟨texts, ht, h⟩ := Result.bind_eq_ok.1 h
    obtain rfl := Except.ok.inj h
    exact (Value.lossless_toText f.name).array f.name v texts hv (Result.bind_eq_ok.2 ⟨items, hi, ht⟩)
  · split at h
    · obtain rfl := Except.ok.inj h
      rfl
    · exact (Value.lossless_toUInt64 f.name).map (f := Extension.Value.uint) (fun _ => rfl) _ x hv h

namespace Extensions

variable {schema : List Extension.Field}

theorem field_of_readEntry {k v : Value} {d : Extension.Entry} (h : readEntry schema k v = .ok d) :
    fieldOfKey? schema k = some d.field ∧ d.field.ofCbor v = .ok d.value := by
  unfold readEntry at h
  cases hf : fieldOfKey? schema k with
  | none =>
    rw [hf] at h
    cases h
  | some f =>
    rw [hf] at h
    obtain ⟨x, hx, h⟩ := Result.bind_eq_ok.1 h
    obtain rfl := Except.ok.inj h
    exact ⟨rfl, hx⟩

theorem mem_of_fieldOfKey? {k : Value} {f : Extension.Field} (h : fieldOfKey? schema k = some f) :
    f ∈ schema ∧ k = .ofInt64 f.key := by
  obtain ⟨n, hk, hfind⟩ := Option.bind_eq_some_iff.1 h
  have hn := List.find?_some hfind
  exact ⟨List.mem_of_find?_eq_some hfind, Value.eq_ofInt64 (by rw [hk, ← beq_iff_eq.1 hn])⟩

/-- What is read of an entry is written as that entry. -/
theorem cborEntry_of_readEntry {k v : Value} {d : Extension.Entry} (hv : v.InOrder)
    (h : readEntry schema k v = .ok d) : cborEntry d = (k, v) := by
  obtain ⟨hf, hx⟩ := field_of_readEntry h
  have hvalue : d.value.toCbor = v := d.field.lossless v d.value hv hx
  rw [cborEntry, (mem_of_fieldOfKey? hf).2, hvalue]

/-- The entries of a map are read one after the other, and put in place. -/
theorem ofCbor_eq_ok {entries : Entries} {x : Extensions} (h : ofCbor schema entries = .ok x) :
    ∃ ds, entries.mapM (fun e => readEntry schema e.1 e.2) = .ok ds ∧ x = ds.foldl insert empty := by
  unfold ofCbor at h
  generalize empty = y at h ⊢
  induction entries generalizing y with
  | nil => exact ⟨[], rfl, (Except.ok.inj h).symm⟩
  | cons e r ih =>
    rw [List.foldlM_cons] at h
    obtain ⟨z, hz, h⟩ := Result.bind_eq_ok.1 h
    obtain ⟨d, hd, hz⟩ := Result.bind_eq_ok.1 hz
    obtain rfl := Except.ok.inj hz
    obtain ⟨ds, hds, rfl⟩ := ih _ h
    exact ⟨d :: ds, by rw [List.mapM_cons, hd, hds]; rfl, rfl⟩

theorem mem_foldl_insert {e : Extension.Entry} {ds : List Extension.Entry} {x : Extensions}
    (h : e ∈ (ds.foldl insert x).entries) : e ∈ ds ∨ e ∈ x.entries := by
  induction ds generalizing x with
  | nil => exact .inr h
  | cons d r ih =>
    rcases ih h with h | h
    · exact .inl (List.mem_cons_of_mem _ h)
    · rcases mem_place h with rfl | h
      · exact .inl List.mem_cons_self
      · exact .inr h

/-- Values that are read stand under fields of the schema. -/
theorem fields_of_ofCbor {entries : Entries} {x : Extensions} (h : ofCbor schema entries = .ok x) :
    ∀ e ∈ x.entries, e.field ∈ schema := by
  obtain ⟨ds, hds, rfl⟩ := ofCbor_eq_ok h
  intro e he
  have hmem : e ∈ ds := (mem_foldl_insert he).resolve_right (List.not_mem_nil)
  obtain ⟨t, -, ht⟩ := mem_of_mapM hds hmem
  exact (mem_of_fieldOfKey? (field_of_readEntry ht).1).1

theorem entriesOf_cborFields (x : Extensions) :
    entriesOf x.cborFields = x.entries.map cborEntry := by
  rw [entriesOf, cborFields, List.map_map, ← present_map_some (x.entries.map cborEntry), List.map_map]
  rfl

/-- **Each entry that is read becomes one extension value**, and there are no others. -/
theorem perm_of_ofCbor {entries : Entries} {x : Extensions} (he : Orderly entries)
    (h : ofCbor schema entries = .ok x) : (x.entries.map cborEntry).Perm entries := by
  obtain ⟨ds, hds, rfl⟩ := ofCbor_eq_ok h
  have hmap : ds.map cborEntry = entries := by
    have hmap : ds.map cborEntry = entries.map id :=
      map_of_mapM (fun e hm d hd => cborEntry_of_readEntry (he.values e hm) hd) hds
    rwa [List.map_id] at hmap
  have hnil : ds ++ empty.entries = ds := List.append_nil ds
  -- the entries have keys of their own, so no value takes the place of another
  have hkeys : (ds ++ empty.entries).Pairwise fun d e => d.field.key ≠ e.field.key := by
    have hd := he.distinct
    rw [← hmap] at hd
    rw [hnil]
    refine (List.pairwise_map.1 hd).imp ?_
    intro d e hne heq
    exact hne (Value.compare_ofInt64.2 heq)
  have hperm : (ds.foldl insert empty).entries.Perm ds := (foldl_insert_perm hkeys).trans (.of_eq hnil)
  rw [← hmap]
  exact hperm.map cborEntry

end Extensions

/-! ### Measurements -/

namespace MeasurementValues

/-- A security version with its tag. -/
def tidiedSvn : Value → Value
  | .natural n => .tag Kind.svn.tag (.natural n)
  | v => v

/-- Measurement values with the tag of their security version. -/
def tidied : Value → Value := Value.rewrite [(1, some ∘ tidiedSvn)]

theorem restores_svn (hr : r.Consistent) (ho : r.Owned) :
    Restores Choice.toCbor tidiedSvn (svnOfCbor r) := by
  intro v x hv h
  cases v with
  | natural n =>
    obtain rfl := Except.ok.inj h
    rfl
  | negative n => cases h
  | tag n body => exact ChoiceRegistry.lossless hr ho (.tag n body) x hv h
  | _ => cases h

/-- Extension values that are read stand under fields of the scope. -/
theorem fields_of_ofCbor {t : Value} {v : MeasurementValues} (h : ofCbor s t = .ok v) :
    ∀ e ∈ v.extensions.entries, e.field ∈ s.fields := by
  obtain ⟨u, -, h⟩ := Result.bind_eq_ok.1 h
  refine Gives.readAll (P := fun v => ∀ e ∈ v.extensions.entries, e.field ∈ s.fields) ?_ h
  iterate 10 refine .skip fun _ => ?_
  exact .bind (.ofResult fun x => Extensions.fields_of_ofCbor) fun x hx => .pure hx

theorem restores (hs : s.Consistent) (ho : s.registry.Owned) :
    Restores MeasurementValues.toCbor tidied (MeasurementValues.ofCbor s) := by
  intro t v ht h
  rw [toCbor_eq hs (fields_of_ofCbor h)]
  refine Accounts.readMap (fun v => v.coreFields ++ v.extensions.cborFields) ?_ t v ht h
  refine .takeWith (Version.lossless.context _) rfl fun version => ?_
  refine .takeWith ((restores_svn hs.registry ho).context _) rfl fun svn => ?_
  refine .takeWith ((Digest.lossless.array _).context _) rfl fun digests => ?_
  refine .takeWith ((ChoiceRegistry.lossless hs.registry ho).context _) rfl fun rawValue => ?_
  refine .takeWith (Value.lossless_toBytes _) rfl fun rawValueMask => ?_
  refine .takeWith (Value.lossless_toText _) rfl fun serialNumber => ?_
  refine .takeWith (Ueid.lossless_ofBytes _) rfl fun ueid => ?_
  refine .takeWith (Uuid.lossless_ofBytes _) rfl fun uuid => ?_
  refine .takeWith (Value.lossless_toText _) rfl fun name => ?_
  -- no extension field has the key of a rule
  refine .takeRest Extensions.cborFields (fun rest x hrest hx => ?_) fun x => .pure (.refl _)
  have hperm := Extensions.perm_of_ofCbor hrest hx
  have hkept : Entries.rewrite [(1, some ∘ tidiedSvn)] rest = rest := by
    refine Entries.rewrite_of_forall fun e he => ?_
    obtain ⟨d, hd, rfl⟩ := List.mem_map.1 (hperm.mem_iff.2 he)
    refine Rules.apply_of_forall_ne (List.forall_mem_singleton.2 fun hkey => ?_)
    refine (hs.beside _ (Extensions.fields_of_ofCbor hx d hd)).1 ?_
    rw [show d.field.key = 1 from hkey]
    decide
  rw [hkept, Extensions.entriesOf_cborFields]
  exact hperm.symm

end MeasurementValues

namespace Measurement

/-- A measurement with its values tidied. -/
def tidied : Value → Value := Value.rewrite [(1, some ∘ MeasurementValues.tidied)]

theorem restores (hs : s.Consistent) (ho : s.registry.Owned) :
    Restores Measurement.toCbor tidied (Measurement.ofCbor s) := by
  refine Accounts.readMap _ ?_
  refine .takeWith ((ChoiceRegistry.lossless hs.registry ho).context _) rfl fun key => ?_
  exact .requireWith (MeasurementValues.restores hs ho) rfl fun values => .pure (.refl _)

end Measurement

/-! ### Triples -/

namespace ValueTriple

/-- A value triple with its measurements tidied. -/
def tidied : Value → Value := Value.mapSecond (Value.mapItems Measurement.tidied)

theorem restores (hs : s.Consistent) (ho : s.registry.Owned) :
    Restores ValueTriple.toCbor tidied (ValueTriple.ofCbor s) := by
  refine Value.restores_pair _ fun a b t ha hb h => ?_
  obtain ⟨environment, he, h⟩ := Result.bind_eq_ok.1 h
  obtain ⟨items, hi, h⟩ := Result.bind_eq_ok.1 h
  obtain ⟨measurements, hm, h⟩ := Result.bind_eq_ok.1 h
  obtain rfl := Except.ok.inj h
  have hea : environment.toCbor = a :=
    Environment.lossless hs.registry ho a environment ha (Result.context_eq_ok.1 he)
  have hmb := (Measurement.restores hs ho).array _ b measurements hb
    (Result.bind_eq_ok.2 ⟨items, hi, hm⟩)
  rw [ValueTriple.toCbor, hea]
  exact congrArg (fun v => Value.array [a, v]) hmb

end ValueTriple

theorem KeyTriple.lossless (hr : r.Consistent) (ho : r.Owned) :
    Lossless KeyTriple.toCbor (KeyTriple.ofCbor r) := by
  refine Value.lossless_pair _ fun a b t ha hb h => ?_
  obtain ⟨environment, he, h⟩ := Result.bind_eq_ok.1 h
  obtain ⟨items, hi, h⟩ := Result.bind_eq_ok.1 h
  obtain ⟨keys, hk, h⟩ := Result.bind_eq_ok.1 h
  obtain rfl := Except.ok.inj h
  have hea : environment.toCbor = a :=
    Environment.lossless hr ho a environment ha (Result.context_eq_ok.1 he)
  have hkb := (ChoiceRegistry.lossless hr ho).array _ b keys hb (Result.bind_eq_ok.2 ⟨items, hi, hk⟩)
  rw [KeyTriple.toCbor, hea]
  exact congrArg (fun v => Value.array [a, v]) hkb

namespace Triples

/-- Triples with the value triples tidied, and without lists that are empty. -/
def tidied : Value → Value := Value.rewrite [(0, Value.itemsIfAny ValueTriple.tidied),
  (1, Value.itemsIfAny ValueTriple.tidied), (2, Value.ifAny), (3, Value.ifAny)]

/-- A list of triples that is taken is one that may be left out. -/
theorem accounts_takeCbor {α β : Type} {rules : Rules} {found : List (Int64 × Option Value)}
    {key : Int64} {what : String} {read : Value → Result β} {write : β → Value}
    {norm : Value → Value} {q : List β → Taking α} {fields : α → List (Int64 × Option Value)}
    (h : Restores write norm read) (hr : rules.apply (.ofInt64 key) = Value.itemsIfAny norm)
    (hq : ∀ xs, Accounts rules (found ++ [(key, arrayIfAny write xs)]) (q xs) fields) :
    Accounts rules found (takeCbor key what read >>= q) fields := by
  have htake : takeCbor key what read >>= q =
      (Fields.takeWith key fun v => do readEach what read (← v.toArray what)) >>=
        fun o => q (o.getD []) := by
    unfold takeCbor
    rw [bind_assoc]
    simp only [pure_bind]
  rw [htake]
  exact .takeList (h.arrayEach _ _) hr fun o => hq (o.getD [])

theorem restores (hs : s.Consistent) (ho : s.registry.Owned) :
    Restores Triples.toCbor tidied (Triples.ofCbor s) := by
  refine Accounts.readMap _ ?_
  refine accounts_takeCbor (ValueTriple.restores hs ho) rfl fun referenceValues => ?_
  refine accounts_takeCbor (ValueTriple.restores hs ho) rfl fun endorsedValues => ?_
  refine accounts_takeCbor (KeyTriple.lossless hs.registry ho) rfl fun identityKeys => ?_
  exact accounts_takeCbor (KeyTriple.lossless hs.registry ho) rfl fun attestKeys => .pure (.refl _)

end Triples

/-! ### Module tags -/

theorem TagIdentity.lossless : Lossless TagIdentity.toCbor TagIdentity.ofCbor := by
  refine Accounts.readMap_lossless ?_
  refine .requireWith Identifier.lossless rfl fun id => ?_
  exact .takeWith (Value.lossless_toUInt64 _) rfl fun version => .pure (.refl _)

namespace Comid

/-- A module tag with its triples tidied, and without a list of entities that is empty. -/
def tidied : Value → Value :=
  Value.rewrite [(2, Value.ifAny), (4, some ∘ Triples.tidied)]

/-- **A module tag is written as it was read**, tidied. -/
theorem restores (hs : s.Consistent) (ho : s.registry.Owned) :
    Restores Comid.toCbor tidied (Comid.ofCbor s) := by
  refine Accounts.readMap _ ?_
  refine .takeWith (Value.lossless_toText _) rfl fun language => ?_
  refine .requireWith (TagIdentity.lossless.context _) rfl fun identity => ?_
  refine .takeList (Restores.array Entity.lossless _) rfl fun entities => ?_
  exact .requireWith ((Triples.restores hs ho).context _) rfl fun triples => .pure (.refl _)

end Comid

end Rim
