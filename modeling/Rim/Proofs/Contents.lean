import Rim.Manifest
import Rim.Profile.Bundled
import Rim.Proofs.Result

/-!
# What a manifest holds

The type choices and the extension values anywhere in a manifest. Whether they can be read depends
on what is known when the manifest is read; that each one keeps its own rule follows from the
manifest being valid.

* `Manifest.choices`, `Manifest.extensionEntries`: everything of either sort, wherever it stands.
* `Manifest.identifiers`, `Manifest.bounds`: its identifiers, and the bounds of its window.
* `Manifest.choices_valid`, `Manifest.extensions_valid`: in a valid manifest all of it is valid.
-/

namespace Rim

/-! ### Environments -/

/-- The identifiers of an environment, that of its class included. -/
def Environment.choices (e : Environment) : List Choice :=
  (e.moduleClass.bind ModuleClass.id).toList ++ e.instanceId.toList ++ e.group.toList

/-! ### Measurements -/

/-- The choices among measurement values. -/
def MeasurementValues.choices (v : MeasurementValues) : List Choice :=
  v.svn.toList ++ v.rawValue.toList

/-- The choices of a measurement, its key included. -/
def Measurement.choices (m : Measurement) : List Choice := m.key.toList ++ m.values.choices

/-! ### Triples -/

/-- The choices of a value triple. -/
def ValueTriple.choices (t : ValueTriple) : List Choice :=
  t.environment.choices ++ t.measurements.flatMap Measurement.choices

/-- The extension values of a value triple. -/
def ValueTriple.extensionEntries (t : ValueTriple) : List Extension.Entry :=
  t.measurements.flatMap fun m => m.values.extensions.entries

/-- The choices of a key triple, its keys included. -/
def KeyTriple.choices (t : KeyTriple) : List Choice := t.environment.choices ++ t.keys

/-- The choices of triples. -/
def Triples.choices (t : Triples) : List Choice :=
  (t.referenceValues ++ t.endorsedValues).flatMap ValueTriple.choices ++
    (t.identityKeys ++ t.attestKeys).flatMap KeyTriple.choices

/-- The extension values of triples. -/
def Triples.extensionEntries (t : Triples) : List Extension.Entry :=
  (t.referenceValues ++ t.endorsedValues).flatMap ValueTriple.extensionEntries

/-! ### Manifests -/

/-- The choices anywhere in a manifest. -/
def Manifest.choices (m : Manifest) : List Choice := m.comids.flatMap fun c => c.triples.choices

/-- The extension values anywhere in a manifest. -/
def Manifest.extensionEntries (m : Manifest) : List Extension.Entry :=
  m.comids.flatMap fun c => c.triples.extensionEntries

/-- The identifiers anywhere in a manifest: its own, and those of its module tags. -/
def Manifest.identifiers (m : Manifest) : List Identifier :=
  m.id :: m.comids.map fun c => c.identity.id

/-- The bounds of a window. -/
def Validity.bounds (v : Validity) : List Time.Instant := v.notBefore.toList ++ [v.notAfter]

/-- The bounds of a manifest's window, if it has one. -/
def Manifest.bounds (m : Manifest) : List Time.Instant := m.validity.toList.flatMap Validity.bounds

/-- A module tag with two kinds of choices and no extension values. -/
def Comid.plain : Comid where
  language := none
  identity := ⟨.text "acme-module", none⟩
  entities := []
  triples := { Triples.empty with
    referenceValues := [{
      environment := ⟨some ⟨some (.oid ⟨[0x2a, 0x03]⟩), none, none, none, none⟩, none, none⟩
      measurements := [⟨none, { MeasurementValues.empty with svn := some (.svn 7) }⟩] }] }

/-- A manifest of one embedded tag. -/
def Manifest.single (t : EmbeddedTag) : Manifest where
  id := .text "acme-rim"
  tags := [t]
  dependents := []
  profile := none
  validity := none
  entities := []

/-- A manifest that holds something of most sorts: a module tag with an extension value of the TDX
profile, and octets that are no module tag. -/
def Manifest.sample : Manifest where
  id := .text "acme-rim"
  tags := [
    .comid {
      language := some "en"
      identity := ⟨.text "acme-module", some 1⟩
      entities := [⟨"ACME Ltd", some "https://acme.example", [.tagCreator]⟩]
      triples := { Triples.empty with
        referenceValues := [{
          environment := ⟨some ⟨some (.oid ⟨[0x2a, 0x03]⟩), some "ACME", none, some 0, none⟩, none, none⟩
          measurements := [{
            key := some (.int 1)
            values := { MeasurementValues.empty with
              version := some (.semantic "1.2.0")
              svn := some (.minSvn 7)
              rawValue := some (.masked ⟨[0x0f], [0xff]⟩)
              extensions := Extensions.empty.insert
                ⟨⟨-88, "tcbstatus", .textSet, none⟩, .textSet ["UpToDate"]⟩ } }] }] } },
    .opaqueOctets [0xd9, 0x01, 0xf9, 0xa0]]
  dependents := [⟨"https://acme.example/base", some ⟨6, [1, 2, 3, 4]⟩⟩]
  profile := some Tdx.profileId
  validity := some ⟨some ⟨1700000000, 0, by decide⟩, ⟨1800000000, 0, by decide⟩⟩
  entities := [⟨"ACME Ltd", none, [.manifestCreator]⟩]

theorem Manifest.sample_fields (e : Extension.Entry) (h : e ∈ sample.extensionEntries) :
    e.field ∈ (Catalogue.bundled.scope sample.profile).fields := by
  obtain rfl : e = ⟨⟨-88, "tcbstatus", .textSet, none⟩, .textSet ["UpToDate"]⟩ :=
    List.mem_singleton.1 h
  show _ ∈ Tdx.fields
  simp [Tdx.fields]

/-! ### Valid manifests hold valid things -/

theorem ModuleClass.validate_eq_ok {c : ModuleClass} : c.validate = .ok () ↔
    (c ≠ ⟨none, none, none, none, none⟩ ∧ c.vendor ≠ some "" ∧ c.model ≠ some "") ∧
      ∀ x ∈ c.id, x.validate = .ok () := by
  have hempty : c.isEmpty = true ↔ c = ⟨none, none, none, none, none⟩ := by
    obtain ⟨_, _, _, _, _⟩ := c
    simp [isEmpty, and_assoc]
  simp only [validate, Result.error_bind, Result.refuse_eq_ok, Result.check_eq_ok,
    Result.context_eq_ok, checkOptional_eq_ok, hempty]
  constructor
  · rintro ⟨hset, hid, hvendor, hmodel, -⟩
    exact ⟨⟨hset, hvendor, hmodel⟩, hid⟩
  · rintro ⟨⟨hset, hvendor, hmodel⟩, hid⟩
    exact ⟨hset, hid, hvendor, hmodel, rfl⟩

theorem Environment.validate_eq_ok {e : Environment} : e.validate = .ok () ↔
    e ≠ ⟨none, none, none⟩ ∧ (∀ c ∈ e.moduleClass, c.validate = .ok ()) ∧
      (∀ x ∈ e.instanceId, x.validate = .ok ()) ∧ ∀ x ∈ e.group, x.validate = .ok () := by
  have hempty : (e.moduleClass.isNone && e.instanceId.isNone && e.group.isNone) = true ↔
      e = ⟨none, none, none⟩ := by
    obtain ⟨_, _, _⟩ := e
    simp [and_assoc]
  simp only [validate, Result.error_bind, Result.refuse_eq_ok, Result.check_eq_ok,
    Result.context_eq_ok, checkOptional_eq_ok, hempty]

theorem Environment.choices_valid {e : Environment} (h : e.validate = .ok ()) :
    ∀ x ∈ e.choices, x.validate = .ok () := by
  obtain ⟨-, hc, hi, hg⟩ := validate_eq_ok.1 h
  intro x hx
  rcases List.mem_append.1 hx with hx | hx
  · rcases List.mem_append.1 hx with hx | hx
    · obtain ⟨c, hm, hid⟩ := Option.bind_eq_some_iff.1 (Option.mem_toList.1 hx)
      exact (ModuleClass.validate_eq_ok.1 (hc c hm)).2 x hid
    · exact hi x (Option.mem_toList.1 hx)
  · exact hg x (Option.mem_toList.1 hx)

theorem MeasurementValues.choices_valid {v : MeasurementValues} (h : v.validate = .ok ()) :
    ∀ x ∈ v.choices, x.validate = .ok () := by
  simp only [MeasurementValues.validate, Result.error_bind, Result.refuse_eq_ok,
    Result.check_eq_ok, Result.context_eq_ok, checkOptional_eq_ok] at h
  obtain ⟨-, -, hs, -, hr, -⟩ := h
  intro x hx
  rcases List.mem_append.1 hx with hx | hx
  · -- a security version is of one of two kinds, which have no rule of their own
    have hkind := hs x (Option.mem_toList.1 hx)
    cases x with
    | svn | minSvn => rfl
    | _ => cases hkind
  · have hkind := hr x (Option.mem_toList.1 hx)
    cases x with
    | bytes | masked => exact Result.context_eq_ok.1 hkind
    | _ => cases hkind

/-- Extension values pass if each one keeps the rule of its field. -/
theorem Extensions.validate_eq_ok {x : Extensions} :
    x.validate = .ok () ↔ ∀ e ∈ x.entries, e.field.check e.value = .ok () := by
  obtain ⟨entries, ordered⟩ := x
  unfold Extensions.validate
  dsimp only
  clear ordered
  induction entries with
  | nil => exact ⟨fun _ => nofun, fun _ => rfl⟩
  | cons d r ih =>
    show ((d.field.check d.value).context _ >>= fun _ => r.forM _) = .ok () ↔ _
    rw [Result.check_eq_ok, Result.context_eq_ok, ih, List.forall_mem_cons]

theorem MeasurementValues.extensions_valid {v : MeasurementValues} (h : v.validate = .ok ()) :
    ∀ e ∈ v.extensions.entries, e.field.check e.value = .ok () := by
  simp only [MeasurementValues.validate, Result.error_bind, Result.refuse_eq_ok,
    Result.check_eq_ok] at h
  obtain ⟨-, -, -, -, -, -, -, -, -, -, hx⟩ := h
  exact Extensions.validate_eq_ok.1 hx

theorem Measurement.validate_eq_ok {m : Measurement} : m.validate = .ok () ↔
    (∀ x ∈ m.key, x.validate = .ok ()) ∧ m.values.validate = .ok () := by
  simp only [validate, Result.check_eq_ok, Result.context_eq_ok, checkOptional_eq_ok]

theorem Measurement.choices_valid {m : Measurement} (h : m.validate = .ok ()) :
    ∀ x ∈ m.choices, x.validate = .ok () := by
  obtain ⟨hk, hv⟩ := validate_eq_ok.1 h
  intro x hx
  rcases List.mem_append.1 hx with hx | hx
  · exact hk x (Option.mem_toList.1 hx)
  · exact MeasurementValues.choices_valid hv x hx

namespace ValueTriple

variable {t : ValueTriple}

theorem validate_eq_ok : t.validate = .ok () ↔ t.environment.validate = .ok () ∧
    ¬t.measurements.isEmpty ∧ ∀ m ∈ t.measurements, m.validate = .ok () := by
  simp only [validate, Result.error_bind, Result.refuse_eq_ok, Result.check_eq_ok,
    Result.context_eq_ok, checkEach_eq_ok]

theorem choices_valid (h : t.validate = .ok ()) : ∀ x ∈ t.choices, x.validate = .ok () := by
  obtain ⟨he, -, hm⟩ := validate_eq_ok.1 h
  intro x hx
  rcases List.mem_append.1 hx with hx | hx
  · exact Environment.choices_valid he x hx
  · obtain ⟨m, hmem, hx⟩ := List.mem_flatMap.1 hx
    exact Measurement.choices_valid (hm m hmem) x hx

theorem extensions_valid (h : t.validate = .ok ()) :
    ∀ e ∈ t.extensionEntries, e.field.check e.value = .ok () := by
  obtain ⟨-, -, hm⟩ := validate_eq_ok.1 h
  intro e he
  obtain ⟨m, hmem, he⟩ := List.mem_flatMap.1 he
  exact MeasurementValues.extensions_valid (Measurement.validate_eq_ok.1 (hm m hmem)).2 e he

end ValueTriple

theorem KeyTriple.validate_eq_ok {t : KeyTriple} : t.validate = .ok () ↔
    t.environment.validate = .ok () ∧ ¬t.keys.isEmpty ∧ ∀ x ∈ t.keys, x.validate = .ok () := by
  simp only [validate, Result.error_bind, Result.refuse_eq_ok, Result.check_eq_ok,
    Result.context_eq_ok, checkEach_eq_ok]

theorem KeyTriple.choices_valid {t : KeyTriple} (h : t.validate = .ok ()) :
    ∀ x ∈ t.choices, x.validate = .ok () := by
  obtain ⟨he, -, hk⟩ := validate_eq_ok.1 h
  intro x hx
  rcases List.mem_append.1 hx with hx | hx
  · exact Environment.choices_valid he x hx
  · exact hk x hx

namespace Triples

variable {t : Triples}

theorem validate_eq_ok : t.validate = .ok () ↔ ¬t.isEmpty ∧
    (∀ v ∈ t.referenceValues, v.validate = .ok ()) ∧ (∀ v ∈ t.endorsedValues, v.validate = .ok ()) ∧
    (∀ k ∈ t.identityKeys, k.validate = .ok ()) ∧ ∀ k ∈ t.attestKeys, k.validate = .ok () := by
  simp only [validate, Result.error_bind, Result.refuse_eq_ok, Result.check_eq_ok,
    checkEach_eq_ok]

theorem choices_valid (h : t.validate = .ok ()) : ∀ x ∈ t.choices, x.validate = .ok () := by
  obtain ⟨-, hr, he, hi, ha⟩ := validate_eq_ok.1 h
  intro x hx
  rcases List.mem_append.1 hx with hx | hx
  · obtain ⟨v, hv, hx⟩ := List.mem_flatMap.1 hx
    exact ValueTriple.choices_valid ((List.mem_append.1 hv).elim (hr v) (he v)) x hx
  · obtain ⟨k, hk, hx⟩ := List.mem_flatMap.1 hx
    exact KeyTriple.choices_valid ((List.mem_append.1 hk).elim (hi k) (ha k)) x hx

theorem extensions_valid (h : t.validate = .ok ()) :
    ∀ e ∈ t.extensionEntries, e.field.check e.value = .ok () := by
  obtain ⟨-, hr, he, -⟩ := validate_eq_ok.1 h
  intro x hx
  obtain ⟨v, hv, hx⟩ := List.mem_flatMap.1 hx
  exact ValueTriple.extensions_valid ((List.mem_append.1 hv).elim (hr v) (he v)) x hx

end Triples

theorem Comid.validate_eq_ok {c : Comid} : c.validate = .ok () ↔ c.language ≠ some "" ∧
    c.identity.id.validate = .ok () ∧ (∀ e ∈ c.entities, e.validate = .ok ()) ∧
    c.triples.validate = .ok () := by
  simp only [validate, TagIdentity.validate, Entity.validateAll, Result.error_bind,
    Result.refuse_eq_ok, Result.check_eq_ok, Result.context_eq_ok, checkEach_eq_ok]

theorem Comid.triples_valid {c : Comid} (h : c.validate = .ok ()) : c.triples.validate = .ok () :=
  (validate_eq_ok.1 h).2.2.2

namespace Manifest

variable {m : Manifest}

theorem validate_eq_ok : m.validate = .ok () ↔ m.id.validate = .ok () ∧ ¬m.tags.isEmpty ∧
    (∀ t ∈ m.tags, t.validate = .ok ()) ∧ (∀ l ∈ m.dependents, l.validate = .ok ()) ∧
    (∀ p ∈ m.profile, p.validate = .ok ()) ∧ (∀ v ∈ m.validity, v.validate = .ok ()) ∧
    ∀ e ∈ m.entities, e.validate = .ok () := by
  simp only [validate, Entity.validateAll, Result.error_bind, Result.refuse_eq_ok,
    Result.check_eq_ok, Result.context_eq_ok, checkEach_eq_ok, checkOptional_eq_ok]

theorem mem_comids {c : Comid} : c ∈ m.comids ↔ EmbeddedTag.comid c ∈ m.tags := by
  unfold comids
  rw [List.mem_filterMap]
  constructor
  · rintro ⟨t, ht, hc⟩
    cases t with
    | comid d => exact Option.some.inj hc ▸ ht
    | opaqueOctets b => cases hc
  · intro h
    exact ⟨_, h, rfl⟩

theorem comids_valid (h : m.validate = .ok ()) : ∀ c ∈ m.comids, c.validate = .ok () := by
  obtain ⟨-, -, ht, -⟩ := validate_eq_ok.1 h
  intro c hc
  exact ht _ (mem_comids.1 hc)

/-- **Every choice in a valid manifest is valid.** -/
theorem choices_valid (h : m.validate = .ok ()) : ∀ x ∈ m.choices, x.validate = .ok () := by
  intro x hx
  obtain ⟨c, hc, hx⟩ := List.mem_flatMap.1 hx
  exact Triples.choices_valid (Comid.triples_valid (comids_valid h c hc)) x hx

/-- **Every extension value in a valid manifest keeps its field's rule.** -/
theorem extensions_valid (h : m.validate = .ok ()) :
    ∀ e ∈ m.extensionEntries, e.field.check e.value = .ok () := by
  intro e he
  obtain ⟨c, hc, he⟩ := List.mem_flatMap.1 he
  exact Triples.extensions_valid (Comid.triples_valid (comids_valid h c hc)) e he

end Manifest

end Rim
