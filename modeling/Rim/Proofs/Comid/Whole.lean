import Rim.Proofs.Comid.Building
import Rim.Proofs.Comid.Json

/-!
# Measurement values are written whole

Core values and extension values are written into one map. Extension values are held by their keys,
but are set over the core values, and in the text format they stand under their names. So all that
is set is written if no extension stands where a core value does and no two have one name. A
registered profile sees to that; setting a field of one's own making does not.

* `MeasurementValues.WholeInCbor`, `MeasurementValues.WholeInJson`: one entry for each value that is
  set.
* `Measurement.extension_of_build`: every extension value of a built measurement was one of its
  parts.
* `MeasurementValues.whole_iff`: when values are written whole.
-/

namespace Rim

open Keyed (present)

/-! ### What is set and what is written -/

namespace MeasurementValues

variable (v : MeasurementValues)

/-- The keys of the core values that are set. -/
def setKeys : List Int64 := (present v.coreFields).map Prod.fst

/-- The names of the core values that are set. -/
def setNames : List String := (present v.coreMemberList).map Prod.fst

/-- All that is set in the binary format: the core values and the extension values, each under its
own key and with its own encoding. -/
def cborParts : Cbor.Entries :=
  present ((v.coreFields ++ v.extensions.cborFields).map fun f => (Cbor.Value.ofInt64 f.1, f.2))

/-- All that is set in the text format: the core values and the extension values, each under its own
name and with its own encoding. -/
def jsonParts : Json.Members := present (v.coreMemberList ++ v.extensions.jsonMembers)

/-- The binary form is a map of one entry for each value that is set, and of nothing else. -/
def WholeInCbor : Prop := ∃ entries, v.toCbor = .map entries ∧ entries.Perm v.cborParts

/-- The text form is an object of one member for each value that is set, and of nothing else. -/
def WholeInJson : Prop := ∃ members, v.toJson = .object members ∧ members.Perm v.jsonParts

variable {v}

theorem setKeys_nodup : v.setKeys.Nodup := by
  refine List.Nodup.sublist (Keyed.present_keys_sublist _) ?_
  show [0, 1, 2, 4, 5, 8, 9, 10, 11].Nodup
  decide

theorem setNames_nodup : v.setNames.Nodup := by
  refine List.Nodup.sublist (Keyed.present_keys_sublist _) ?_
  show Rim.coreMembers.Nodup
  decide

theorem wholeInCbor_iff_distinct : v.WholeInCbor ↔ Keyed.Distinct v.cborParts := by
  unfold WholeInCbor
  rw [cborParts, List.map_append, ← Keyed.merge_ofFields_perm_iff]
  constructor
  · rintro ⟨entries, hv, hperm⟩
    obtain rfl := Cbor.Value.map.inj hv
    exact hperm
  · intro hperm
    exact ⟨_, rfl, hperm⟩

theorem wholeInJson_iff_distinct : v.WholeInJson ↔ Keyed.Distinct v.jsonParts := by
  unfold WholeInJson
  rw [jsonParts, ← Keyed.merge_ofFields_perm_iff]
  constructor
  · rintro ⟨members, hv, hperm⟩
    obtain rfl := Json.Value.object.inj hv
    exact hperm
  · intro hperm
    exact ⟨_, rfl, hperm⟩

/-- **The binary form is whole** just if no extension stands under the key of a core value that is
set. -/
theorem wholeInCbor_iff :
    v.WholeInCbor ↔ ∀ e ∈ v.extensions.entries, e.field.key ∉ v.setKeys := by
  have hkeys : (present (v.coreFields ++ v.extensions.cborFields)).map Prod.fst =
      v.setKeys ++ v.extensions.entries.map (·.field.key) := Keyed.keys_present_append _ _
  have hext : (v.extensions.entries.map (·.field.key)).Nodup :=
    List.pairwise_map.2 (v.extensions.ordered.imp fun hlt => Int64.ne_of_lt hlt)
  rw [wholeInCbor_iff_distinct, cborParts, Keyed.present_map_key, Cbor.Value.distinct_iff, hkeys,
    nodup_append_map setKeys_nodup, and_iff_left hext]

/-- **The text form is whole** just if no extension has the name of a core value that is set, and no
two have one name. -/
theorem wholeInJson_iff :
    v.WholeInJson ↔ (∀ e ∈ v.extensions.entries, e.field.name ∉ v.setNames) ∧
      (v.extensions.entries.map (·.field.name)).Nodup := by
  have hnames : v.jsonParts.map Prod.fst =
      v.setNames ++ v.extensions.entries.map (·.field.name) := Keyed.keys_present_append _ _
  rw [wholeInJson_iff_distinct, Json.distinct_iff, hnames, nodup_append_map setNames_nodup]

/-- Values whose extensions are fields of one scope are written whole. -/
theorem whole_of_fields {s : Scope} (hs : s.Consistent)
    (hf : ∀ e ∈ v.extensions.entries, e.field ∈ s.fields) : v.WholeInCbor ∧ v.WholeInJson := by
  constructor
  · have hkeys := Cbor.Value.distinct_iff.2 (keys_nodup hs hf)
    exact wholeInCbor_iff_distinct.2 hkeys.present
  · have hnames := Json.distinct_iff.2 (names_nodup hs hf)
    exact wholeInJson_iff_distinct.2 hnames.present

end MeasurementValues

/-- **Every extension value of a built measurement** was one of its parts. -/
theorem Measurement.extension_of_build {parts : List MeasurementPart} {m : Measurement}
    (h : Measurement.build parts = .ok m) :
    ∀ e ∈ m.values.extensions.entries, .extension e.field e.value ∈ parts := by
  intro e he
  obtain ⟨-, hholds⟩ := Measurement.builds.result parts m h
  obtain ⟨p, hp, hentry⟩ := Staged.last_eq_some ((hholds.extensions e).1 he)
  obtain rfl := MeasurementPart.entryAt?_eq_some hentry
  exact hp

/-! ### When values are written whole -/

namespace MeasurementValues

/-- **When measurement values are written whole.** The binary form has one entry for each core value
and each extension that is set, with its own encoding, just if no extension stands under the key of
a core value that is set; the text form, just if no extension has the name of one and no two have
one name. So it is with extensions that are fields of a registered profile, and with every
measurement that was built of such. -/
theorem whole_iff (v : MeasurementValues) :
    (v.WholeInCbor ↔ ∀ e ∈ v.extensions.entries, e.field.key ∉ v.setKeys) ∧
    (v.WholeInJson ↔ (∀ e ∈ v.extensions.entries, e.field.name ∉ v.setNames) ∧
      (v.extensions.entries.map (·.field.name)).Nodup) ∧
    ∀ c : Catalogue, c.Reachable → ∀ id,
      ((∀ e ∈ v.extensions.entries, e.field ∈ (c.scope id).fields) →
        v.WholeInCbor ∧ v.WholeInJson) ∧
      ∀ parts key, Measurement.build parts = .ok ⟨key, v⟩ →
        (∀ f x, .extension f x ∈ parts → f ∈ (c.scope id).fields) →
        v.WholeInCbor ∧ v.WholeInJson := by
  refine ⟨wholeInCbor_iff, wholeInJson_iff, fun c hc id => ?_⟩
  have hs := (Catalogue.consistent_of_reachable hc).scope id
  refine ⟨whole_of_fields hs, fun parts key h hf => whole_of_fields hs fun e he => ?_⟩
  exact hf e.field e.value (Measurement.extension_of_build h e he)

/-- A security version number and a number of the TDX profile. -/
def tdxParts : List MeasurementPart :=
  [.svn 7, .extension ⟨-77, "instanceid", .uint, none⟩ (.uint 3)]

/-- What is built of them is written whole in both formats. -/
theorem whole_iff_tdxParts : ∃ m, Measurement.build tdxParts = .ok m ∧ m.values.WholeInCbor ∧
    m.values.WholeInJson := by
  refine ⟨_, rfl, ?_⟩
  obtain ⟨-, -, hprofile⟩ := whole_iff _
  have hbuild := (hprofile Catalogue.bundled Catalogue.bundled_reachable (some Tdx.profileId)).2
  refine hbuild tdxParts none rfl ?_
  intro f x hx
  have hfields : (Catalogue.bundled.scope (some Tdx.profileId)).fields = Tdx.fields := rfl
  rw [hfields]
  rcases List.mem_cons.1 hx with hx | hx
  · cases hx
  · obtain ⟨rfl, -⟩ := MeasurementPart.extension.inj (List.mem_singleton.1 hx)
    exact List.mem_cons_self

/-- A security version number, a field under its key, and two fields of one name. -/
def clashingParts : List MeasurementPart :=
  [.svn 7, .extension ⟨1, "floor", .uint, none⟩ (.uint 3),
    .extension ⟨-1, "counter", .uint, none⟩ (.uint 7),
    .extension ⟨-2, "counter", .text, none⟩ (.text "x")]

/-- The extension values that they set. -/
def clashingExtensions : Extensions where
  entries := [⟨⟨-2, "counter", .text, none⟩, .text "x"⟩, ⟨⟨-1, "counter", .uint, none⟩, .uint 7⟩,
    ⟨⟨1, "floor", .uint, none⟩, .uint 3⟩]
  ordered := by decide

/-- The values that are built of them. -/
def clashing : MeasurementValues :=
  { empty with svn := some (.svn 7), extensions := clashingExtensions }

/-- They are valid, but the binary form has no security version number, and the text form one
counter only. -/
theorem clashing_not_whole :
    Measurement.build clashingParts = .ok ⟨none, clashing⟩ ∧ clashing.validate = .ok () ∧
    clashing.toCbor = .map [(.natural 1, .natural 3), (.negative 0, .natural 7),
      (.negative 1, .text "x")] ∧
    clashing.toJson = .object [("counter", .ofUInt64 7), ("floor", .ofUInt64 3),
      ("svn", .typed "svn" (.ofUInt64 7))] ∧
    ¬ clashing.WholeInCbor ∧ ¬ clashing.WholeInJson := by
  refine ⟨rfl, rfl, rfl, ?_, ?_, ?_⟩
  · rfl
  · rw [wholeInCbor_iff]
    intro h
    have hfloor : ⟨⟨1, "floor", .uint, none⟩, .uint 3⟩ ∈ clashing.extensions.entries := by
      simp [clashing, clashingExtensions]
    exact h _ hfloor (by decide)
  · rw [wholeInJson_iff]
    rintro ⟨-, h⟩
    exact absurd h (by decide)

end MeasurementValues

end Rim
