import Rim.Proofs.Choice.Equality
import Rim.Proofs.Comid.Cbor
import Rim.Proofs.Growth
import Rim.Proofs.Manifest.Rules

/-!
# Equality of measurement values

Measurement values are compared part by part: choices by their kinds and bodies, extension values by
their keys and values, whatever fields they were set through. What is written is read back by a scope
that has the fields, so for valid values of one profile the comparison, the written form and the
values themselves say the same. Fields of two profiles may write unequal values alike, a signed number
and one without a sign.

* `Extensions.beq_iff_getKey?`, `Extensions.beq_iff_toCbor`: the comparison of extension values.
* `MeasurementValues.reads_of_valid`: valid values of a registered profile are read back.
* `MeasurementValues.beq_iff`: the comparison of measurement values.
* `MeasurementValues.beq_as_written`: it is the comparison of what is written.
-/

namespace Rim

open Extension (Field Value)

/-! ### Extension values -/

namespace Extensions

variable {x y : Extensions} {schema : List Field}

/-- The keys and the values of entries. -/
def pairs (x : Extensions) : List (Int64 × Value) := x.entries.map fun e => (e.field.key, e.value)

theorem beq_iff_pairs : (x == y) = true ↔ x.pairs = y.pairs := by
  show (x.pairs == y.pairs) = true ↔ _
  exact beq_iff_eq

theorem pairs_ordered (x : Extensions) : x.pairs.Pairwise fun a b => a.1 < b.1 :=
  List.pairwise_map.2 x.ordered

/-- What is found under a key is the value there. -/
theorem getKey?_eq_some {key : Int64} {v : Value} : x.getKey? key = some v ↔ (key, v) ∈ x.pairs := by
  have hkeys : x.entries.Pairwise fun d e => d.field.key ≠ e.field.key :=
    x.ordered.imp fun hlt => Int64.ne_of_lt hlt
  unfold getKey? pairs
  rw [Option.map_eq_some_iff, List.mem_map]
  refine exists_congr fun e => ?_
  rw [find?_eq_some_of_pairwise hkeys, and_assoc, Prod.mk.injEq]

/-- **Extension values are equal if they have the same under every key.** -/
theorem beq_iff_getKey? : (x == y) = true ↔ ∀ key, x.getKey? key = y.getKey? key := by
  rw [beq_iff_pairs]
  constructor
  · intro h key
    refine Option.ext fun v => ?_
    rw [getKey?_eq_some, getKey?_eq_some, h]
  · intro h
    have hmem (p : Int64 × Value) : p ∈ x.pairs ↔ p ∈ y.pairs := by
      rw [← getKey?_eq_some, ← getKey?_eq_some, h]
    have hnodup (z : Extensions) : z.pairs.Nodup :=
      z.pairs_ordered.imp fun hlt he => Int64.ne_of_lt hlt (congrArg Prod.fst he)
    -- both lists are in the order of the keys
    have hperm := (List.perm_ext_iff_of_nodup (hnodup x) (hnodup y)).2 hmem
    refine hperm.eq_of_pairwise (fun a b _ _ hab hba => ?_) x.pairs_ordered y.pairs_ordered
    rw [Int64.lt_iff_toInt_lt] at hab hba
    omega

/-- What is written depends on the keys and the values only. -/
theorem toCbor_eq_of_pairs (h : x.pairs = y.pairs) : x.toCbor = y.toCbor := by
  have hfields (z : Extensions) :
      z.entries.map (fun e => (e.field.key, some e.value.toCbor)) =
        z.pairs.map fun p => (p.1, some p.2.toCbor) := by
    rw [pairs, List.map_map]
    rfl
  rw [toCbor, toCbor, hfields, hfields, h]

/-- Values of one schema are determined by what is written of them. -/
theorem eq_of_toCbor (hs : schema.Pairwise Profile.Apart)
    (hx : ∀ e ∈ x.entries, e.field ∈ schema ∧ e.field.check e.value = .ok ())
    (hy : ∀ e ∈ y.entries, e.field ∈ schema ∧ e.field.check e.value = .ok ())
    (h : x.toCbor = y.toCbor) : x = y := by
  have hreadx := ofCbor_toCbor hs (fun e he => (hx e he).1) fun e he => (hx e he).2
  have hready := ofCbor_toCbor hs (fun e he => (hy e he).1) fun e he => (hy e he).2
  exact Result.eq_of_read hreadx hready h

/-- **Extension values of one schema are equal if they are written alike.** -/
theorem beq_iff_toCbor (hs : schema.Pairwise Profile.Apart)
    (hx : ∀ e ∈ x.entries, e.field ∈ schema ∧ e.field.check e.value = .ok ())
    (hy : ∀ e ∈ y.entries, e.field ∈ schema ∧ e.field.check e.value = .ok ()) :
    (x == y) = true ↔ x.toCbor = y.toCbor := by
  rw [beq_iff_pairs]
  exact ⟨toCbor_eq_of_pairs, fun h => congrArg pairs (eq_of_toCbor hs hx hy h)⟩

/-- Fields of two schemas may write unequal values alike, a signed number and one without a sign. -/
example :
    let signed : Extensions := ⟨[⟨⟨-1, "a", .int, none⟩, .int 5⟩], List.pairwise_singleton _ _⟩
    let unsigned : Extensions := ⟨[⟨⟨-1, "a", .uint, none⟩, .uint 5⟩], List.pairwise_singleton _ _⟩
    signed.toCbor = unsigned.toCbor ∧ (signed == unsigned) = false := ⟨rfl, rfl⟩

end Extensions

/-! ### Measurement values -/

namespace MeasurementValues

variable {v w : MeasurementValues} {c : Catalogue} {id : Option ProfileId}

/-- The choices among valid values are of few kinds. -/
theorem kind_of_mem_choices (hv : v.Rule) {x : Choice} (hx : x ∈ v.choices) :
    x.kind = .svn ∨ x.kind = .minSvn ∨ x.kind = .bytes ∨ x.kind = .masked := by
  rcases List.mem_append.1 hx with hx | hx
  · rcases hv.svn x (Option.mem_toList.1 hx) with hk | hk <;> simp [hk]
  · rcases hv.rawValue x (Option.mem_toList.1 hx) with hk | hk <;> simp [hk]

/-- **Valid values of a registered profile are read back** by what the profile says. -/
theorem reads_of_valid (hc : c.Reachable) (hv : v.validate = .ok ())
    (hf : ∀ e ∈ v.extensions.entries, e.field ∈ (c.scope id).fields) :
    (c.scope id).Reads v.choices v.extensions.entries where
  held x hx := by
    refine Catalogue.holds_builtins hc ?_
    rcases kind_of_mem_choices (validate_eq_ok.1 hv).1 hx with hk | hk | hk | hk <;> rw [hk] <;> decide
  valid := choices_valid hv
  fields := hf
  kept := extensions_valid hv

/-- Choices among valid values compare as equal only if they are, however long they are. -/
theorem choice_beq_iff_eq (hv : v.validate = .ok ()) (hw : w.validate = .ok ()) {a b : Choice}
    (ha : a ∈ v.choices) (hb : b ∈ w.choices) : (a == b) = true ↔ a = b := by
  have hlength {u : MeasurementValues} (hu : u.validate = .ok ()) {x : MaskedValue}
      (hx : .masked x ∈ u.choices) : x.value.length = x.mask.length := by
    have hvalid : x.validate = .ok () := choices_valid hu _ hx
    exact (MaskedValue.validate_eq_ok.1 hvalid).2
  cases a with
  | svn | minSvn | bytes => exact Choice.beq_iff_eq_of_leaf (by simp [Choice.body, Cbor.Value.major])
  | masked x =>
    exact Choice.beq_iff_eq_of_masked (hlength hv ha) fun y hy => hlength hw (hy ▸ hb)
  | _ =>
    rcases kind_of_mem_choices (validate_eq_ok.1 hv).1 ha with hk | hk | hk | hk <;> cases hk

/-- An optional choice among valid values. -/
theorem optional_beq_iff_eq {o o' : Option Choice}
    (h : ∀ a ∈ o, ∀ b ∈ o', (a == b) = true ↔ a = b) : (o == o') = true ↔ o = o' := by
  cases o with
  | none => cases o' <;> simp
  | some a =>
    cases o' with
    | none => simp
    | some b => simpa using h a rfl b rfl

/-- **Valid values compare as equal if they are**, but for the fields of their extension values. -/
theorem beq_iff (hv : v.validate = .ok ()) (hw : w.validate = .ok ()) : (v == w) = true ↔
    { v with extensions := w.extensions } = w ∧ (v.extensions == w.extensions) = true := by
  have hsvn : (v.svn == w.svn) = true ↔ v.svn = w.svn :=
    optional_beq_iff_eq fun a ha b hb => choice_beq_iff_eq hv hw
      (List.mem_append_left _ (Option.mem_toList.2 ha))
      (List.mem_append_left _ (Option.mem_toList.2 hb))
  have hraw : (v.rawValue == w.rawValue) = true ↔ v.rawValue = w.rawValue :=
    optional_beq_iff_eq fun a ha b hb => choice_beq_iff_eq hv hw
      (List.mem_append_right _ (Option.mem_toList.2 ha))
      (List.mem_append_right _ (Option.mem_toList.2 hb))
  obtain ⟨version, svn, digests, raw, mask, serial, ueid, uuid, name, extensions⟩ := v
  obtain ⟨version', svn', digests', raw', mask', serial', ueid', uuid', name', extensions'⟩ := w
  show (version == version' && (svn == svn' && (digests == digests' && (raw == raw' &&
    (mask == mask' && (serial == serial' && (ueid == ueid' && (uuid == uuid' &&
    (name == name' && extensions == extensions'))))))))) = true ↔ _
  simp only [Bool.and_eq_true, hsvn, hraw, beq_iff_eq, mk.injEq, and_assoc, true_and]

/-- Valid values of one profile are determined by what is written of them. -/
theorem eq_of_toCbor (hc : c.Reachable) (hv : v.validate = .ok ()) (hw : w.validate = .ok ())
    (hfv : ∀ e ∈ v.extensions.entries, e.field ∈ (c.scope id).fields)
    (hfw : ∀ e ∈ w.extensions.entries, e.field ∈ (c.scope id).fields) (h : v.toCbor = w.toCbor) :
    v = w := by
  have hs := (Catalogue.consistent_of_reachable hc).scope id
  have hreadv := ofCbor_toCbor hs (reads_of_valid hc hv hfv)
  have hreadw := ofCbor_toCbor hs (reads_of_valid hc hw hfw)
  exact Result.eq_of_read hreadv hreadw h

/-- Equal valid values are written alike. -/
theorem toCbor_of_beq (hv : v.validate = .ok ()) (hw : w.validate = .ok ()) (h : (v == w) = true) :
    v.toCbor = w.toCbor := by
  obtain ⟨hcore, hextensions⟩ := (beq_iff hv hw).1 h
  have hwritten := Extensions.toCbor_eq_of_pairs (Extensions.beq_iff_pairs.1 hextensions)
  rw [← hcore]
  show Cbor.Value.map (v.coreEntries.merge v.extensions.toCbor) = .map (v.coreEntries.merge _)
  rw [hwritten]

theorem beq_self (hv : v.validate = .ok ()) : (v == v) = true :=
  (beq_iff hv hv).2 ⟨rfl, Extensions.beq_iff_pairs.2 rfl⟩

/-- **Comparing measurement values is comparing what is signed for them.** Valid values whose
extension values are of fields of one registered profile are equal just if they are written alike, as
values of the binary format and, as far as lengths can be written, in octets. Extension values are
equal just if they are written alike, and just if the same is found under every key; choices just if
they are written alike, which is if they hold the same value of the same kind. -/
theorem beq_as_written (hc : c.Reachable) (hv : v.validate = .ok ()) (hw : w.validate = .ok ())
    (hfv : ∀ e ∈ v.extensions.entries, e.field ∈ (c.scope id).fields)
    (hfw : ∀ e ∈ w.extensions.entries, e.field ∈ (c.scope id).fields) :
    ((v == w) = true ↔ v.toCbor = w.toCbor) ∧
    (v.toCbor.encode.length < 2 ^ 64 →
      ((v == w) = true ↔ Ord.compare v.toCbor w.toCbor = .eq) ∧
      ((v == w) = true ↔ v.toCbor.encode = w.toCbor.encode)) ∧
    ((v.extensions == w.extensions) = true ↔ v.extensions.toCbor = w.extensions.toCbor) ∧
    ((v.extensions == w.extensions) = true ↔
      ∀ key, v.extensions.getKey? key = w.extensions.getKey? key) ∧
    (∀ a b : Choice, a.toCbor = b.toCbor ↔ a = b) ∧
    ∀ a b : Choice, a.body.encode.length < 2 ^ 64 → ((a == b) = true ↔ a.toCbor = b.toCbor) := by
  have hwritten : (v == w) = true ↔ v.toCbor = w.toCbor := by
    refine ⟨toCbor_of_beq hv hw, fun h => ?_⟩
    obtain rfl := eq_of_toCbor hc hv hw hfv hfw h
    exact beq_self hv
  have hcanonical (u : MeasurementValues) : u.toCbor.Canonical Cbor.documents.levels :=
    u.canonical_toCbor.mono (by decide)
  have hs := (Catalogue.consistent_of_reachable hc).scope id
  refine ⟨hwritten, fun hsize => ⟨?_, ?_⟩, ?_, Extensions.beq_iff_getKey?,
    fun _ _ => Choice.toCbor_inj, fun a b hsize => ?_⟩
  · rw [hwritten]
    refine ⟨fun h => ?_, Cbor.Value.eq_of_compare (hcanonical v) (hcanonical w) hsize⟩
    rw [h]
    exact Std.ReflCmp.compare_self
  · rw [hwritten]
    exact ⟨congrArg _, Cbor.Value.eq_of_encode (hcanonical v) (hcanonical w) hsize⟩
  · exact Extensions.beq_iff_toCbor hs.apart (fun e he => ⟨hfv e he, extensions_valid hv e he⟩)
      fun e he => ⟨hfw e he, extensions_valid hw e he⟩
  · rw [Choice.beq_iff_eq hsize, Choice.toCbor_inj]

/-- A security version number and a status of the TDX profile. -/
def ofStatus (svn : Choice) : MeasurementValues :=
  { empty with
    svn := some svn
    extensions :=
      ⟨[⟨⟨-88, "tcbstatus", .textSet, none⟩, .textSet ["UpToDate"]⟩], List.pairwise_singleton _ _⟩ }

/-- An exact number and a least one are not the same, and are not written alike. -/
theorem beq_as_written_status :
    (ofStatus (.svn 7)).validate = .ok () ∧ (ofStatus (.minSvn 7)).validate = .ok () ∧
    (ofStatus (.svn 7) == ofStatus (.minSvn 7)) = false ∧
    (ofStatus (.svn 7)).toCbor ≠ (ofStatus (.minSvn 7)).toCbor ∧
    ((ofStatus (.svn 7)).extensions == (ofStatus (.minSvn 7)).extensions) = true := by
  have hfields (svn : Choice) : ∀ e ∈ (ofStatus svn).extensions.entries,
      e.field ∈ (Catalogue.bundled.scope (some Tdx.profileId)).fields := by
    intro e he
    obtain rfl := List.mem_singleton.1 he
    show _ ∈ Tdx.fields
    simp [Tdx.fields]
  have hexact : (ofStatus (.svn 7)).validate = .ok () := by decide +kernel
  have hleast : (ofStatus (.minSvn 7)).validate = .ok () := by decide +kernel
  obtain ⟨hwritten, -, -, hkeys, -⟩ :=
    beq_as_written Catalogue.bundled_reachable hexact hleast (hfields _) (hfields _)
  have hne : (ofStatus (.svn 7) == ofStatus (.minSvn 7)) = false := by decide +kernel
  refine ⟨hexact, hleast, hne, fun h => ?_, hkeys.2 fun _ => rfl⟩
  rw [hwritten.2 h] at hne
  cases hne

end MeasurementValues

end Rim
