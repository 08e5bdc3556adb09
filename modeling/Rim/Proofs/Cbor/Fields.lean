import Rim.Cbor.Fields
import Rim.Proofs.Cbor.Reading
import Rim.Proofs.Result
import Rim.Proofs.Unread

/-!
# Reading maps that were written

A map is written as a list of fields with integer keys. It is canonical if its fields' values are,
and it is read back by steps that take each of its fields and no other.

* `Value.readMap_ofFields`: reading undoes writing, field by field.
* `Canonical.ofFields`: what is written is canonical.
* `encode_le_ofFields`: a field is not longer than its map.
-/

namespace Rim.Cbor

open Keyed Unread

variable {α : Type} {levels : Nat} {fields : List (Int64 × Option Value)}

/-- **A map is read back** by steps that take each of its fields. -/
theorem Value.readMap_ofFields {what : String} {body : Taking α} {a : α} (keys : List Int64)
    (hk : fields.map Prod.fst = keys) (hd : keys.Nodup)
    (h : Reads body (fields.map fun f => (Value.ofInt64 f.1, f.2)) a []) :
    (Value.ofFields fields).readMap what body = .ok a :=
  h.readAll (Value.distinct_iff.2 (hk ▸ hd))

/-- A field is not longer than its map. -/
theorem Value.encode_le_ofFields (key : Int64) {v : Value} (hd : (fields.map Prod.fst).Nodup)
    (h : (key, some v) ∈ fields) : v.encode.length ≤ (Value.ofFields fields).encode.length := by
  -- no two keys are equal, so the field is still there when all are set
  have hm : (Value.ofInt64 key, v) ∈ Entries.ofFields fields :=
    mem_ofFields (Value.distinct_iff.2 hd) (List.mem_map.2 ⟨_, h, rfl⟩)
  have hle : v.encode.length ≤ (Value.encodeEntries (Entries.ofFields fields)).length :=
    Nat.le_trans (Nat.le_add_left _ _) (Value.encode_le_encodeEntries hm)
  rw [Value.ofFields, Value.encode, List.length_append]
  exact Nat.le_trans hle (Nat.le_add_left _ _)

/-- A map that is read is one. -/
theorem Fields.ofValue_eq_ok {what : String} {v : Value} {u : Fields} (h : ofValue what v = .ok u) :
    v = .map u.entries := by
  cases v with
  | map entries =>
    obtain rfl := Except.ok.inj h
    rfl
  | _ => cases h

theorem Value.toBytes_eq_ok {what : String} {v : Value} {b : Bytes} :
    v.toBytes what = .ok b ↔ v = .bytes b := by
  cases v with
  | bytes c => exact ⟨fun h => congrArg _ (Except.ok.inj h), fun h => congrArg _ (Value.bytes.inj h)⟩
  | _ => exact ⟨nofun, nofun⟩

theorem Value.toArray_eq_ok {what : String} {v : Value} {items : List Value} :
    v.toArray what = .ok items ↔ v = .array items := by
  cases v with
  | array xs => exact ⟨fun h => congrArg _ (Except.ok.inj h), fun h => congrArg _ (Value.array.inj h)⟩
  | _ => exact ⟨nofun, nofun⟩

/-- Octets are not longer than the byte string that holds them. -/
theorem Value.length_le_bytes (b : Bytes) : b.length ≤ (Value.bytes b).encode.length := by
  rw [Value.encode, List.length_append]
  exact Nat.le_add_left _ _

/-- A value is not longer than with a tag. -/
theorem Value.encode_le_tag (number : UInt64) (v : Value) :
    v.encode.length ≤ (Value.tag number v).encode.length := by
  rw [Value.encode, List.length_append]
  exact Nat.le_add_left _ _

/-- An item is not longer than its array. -/
theorem Value.encode_le_array {v : Value} {items : List Value} (h : v ∈ items) :
    v.encode.length ≤ (Value.array items).encode.length := by
  rw [Value.encode, List.length_append]
  exact Nat.le_trans (Value.encode_le_encodeItems h) (Nat.le_add_left _ _)

/-! ### What is written is canonical -/

theorem Value.Canonical.ofInt64 (n : Int64) : (Value.ofInt64 n).Canonical levels := by
  unfold Value.ofInt64
  split
  · exact .natural _
  · exact .negative _

theorem Value.Canonical.array_map {write : α → Value} (h : ∀ a, (write a).Canonical levels) (xs : List α) :
    (Value.array (xs.map write)).Canonical (levels + 1) := by
  refine .array ?_
  intro v hv
  obtain ⟨x, -, rfl⟩ := List.mem_map.1 hv
  exact h x

theorem Value.Canonical.uri (s : String) : (Value.uri s).Canonical (levels + 1) := .tag _ (.text s)

theorem Value.Canonical.epoch (n : Int64) : (Value.epoch n).Canonical (levels + 1) :=
  .tag _ (.ofInt64 n)

/-- Fields whose values are canonical. -/
abbrev CanonicalFields (levels : Nat) (fields : List (Int64 × Option Value)) : Prop :=
  Holding (Value.Canonical levels) fields

namespace Value.Canonical

theorem entries (h : CanonicalFields levels fields) :
    ∀ e ∈ Entries.ofFields fields, e.1.Canonical levels ∧ e.2.Canonical levels := by
  refine ofList_forall ?_
  rintro ⟨k, v⟩ he
  obtain ⟨⟨key, o⟩, hf, he⟩ := List.mem_map.1 (mem_present.1 he)
  obtain ⟨rfl, rfl⟩ := Prod.mk.inj he
  exact ⟨ofInt64 key, h _ hf v rfl⟩

/-- A map of canonical values is canonical. -/
theorem ofFields (h : CanonicalFields levels fields) :
    (Value.ofFields fields).Canonical (levels + 1) :=
  .map (ofList_sorted _) (fun e he => (entries h e he).1) fun e he => (entries h e he).2

end Value.Canonical

/-! ### Parts of values -/

namespace Value

variable (what : String)

theorem toUri_uri (s : String) : (uri s).toUri what = .ok s := by
  rw [toUri, uri, untag, if_pos rfl]
  rfl

theorem toInt64_ofInt64 (n : Int64) : (ofInt64 n).toInt64 what = .ok n := by
  rw [toInt64, toInt?_ofInt64]
  show (if -2 ^ 63 ≤ n.toInt ∧ n.toInt < 2 ^ 63 then Except.ok (Int64.ofInt n.toInt) else _) = _
  rw [if_pos ⟨n.le_toInt, n.toInt_lt⟩, Int64.ofInt_toInt]

theorem toEpoch_epoch (n : Int64) : (epoch n).toEpoch what = .ok n := by
  rw [toEpoch, epoch, untag, if_pos rfl]
  exact toInt64_ofInt64 what n

end Value

end Rim.Cbor
