import Rim.Cbor.Access
import Rim.Proofs.Cbor.Order

/-!
# Values in key order

A value is in order if every map in it, at any depth, holds its entries in the order of their keys and
no two of them under equal keys. Whatever a whole input is read as is in order.

* `Value.InOrder`: the values whose maps are all in key order.
* `Value.normal_inOrder`: putting a value in order does so at every depth.
* `decode_inOrder`: what is read is in order.
-/

namespace Rim.Cbor

open Keyed

/-- Values whose maps are in key order at every depth. -/
inductive Value.InOrder : Value → Prop
  | natural (n : UInt64) : InOrder (natural n)
  | negative (n : UInt64) : InOrder (negative n)
  | bytes (b : Bytes) : InOrder (bytes b)
  | text (s : String) : InOrder (text s)
  | float (bits : UInt64) : InOrder (float bits)
  | bool (b : Bool) : InOrder (bool b)
  | null : InOrder null
  | array {items : List Value} (h : ∀ v ∈ items, InOrder v) : InOrder (array items)
  | map {entries : Entries} (ordered : Sorted entries) (keys : ∀ e ∈ entries, InOrder e.1)
      (values : ∀ e ∈ entries, InOrder e.2) : InOrder (map entries)
  | tag (number : UInt64) {body : Value} (h : InOrder body) : InOrder (tag number body)

namespace Value

namespace InOrder

variable {xs : List Value} {es : Entries} {n : UInt64} {v : Value}

theorem items (h : (Value.array xs).InOrder) : ∀ v ∈ xs, v.InOrder := by
  cases h with
  | array h => exact h

theorem sorted (h : (Value.map es).InOrder) : Sorted es := by
  cases h with
  | map ho _ _ => exact ho

theorem values (h : (Value.map es).InOrder) : ∀ e ∈ es, e.2.InOrder := by
  cases h with
  | map _ _ hv => exact hv

theorem body (h : (Value.tag n v).InOrder) : v.InOrder := by
  cases h with
  | tag _ h => exact h

end InOrder

mutual

/-- **Putting a value in order** does so at every depth. -/
theorem normal_inOrder : (v : Value) → v.normal.InOrder
  | natural n => .natural n
  | negative n => .negative n
  | bytes b => .bytes b
  | text s => .text s
  | array items => by
    rw [normal]
    exact .array (normalItems_inOrder items)
  | map entries => by
    have h := ofList_forall (normalEntries_inOrder entries)
    rw [normal]
    exact .map (ofList_sorted _) (fun e he => (h e he).1) fun e he => (h e he).2
  | tag number body => by
    rw [normal]
    exact .tag number (normal_inOrder body)
  | float bits => .float bits
  | bool b => .bool b
  | null => .null

theorem normalItems_inOrder : (items : List Value) → ∀ v ∈ normalItems items, v.InOrder
  | [] => by
    rw [normalItems]
    exact nofun
  | v :: r => by
    rw [normalItems]
    exact List.forall_mem_cons.2 ⟨normal_inOrder v, normalItems_inOrder r⟩

theorem normalEntries_inOrder : (entries : List (Value × Value)) →
    ∀ e ∈ normalEntries entries, e.1.InOrder ∧ e.2.InOrder
  | [] => by
    rw [normalEntries]
    exact nofun
  | (k, v) :: r => by
    rw [normalEntries]
    exact List.forall_mem_cons.2 ⟨⟨normal_inOrder k, normal_inOrder v⟩, normalEntries_inOrder r⟩

end

/-- A value that putting in order leaves as it is is in order. -/
theorem inOrder_of_normal {v : Value} (h : v.normal = v) : v.InOrder := h ▸ v.normal_inOrder

end Value

theorem decode_eq_ok {b : Bytes} {v : Value} : decode b = .ok v ↔ decode? b = some v := by
  unfold decode
  cases decode? b with
  | none => exact ⟨nofun, nofun⟩
  | some w => exact ⟨fun h => congrArg some (Except.ok.inj h), fun h => congrArg _ (Option.some.inj h)⟩

/-- **What is read is in order.** -/
theorem decode_inOrder {b : Bytes} {v : Value} (h : decode b = .ok v) : v.InOrder := by
  obtain ⟨w, -, rfl⟩ := Option.map_eq_some_iff.1 (decode_eq_ok.1 h)
  exact w.normal_inOrder

end Rim.Cbor
