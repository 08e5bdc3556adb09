import Rim.Cbor.Fields
import Rim.Proofs.Keyed
import Mathlib.Data.List.Nodup

/-!
# The order of map keys

Keys are ordered by major type, by length or magnitude and by content, one after the other, so the
order is a total preorder. Integer keys are equal only if they stand for the same number.

* `compare_eq`: the three parts of the order.
* `toInt?_ofInt64`: the number that an integer key stands for.
* `distinct_iff`: fields with integer keys are distinct if their numbers are.
-/

namespace Rim.Cbor.Value

open Std Keyed

/-- The length or magnitude by which values of one major type are ordered first. -/
def magnitude : Value → Nat
  | natural n | negative n => n.toNat
  | bytes b => b.length
  | text s => s.utf8ByteSize
  | array items => items.length
  | map entries => entries.length
  | _ => 0

/-- The octets by which values of one major type and magnitude are ordered. -/
def content : Value → Bytes
  | natural _ | negative _ => []
  | bytes b => b
  | text s => Bytes.ofText s
  | v => v.encode

theorem bytes_compare_eq (x y : Bytes) :
    Bytes.compare x y = Ord.compare (x.map UInt8.toNat) (y.map UInt8.toNat) := by
  induction x generalizing y with
  | nil => cases y <;> rfl
  | cons a x ih =>
    cases y with
    | nil => rfl
    | cons b y => rw [Bytes.compare, ih, List.map_cons, List.map_cons, List.compare_cons_cons]

/-- **The order of keys has three parts.** -/
theorem compare_eq (a b : Value) :
    Ord.compare a b = (Ord.compare a.major b.major).then
      ((Ord.compare a.magnitude b.magnitude).then
        (Ord.compare (a.content.map UInt8.toNat) (b.content.map UInt8.toNat))) := by
  show Value.compare a b = _
  rw [← bytes_compare_eq]
  cases a <;> cases b <;> simp [Value.compare, major, magnitude, content, Bytes.compare] <;> rfl

instance : TransOrd Value := by
  -- a lexicographic order of total preorders is one
  have h : (Ord.compare : Value → Value → Ordering) = compareLex (compareOn major)
      (compareLex (compareOn magnitude) (compareOn fun v => v.content.map UInt8.toNat)) := by
    funext a b
    exact compare_eq a b
  show TransCmp (Ord.compare : Value → Value → Ordering)
  rw [h]
  infer_instance

/-! ### Integer keys -/

/-- The item of a number stands for it. -/
theorem toInt?_ofInt64 (n : Int64) : (ofInt64 n).toInt? = some n.toInt := by
  have := n.le_toInt
  have := n.toInt_lt
  unfold ofInt64
  split
  · rw [toInt?, UInt64.toNat_ofNat_of_lt' (by simp only [UInt64.size]; omega)]
    congr
    omega
  · rw [toInt?, UInt64.toNat_ofNat_of_lt' (by simp only [UInt64.size]; omega)]
    congr
    omega

/-- Equal keys stand for the same number. -/
theorem toInt?_of_compare {a b : Value} {m n : Int} (h : Ord.compare a b = .eq)
    (ha : a.toInt? = some m) (hb : b.toInt? = some n) : m = n := by
  obtain ⟨hm, hs⟩ := Ordering.then_eq_eq.1 ((compare_eq a b).symm.trans h)
  have hmajor : a.major = b.major := Nat.compare_eq_eq.1 hm
  have hsize : a.magnitude = b.magnitude := Nat.compare_eq_eq.1 (Ordering.then_eq_eq.1 hs).1
  -- only numbers of the same sign have equal major types
  cases a <;> cases b <;> simp_all [toInt?, major, magnitude]

/-- A number has one item. -/
theorem eq_ofInt64 {v : Value} {n : Int64} (h : v.toInt? = some n.toInt) : v = ofInt64 n := by
  unfold ofInt64
  cases v with
  | natural m =>
    have hm : (m.toNat : Int) = n.toInt := Option.some.inj h
    rw [if_pos (by omega), ← hm, Int.toNat_natCast, UInt64.ofNat_toNat]
  | negative m =>
    have hm : -1 - (m.toNat : Int) = n.toInt := Option.some.inj h
    have hn : (-1 - n.toInt).toNat = m.toNat := by omega
    rw [if_neg (by omega), hn, UInt64.ofNat_toNat]
  | _ => cases h

/-- No other item has an equal key. -/
theorem eq_of_compare_ofInt64 {v : Value} {n : Int64} (h : Ord.compare v (ofInt64 n) = .eq) :
    v = ofInt64 n := by
  obtain ⟨hm, -⟩ := Ordering.then_eq_eq.1 ((compare_eq v (ofInt64 n)).symm.trans h)
  have hmajor : v.major = (ofInt64 n).major := Nat.compare_eq_eq.1 hm
  have hlt : (ofInt64 n).major < 2 := by
    unfold ofInt64
    split
    · exact Nat.zero_lt_two
    · exact Nat.one_lt_two
  -- what has the major type of a number is one
  cases v with
  | natural m => exact eq_ofInt64 (congrArg some (toInt?_of_compare h rfl (toInt?_ofInt64 n)))
  | negative m => exact eq_ofInt64 (congrArg some (toInt?_of_compare h rfl (toInt?_ofInt64 n)))
  | _ =>
    rw [← hmajor] at hlt
    simp [major] at hlt

theorem compare_ofInt64 {m n : Int64} :
    Ord.compare (ofInt64 m) (ofInt64 n) = .eq ↔ m = n := by
  constructor
  · intro h
    exact Int64.toInt_inj.1 (toInt?_of_compare h (toInt?_ofInt64 m) (toInt?_ofInt64 n))
  · rintro rfl
    exact ReflCmp.compare_self

/-- Fields whose numbers are distinct have distinct keys. -/
theorem distinct_iff {ν : Type} {fields : List (Int64 × ν)} :
    Distinct (fields.map fun f => (ofInt64 f.1, f.2)) ↔ (fields.map Prod.fst).Nodup := by
  unfold Distinct List.Nodup
  rw [List.pairwise_map, List.pairwise_map]
  exact List.Pairwise.iff fun a b => not_congr compare_ofInt64

end Rim.Cbor.Value
