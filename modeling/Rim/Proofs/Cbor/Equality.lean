import Rim.Proofs.Cbor.Order
import Rim.Proofs.Cbor.Reading
import Rim.Proofs.Result

/-!
# Values that compare as equal

The order of keys looks at all that is written of a value, so values that compare as equal have the
same written form. A canonical value is read back from that form, so then they are equal; numbers,
octet strings and texts are in any case, however long they are.

* `compare_eq_eq`, `encode_of_compare`: what it means to compare as equal.
* `eq_of_encode`, `eq_of_compare`: canonical values.
* `eq_of_compare_leaf`, `eq_of_compare_pair`: values of any length.
-/

namespace Rim.Cbor

/-- A greater number does not have a shorter head. -/
theorem head_length_mono (major : Nat) {m n : Nat} (h : m ≤ n) :
    (head major m).length ≤ (head major n).length := by
  unfold head
  split_ifs <;> first | omega | simp [Bytes.ofNatBE]

namespace Value

open Std

variable {a b : Value}

/-- Values compare as equal if they agree in all parts of the order. -/
theorem compare_eq_eq : Ord.compare a b = .eq ↔
    a.major = b.major ∧ a.magnitude = b.magnitude ∧ a.content = b.content := by
  have hcontent : a.content.map UInt8.toNat = b.content.map UInt8.toNat ↔ a.content = b.content :=
    List.map_inj_right fun _ _ h => UInt8.toNat_inj.1 h
  rw [compare_eq, Ordering.then_eq_eq, Ordering.then_eq_eq, Nat.compare_eq_eq, Nat.compare_eq_eq,
    LawfulEqOrd.compare_eq_iff_eq, hcontent]

/-- The written form is made of the parts of the order. -/
theorem encode_eq (v : Value) : v.encode =
    if v.major < 4 then head v.major v.magnitude ++ v.content else v.content := by
  cases v <;> simp [encode, major, magnitude, content]

/-- **Values that compare as equal are written alike.** -/
theorem encode_of_compare (h : Ord.compare a b = .eq) : a.encode = b.encode := by
  obtain ⟨hmajor, hmagnitude, hcontent⟩ := compare_eq_eq.1 h
  rw [encode_eq, encode_eq, hmajor, hmagnitude, hcontent]

/-- **Canonical values that are written alike are equal**, since either is read from what is written. -/
theorem eq_of_encode (ha : a.Canonical documents.levels) (hb : b.Canonical documents.levels)
    (hsize : a.encode.length < 2 ^ 64) (h : a.encode = b.encode) : a = b :=
  Result.eq_of_read (decode_encode ha hsize) (decode_encode hb (h ▸ hsize)) h

theorem eq_of_compare (ha : a.Canonical documents.levels) (hb : b.Canonical documents.levels)
    (hsize : a.encode.length < 2 ^ 64) (h : Ord.compare a b = .eq) : a = b :=
  eq_of_encode ha hb hsize (encode_of_compare h)

/-- Numbers, octet strings and texts compare as equal only if they are. -/
theorem eq_of_compare_leaf (ha : a.major < 4) (h : Ord.compare a b = .eq) : a = b := by
  obtain ⟨hmajor, hmagnitude, hcontent⟩ := compare_eq_eq.1 h
  cases a <;> cases b <;>
    simp_all [major, magnitude, content, UInt64.toNat_inj, Bytes.ofText_inj]

/-- Two octet strings of one length that follow each other compare as equal only if they are. -/
theorem eq_of_compare_pair {x y x' y' : Bytes} (hx : x.length = y.length) (hx' : x'.length = y'.length)
    (h : Ord.compare (array [bytes x, bytes y]) (array [bytes x', bytes y']) = .eq) :
    x = x' ∧ y = y' := by
  have henc := encode_of_compare h
  simp only [encode, encodeItems, List.length_cons, List.length_nil, List.append_nil] at henc
  have hpairs := List.append_cancel_left henc
  -- the longer the strings are, the longer is what is written of them
  have hlength := congrArg List.length hpairs
  simp only [List.length_append, ← hx, ← hx'] at hlength
  have hlen : x.length = x'.length := by
    rcases Nat.lt_trichotomy x.length x'.length with hlt | heq | hlt
    · have := head_length_mono 2 hlt.le
      omega
    · exact heq
    · have := head_length_mono 2 hlt.le
      omega
  rw [← hx, ← hx', hlen] at hpairs
  simp only [List.append_assoc] at hpairs
  obtain ⟨hfirst, hsecond⟩ := List.append_inj (List.append_cancel_left hpairs) hlen
  exact ⟨hfirst, List.append_cancel_left hsecond⟩

end Value

end Rim.Cbor
