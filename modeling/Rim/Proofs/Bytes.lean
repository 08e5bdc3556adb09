import Rim.Bytes
import Rim.Number.Power
import Mathlib.Data.List.Induction
import Mathlib.Tactic.Ring

/-!
# Byte strings

* `toNatBE_ofNatBE`: a number is the one its digits write, as far as they go.
* `ofNatBE_toNatBE`: octets are the digits of the number that they write.
* `toText?_ofText`: the octets of a text write that text.
-/

namespace Rim.Bytes

theorem toNatBE_append (b : Bytes) (x : UInt8) : toNatBE (b ++ [x]) = toNatBE b * 256 + x.toNat := by
  unfold toNatBE
  rw [List.foldl_append]
  rfl

/-- A number is the one its digits write, as far as they go. -/
theorem toNatBE_ofNatBE (width n : Nat) : toNatBE (ofNatBE width n) = n % 256 ^ width := by
  induction width generalizing n with
  | zero => exact (Nat.mod_one n).symm
  | succ width ih =>
    -- the last octet is the least digit, the others write the quotient
    have hx : (UInt8.ofNat n).toNat = n % 256 := rfl
    rw [ofNatBE, toNatBE_append, ih, hx, pow_succ', Nat.mod_mul]
    ring

/-- Octets are the digits of the number that they write. -/
theorem ofNatBE_toNatBE (b : Bytes) : ofNatBE b.length (toNatBE b) = b := by
  induction b using List.reverseRecOn with
  | nil => rfl
  | append_singleton b x ih =>
    have hx := x.toNat_lt
    have hdiv : (toNatBE b * 256 + x.toNat) / 256 = toNatBE b := by omega
    have hlast : UInt8.ofNat (toNatBE b * 256 + x.toNat) = x :=
      UInt8.toNat_inj.1 (by rw [UInt8.toNat_ofNat']; omega)
    rw [List.length_append, List.length_singleton, toNatBE_append, ofNatBE, hdiv, ih, hlast]

theorem toNatBE_lt (b : Bytes) : toNatBE b < 256 ^ b.length := by
  have h := toNatBE_ofNatBE b.length (toNatBE b)
  rw [ofNatBE_toNatBE] at h
  rw [h]
  exact Nat.mod_lt _ (Nat.pow_pos (by decide))

theorem splitAt?_append (b rest : Bytes) : splitAt? b.length (b ++ rest) = some (b, rest) := by
  unfold splitAt?
  rw [if_pos (by rw [List.length_append]; omega), List.take_left, List.drop_left]

theorem splitAt?_eq_some {n : Nat} {b front rest : Bytes} :
    splitAt? n b = some (front, rest) ↔ front.length = n ∧ b = front ++ rest := by
  constructor
  · intro h
    unfold splitAt? at h
    split at h
    · obtain ⟨rfl, rfl⟩ := Prod.mk.inj (Option.some.inj h)
      exact ⟨List.length_take_of_le ‹_›, (List.take_append_drop n b).symm⟩
    · cases h
  · rintro ⟨rfl, rfl⟩
    exact splitAt?_append front rest

/-- The octets of a text write that text. -/
theorem toText?_ofText (s : String) : toText? (ofText s) = some s := by
  unfold toText? ofText String.fromUTF8?
  rw [dif_pos]
  rfl

theorem ofText_inj {s t : String} : ofText s = ofText t ↔ s = t := by
  refine ⟨fun h => ?_, congrArg ofText⟩
  have hread := toText?_ofText s
  rw [h, toText?_ofText] at hread
  exact (Option.some.inj hread).symm

theorem ofText_length (s : String) : (ofText s).length = s.utf8ByteSize := rfl

end Rim.Bytes
