import Rim.Proofs.Manifest.Rules

/-!
# What a mask leaves to compare

A candidate is accepted if it is as long as the value and agrees with it in every bit that the mask
sets. So bits outside the mask never matter, and those inside it always do, in every octet: a valid
value has a mask that is as long as it is.

* `Bytes.bit?`: the bits of octets, by their places.
* `and_eq_and`: octets with a mask on are equal if they agree in the bits that it sets.
* `accepts_iff`: which candidates are accepted, whether the value is valid or not.
* `accepts_exact`: what changes of a candidate make a difference.
-/

namespace Rim

/-- The bit `k` of the octet at `i`, if there is an octet; none is set from the ninth bit on. -/
def Bytes.bit? (b : Bytes) (i k : Nat) : Option Bool := b[i]?.map (·.toNat.testBit k)

@[simp] theorem Bytes.bit?_zero (x : UInt8) (b : Bytes) (k : Nat) :
    bit? (x :: b) 0 k = some (x.toNat.testBit k) := rfl

@[simp] theorem Bytes.bit?_succ (x : UInt8) (b : Bytes) (i k : Nat) :
    bit? (x :: b) (i + 1) k = bit? b i k := by
  rw [bit?, List.getElem?_cons_succ, bit?]

/-- There are bits as far as there are octets. -/
theorem Bytes.bit?_isSome {b : Bytes} {i k : Nat} : (bit? b i k).isSome ↔ i < b.length := by
  rw [bit?, Option.isSome_map, isSome_getElem?]

namespace MaskedValue

/-- **Octets with a mask on are equal** if they agree in the bits that it sets. -/
theorem and_eq_and {c v m : UInt8} : c &&& m = v &&& m ↔
    ∀ k, m.toNat.testBit k = true → c.toNat.testBit k = v.toNat.testBit k := by
  rw [← UInt8.toNat_inj, UInt8.toNat_and, UInt8.toNat_and]
  constructor
  · intro h k hk
    have hbit := congrArg (Nat.testBit · k) h
    simpa [hk] using hbit
  · intro h
    refine Nat.eq_of_testBit_eq fun k => ?_
    rw [Nat.testBit_and, Nat.testBit_and]
    cases hk : m.toNat.testBit k with
    | false => simp
    | true => rw [h k hk]

/-- **Octet strings of one length agree** if they do in every bit that the mask sets. -/
theorem agree_iff {mask value candidate : Bytes} (hlength : candidate.length = value.length) :
    agree mask value candidate = true ↔
      ∀ i k, mask.bit? i k = some true → candidate.bit? i k = value.bit? i k := by
  induction mask generalizing value candidate with
  | nil => exact ⟨fun _ _ _ => nofun, fun _ => by simp [agree]⟩
  | cons m mask ih =>
    cases value with
    | nil =>
      obtain rfl := List.length_eq_zero_iff.1 hlength
      exact ⟨fun _ _ _ _ => rfl, fun _ => rfl⟩
    | cons v value =>
      cases candidate with
      | nil => cases hlength
      | cons c candidate =>
        rw [agree, Bool.and_eq_true, beq_iff_eq, and_eq_and, ih (Nat.succ.inj hlength)]
        refine Iff.trans ?_ Nat.and_forall_add_one
        simp only [Bytes.bit?_zero, Bytes.bit?_succ, Option.some_inj]

/-- **Which candidates are accepted**, whether the value is valid or not. -/
theorem accepts_iff {x : MaskedValue} {c : Bytes} : x.accepts c = true ↔
    c.length = x.value.length ∧ ∀ i k, x.mask.bit? i k = some true → c.bit? i k = x.value.bit? i k := by
  rw [accepts, Bool.and_eq_true, beq_iff_eq]
  exact and_congr_right agree_iff

/-- **Just the bits that the mask sets are compared.** A valid value accepts the candidates of its
length that have its bit wherever the mask sets one, itself among them. What a candidate has elsewhere
makes no difference, and one that is accepted is no longer if any bit inside the mask is changed. -/
theorem accepts_exact {x : MaskedValue} (hx : x.validate = .ok ()) :
    (∀ c : Bytes, x.accepts c = true ↔ c.length = x.value.length ∧
      ∀ i k, x.mask.bit? i k = some true → ∃ b, c.bit? i k = some b ∧ x.value.bit? i k = some b) ∧
    x.accepts x.value = true ∧
    (∀ c c' : Bytes, c'.length = c.length →
      (∀ i k, x.mask.bit? i k = some true → c'.bit? i k = c.bit? i k) → x.accepts c' = x.accepts c) ∧
    ∀ (c c' : Bytes) (i k : Nat), x.accepts c = true → x.mask.bit? i k = some true →
      c'.bit? i k ≠ c.bit? i k → x.accepts c' = false := by
  obtain ⟨-, hmask⟩ := validate_eq_ok.1 hx
  refine ⟨fun c => ?_, accepts_iff.2 ⟨rfl, fun _ _ _ => rfl⟩, ?_, ?_⟩
  · rw [accepts_iff]
    refine and_congr_right fun _ => forall₂_congr fun i k => forall_congr' fun hk => ?_
    -- the value has a bit wherever its mask has one
    have hi : i < x.value.length := hmask ▸ Bytes.bit?_isSome.1 (Option.isSome_of_eq_some hk)
    obtain ⟨b, hb⟩ := Option.isSome_iff_exists.1 ((Bytes.bit?_isSome (k := k)).2 hi)
    simp [hb]
  · intro c c' hlength hsame
    rw [Bool.eq_iff_iff, accepts_iff, accepts_iff, hlength]
    refine and_congr_right fun _ => forall₂_congr fun i k => forall_congr' fun hk => ?_
    rw [hsame i k hk]
  · intro c c' i k hc hk hdiffers
    refine Bool.eq_false_iff.2 fun hc' => hdiffers ?_
    rw [(accepts_iff.1 hc').2 i k hk, (accepts_iff.1 hc).2 i k hk]

/-- A candidate that differs from the value outside the mask only, and one bit of it inside the mask
changed. -/
theorem accepts_exact_nibbles :
    let x : MaskedValue := ⟨[0xa0, 0x0f], [0xf0, 0x0f]⟩
    let c : Bytes := [0xab, 0xcf]
    let c' : Bytes := [0xbb, 0xcf]
    x.validate = .ok () ∧ x.accepts c = x.accepts x.value ∧ x.accepts c = true ∧
      (∃ b, c.bit? 0 7 = some b ∧ x.value.bit? 0 7 = some b) ∧
      x.mask.bit? 0 4 = some true ∧ c'.bit? 0 4 ≠ c.bit? 0 4 ∧ x.accepts c' = false := by
  intro x c c'
  have hx : x.validate = .ok () := rfl
  obtain ⟨hiff, -, hsame, hdiffers⟩ := accepts_exact hx
  have hc : x.accepts c = true := by decide
  have hagree := ((hiff c).1 hc).2
  have hvalue : x.accepts c = x.accepts x.value := by
    refine hsame x.value c rfl fun i k hk => ?_
    obtain ⟨b, hcandidate, hb⟩ := hagree i k hk
    rw [hcandidate, hb]
  have hbit : c'.bit? 0 4 ≠ c.bit? 0 4 := by decide
  exact ⟨hx, hvalue, hc, hagree 0 7 rfl, rfl, hbit, hdiffers c c' 0 4 hc rfl hbit⟩

end MaskedValue

end Rim
