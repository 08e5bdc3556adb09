import Mathlib.Data.List.Induction
import Rim.Text.Numeral

/-!
# Decimal digits

The digits of a number are digits, they start with zero only if the number is zero, and adding them
up one by one gives the number back. Every reader of decimal text rests on these three facts. Other
digits add up to the number only if zeros stand in front.

* `decimal_toDigits`, `toDigits_ne_zero_cons`, `foldDigits_toDigits`: the three facts.
* `toDigits_foldDigits`: digits that do not start with zero are the digits of their number.
* `Numeral.parse?_ofNat`: a numeral is read back.
* `Numeral.parse?_eq_some`: which texts are numerals of a number.
* `Numeral.Writes.ofNat_eq`: what a numeral has more than the digits of its number.
-/

namespace Rim.Text

/-- The number of digits that are read after a number. -/
def foldDigits (n : Nat) (ds : List Char) : Nat := ds.foldl (fun n c => n * 10 + (c.toNat - 48)) n

/-- A text that holds nothing but digits. -/
def Decimal (ds : List Char) : Prop := ∀ c ∈ ds, '0' ≤ c ∧ c ≤ '9'

instance (ds : List Char) : Decidable (Decimal ds) :=
  List.decidableBAll (fun c => '0' ≤ c ∧ c ≤ '9') ds

theorem decimal_toDigits (n : Nat) : Decimal (Nat.toDigits 10 n) := by
  intro c hc
  have hd := Nat.isDigit_of_mem_toDigits (by decide) (by decide) hc
  rw [Char.isDigit, Bool.and_eq_true, decide_eq_true_iff, decide_eq_true_iff] at hd
  exact hd

theorem foldDigits_eq (n : Nat) (ds : List Char) : foldDigits n ds = Nat.ofDigitChars 10 ds n := by
  unfold foldDigits
  rw [Nat.ofDigitChars_eq_foldl]
  congr 1
  funext n c
  rw [Nat.mul_comm]
  rfl

/-- **The digits of a number add up to it.** -/
@[simp] theorem foldDigits_toDigits (n : Nat) : foldDigits 0 (Nat.toDigits 10 n) = n := by
  rw [foldDigits_eq, Nat.ofDigitChars_ten_toDigits]

/-- Only the digits of zero start with zero. -/
theorem toDigits_ne_zero_cons {n : Nat} (hn : n ≠ 0) (r : List Char) :
    Nat.toDigits 10 n ≠ '0' :: r := by
  induction n using Nat.strongRecOn generalizing r with
  | ind n ih =>
    by_cases hlt : n < 10
    · rw [Nat.toDigits_of_lt_base hlt]
      intro h
      exact hn (Nat.digitChar_eq_zero.1 (List.cons.inj h).1)
    · -- the first digit is that of the quotient, which is not zero either
      rw [Nat.toDigits_of_base_le (by decide) (by omega)]
      intro h
      cases hd : Nat.toDigits 10 (n / 10) with
      | nil => exact Nat.toDigits_ne_nil hd
      | cons c ds =>
        rw [hd, List.cons_append] at h
        exact ih (n / 10) (by omega) (by omega) ds (hd.trans (by rw [(List.cons.inj h).1]))

theorem foldDigits_concat (n : Nat) (ds : List Char) (c : Char) :
    foldDigits n (ds ++ [c]) = foldDigits n ds * 10 + (c.toNat - 48) := by
  rw [foldDigits, List.foldl_append]
  rfl

/-- A digit is the one of its value. -/
theorem digitChar_sub {c : Char} (h : '0' ≤ c ∧ c ≤ '9') :
    c.toNat - 48 < 10 ∧ Nat.digitChar (c.toNat - 48) = c := by
  have h0 : 48 ≤ c.toNat := h.1
  have h9 : c.toNat ≤ 57 := h.2
  obtain ⟨d, hd⟩ : ∃ d : Fin 10, c.toNat = 48 + d.val := ⟨⟨c.toNat - 48, by omega⟩, by simp; omega⟩
  have hchar (d : Fin 10) : (Nat.digitChar d.val).toNat = 48 + d.val := by
    revert d
    decide
  rw [hd, Nat.add_sub_cancel_left]
  exact ⟨d.isLt, Char.toNat_inj.1 ((hchar d).trans hd.symm)⟩

/-- **Digits that do not start with zero are the digits of their number.** -/
theorem toDigits_foldDigits {ds : List Char} (hne : ds ≠ []) (hd : Decimal ds)
    (hfirst : ds.head? ≠ some '0') : Nat.toDigits 10 (foldDigits 0 ds) = ds := by
  induction ds using List.reverseRecOn with
  | nil => exact absurd rfl hne
  | append_singleton ds c ih =>
    obtain ⟨hds, hc⟩ := List.forall_mem_append.1 hd
    obtain ⟨hlt, hchar⟩ := digitChar_sub (hc c (List.mem_singleton_self c))
    rw [foldDigits_concat]
    by_cases hnil : ds = []
    · subst hnil
      show Nat.toDigits 10 (0 * 10 + (c.toNat - 48)) = [c]
      rw [Nat.zero_mul, Nat.zero_add, Nat.toDigits_of_lt_base hlt, hchar]
    · have hhead : ds.head? ≠ some '0' := by
        cases ds with
        | nil => exact absurd rfl hnil
        | cons d r => exact hfirst
      have hprevious := ih hnil hds hhead
      -- the digits so far do not start with zero, so they are not those of zero
      have hpos : foldDigits 0 ds ≠ 0 := by
        intro h0
        rw [h0] at hprevious
        exact hhead (by rw [← hprevious]; rfl)
      rw [Nat.toDigits_of_base_le (by decide) (by omega),
        show (foldDigits 0 ds * 10 + (c.toNat - 48)) / 10 = foldDigits 0 ds by omega,
        show (foldDigits 0 ds * 10 + (c.toNat - 48)) % 10 = c.toNat - 48 by omega, hprevious, hchar]

/-- Zeros in front make no difference to the number. -/
theorem foldDigits_dropWhile (ds : List Char) :
    foldDigits 0 (ds.dropWhile (· = '0')) = foldDigits 0 ds := by
  induction ds with
  | nil => rfl
  | cons c r ih =>
    rw [List.dropWhile_cons]
    split
    · rename_i hc
      rw [ih, of_decide_eq_true hc]
      rfl
    · rfl

/-! ### Numerals -/

namespace Numeral

theorem value?_eq {ds : List Char} (h : Decimal ds) (n : Nat) :
    value? n ds = some (foldDigits n ds) := by
  induction ds generalizing n with
  | nil => rfl
  | cons c r ih =>
    obtain ⟨hc, hr⟩ := List.forall_mem_cons.1 h
    have hd : digit? c = some (c.toNat - 48) := if_pos hc
    rw [value?, hd]
    exact ih hr _

theorem value?_eq_some {n m : Nat} {ds : List Char} :
    value? n ds = some m ↔ Decimal ds ∧ foldDigits n ds = m := by
  constructor
  · intro h
    suffices hd : Decimal ds by
      rw [value?_eq hd] at h
      exact ⟨hd, Option.some.inj h⟩
    induction ds generalizing n with
    | nil => exact nofun
    | cons c r ih =>
      obtain ⟨d, hc, h⟩ := Option.bind_eq_some_iff.1 h
      exact List.forall_mem_cons.2 ⟨(Option.ite_none_right_eq_some.1 hc).1, ih h⟩
  · rintro ⟨hd, rfl⟩
    exact value?_eq hd n

/-- No digit is a plus sign. -/
theorem unsigned_eq {ds : List Char} (h : Decimal ds) : unsigned ds = ds := by
  cases ds with
  | nil => rfl
  | cons c r =>
    unfold unsigned
    split
    · rename_i heq
      have hc := h c List.mem_cons_self
      rw [(List.cons.inj heq).1] at hc
      exact absurd hc.1 (by decide)
    · rfl

/-- **A numeral is read back** if it fits 64 bits. -/
theorem parse?_ofNat {n : Nat} (hn : n < 2 ^ 64) : parse? (ofNat n) = some (UInt64.ofNat n) := by
  have hd : Decimal (ofNat n) := decimal_toDigits n
  have hv : value? 0 (ofNat n) = some n := by
    rw [value?_eq hd, ofNat, foldDigits_toDigits]
  rw [parse?, unsigned_eq hd]
  split
  · rename_i h
    exact absurd h Nat.toDigits_ne_nil
  · rw [hv]
    exact if_pos hn

/-- A text that writes a number: digits that add up to it, after a plus sign or not. -/
def Writes (n : Nat) (text : List Char) : Prop :=
  ∃ ds, (text = ds ∨ text = '+' :: ds) ∧ ds ≠ [] ∧ Decimal ds ∧ foldDigits 0 ds = n

theorem writes_iff {n : Nat} {text : List Char} : Writes n text ↔
    unsigned text ≠ [] ∧ Decimal (unsigned text) ∧ foldDigits 0 (unsigned text) = n := by
  constructor
  · rintro ⟨ds, rfl | rfl, h⟩
    · rwa [unsigned_eq h.2.1]
    · exact h
  · intro h
    refine ⟨_, ?_, h⟩
    unfold unsigned
    split
    · exact .inr rfl
    · exact .inl rfl

/-- **Which texts are numerals**, and of which numbers that fit 64 bits. -/
theorem parse?_eq_some {text : List Char} {w : UInt64} :
    parse? text = some w ↔ Writes w.toNat text := by
  rw [writes_iff]
  unfold parse?
  split
  · rename_i h
    exact ⟨nofun, fun hw => absurd h hw.1⟩
  · rename_i hne
    constructor
    · intro h
      obtain ⟨n, hn, hw⟩ := Option.bind_eq_some_iff.1 h
      obtain ⟨hd, rfl⟩ := value?_eq_some.1 hn
      obtain ⟨hlt, hw⟩ := Option.ite_none_right_eq_some.1 hw
      rw [← Option.some.inj hw, UInt64.toNat_ofNat_of_lt' hlt]
      exact ⟨hne, hd, rfl⟩
    · rintro ⟨-, hd, hn⟩
      refine Option.bind_eq_some_iff.2 ⟨_, value?_eq_some.2 ⟨hd, hn⟩, ?_⟩
      rw [if_pos w.toNat_lt, UInt64.ofNat_toNat]

/-- A text without a plus sign and zeros in front, but for a zero that stands alone. -/
def tidy (text : List Char) : List Char :=
  match (unsigned text).dropWhile (· = '0') with
  | [] => ['0']
  | ds => ds

/-- **A numeral has no more than its number** but a plus sign and zeros in front. -/
theorem Writes.ofNat_eq {n : Nat} {text : List Char} (h : Writes n text) : ofNat n = tidy text := by
  obtain ⟨-, hd, rfl⟩ := writes_iff.1 h
  have hdrop : Decimal ((unsigned text).dropWhile (· = '0')) :=
    fun c hc => hd c ((List.dropWhile_sublist _).subset hc)
  rw [ofNat, ← foldDigits_dropWhile, tidy]
  split
  · rename_i hnil
    rw [hnil]
    rfl
  · rename_i hne
    refine toDigits_foldDigits hne hdrop fun hhead => ?_
    have hno := List.head?_dropWhile_not (· = '0') (unsigned text)
    rw [hhead] at hno
    simp at hno

end Numeral

end Rim.Text
