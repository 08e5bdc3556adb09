import Rim.Proofs.Text.Digits
import Rim.Proofs.Time.Calendar
import Rim.Time.Rfc3339

/-!
# Timestamps that are written and read

A whole second in a year of four digits is read back from its timestamp. Outside these years the
year is written with a sign, which a timestamp does not allow.

* `number_padded`: a number of fixed width.
* `date_dateText`, `clock_clockText`: the two halves of a timestamp.
* `parse?_rfc3339`: a whole timestamp.
* `year_of_parse?`: a timestamp that is read has a year of four digits.
-/

namespace Rim.Time

open Text

namespace Rfc3339

/-! ### Numbers of fixed width -/

theorem number_append {ds : List Char} (h : Decimal ds) (n : Nat) (rest : List Char) :
    number ds.length n (ds ++ rest) = some (foldDigits n ds, rest) := by
  induction ds generalizing n with
  | nil => rfl
  | cons c r ih =>
    obtain ⟨hc, hr⟩ := List.forall_mem_cons.1 h
    rw [List.length_cons, List.cons_append, number, if_pos hc, ih hr]
    rfl

theorem padded_decimal (width n : Nat) : Decimal (Instant.padded width n) := by
  intro c hc
  rcases List.mem_append.1 hc with hc | hc
  · rw [(List.mem_replicate.1 hc).2]
    decide
  · exact decimal_toDigits n c hc

theorem padded_length {width n : Nat} (hw : 0 < width) (hn : n < 10 ^ width) :
    (Instant.padded width n).length = width := by
  have hle : (Nat.toDigits 10 n).length ≤ width := (Nat.length_toDigits_le_iff (by decide) hw).2 hn
  unfold Instant.padded
  rw [List.length_append, List.length_replicate]
  omega

theorem foldDigits_padded (width n : Nat) : foldDigits 0 (Instant.padded width n) = n := by
  unfold Instant.padded
  rw [foldDigits_eq, Nat.ofDigitChars_append, Nat.ofDigitChars_replicate_zero, Nat.mul_zero,
    Nat.ofDigitChars_ten_toDigits]

/-- **A number is read back from its digits** if it has no more than there is room for. -/
theorem number_padded {width n : Nat} (hw : 0 < width) (hn : n < 10 ^ width) (rest : List Char) :
    number width 0 (Instant.padded width n ++ rest) = some (n, rest) := by
  have h := number_append (padded_decimal width n) 0 rest
  rwa [padded_length hw hn, foldDigits_padded] at h

/-! ### Dates and times of day -/

theorem date_exists (t : Instant) : 1 ≤ t.date.month ∧ t.date.month ≤ 12 ∧ t.date.day ≤ 31 := by
  have hd := Date.exists?_ofDays (t.seconds / 86400)
  have hm (year : Int) (month : Nat) : Date.monthDays year month ≤ 31 := by
    unfold Date.monthDays
    split
    · split <;> decide
    all_goals decide
  simp only [Date.exists?, Bool.and_eq_true, decide_eq_true_iff] at hd
  obtain ⟨⟨⟨h1, h12⟩, -⟩, hday⟩ := hd
  exact ⟨h1, h12, Nat.le_trans hday (hm _ _)⟩

/-- A date is read back if its year has four digits. -/
theorem date_dateText {t : Instant} (hy : 0 ≤ t.date.year ∧ t.date.year ≤ 9999) (rest : List Char) :
    date (t.dateText ++ rest) = some (t.date, rest) := by
  obtain ⟨-, hm, hd⟩ := date_exists t
  have hyear : Instant.yearText t.date.year = Instant.padded 4 t.date.year.toNat := if_pos hy
  have hvalid : (⟨t.date.year.toNat, t.date.month, t.date.day⟩ : Date) = t.date := by
    rw [Int.toNat_of_nonneg hy.1]
  unfold date Instant.dateText
  rw [hyear]
  simp only [List.append_assoc, List.cons_append]
  rw [number_padded (by decide) (by omega)]
  simp only [Option.bind_eq_bind, Option.bind_some, literal, if_true]
  rw [number_padded (by decide) (by omega)]
  simp only [Option.bind_some, if_true]
  rw [number_padded (by decide) (by omega)]
  simp only [Option.bind_some, hvalid]
  exact if_pos (Date.exists?_ofDays _)

/-- The time of day of a whole second is read back. -/
theorem clock_clockText {t : Instant} (h : t.nanos = 0) (rest : List Char) :
    clock (t.clockText ++ rest) = some ((t.ofDay, false), rest) := by
  have hlt : t.ofDay < 86400 := by
    unfold Instant.ofDay
    omega
  -- a whole second has no fraction and is no leap second
  have hfrac : Instant.fractionText 0 = [] := rfl
  have hsecond : t.ofDay / 3600 * 3600 + t.ofDay / 60 % 60 * 60 + min (t.ofDay % 60) 59 = t.ofDay := by
    omega
  have hleap : (t.ofDay % 60 == 60) = false := beq_false_of_ne (by omega)
  unfold clock Instant.clockText
  simp only [h, Nat.not_le.2 (by decide : 0 < 1000000000), if_false, Nat.add_zero, hfrac,
    List.append_assoc, List.cons_append, List.nil_append]
  rw [number_padded (by decide) (by omega)]
  simp only [Option.bind_eq_bind, Option.bind_some, literal, if_true]
  rw [number_padded (by decide) (by omega)]
  simp only [Option.bind_some, if_true]
  rw [number_padded (by decide) (by omega)]
  simp only [Option.bind_some, hsecond, hleap]
  exact if_neg (by omega)

/-! ### Timestamps -/

/-- **A whole second is read back** if its year has four digits. -/
theorem parse?_rfc3339 {t : Instant} (h : t.nanos = 0)
    (hy : 0 ≤ t.date.year ∧ t.date.year ≤ 9999) : parse? t.rfc3339 = some t := by
  have hseconds : t.date.toDays * 86400 + t.ofDay - 0 = t.seconds := by
    rw [Instant.date, Date.toDays_ofDays]
    unfold Instant.ofDay
    omega
  have ht : Instant.of? t.seconds 0 = some t := by
    rw [Instant.of?, dif_pos t.represented, ← h]
  unfold parse? Instant.rfc3339
  rw [String.toList_ofList, List.append_assoc, date_dateText hy]
  simp only [Option.bind_eq_bind, Option.bind_some, List.cons_append]
  rw [clock_clockText h]
  show Instant.of? (t.date.toDays * 86400 + t.ofDay - 0) 0 = _
  rw [hseconds, ht]

/-- **The timestamp of any other year is not read**: it starts with a sign. -/
theorem year_of_parse? {t u : Instant} (h : parse? t.rfc3339 = some u) :
    0 ≤ t.date.year ∧ t.date.year ≤ 9999 := by
  by_contra hy
  have hyear : Instant.yearText t.date.year =
      (if t.date.year < 0 then '-' else '+') :: Instant.padded 4 t.date.year.natAbs := if_neg hy
  have hsign : ¬('0' ≤ (if t.date.year < 0 then '-' else '+') ∧
      (if t.date.year < 0 then '-' else '+') ≤ '9') := by
    split <;> decide
  have hnumber (rest : List Char) : number 4 0 (Instant.yearText t.date.year ++ rest) = none := by
    rw [hyear, List.cons_append, number, if_neg hsign]
  unfold parse? Instant.rfc3339 Instant.dateText date at h
  rw [String.toList_ofList] at h
  simp only [List.append_assoc, hnumber] at h
  cases h

end Rfc3339

end Rim.Time
