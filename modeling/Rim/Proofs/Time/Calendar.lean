import Rim.Time.Calendar
import Mathlib.Tactic.IntervalCases

/-!
# The calendar counts days

Every count of days reaches a date that exists, and counting the days up to that date gives the count
back. The 400 years of an era are four centuries, a century is 25 times four years, and only the last
year of four, of a century and of an era may be a day longer or shorter than the rule before it says.

* `exists_parts`: the centuries, groups of four years, years and days of a count within an era.
* `exists_ofMarch`: a date is a year that starts in March and a day of it.
* `toDays_ofDays`, `exists?_ofDays`: the two results.
-/

namespace Rim.Time.Date

/-- The centuries, groups of four years, years and days of a count within an era. A year has a day
with the number 365 only if it ends with the leap day. -/
theorem exists_parts {n : Nat} (hn : n < 146097) : ∃ c q r d, c ≤ 3 ∧ q ≤ 24 ∧ r ≤ 3 ∧ d ≤ 365 ∧
    (d = 365 → r = 3 ∧ (q < 24 ∨ c = 3)) ∧ n = 36524 * c + 1461 * q + 365 * r + d := by
  -- the last day of the era would start a fifth century, the last of four years a fifth year
  by_cases hlast : n = 146096
  · exact ⟨3, 24, 3, 365, by omega⟩
  · by_cases hleap : n % 36524 % 1461 = 1460
    · exact ⟨n / 36524, n % 36524 / 1461, 3, 365, by omega⟩
    · exact ⟨n / 36524, n % 36524 / 1461, n % 36524 % 1461 / 365, n % 36524 % 1461 % 365, by omega⟩

/-- The year of an era that a count of days within it reaches. -/
def yearOfEra (n : Nat) : Nat := (n - n / 1460 + n / 36524 - n / 146096) / 365

/-- The days of an era before a year of it. -/
def daysBefore (y : Nat) : Nat := 365 * y + y / 4 - y / 100

/-- Whether a year of an era that starts in March ends with a leap day. -/
def EndsLeap (y : Nat) : Prop := (y + 1) % 4 = 0 ∧ ((y + 1) % 100 ≠ 0 ∨ (y + 1) % 400 = 0)

/-- The year is the one that the parts of the count write. -/
theorem yearOfEra_parts {c q r d : Nat} (hc : c ≤ 3) (hq : q ≤ 24) (hr : r ≤ 3) (hd : d ≤ 365)
    (hleap : d = 365 → r = 3 ∧ (q < 24 ∨ c = 3)) :
    yearOfEra (36524 * c + 1461 * q + 365 * r + d) = 100 * c + 4 * q + r := by
  unfold yearOfEra
  generalize hn : 36524 * c + 1461 * q + 365 * r + d = n
  -- what is taken off for the leap days before this year may be one more than there were
  have hfour : ∃ e, n / 1460 = 25 * c + q + e ∧ e ≤ d ∧ d < 365 + e := by
    by_cases hr3 : r = 3
    · by_cases he : 24 * c + q + 1095 + d < 1460
      · exact ⟨0, by omega⟩
      · exact ⟨1, by omega⟩
    · exact ⟨0, by omega⟩
  obtain ⟨e, he, hed, hde⟩ := hfour
  -- the last day of the era is the only one past the end of its fourth century
  by_cases ht : 1461 * q + 365 * r + d < 36524
  · have hcentury : n / 36524 = c := by omega
    have hera : n / 146096 = 0 := by omega
    omega
  · obtain ⟨rfl, rfl, rfl, rfl⟩ : q = 24 ∧ r = 3 ∧ d = 365 ∧ c = 3 := by omega
    subst hn
    rfl

theorem daysBefore_parts {c q r : Nat} (hq : q ≤ 24) (hr : r ≤ 3) :
    daysBefore (100 * c + 4 * q + r) = 36524 * c + 1461 * q + 365 * r := by
  unfold daysBefore
  omega

/-- **A count within an era is a year and a day of it.** -/
theorem yearOfEra_spec {n : Nat} (hn : n < 146097) : yearOfEra n < 400 ∧
    ∃ d ≤ 365, (d = 365 → EndsLeap (yearOfEra n)) ∧ n = daysBefore (yearOfEra n) + d := by
  obtain ⟨c, q, r, d, hc, hq, hr, hd, hleap, rfl⟩ := exists_parts hn
  rw [yearOfEra_parts hc hq hr hd hleap, daysBefore_parts hq hr]
  refine ⟨by omega, d, hd, fun h => ?_, rfl⟩
  obtain ⟨rfl, h⟩ := hleap h
  unfold EndsLeap
  omega

/-- The date of a day of a year that starts in March. -/
def ofMarch (year : Int) (d : Nat) : Date :=
  let m := (5 * d + 2) / 153
  let month := if m < 10 then m + 3 else m - 9
  ⟨year + (if month ≤ 2 then 1 else 0), month, d - (153 * m + 2) / 5 + 1⟩

/-- **A count of days is an era, a year of it and a day of that.** -/
theorem exists_ofMarch (days : Int) : ∃ (era : Int) (y d : Nat), y < 400 ∧ d ≤ 365 ∧
    (d = 365 → EndsLeap y) ∧ days = era * eraDays + (daysBefore y + d : Nat) - epochDays ∧
    ofDays days = ofMarch (y + era * 400) d := by
  have hmod : ((days + epochDays) % eraDays).toNat < 146097 := by
    unfold eraDays
    omega
  obtain ⟨hy, d, hd, hleap, hn⟩ := yearOfEra_spec hmod
  refine ⟨(days + epochDays) / eraDays, _, d, hy, hd, hleap, ?_, ?_⟩
  · rw [← hn]
    unfold eraDays epochDays
    omega
  · have hofYear : ((days + epochDays) % eraDays).toNat -
        daysBefore (yearOfEra ((days + epochDays) % eraDays).toNat) = d := by omega
    unfold ofMarch
    rw [← hofYear]
    rfl

/-- The first ten months of a year that starts in March belong to the year of the same number. -/
theorem ofMarch_of_lt (year : Int) {d m : Nat} (hm : (5 * d + 2) / 153 = m) (h : m < 10) :
    ofMarch year d = ⟨year, m + 3, d - (153 * m + 2) / 5 + 1⟩ := by
  unfold ofMarch
  simp only [hm, if_pos h]
  rw [if_neg (by omega), Int.add_zero]

theorem ofMarch_of_le (year : Int) {d m : Nat} (hm : (5 * d + 2) / 153 = m) (h : 10 ≤ m)
    (hle : m ≤ 11) : ofMarch year d = ⟨year + 1, m - 9, d - (153 * m + 2) / 5 + 1⟩ := by
  unfold ofMarch
  simp only [hm, if_neg (Nat.not_lt.2 h)]
  rw [if_pos (by omega)]

/-- The date of a day of a year that starts in March is that many days after the year's start. -/
theorem toDays_ofMarch (era : Int) {y d : Nat} (hy : y < 400) (hd : d ≤ 365) :
    toDays (ofMarch (y + era * 400) d) = era * eraDays + (daysBefore y + d : Nat) - epochDays := by
  -- the month, counted from March
  generalize hm : (5 * d + 2) / 153 = m
  have hera : ((y : Int) + era * 400) / 400 = era := by omega
  have hofEra : (((y : Int) + era * 400) % 400).toNat = y := by omega
  have hofYear : (153 * m + 2) / 5 + (d - (153 * m + 2) / 5 + 1) - 1 = d := by omega
  by_cases hlt : m < 10
  · -- January and February are left to the next year
    rw [ofMarch_of_lt _ hm hlt]
    unfold toDays daysBefore
    dsimp only
    rw [if_neg (by omega), if_pos (by omega), hera, hofEra, Nat.add_sub_cancel, hofYear,
      Nat.mul_comm y]
  · rw [ofMarch_of_le _ hm (by omega) (by omega)]
    unfold toDays daysBefore
    dsimp only
    rw [if_pos (by omega), if_neg (by omega), Int.add_sub_cancel, hera, hofEra,
      Nat.sub_add_cancel (by omega), hofYear, Nat.mul_comm y]

/-- **Counting the days up to a date gives its count.** -/
theorem toDays_ofDays (days : Int) : (ofDays days).toDays = days := by
  obtain ⟨era, y, d, hy, hd, -, hdays, hof⟩ := exists_ofMarch days
  rw [hof, toDays_ofMarch era hy hd, ← hdays]

theorem isLeap_of_endsLeap (era : Int) {y : Nat} (h : EndsLeap y) :
    isLeap (y + era * 400 + 1) = true := by
  obtain ⟨h4, h⟩ := h
  have hi : ((y : Int) + era * 400 + 1) % 4 = 0 ∧
      (((y : Int) + era * 400 + 1) % 100 ≠ 0 ∨ ((y : Int) + era * 400 + 1) % 400 = 0) := by omega
  simpa [isLeap] using hi

/-- A day of a year that starts in March is a day of its month. -/
theorem le_monthDays {year : Int} {d m : Nat} (hm : (5 * d + 2) / 153 = m) (hd : d ≤ 365)
    (hleap : d = 365 → isLeap (year + 1) = true) :
    d - (153 * m + 2) / 5 + 1 ≤ monthDays (ofMarch year d).year (ofMarch year d).month := by
  have hle : m ≤ 11 := by omega
  by_cases hlt : m < 10
  · rw [ofMarch_of_lt year hm hlt]
    interval_cases m <;> (simp only [monthDays]; omega)
  · rw [ofMarch_of_le year hm (by omega) hle]
    interval_cases m
    · simp only [monthDays]
      omega
    · -- the last day of the year is one of a February with a leap day
      show _ ≤ if isLeap (year + 1) = true then 29 else 28
      split
      · omega
      · rename_i h
        have : d ≠ 365 := fun h365 => h (hleap h365)
        omega

/-- **A count of days reaches a date that exists.** -/
theorem exists?_ofDays (days : Int) : (ofDays days).exists? = true := by
  obtain ⟨era, y, d, -, hd, hleap, -, hof⟩ := exists_ofMarch days
  generalize hm : (5 * d + 2) / 153 = m
  have hday := le_monthDays hm hd fun h => isLeap_of_endsLeap era (hleap h)
  rw [hof]
  unfold exists?
  by_cases hlt : m < 10
  · rw [ofMarch_of_lt _ hm hlt] at hday ⊢
    dsimp only at hday ⊢
    simp only [Bool.and_eq_true, decide_eq_true_iff]
    omega
  · rw [ofMarch_of_le _ hm (by omega) (by omega)] at hday ⊢
    dsimp only at hday ⊢
    simp only [Bool.and_eq_true, decide_eq_true_iff]
    omega

end Rim.Time.Date
