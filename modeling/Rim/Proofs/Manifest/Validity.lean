import Rim.Proofs.Manifest.PartsJson

/-!
# Windows in both formats

The binary format counts seconds and carries every bound. The text format writes timestamps, and a
timestamp has a year of four digits, whereas a bound may lie hundreds of millennia away. The rules of a
window do not look at years, so the text form of a valid window need not be one that is read.

* `Validity.years_of_ofJson`: a window that is read back has bounds in years of four digits.
* `Validity.read_back`: a valid window is always read back from the binary format, and from the text
  format exactly if it has such bounds.
-/

namespace Rim

open Json Unread

namespace Validity

variable {v : Validity}

theorem year_of_boundOfJson {what : String} {t u : Time.Instant}
    (h : boundOfJson what (boundToJson t) = .ok u) : t.FourDigitYear := by
  unfold boundOfJson boundToJson Value.toText at h
  rw [Result.ok_bind] at h
  split at h
  · exact Time.Rfc3339.year_of_parse? ‹_›
  · cases h

/-- Each bound that is read back was read of its own timestamp. -/
theorem years_of_ofJson (h : ofJson v.toJson = .ok v) : ∀ t ∈ v.bounds, t.FourDigitYear := by
  obtain ⟨u, rest, hu, h⟩ := LeftOf.start ["not-before", "not-after"] rfl (by decide) h
  obtain ⟨⟨notBefore, u₁⟩, h₁, h⟩ := Result.bind_eq_ok.1 h
  obtain ⟨⟨notAfter, u₂⟩, h₂, h⟩ := Result.bind_eq_ok.1 h
  have hv : (⟨notBefore, notAfter⟩ : Validity) = v := (Prod.mk.inj (Except.ok.inj h)).1
  obtain ⟨hu₁, hbefore⟩ := hu.takeWith h₁
  obtain ⟨-, w, hw, hafter⟩ := hu₁.requireWith h₂
  intro t ht
  rcases List.mem_append.1 ht with ht | ht
  · have hstart : v.notBefore = some t := Option.mem_toList.1 ht
    rw [← hv] at hstart
    obtain ⟨w, hw, hread⟩ := hbefore t hstart
    have hwritten : ∃ s, v.notBefore = some s ∧ boundToJson s = w := by simpa using hw
    obtain ⟨s, hs, rfl⟩ := hwritten
    obtain rfl : s = t := Option.some.inj (hs.symm.trans (hv ▸ hstart))
    exact year_of_boundOfJson hread
  · obtain rfl := List.mem_singleton.1 ht
    have hwritten : w = boundToJson v.notAfter := by simpa using hw
    rw [hwritten] at hafter
    exact year_of_boundOfJson hafter

/-- **Which windows are read back.** A valid window is read back from the binary format, whatever its
bounds are. It is read back from the text format exactly if the years of its bounds have four
digits. -/
theorem read_back (h : v.validate = .ok ()) : ofCbor v.toCbor = .ok v ∧
    (ofJson v.toJson = .ok v ↔ ∀ t ∈ v.bounds, 0 ≤ t.date.year ∧ t.date.year ≤ 9999) :=
  ⟨ofCbor_toCbor h, years_of_ofJson, ofJson_toJson h⟩

/-- The window of all years of four digits. -/
def fourDigitYears : Validity :=
  ⟨some ⟨-62167219200, 0, by decide⟩, ⟨253402300799, 0, by decide⟩⟩

/-- From the first second of the year 0 to the last one of the year 9999 both formats agree. -/
theorem read_back_fourDigitYears : ofCbor fourDigitYears.toCbor = .ok fourDigitYears ∧
    ofJson fourDigitYears.toJson = .ok fourDigitYears := by
  obtain ⟨hcbor, hjson⟩ := read_back (v := fourDigitYears) (by decide)
  exact ⟨hcbor, hjson.2 (by decide +kernel)⟩

/-- The window up to the second after these years. -/
def fiveDigitYear : Validity := ⟨none, 253402300800, 0, by decide⟩

/-- A window that ends in the year 10000 is valid, is read back from the binary format and may itself
come of a timestamp of the year 9999 with an offset, but its text form is not read. -/
theorem fiveDigitYear_not_read :
    fiveDigitYear.validate = .ok () ∧ ofCbor fiveDigitYear.toCbor = .ok fiveDigitYear ∧
      ofJson (.ofMemberList [("not-after", some (.string "9999-12-31T23:59:00-00:01"))]) =
        .ok fiveDigitYear ∧
      ∀ v, ofJson fiveDigitYear.toJson ≠ .ok v := by
  refine ⟨by decide, rfl, rfl, ?_⟩
  intro v h
  cases h

end Validity

end Rim
