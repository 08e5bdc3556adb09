/-!
# The civil calendar

Days are counted from 1970-01-01 in the proleptic Gregorian calendar. Years are taken to start in
March, so that the leap day is a year's last, and repeat every 400.

* `Date.ofDays`, `Date.toDays`: between day counts and dates.
-/

namespace Rim.Time

/-- A day of the calendar. -/
structure Date where
  year : Int
  month : Nat
  day : Nat
deriving DecidableEq

namespace Date

def eraDays : Int := 146097

/-- The days from the first of March of year 0 to 1970-01-01. -/
def epochDays : Int := 719468

/-- The date that a count of days reaches. -/
def ofDays (days : Int) : Date :=
  let z := days + epochDays
  let era := z / eraDays
  let n := (z % eraDays).toNat
  -- without the leap days that have passed every year has 365 days
  let y := (n - n / 1460 + n / 36524 - n / 146096) / 365
  let ofYear := n - (365 * y + y / 4 - y / 100)
  -- from March on, five months have 153 days
  let m := (5 * ofYear + 2) / 153
  let day := ofYear - (153 * m + 2) / 5 + 1
  let month := if m < 10 then m + 3 else m - 9
  ⟨y + era * 400 + (if month ≤ 2 then 1 else 0), month, day⟩

def toDays (d : Date) : Int :=
  let y := if d.month ≤ 2 then d.year - 1 else d.year
  let era := y / 400
  let ofEra := (y % 400).toNat
  let m := if 2 < d.month then d.month - 3 else d.month + 9
  let ofYear := (153 * m + 2) / 5 + d.day - 1
  let n : Nat := ofEra * 365 + ofEra / 4 - ofEra / 100 + ofYear
  era * eraDays + n - epochDays

def isLeap (year : Int) : Bool := year % 4 == 0 && (year % 100 != 0 || year % 400 == 0)

/-- The number of days of a month. -/
def monthDays (year : Int) (month : Nat) : Nat :=
  match month with
  | 2 => if isLeap year then 29 else 28
  | 4 | 6 | 9 | 11 => 30
  | _ => 31

/-- Whether month and day exist. -/
def exists? (d : Date) : Bool :=
  1 ≤ d.month && d.month ≤ 12 && 1 ≤ d.day && d.day ≤ monthDays d.year d.month

end Date

end Rim.Time
