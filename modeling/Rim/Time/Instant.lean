import Rim.Time.Calendar

/-!
# Instants

An instant is a count of seconds from the start of 1970 and of nanoseconds within the second; a leap
second is written as nanoseconds past the whole second before it.

* `Instant.of?`, `Instant.ofSeconds?`: instants within the years that are represented.
* `Instant.toSeconds`: with the fraction dropped.
* `Instant.rfc3339`, `Instant.display`: date and time of day in either notation.
-/

namespace Rim.Time

namespace Instant

/-- The first second that is represented, in the year -262143. -/
def firstSecond : Int := -8334601228800

/-- The last second that is represented, in the year 262142. -/
def lastSecond : Int := 8210266876799

end Instant

/-- A point in time, of those that are represented. -/
structure Instant where
  seconds : Int
  nanos : Nat
  represented : Instant.firstSecond ≤ seconds ∧ seconds ≤ Instant.lastSecond
deriving DecidableEq

namespace Instant

/-- The instant of a second and nanoseconds within it, if it is represented. -/
def of? (seconds : Int) (nanos : Nat) : Option Instant :=
  if h : firstSecond ≤ seconds ∧ seconds ≤ lastSecond then some ⟨seconds, nanos, h⟩ else none

/-- The start of a second, if it is represented. -/
def ofSeconds? (seconds : Int) : Option Instant := of? seconds 0

/-- The instant with its fraction dropped. -/
def toSeconds (t : Instant) : Instant := { t with nanos := 0 }

/-- One instant is not after another. -/
instance : LE Instant where
  le a b := a.seconds < b.seconds ∨ (a.seconds = b.seconds ∧ a.nanos ≤ b.nanos)

instance (a b : Instant) : Decidable (a ≤ b) :=
  inferInstanceAs (Decidable (a.seconds < b.seconds ∨ (a.seconds = b.seconds ∧ a.nanos ≤ b.nanos)))

def date (t : Instant) : Date := Date.ofDays (t.seconds / 86400)

def ofDay (t : Instant) : Nat := (t.seconds % 86400).toNat

/-- A number with zeros before it up to a width. -/
def padded (width n : Nat) : List Char :=
  let ds := Nat.toDigits 10 n
  List.replicate (width - ds.length) '0' ++ ds

/-- A year: four digits, and a sign where that is not enough. -/
def yearText (year : Int) : List Char :=
  if 0 ≤ year ∧ year ≤ 9999 then padded 4 year.toNat
  else (if year < 0 then '-' else '+') :: padded 4 year.natAbs

/-- The fraction of a second in three, six or nine digits, the fewest that are exact. -/
def fractionText (nanos : Nat) : List Char :=
  if nanos = 0 then []
  else if nanos % 1000000 = 0 then '.' :: padded 3 (nanos / 1000000)
  else if nanos % 1000 = 0 then '.' :: padded 6 (nanos / 1000)
  else '.' :: padded 9 nanos

/-- Year, month and day with hyphens between them. -/
def dateText (t : Instant) : List Char :=
  yearText t.date.year ++ '-' :: padded 2 t.date.month ++ '-' :: padded 2 t.date.day

/-- Hour, minute and second with colons between them, and the fraction; a leap second is the
sixtieth. -/
def clockText (t : Instant) : List Char :=
  let leap := 1000000000 ≤ t.nanos
  let second := t.ofDay % 60 + if leap then 1 else 0
  padded 2 (t.ofDay / 3600) ++ ':' :: padded 2 (t.ofDay / 60 % 60) ++ ':' :: padded 2 second ++
    fractionText (if leap then t.nanos - 1000000000 else t.nanos)

/-- The notation of RFC 3339 with a zero offset. -/
def rfc3339 (t : Instant) : String :=
  String.ofList (t.dateText ++ 'T' :: t.clockText ++ "+00:00".toList)

/-- The notation of messages. -/
def display (t : Instant) : String :=
  String.ofList (t.dateText ++ ' ' :: t.clockText ++ " UTC".toList)

end Instant

end Rim.Time
