import Rim.Time.Instant

/-!
# Reading RFC 3339 timestamps

A date of four, two and two digits, a time of day with an optional fraction, and an offset of less
than a day. A second may be the sixtieth. Of the fraction nine digits count.

* `parse?`: the instant of a timestamp.
-/

namespace Rim.Time.Rfc3339

/-- Reads exactly so many digits. -/
def number : (count : Nat) → (n : Nat) → List Char → Option (Nat × List Char)
  | 0, n, s => some (n, s)
  | count + 1, n, c :: r =>
    if '0' ≤ c ∧ c ≤ '9' then number count (n * 10 + (c.toNat - 48)) r else none
  | _ + 1, _, [] => none

/-- Reads one given character. -/
def literal (c : Char) : List Char → Option (List Char)
  | d :: r => if c = d then some r else none
  | [] => none

/-- Reads a date. -/
def date (s : List Char) : Option (Date × List Char) := do
  let (year, s) ← number 4 0 s
  let s ← literal '-' s
  let (month, s) ← number 2 0 s
  let s ← literal '-' s
  let (day, s) ← number 2 0 s
  let d : Date := ⟨year, month, day⟩
  if d.exists? then some (d, s) else none

/-- Reads hour, minute and second: the second of the day, and whether it is the sixtieth. -/
def clock (s : List Char) : Option ((Nat × Bool) × List Char) := do
  let (hour, s) ← number 2 0 s
  let s ← literal ':' s
  let (minute, s) ← number 2 0 s
  let s ← literal ':' s
  let (second, s) ← number 2 0 s
  if 23 < hour ∨ 59 < minute ∨ 60 < second then none
  else some ((hour * 3600 + minute * 60 + min second 59, second == 60), s)

/-- Reads a fraction, if there is a point: its nanoseconds. -/
def fraction : List Char → Option (Nat × List Char)
  | '.' :: r =>
    match r.takeWhile fun c => '0' ≤ c && c ≤ '9' with
    | [] => none
    | ds =>
      -- missing digits are zeros, further ones are dropped
      let nanos := (ds ++ List.replicate 9 '0').take 9
      some (nanos.foldl (fun n c => n * 10 + (c.toNat - 48)) 0, r.drop ds.length)
  | r => some (0, r)

/-- Reads hours and minutes of an offset as seconds. -/
def offsetSize (s : List Char) : Option (Int × List Char) := do
  let (hours, s) ← number 2 0 s
  let s ← literal ':' s
  let (minutes, s) ← number 2 0 s
  if 23 < hours ∨ 59 < minutes then none else some (hours * 3600 + minutes * 60, s)

/-- Reads an offset as seconds; the minus sign may also be the typographic one. -/
def offset : List Char → Option (Int × List Char)
  | 'Z' :: r | 'z' :: r => some (0, r)
  | '+' :: r => offsetSize r
  | '-' :: r | '−' :: r => (offsetSize r).map fun p => (-p.1, p.2)
  | _ => none

/-- The instant of a timestamp. -/
def parse? (text : String) : Option Instant := do
  let (d, s) ← date text.toList
  let s ← match s with
    | 'T' :: r | 't' :: r | ' ' :: r => some r
    | _ => none
  let ((second, leap), s) ← clock s
  let (nanos, s) ← fraction s
  let (shift, s) ← offset s
  if s.isEmpty then
    Instant.of? (d.toDays * 86400 + second - shift) (if leap then 1000000000 + nanos else nanos)
  else none

end Rim.Time.Rfc3339
