import Rim.Number.Binary

/-!
# The fewest digits that read back

A finite number is written with the fewest decimal digits that lie among the reals rounding to it,
and with the ones nearest to it among those; of two equally near the even one.

* `digits?`: these digits and where the decimal point stands.
-/

namespace Rim.Number

/-- The decimal digits of a positive number and the place of the point counted from their start. -/
structure Decimal where
  digits : List Char
  point : Int

namespace Shortest

/-- The reals that round to `value`, all as numerators over the denominator `unit`. -/
structure Interval where
  low : Nat
  value : Nat
  high : Nat
  unit : Nat
  closed : Bool

/-- Whether the ratio `n / d` lies in the interval. -/
def Interval.holds (i : Interval) (n d : Nat) : Bool :=
  let x := n * i.unit
  if i.closed then i.low * d ≤ x && x ≤ i.high * d else i.low * d < x && x < i.high * d

/-- The interval of `m * 2 ^ p` in the 64-bit format. -/
def interval (m : Nat) (p : Int) : Interval :=
  -- below a power of two the gap to the next number is half as wide as above it
  let below := if m = 2 ^ binary64.fraction ∧ binary64.leastPower < p then 1 else 2
  let up := 2 ^ (p - 2).toNat
  ⟨(4 * m - below) * up, 4 * m * up, (4 * m + 2) * up, 2 ^ (2 - p).toNat, m % 2 == 0⟩

/-- The power of ten of the leading digit of the positive ratio `n / d`. -/
def leadingPower (n d : Nat) : Int :=
  if d ≤ n then (Nat.toDigits 10 (n / d)).length - 1
  else
    let k := (Nat.toDigits 10 (d / n)).length
    if d ≤ n * 10 ^ (k - 1) then 1 - (k : Int) else -(k : Int)

/-- The multiple of `10 ^ p` nearest to the value that lies in the interval, as its factor. -/
def onGrid? (i : Interval) (p : Int) : Option Nat :=
  let up := 10 ^ p.toNat
  let down := 10 ^ (-p).toNat
  let c := i.value * down / (i.unit * up)
  -- the distances of the two factors next to the value
  let near := i.value * down - c * (i.unit * up)
  let far := (c + 1) * (i.unit * up) - i.value * down
  match i.holds (c * up) down, i.holds ((c + 1) * up) down with
  | true, true => some (if near < far ∨ (near = far ∧ c % 2 = 0) then c else c + 1)
  | true, false => some c
  | false, true => some (c + 1)
  | false, false => none

/-- Tries the grids of `tried + 1`, `tried + 2`, … digits, `fuel` of them. -/
def search (i : Interval) (lead : Int) : (fuel tried : Nat) → Option (Nat × Int)
  | 0, _ => none
  | fuel + 1, tried =>
    let p := lead - tried
    match onGrid? i p with
    | some c => some (c, p)
    | none => search i lead fuel (tried + 1)

end Shortest

/-- The shortest decimal of the positive number `m * 2 ^ p`; seventeen digits always suffice. -/
def shortest? (m : Nat) (p : Int) : Option Decimal :=
  if m = 0 then none else
    let i := Shortest.interval m p
    match Shortest.search i (Shortest.leadingPower i.value i.unit) 17 0 with
    | none => none
    | some (c, power) =>
      let ds := Nat.toDigits 10 c
      some ⟨(ds.reverse.dropWhile (· == '0')).reverse, ds.length + power⟩

end Rim.Number
