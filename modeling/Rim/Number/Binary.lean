import Rim.Number.Power

/-!
# Binary interchange formats

Floating-point numbers are kept as bit patterns and handled in exact integer arithmetic: a finite
pattern is a significand times a power of two.

* `Format.decode`: what a bit pattern of a format stands for.
* `Format.round`: the pattern nearest to a positive ratio, ties to the even one.
* `Format.widen`, `Format.narrow?`: to the 64-bit format, and back where nothing is lost.
-/

namespace Rim.Number

/-- The widths of the fraction and exponent fields of a binary format. -/
structure Format where
  fraction : Nat
  exponent : Nat

def binary16 : Format := ⟨10, 5⟩

def binary32 : Format := ⟨23, 8⟩

def binary64 : Format := ⟨52, 11⟩

/-- What a bit pattern stands for; a finite one is `significand * 2 ^ power`. -/
inductive Datum
  | finite (negative : Bool) (significand : Nat) (power : Int)
  | infinite (negative : Bool)
  | undefined (negative : Bool) (payload : Nat)

namespace Format

variable (f : Format)

/-- The power of two of the least positive number. -/
def leastPower : Int := 2 - 2 ^ (f.exponent - 1) - f.fraction

/-- The pattern of positive infinity. -/
def infinity : Nat := (2 ^ f.exponent - 1) * 2 ^ f.fraction

/-- The pattern of the sign bit alone. -/
def signBit : Nat := 2 ^ (f.fraction + f.exponent)

/-- The sign bit of a number of the given sign. -/
def sign (negative : Bool) : Nat := if negative then f.signBit else 0

/-- What a bit pattern stands for. -/
def decode (bits : Nat) : Datum :=
  let negative := bits / f.signBit % 2 == 1
  let scale := bits / 2 ^ f.fraction % 2 ^ f.exponent
  let low := bits % 2 ^ f.fraction
  -- the highest scale is kept for what is no number, and the lowest has no hidden bit
  if scale = 2 ^ f.exponent - 1 then
    if low = 0 then .infinite negative else .undefined negative low
  else if scale = 0 then .finite negative low f.leastPower
  else .finite negative (2 ^ f.fraction + low) (f.leastPower + (scale - 1 : Nat))

/-- `n / d` times `2 ^ -p`, as a ratio. -/
def scaled (n d : Nat) (p : Int) : Nat × Nat :=
  if 0 ≤ p then (n, d * 2 ^ p.toNat) else (n * 2 ^ (-p).toNat, d)

/-- The pattern nearest to the positive ratio `n / d`, of two nearest ones the even one. -/
def round (n d : Nat) : Nat :=
  if n = 0 then 0 else
    -- the power of the last bit that is kept is the guess or one less
    let guess : Int := (n.log2 : Int) - d.log2 - f.fraction
    let (gn, gd) := scaled n d guess
    let power := max f.leastPower (if gn / gd < 2 ^ f.fraction then guess - 1 else guess)
    let (sn, sd) := scaled n d power
    let q := sn / sd
    -- what is cut off is compared with one half
    let twice := 2 * (sn % sd)
    let m := if sd < twice ∨ (twice = sd ∧ q % 2 = 1) then q + 1 else q
    min f.infinity ((power - f.leastPower).toNat * 2 ^ f.fraction + m)

/-- The magnitude of a finite pattern as a ratio; that of any other is zero. -/
def ratio (bits : Nat) : Nat × Nat :=
  match f.decode bits with
  | .finite _ m p => scaled m 1 (-p)
  | _ => (0, 1)

/-- The product of two positive finite patterns, rounded. -/
def mul (a b : Nat) : Nat :=
  let (an, ad) := f.ratio a
  let (bn, bd) := f.ratio b
  f.round (an * bn) (ad * bd)

/-- The quotient of two positive finite patterns, rounded. -/
def div (a b : Nat) : Nat :=
  let (an, ad) := f.ratio a
  let (bn, bd) := f.ratio b
  f.round (an * bd) (ad * bn)

/-- The 64-bit pattern of the same number; an undefined number becomes a quiet one. -/
def widen (bits : Nat) : UInt64 :=
  match f.decode bits with
  | .infinite negative => UInt64.ofNat (binary64.sign negative + binary64.infinity)
  | .undefined negative payload =>
    let high := payload * 2 ^ (binary64.fraction - f.fraction)
    UInt64.ofNat (binary64.sign negative + binary64.infinity + high % 2 ^ 51 + 2 ^ 51)
  | .finite negative m p =>
    let (n, d) := scaled m 1 (-p)
    UInt64.ofNat (binary64.sign negative + binary64.round n d)

/-- The pattern of the same finite number in this format, if it has one. -/
def narrow? (bits : UInt64) : Option Nat :=
  match binary64.decode bits.toNat with
  | .finite negative m p =>
    let (n, d) := scaled m 1 (-p)
    let b := f.sign negative + f.round n d
    -- nothing is lost if the rounded pattern stands for the same ratio
    match f.decode b with
    | .finite _ m' p' =>
      let (n', d') := scaled m' 1 (-p')
      if n * d' = n' * d then some b else none
    | _ => none
  | _ => none

end Format

end Rim.Number
