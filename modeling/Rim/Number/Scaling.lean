import Rim.Number.Binary

/-!
# Reading decimals in two roundings

A decimal significand of at most 64 bits is rounded to the 64-bit format first and then multiplied
or divided by a rounded power of ten, in steps of 308 where the exponent is beyond that. The result
may differ from the nearest number in its last bits.

* `scale?`: the number `n * 10 ^ e` read in this way, unless it is out of range.
-/

namespace Rim.Number

/-- The power of ten up to the 308th, rounded. -/
def powerOfTen (e : Nat) : Nat := binary64.round (10 ^ e) 1

/-- Scales a positive pattern by a power of ten; three steps bring any 64-bit number to zero. -/
def scaleSteps : (fuel : Nat) → (pattern : Nat) → (e : Int) → Option Nat
  | 0, _, _ => some 0
  | fuel + 1, x, e =>
    if x = 0 then some 0
    else if 308 < e then none
    else if 0 ≤ e then
      let y := binary64.mul x (powerOfTen e.toNat)
      if y = binary64.infinity then none else some y
    else if -308 ≤ e then some (binary64.div x (powerOfTen (-e).toNat))
    -- too small for one power of ten: divide and go on with what is left of the exponent
    else scaleSteps fuel (binary64.div x (powerOfTen 308)) (e + 308)

/-- The pattern of `n * 10 ^ e`, unless it is out of range. -/
def scale? (n : Nat) (e : Int) : Option Nat := scaleSteps 4 (binary64.round n 1) e

end Rim.Number
