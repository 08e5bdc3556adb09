import Rim.Number.Power

/-!
# Decimal numerals of 64-bit numbers

A numeral is one or more ASCII digits after an optional plus sign; leading zeros are allowed and
the value stays below 2^64.
-/

namespace Rim.Text.Numeral

/-- The value of an ASCII decimal digit. -/
def digit? (c : Char) : Option Nat :=
  if '0' ≤ c ∧ c ≤ '9' then some (c.toNat - 48) else none

/-- The value of a digit string that continues a numeral of value `n`. -/
def value? (n : Nat) : List Char → Option Nat
  | [] => some n
  | c :: r => do value? (n * 10 + (← digit? c)) r

/-- The digits with an optional leading plus sign removed. -/
def unsigned : List Char → List Char
  | '+' :: r => r
  | r => r

/-- The number a numeral writes, if it is one and fits 64 bits. -/
def parse? (text : List Char) : Option UInt64 :=
  match unsigned text with
  | [] => none
  | ds => do
    let n ← value? 0 ds
    if n < 2 ^ 64 then some (UInt64.ofNat n) else none

def ofNat (n : Nat) : List Char := Nat.toDigits 10 n

end Rim.Text.Numeral
