import Rim.Bytes

/-!
# Hexadecimal text

Two digits an octet, the high half first; writing uses the lower-case digits and reading takes
either case.
-/

namespace Rim.Text.Hex

/-- The lower-case digit of a number below sixteen. -/
def digit (n : Nat) : Char :=
  if n < 10 then Char.ofNat (48 + n) else Char.ofNat (87 + n)

/-- The value of a digit of either case. -/
def value? (c : Char) : Option Nat :=
  if '0' ≤ c ∧ c ≤ '9' then some (c.toNat - 48)
  else if 'a' ≤ c ∧ c ≤ 'f' then some (c.toNat - 87)
  else if 'A' ≤ c ∧ c ≤ 'F' then some (c.toNat - 55)
  else none

/-- The digits of each octet in turn. -/
def encode (b : Bytes) : List Char :=
  b.flatMap fun x => [digit (x.toNat / 16), digit (x.toNat % 16)]

/-- The octets written by pairs of digits; an odd digit out is refused. -/
def decode? : List Char → Option Bytes
  | [] => some []
  | [_] => none
  | h :: l :: r => do
    let hi ← value? h
    let lo ← value? l
    let rest ← decode? r
    return UInt8.ofNat (hi * 16 + lo) :: rest

/-- The shortest digits of a number, most significant first. -/
def ofNat (n : Nat) : List Char := Nat.toDigits 16 n

end Rim.Text.Hex
