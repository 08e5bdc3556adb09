import Rim.Bytes
import Rim.Crypto.Power
import Rim.Number.Power

/-!
# The curve P-256

The points `y² = x³ - 3x + b` over a prime field, and the point at infinity, in projective
coordinates: `(x : y : z)` stands for `(x / z, y / z)`, and `z` is zero at infinity. One formula
adds any two points of the curve.

* `Point.add`, `Point.times`: sums and multiples.
* `Point.decode?`: reads the written form of a point: both coordinates, or one and a choice of the
  other.
-/

namespace Rim.Crypto.P256

def fieldSize : Nat := 2 ^ 256 - 2 ^ 224 + 2 ^ 192 + 2 ^ 96 - 1

def order : Nat := 0xffffffff00000000ffffffffffffffffbce6faada7179e84f3b9cac2fc632551

instance : @NeZero Nat Zero.ofOfNat0 fieldSize := ⟨Nat.succ_ne_zero _⟩

instance : @NeZero Nat Zero.ofOfNat0 order := ⟨Nat.succ_ne_zero _⟩

abbrev Field := Fin fieldSize

namespace Field

def pow (a : Field) (n : Nat) : Field := power (· * ·) 1 a n

def inv (a : Field) : Field := a.pow (fieldSize - 2)

/-- A root of a square; the other one is its negative. -/
def sqrt? (a : Field) : Option Field :=
  let r := a.pow ((fieldSize + 1) / 4)
  if r * r = a then some r else none

/-- The member that 32 octets write, if they write one below the size of the field. -/
def ofBytes? (b : Bytes) : Option Field :=
  if h : Bytes.toNatBE b < fieldSize then some ⟨Bytes.toNatBE b, h⟩ else none

end Field

def linear : Field := -3

/-- The constant coefficient of the curve. -/
def constant : Field :=
  Fin.ofNat fieldSize 0x5ac635d8aa3a93e7b3ebbd55769886bc651d06b0cc53b0f63bce3c3e27d2604b

/-- A point in projective coordinates. -/
structure Point where
  x : Field
  y : Field
  z : Field
deriving DecidableEq

namespace Point

def infinity : Point := ⟨0, 1, 0⟩

def base : Point where
  x := Fin.ofNat fieldSize 0x6b17d1f2e12c4247f8bce6e563a440f277037d812deb33a0f4a13945d898c296
  y := Fin.ofNat fieldSize 0x4fe342e2fe1a7f9b8ee7eb4a7c0f9e162bce33576b315ececbb6406837bf51f5
  z := 1

/-- The sum of two points. -/
def add (p q : Point) : Point :=
  let xx := p.x * q.x
  let yy := p.y * q.y
  let zz := p.z * q.z
  let xy := p.x * q.y + q.x * p.y
  let xz := p.x * q.z + q.x * p.z
  let yz := p.y * q.z + q.y * p.z
  let s := linear * xz + 3 * constant * zz
  let t := 3 * xx + linear * zz
  let u := linear * xx + 3 * constant * xz - linear * linear * zz
  ⟨xy * (yy - s) - yz * u, t * u + (yy + s) * (yy - s), yz * (yy + s) + xy * t⟩

def times (n : Nat) (p : Point) : Point := power add infinity p n

/-- The first coordinate, zero at infinity. -/
def affineX (p : Point) : Field := p.x * p.z.inv

/-- The square of the second coordinate of a point with the given first one. -/
def ySquared (x : Field) : Field := x * x * x + linear * x + constant

/-- The point with the given coordinates, if it lies on the curve. -/
def ofCoordinates? (x y : Field) : Option Point :=
  if y * y = ySquared x then some ⟨x, y, 1⟩ else none

/-- The point with the given first coordinate and of the two second ones the one that is `wanted`,
if there are such points. -/
def ofX? (x : Field) (wanted : Field → Bool) : Option Point := do
  let y ← (ySquared x).sqrt?
  return ⟨x, if wanted y then y else -y, 1⟩

/-- The point that octets write. The first octet says what follows: 4 both coordinates, 2 or 3 the
first one and whether the second is even or odd, 5 the first one, the second being the smaller. -/
def decode? : Bytes → Option Point
  | [] => none
  | form :: r =>
    if form.toNat = 4 ∧ r.length = 64 then do
      ofCoordinates? (← Field.ofBytes? (r.take 32)) (← Field.ofBytes? (r.drop 32))
    else if r.length = 32 then do
      let x ← Field.ofBytes? r
      match form.toNat with
      | 2 => ofX? x (·.val % 2 == 0)
      | 3 => ofX? x (·.val % 2 == 1)
      | 5 => ofX? x fun y => decide (y ≤ -y)
      | _ => none
    else none

end Point

end Rim.Crypto.P256
