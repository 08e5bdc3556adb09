import Rim.Crypto.Power
import Rim.Crypto.Sha2

/-!
# Ed25519

Signatures over the curve `y² - x² = 1 + d x² y²`, in coordinates `(x : y : z : t)` that stand for
the point `(x / z, y / z)` with `x y = z t`. One formula adds any two points.

* `Point.encode`, `Point.decode?`: the second coordinate and the parity of the first in 32 octets.
* `sign`, `accepts`: the signature of a message, and whether 64 octets are one.
-/

namespace Rim.Crypto.Ed25519

def fieldSize : Nat := 2 ^ 255 - 19

def order : Nat := 2 ^ 252 + 27742317777372353535851937790883648493

instance : @NeZero Nat Zero.ofOfNat0 fieldSize := ⟨Nat.succ_ne_zero _⟩

instance : @NeZero Nat Zero.ofOfNat0 order := ⟨Nat.succ_ne_zero _⟩

abbrev Field := Fin fieldSize

abbrev Scalar := Fin order

namespace Field

def pow (a : Field) (n : Nat) : Field := power (· * ·) 1 a n

def inv (a : Field) : Field := a.pow (fieldSize - 2)

def rootOfMinusOne : Field := Field.pow 2 ((fieldSize - 1) / 4)

/-- A root of a square; the other one is its negative. -/
def sqrt? (a : Field) : Option Field :=
  -- if there is a root, its square is the candidate's square or the negative of that
  let r := a.pow ((fieldSize + 3) / 8)
  if r * r = a then some r
  else
    let r := r * rootOfMinusOne
    if r * r = a then some r else none

def isOdd (a : Field) : Bool := a.val % 2 == 1

end Field

def coefficient : Field := -121665 * Field.inv 121666

/-- A point in extended coordinates. -/
structure Point where
  x : Field
  y : Field
  z : Field
  t : Field

namespace Point

def ofCoordinates (x y : Field) : Point := ⟨x, y, 1, x * y⟩

def neutral : Point := ofCoordinates 0 1

/-- The sum of two points. -/
def add (p q : Point) : Point :=
  let a := (p.y - p.x) * (q.y - q.x)
  let b := (p.y + p.x) * (q.y + q.x)
  let c := 2 * coefficient * p.t * q.t
  let d := 2 * p.z * q.z
  let e := b - a
  let f := d - c
  let g := d + c
  let h := b + a
  ⟨e * f, g * h, f * g, e * h⟩

/-- The point that added to a point gives the neutral one. -/
def neg (p : Point) : Point := ⟨-p.x, p.y, p.z, -p.t⟩

def times (n : Nat) (p : Point) : Point := power add neutral p n

/-- The octets of a point: the second coordinate, and in the top bit whether the first is odd. -/
def encode (p : Point) : Bytes :=
  let w := p.z.inv
  let x := p.x * w
  let y := p.y * w
  Bytes.ofNatLE 32 (y.val + if x.isOdd then 2 ^ 255 else 0)

/-- The point with the given second coordinate, and its first one odd or even unless it is zero. -/
def ofY? (y : Field) (odd : Bool) : Option Point := do
  let x ← ((y * y - 1) * (coefficient * y * y + 1).inv).sqrt?
  return ofCoordinates (if x.isOdd == odd then x else -x) y

/-- The point that 32 octets write; the second coordinate is taken modulo the size of the field. -/
def decode? (b : Bytes) : Option Point :=
  let n := Bytes.toNatLE b
  ofY? (Fin.ofNat fieldSize (n % 2 ^ 255)) (decide (2 ^ 255 ≤ n))

def base : Point := (ofY? (4 * Field.inv 5) false).getD neutral

end Point

def scalarOf (hash : Bytes) : Scalar := Fin.ofNat order (Bytes.toNatLE hash)

/-- The private number in the first half of a seed's hash: a multiple of eight with its bit 254 the
highest one set. -/
def secret (half : Bytes) : Nat :=
  let n := Bytes.toNatLE half % 2 ^ 254
  2 ^ 254 + (n - n % 8)

def publicPoint (seed : Bytes) : Point := Point.base.times (secret ((sha512 seed).take 32))

/-- The 64 octets of the signature of a message. -/
def sign (seed message : Bytes) : Bytes :=
  -- the first half of the hash is the private number, the second makes the nonce
  let h := sha512 seed
  let a : Scalar := Fin.ofNat order (secret (h.take 32))
  let r := scalarOf (sha512 (h.drop 32 ++ message))
  let commitment := (Point.base.times r.val).encode
  let k := scalarOf (sha512 (commitment ++ (publicPoint seed).encode ++ message))
  commitment ++ Bytes.ofNatLE 32 (r + k * a).val

/-- Whether octets are the signature of a message under a public point and its octets. -/
def accepts (point : Point) (octets message signature : Bytes) : Bool :=
  let commitment := signature.take 32
  let s := Bytes.toNatLE (signature.drop 32)
  let k := scalarOf (sha512 (commitment ++ octets ++ message))
  decide (s < order) &&
    ((Point.base.times s).add (point.neg.times k.val)).encode == commitment

end Rim.Crypto.Ed25519
