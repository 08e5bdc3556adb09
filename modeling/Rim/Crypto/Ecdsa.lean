import Rim.Crypto.Nonce
import Rim.Crypto.P256

/-!
# Signatures over P-256

A signature is a pair of numbers below the order of the curve, neither of them zero, written as 32
octets each.

* `sign?`, `accepts`: the signature of a message, and whether a signature is one.
-/

namespace Rim.Crypto.Ecdsa

open P256 (Point order)

abbrev Scalar := Fin order

namespace Scalar

def inv (a : Scalar) : Scalar := power (· * ·) 1 a (order - 2)

/-- The number that octets write, if it is below the order and not zero. -/
def ofBytes? (b : Bytes) : Option Scalar :=
  let n := Bytes.toNatBE b
  if h : n < order then if n = 0 then none else some ⟨n, h⟩ else none

def toBytes (a : Scalar) : Bytes := Bytes.ofNatBE 32 a.val

end Scalar

/-- A signature. -/
structure Signature where
  r : Scalar
  s : Scalar

namespace Signature

def toBytes (g : Signature) : Bytes := g.r.toBytes ++ g.s.toBytes

/-- The signature that octets write. -/
def ofBytes? (b : Bytes) : Option Signature :=
  if b.length = 64 then do
    return ⟨← Scalar.ofBytes? (b.take 32), ← Scalar.ofBytes? (b.drop 32)⟩
  else none

end Signature

/-- The private number that octets write: 24 to 32 of them, leading zeros left out or not. -/
def secret? (b : Bytes) : Option Scalar :=
  if 24 ≤ b.length ∧ b.length ≤ 32 then Scalar.ofBytes? b else none

def publicPoint (d : Scalar) : Point := Point.base.times d.val

def hash (message : Bytes) : Scalar := Fin.ofNat order (Bytes.toNatBE (sha256 message))

def coordinate (p : Point) : Scalar := Fin.ofNat order p.affineX.val

/-- The signature of a message with its nonce. -/
def signWith (d k z : Scalar) : Signature :=
  let r := coordinate (Point.base.times k.val)
  ⟨r, k.inv * (z + r * d)⟩

def sign? (d : Scalar) (message : Bytes) : Option Signature := do
  let z := hash message
  let k ← nonce? order d.val z.val
  let g := signWith d (Fin.ofNat order k) z
  if g.r = 0 ∨ g.s = 0 then none else some g

/-- Whether a signature is one of a message under a public point. -/
def accepts (q : Point) (message : Bytes) (g : Signature) : Bool :=
  let w := g.s.inv
  let p := (Point.base.times (hash message * w).val).add (q.times (g.r * w).val)
  coordinate p == g.r

end Rim.Crypto.Ecdsa
