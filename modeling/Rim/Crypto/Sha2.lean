import Rim.Bytes
import Rim.Number.Power

/-!
# Secure hashes

The two hashes of the second family that signatures here use. Both run the same rounds over words
of `w` bits and differ in the width, the number of rounds and the amounts by which words are
rotated. The constants are the leading fraction bits of roots of the first primes.

* `sha256`, `sha512`: the digest of a message.
-/

namespace Rim.Crypto

/-- The largest number whose power is at most `n`, among those of so many bits. -/
def root (exponent n bits : Nat) : Nat :=
  (List.range bits).reverse.foldl
    (fun r i => if (r + 2 ^ i) ^ exponent ≤ n then r + 2 ^ i else r) 0

/-- The first eighty primes. -/
def primes : List Nat :=
  (List.range 410).filter fun n => 2 ≤ n && (List.range n).all fun d => d < 2 || n % d != 0

/-- The first `w` bits after the point of a root of a prime. -/
def rootFraction (w exponent prime : Nat) : BitVec w :=
  BitVec.ofNat w (root exponent (prime * 2 ^ (exponent * w)) (w + 3))

/-- Three amounts by which a word is rotated, or rotated twice and shifted once. -/
structure Amounts where
  first : Nat
  second : Nat
  third : Nat

/-- A member of the family. -/
structure Sha2 (w : Nat) where
  rounds : Nat
  majorityMix : Amounts
  choiceMix : Amounts
  earlyMix : Amounts
  lateMix : Amounts

/-- The eight words that go from block to block. -/
structure Chain (w : Nat) where
  a : BitVec w
  b : BitVec w
  c : BitVec w
  d : BitVec w
  e : BitVec w
  f : BitVec w
  g : BitVec w
  h : BitVec w

variable {w : Nat}

/-- A word rotated by three amounts. -/
def Amounts.rotate (m : Amounts) (x : BitVec w) : BitVec w :=
  x.rotateRight m.first ^^^ x.rotateRight m.second ^^^ x.rotateRight m.third

/-- A word rotated by two amounts and shifted by the third. -/
def Amounts.shift (m : Amounts) (x : BitVec w) : BitVec w :=
  x.rotateRight m.first ^^^ x.rotateRight m.second ^^^ x >>> m.third

namespace Chain

def toList (s : Chain w) : List (BitVec w) := [s.a, s.b, s.c, s.d, s.e, s.f, s.g, s.h]

/-- The chain of eight words. -/
def ofList : List (BitVec w) → Chain w
  | [a, b, c, d, e, f, g, h] => ⟨a, b, c, d, e, f, g, h⟩
  | _ => ⟨0, 0, 0, 0, 0, 0, 0, 0⟩

/-- Word by word sums. -/
def add (s t : Chain w) : Chain w :=
  ⟨s.a + t.a, s.b + t.b, s.c + t.c, s.d + t.d, s.e + t.e, s.f + t.f, s.g + t.g, s.h + t.h⟩

end Chain

namespace Sha2

def start (w : Nat) : Chain w := .ofList ((primes.take 8).map (rootFraction w 2))

def constants (v : Sha2 w) : List (BitVec w) := (primes.take v.rounds).map (rootFraction w 3)

/-- The message, a one bit, zeros, and the length of the message in bits at the end of a block. -/
def pad (w : Nat) (message : Bytes) : Bytes :=
  let filled := message.length + 1 + w / 4
  message ++ 0x80 :: List.replicate ((2 * w - filled % (2 * w)) % (2 * w)) 0 ++
    Bytes.ofNatBE (w / 4) (8 * message.length)

/-- The words that the rounds use, one each: the sixteen of a block and then ones made from the
sixteen before. -/
def schedule (v : Sha2 w) : (count : Nat) → List (BitVec w) → List (BitVec w)
  | count + 1, x :: r =>
    let next := v.lateMix.shift (r.getD 13 0) + r.getD 8 0 + v.earlyMix.shift (r.getD 0 0) + x
    x :: schedule v count (r ++ [next])
  | _, _ => []

/-- One round with its constant and its word. -/
def round (v : Sha2 w) (s : Chain w) (k : BitVec w × BitVec w) : Chain w :=
  let chosen := (s.e &&& s.f) ^^^ (~~~s.e &&& s.g)
  let majority := (s.a &&& s.b) ^^^ (s.a &&& s.c) ^^^ (s.b &&& s.c)
  let t := s.h + v.choiceMix.rotate s.e + chosen + k.1 + k.2
  ⟨t + v.majorityMix.rotate s.a + majority, s.a, s.b, s.c, s.d + t, s.e, s.f, s.g⟩

/-- The chain after a block. -/
def compress (v : Sha2 w) (constants : List (BitVec w)) (s : Chain w) (block : Bytes) : Chain w :=
  let words := (Bytes.chunks (w / 8) block).map fun b => BitVec.ofNat w (Bytes.toNatBE b)
  s.add ((constants.zip (v.schedule v.rounds words)).foldl v.round s)

def digest (v : Sha2 w) (constants : List (BitVec w)) (start : Chain w) (message : Bytes) :
    Bytes :=
  ((Bytes.chunks (2 * w) (pad w message)).foldl (v.compress constants) start).toList.flatMap
    fun x => Bytes.ofNatBE (w / 8) x.toNat

end Sha2

def family256 : Sha2 32 := ⟨64, ⟨2, 13, 22⟩, ⟨6, 11, 25⟩, ⟨7, 18, 3⟩, ⟨17, 19, 10⟩⟩

def family512 : Sha2 64 := ⟨80, ⟨28, 34, 39⟩, ⟨14, 18, 41⟩, ⟨1, 8, 7⟩, ⟨19, 61, 6⟩⟩

/-- The constants of the member with words of 32 bits. -/
def constants256 : List (BitVec 32) := family256.constants

/-- The constants of the member with words of 64 bits. -/
def constants512 : List (BitVec 64) := family512.constants

/-- Where the chain of the member with words of 32 bits starts. -/
def start256 : Chain 32 := Sha2.start 32

/-- Where the chain of the member with words of 64 bits starts. -/
def start512 : Chain 64 := Sha2.start 64

def sha256 (message : Bytes) : Bytes := family256.digest constants256 start256 message

def sha512 (message : Bytes) : Bytes := family512.digest constants512 start512 message

end Rim.Crypto
