import Rim.Bytes

/-!
# Base64

Both alphabets of base64, read strictly: the padded form ends with exactly the padding its length
asks for, the unpadded one has none, no other character is skipped, and the bits that a last
short group leaves unused are zero.

* `encode`, `decode?`: the standard alphabet with padding.
* `UrlSafe.decode?`: the URL-safe alphabet without padding.
-/

namespace Rim.Text.Base64

/-- The two characters of an alphabet that are not letters or digits. -/
structure Alphabet where
  sixtyTwo : Char
  sixtyThree : Char

/-- The alphabet with `+` and `/`. -/
def standard : Alphabet := ⟨'+', '/'⟩

/-- The alphabet with `-` and `_`. -/
def urlSafe : Alphabet := ⟨'-', '_'⟩

/-- The character of a six-bit number. -/
def Alphabet.char (a : Alphabet) (n : Nat) : Char :=
  if n < 26 then Char.ofNat (65 + n)
  else if n < 52 then Char.ofNat (71 + n)
  else if n < 62 then Char.ofNat (n - 4)
  else if n = 62 then a.sixtyTwo else a.sixtyThree

/-- The six-bit number of a character. -/
def Alphabet.value? (a : Alphabet) (c : Char) : Option Nat :=
  if 'A' ≤ c ∧ c ≤ 'Z' then some (c.toNat - 65)
  else if 'a' ≤ c ∧ c ≤ 'z' then some (c.toNat - 71)
  else if '0' ≤ c ∧ c ≤ '9' then some (c.toNat + 4)
  else if c = a.sixtyTwo then some 62
  else if c = a.sixtyThree then some 63
  else none

/-- The octet of a number, reduced modulo 256. -/
private def octet (n : Nat) : UInt8 := UInt8.ofNat n

/-- The groups of four characters that the octets make; a short last group has no padding. -/
def groups (a : Alphabet) : Bytes → List Char × Nat
  | [] => ([], 0)
  | [x] => ([a.char (x.toNat / 4), a.char (x.toNat % 4 * 16)], 2)
  | [x, y] =>
    ([a.char (x.toNat / 4), a.char (x.toNat % 4 * 16 + y.toNat / 16), a.char (y.toNat % 16 * 4)], 1)
  | x :: y :: z :: r =>
    let (rest, missing) := groups a r
    (a.char (x.toNat / 4) :: a.char (x.toNat % 4 * 16 + y.toNat / 16) ::
      a.char (y.toNat % 16 * 4 + z.toNat / 64) :: a.char (z.toNat % 64) :: rest, missing)

/-- The octets of six-bit numbers, four at a time; unused bits of a short last group are zero. -/
def ofSextets? : List Nat → Option Bytes
  | [] => some []
  | [_] => none
  | [p, q] => if q % 16 = 0 then some [octet (p * 4 + q / 16)] else none
  | [p, q, r] =>
    if r % 4 = 0 then some [octet (p * 4 + q / 16), octet (q % 16 * 16 + r / 4)] else none
  | p :: q :: r :: s :: t => do
    let rest ← ofSextets? t
    return octet (p * 4 + q / 16) :: octet (q % 16 * 16 + r / 4) :: octet (r % 4 * 64 + s) :: rest

/-- The text with up to `n` padding characters taken off its end, and how many there were. -/
def splitPadding (text : List Char) : List Char × Nat :=
  match text.reverse with
  | '=' :: '=' :: r => (r.reverse, 2)
  | '=' :: r => (r.reverse, 1)
  | r => (r.reverse, 0)

/-- Standard base64 with padding. -/
def encode (b : Bytes) : List Char :=
  let (text, missing) := groups standard b
  text ++ List.replicate missing '='

/-- Reads standard base64 with its padding. -/
def decode? (text : List Char) : Option Bytes := do
  let (body, padding) := splitPadding text
  if (body.length + padding) % 4 ≠ 0 then none
  else ofSextets? (← body.mapM standard.value?)

/-- URL-safe base64 without padding. -/
def UrlSafe.decode? (text : List Char) : Option Bytes := do
  ofSextets? (← text.mapM urlSafe.value?)

end Rim.Text.Base64
