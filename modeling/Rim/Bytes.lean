/-!
# Byte strings

Byte strings are lists of octets, so that every reader below is a plain recursion on what is left
of its input.

* `Bytes.ofNatBE`, `Bytes.toNatBE`: big-endian numbers of a fixed width and back.
* `Bytes.ofNatLE`, `Bytes.toNatLE`: the same with the least significant octet first.
* `Bytes.ofText`, `Bytes.toText?`: the UTF-8 form of a text and its partial inverse.
-/

namespace Rim

/-- A string of octets. -/
abbrev Bytes := List UInt8

namespace Bytes

/-- The last `width` base-256 digits of `n`, most significant first. -/
def ofNatBE : Nat → Nat → Bytes
  | 0, _ => []
  | width + 1, n => ofNatBE width (n / 256) ++ [UInt8.ofNat n]

/-- The number whose base-256 digits, most significant first, are the octets. -/
def toNatBE (b : Bytes) : Nat := b.foldl (fun n x => n * 256 + x.toNat) 0

def ofText (s : String) : Bytes := s.toUTF8.data.toList

/-- The text whose UTF-8 octets these are, if they are well-formed UTF-8. -/
def toText? (b : Bytes) : Option String := String.fromUTF8? ⟨b.toArray⟩

/-- Lexicographic comparison; a proper initial part comes first. -/
def compare : Bytes → Bytes → Ordering
  | [], [] => .eq
  | [], _ :: _ => .lt
  | _ :: _, [] => .gt
  | x :: xs, y :: ys => (Ord.compare x.toNat y.toNat).then (compare xs ys)

/-- Splits off exactly `n` octets, if there are that many. -/
def splitAt? (n : Nat) (b : Bytes) : Option (Bytes × Bytes) :=
  if n ≤ b.length then some (b.take n, b.drop n) else none

/-- Parts of `size` octets each, the last one perhaps shorter. -/
def chunks (size : Nat) (b : Bytes) : List Bytes :=
  if b = [] ∨ size = 0 then [] else b.take size :: chunks size (b.drop size)
termination_by b.length
decreasing_by
  rename_i h
  simp only [not_or] at h
  have := List.length_pos_iff.2 h.1
  simp only [List.length_drop]
  omega

/-- The last `width` base-256 digits of `n`, least significant first. -/
def ofNatLE (width n : Nat) : Bytes := (ofNatBE width n).reverse

/-- The number whose base-256 digits, least significant first, are the octets. -/
def toNatLE (b : Bytes) : Nat := toNatBE b.reverse

@[simp] theorem ofNatBE_length (width n : Nat) : (ofNatBE width n).length = width := by
  induction width generalizing n with
  | zero => rfl
  | succ width ih => simp [ofNatBE, ih]

end Bytes

end Rim
