import Rim.Json.Parser

/-!
# Reading over values

A value that nobody asks for only has to follow the grammar: the depth of nesting, the size of
numbers and the pairing of surrogates do not matter.

* `skip`: reads over one value.
-/

namespace Rim.Json

open Text (Reading)

/-- Reads over the rest of a string and its closing quote. -/
def skipStringBody : Reading Unit
  | [] => none
  | '"' :: r => some ((), r)
  | '\\' :: 'u' :: a :: b :: c :: d :: r => do
    let _ ← codeUnit? a b c d
    skipStringBody r
  | '\\' :: e :: r => do
    let _ ← shortEscape? e
    skipStringBody r
  | c :: r => if c.toNat < 0x20 ∨ c = '\\' then none else skipStringBody r

/-- Reads over a string from its opening quote on. -/
def skipString : Reading Unit
  | '"' :: r => skipStringBody r
  | _ => none

/-- Reads over a number. -/
def skipNumber : Reading Unit := fun s => do
  let s := match s with
    | '-' :: r => r
    | r => r
  let (_, s) ← integerDigits s
  let (_, s) ← fractionDigits s
  let (_, s) ← exponentPart s
  return ((), s)

/-- Reads over a member of an object. -/
def skipMember (p : Reading Unit) : Reading Unit := fun s => do
  let (_, s) ← skipString (skipBlanks s)
  match skipBlanks s with
  | ':' :: r => p r
  | _ => none

/-- Reads over one value whose parts `inner` reads over. -/
def skipOf (inner : Reading Unit) : Reading Unit := fun s =>
  match skipBlanks s with
  | 'n' :: 'u' :: 'l' :: 'l' :: r => some ((), r)
  | 't' :: 'r' :: 'u' :: 'e' :: r => some ((), r)
  | 'f' :: 'a' :: 'l' :: 's' :: 'e' :: r => some ((), r)
  | '"' :: r => skipStringBody r
  | '[' :: r => do
    let (_, r) ← enclosed ']' inner r
    return ((), r)
  | '\x7b' :: r => do
    let (_, r) ← enclosed '\x7d' (skipMember inner) r
    return ((), r)
  | r => skipNumber r

/-- Reads over one value of at most so many levels. -/
def skipWithin : (levels : Nat) → Reading Unit
  | 0 => fun _ => none
  | levels + 1 => skipOf (skipWithin levels)

/-- Reads over one value; each level of it takes a character. -/
def skip : Reading Unit := fun s => skipWithin (s.length + 1) s

end Rim.Json
