import Rim.Cbor.Value

/-!
# Reading the binary format

Any head form, indefinite lengths and repeated map keys are read; what the data model has no value
for is refused. A reading is a function of what is left of the input. The depth of nesting is
limited, and a reader of one level less is what reads the parts of an array, map or tag.

* `item`: reads one value, entries as written.
* `decode?`: reads a whole input as one value, maps in key order.
-/

namespace Rim.Cbor

/-- A reading of the front of the input: the thing read and what is left. -/
abbrev Reading (α : Type) := Bytes → Option (α × Bytes)

/-- What a reader accepts beyond the format's core. -/
structure Dialect where
  /-- The levels of arrays, maps and tags around a scalar. -/
  levels : Nat
  /-- Whether each chunk of a text of indefinite length is well-formed UTF-8 by itself. -/
  wholeChunks : Bool
  /-- Whether a chunk of a string may be a string of indefinite length itself. -/
  nestedChunks : Bool
  /-- Whether a simple value may have a head of two octets. -/
  longSimples : Bool

/-- The reading of documents. -/
def documents : Dialect := ⟨127, false, false, false⟩

namespace Reading

/-- The same reading so many times in a row. -/
def times {α : Type} (p : Reading α) : Nat → Reading (List α)
  | 0, r => some ([], r)
  | n + 1, r => do
    let (x, r) ← p r
    let (xs, r) ← times p n r
    return (x :: xs, r)

/-- The same reading until the break octet, at most `fuel` octets and readings away. -/
def untilBreak {α : Type} (p : Reading α) : (fuel : Nat) → Reading (List α)
  | 0, _ => none
  | _ + 1, 0xff :: r => some ([], r)
  | fuel + 1, r => do
    let (x, r) ← p r
    let (xs, r) ← untilBreak p fuel r
    return (x :: xs, r)

/-- A reading repeated as often as a count says, or until the break octet. -/
def repeated {α : Type} (p : Reading α) : Option Nat → Reading (List α)
  | some n, r => times p n r
  | none, r => untilBreak p r.length r

/-- Two readings in a row. -/
def pair {α β : Type} (p : Reading α) (q : Reading β) : Reading (α × β) := fun r => do
  let (x, r) ← p r
  let (y, r) ← q r
  return ((x, y), r)

end Reading

/-- The argument of a head, or `none` for an indefinite length. -/
def argument (info : Nat) (r : Bytes) : Option (Option Nat × Bytes) :=
  if info < 24 then some (some info, r)
  else if info < 28 then do
    let (n, r) ← Bytes.splitAt? (2 ^ (info - 24)) r
    return (some (Bytes.toNatBE n), r)
  else if info = 31 then some (none, r)
  else none

/-- The major type, low bits and argument of a head. -/
def initial : Reading (Nat × Nat × Option Nat)
  | [] => none
  | b :: r => do
    let (arg, r) ← argument (b.toNat % 32) r
    return ((b.toNat / 32, b.toNat % 32, arg), r)

/-- The chunks of a string up to the break octet that ends it, `depth` strings inside it being open
besides itself; at most `fuel` heads are read. -/
def chunks (d : Dialect) (major : Nat) : (fuel depth : Nat) → Reading (List Bytes)
  | 0, _, _ => none
  | _ + 1, 0, 0xff :: r => some ([], r)
  | fuel + 1, depth + 1, 0xff :: r => chunks d major fuel depth r
  | fuel + 1, depth, r => do
    match ← initial r with
    | ((m, _, some n), r) =>
      -- every chunk is of the string's own major type
      if m = major then
        let (b, r) ← Bytes.splitAt? n r
        let (bs, r) ← chunks d major fuel depth r
        return (b :: bs, r)
      else none
    | ((m, _, none), r) =>
      if m = major ∧ d.nestedChunks then chunks d major fuel (depth + 1) r else none

/-- The content of a string: of a definite length, or chunks up to the break octet. -/
def content (d : Dialect) (major : Nat) : Option Nat → Reading (List Bytes)
  | some n, r => do
    let (b, r) ← Bytes.splitAt? n r
    return ([b], r)
  | none, r => chunks d major r.length 0 r

/-- The text whose octets come in chunks. -/
def textOfChunks (d : Dialect) (chunks : List Bytes) : Option String := do
  if d.wholeChunks && !chunks.all fun c => (Bytes.toText? c).isSome then none
  else Bytes.toText? chunks.flatten

/-- The value of a simple value's number. -/
def simple? (number : Nat) : Option Value :=
  match number with
  | 20 => some (.bool false)
  | 21 => some (.bool true)
  | 22 | 23 => some .null
  | _ => none

/-- The value of a head of major type 7. -/
def simpleOrFloat? (d : Dialect) (info arg : Nat) : Option Value :=
  match info with
  | 24 => if d.longSimples then simple? arg else none
  | 25 => some (.float (Number.binary16.widen arg))
  | 26 => some (.float (Number.binary32.widen arg))
  | 27 => some (.float (UInt64.ofNat arg))
  | _ => simple? info

/-- Reads one value whose parts `inner` reads; without it the value has to be a scalar. -/
def itemOf (d : Dialect) (inner : Option (Reading Value)) : Reading Value := fun r => do
  match ← initial r with
  | ((0, _, some n), r) => return (.natural (UInt64.ofNat n), r)
  | ((1, _, some n), r) => return (.negative (UInt64.ofNat n), r)
  | ((2, _, arg), r) => do
    let (chunks, r) ← content d 2 arg r
    return (.bytes chunks.flatten, r)
  | ((3, _, arg), r) => do
    let (chunks, r) ← content d 3 arg r
    return (.text (← textOfChunks d chunks), r)
  | ((4, _, arg), r) => do
    let (items, r) ← (← inner).repeated arg r
    return (.array items, r)
  | ((5, _, arg), r) => do
    let p ← inner
    let (entries, r) ← (p.pair p).repeated arg r
    return (.map entries, r)
  | ((6, _, some n), r) => do
    let (body, r) ← (← inner) r
    return (.tag (UInt64.ofNat n) body, r)
  | ((7, info, some n), r) => return (← simpleOrFloat? d info n, r)
  | _ => none

/-- Reads one value with at most so many levels of nesting. -/
def item (d : Dialect) : (levels : Nat) → Reading Value
  | 0 => itemOf d none
  | levels + 1 => itemOf d (some (item d levels))

/-- Reads the whole input as one value, with its map entries as they are written. -/
def parse? (d : Dialect) (input : Bytes) : Option Value :=
  match item d d.levels input with
  | some (v, []) => some v
  | _ => none

/-- Reads the whole input as one value, with every map in key order. -/
def decode? (input : Bytes) : Option Value := (parse? documents input).map Value.normal

end Rim.Cbor
