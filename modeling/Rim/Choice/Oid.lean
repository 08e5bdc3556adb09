import Rim.Cbor.Access
import Rim.Json.Access
import Rim.Text.Numeral
import Rim.Text.Split

/-!
# Object identifiers

An object identifier is held as its BER octets: base-128 numbers, most significant digit first, the
high bit set on all digits but a number's last. The first number holds the two leading arcs.

* `Oid.arcs`: the arcs of the octets, which have to be minimal, complete and below 2^64.
* `Oid.parse`, `Oid.toText`: dotted decimal notation.
-/

namespace Rim

/-- An object identifier as BER octets, which need not be valid. -/
structure Oid where
  ber : Bytes
deriving DecidableEq

namespace Oid

/-- The digits of `n` before its last, each with the high bit set; `fuel` digits at most. -/
def leadingDigits : (fuel n : Nat) → Bytes
  | 0, _ => []
  | fuel + 1, n =>
    if n = 0 then [] else leadingDigits fuel (n / 128) ++ [UInt8.ofNat (n % 128 + 128)]

/-- A number in base 128; ten digits hold any 64-bit number. -/
def base128 (n : Nat) : Bytes := leadingDigits 9 (n / 128) ++ [UInt8.ofNat (n % 128)]

/-- The numbers that octets write, from octet `i` on, with `n` read of a number that is `unfinished`
or not yet begun. -/
def numbersFrom (i n : Nat) (unfinished : Bool) : Bytes → Result (List Nat)
  | [] => if unfinished then .error (.invalid "OID" "truncated final arc") else .ok []
  | b :: r =>
    if n = 0 ∧ b = 0x80 then
      .error (.invalid "OID" ("non-minimal encoding at offset " ++ toString i))
    else if 2 ^ 64 ≤ n * 128 then .error (.invalid "OID" "arc overflows 64 bits")
    else
      let n := n * 128 + b.toNat % 128
      if b.toNat < 128 then do
        let rest ← numbersFrom (i + 1) 0 false r
        return n :: rest
      else numbersFrom (i + 1) n true r

/-- The two arcs that the first number holds. -/
def leadingArcs (n : Nat) : Nat × Nat :=
  if n < 40 then (0, n) else if n < 80 then (1, n - 40) else (2, n - 80)

/-- The arcs of an object identifier. -/
def arcs (o : Oid) : Result (List Nat) := do
  match ← numbersFrom 0 0 false o.ber with
  | [] => .error (.invalid "OID" "no arcs")
  | n :: rest => return (leadingArcs n).1 :: (leadingArcs n).2 :: rest

/-- The octets of arcs. -/
def berOfArcs (a b : Nat) (rest : List Nat) : Bytes :=
  base128 (a * 40 + b) ++ rest.flatMap base128

/-- The arcs that dotted decimal notation writes. -/
def parseArcs (text : String) : Result (List Nat) :=
  (Text.splitOn '.' text.toList).mapM fun arc =>
    match Text.Numeral.parse? arc with
    | some n => .ok n.toNat
    | none =>
      .error (.malformed "OID"
        ("bad arc " ++ Text.quote (String.ofList arc) ++ " in " ++ Text.quote text))

/-- The object identifier that dotted decimal notation writes. -/
def parse (text : String) : Result Oid := do
  match ← parseArcs text with
  | a :: b :: rest =>
    if 2 < a ∨ (a < 2 ∧ 39 < b) then
      .error (.malformed "OID" ("bad leading arcs in " ++ Text.quote text))
    else if 2 ^ 64 ≤ a * 40 + b then .error (.malformed "OID" "leading arcs overflow")
    else return ⟨berOfArcs a b rest⟩
  | _ => .error (.malformed "OID" ("expecting at least two arcs in " ++ Text.quote text))

/-- Dotted decimal notation of arcs. -/
def dotted (arcs : List Nat) : String :=
  String.ofList (Text.joinWith '.' (arcs.map Text.Numeral.ofNat))

/-- Dotted decimal notation, or a note that there is none. -/
def toText (o : Oid) : String :=
  match o.arcs with
  | .ok arcs => dotted arcs
  | .error _ => "<invalid OID>"

/-- The octets have to write arcs. -/
def validate (o : Oid) : Result Unit := do let _ ← o.arcs

def toCbor (o : Oid) : Cbor.Value := .bytes o.ber

def ofCbor (v : Cbor.Value) : Result Oid := do return ⟨← v.toBytes "OID"⟩

def toJson (o : Oid) : Json.Value := .string o.toText

def ofJson (v : Json.Value) : Result Oid := do parse (← v.toText "OID")

end Oid

end Rim
