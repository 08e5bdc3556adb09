import Rim.Cbor.Access
import Rim.Json.Access

/-!
# UUIDs

Sixteen octets, written as hexadecimal digits in groups of 8, 4, 4, 4 and 12. The top bits of the
ninth octet say which layout a UUID has; only one layout is valid here.

* `Uuid.parse`, `Uuid.toText`: the grouped form; reading takes digits of either case.
-/

namespace Rim

/-- A universally unique identifier. -/
structure Uuid where
  octets : Bytes
  length_octets : octets.length = 16
deriving DecidableEq

namespace Uuid

/-- The layouts of a UUID. -/
inductive Layout
  | ncs
  | rfc4122
  | microsoft
  | future
deriving DecidableEq

/-- The name of a layout in messages. -/
def Layout.name : Layout → String
  | ncs => "NCS"
  | rfc4122 => "RFC4122"
  | microsoft => "Microsoft"
  | future => "Future"

/-- The layout that the top bits of the ninth octet name. -/
def layout (u : Uuid) : Layout :=
  let x := (u.octets.get ⟨8, by have := u.length_octets; omega⟩).toNat
  if x < 0x80 then .ncs else if x < 0xc0 then .rfc4122 else if x < 0xe0 then .microsoft else .future

/-- The UUID of sixteen octets. -/
def ofBytes (b : Bytes) : Result Uuid :=
  if h : b.length = 16 then .ok ⟨b, h⟩
  else .error (.malformed "UUID" ("expecting 16 bytes, got " ++ toString b.length))

/-- The hexadecimal digits of a grouped form, if its hyphens stand where they have to. -/
def ungroup? (text : List Char) : Option (List Char) :=
  match text.drop 8, text.drop 13, text.drop 18, text.drop 23 with
  | '-' :: _, '-' :: _, '-' :: _, '-' :: last =>
    some (text.take 8 ++ (text.drop 9).take 4 ++ (text.drop 14).take 4 ++ (text.drop 19).take 4 ++
      last)
  | _, _, _, _ => none

/-- The UUID that a grouped form writes. -/
def parse (text : String) : Result Uuid :=
  if text.utf8ByteSize ≠ 36 then
    .error (.malformed "UUID" ("expecting 8-4-4-4-12 form, got " ++ Text.quote text))
  else
    match (ungroup? text.toList).bind Text.Hex.decode? with
    | some b =>
      if h : b.length = 16 then .ok ⟨b, h⟩ else .error (.malformed "UUID" "not 32 digits")
    | none => .error (.malformed "UUID" "not hexadecimal digits in groups")

/-- The grouped form of a UUID. -/
def toText (u : Uuid) : String :=
  let part (start size : Nat) : List Char := Text.Hex.encode ((u.octets.drop start).take size)
  String.ofList (part 0 4 ++ '-' :: part 4 2 ++ '-' :: part 6 2 ++ '-' :: part 8 2 ++
    '-' :: part 10 6)

/-- Only the layout of RFC 4122 is valid. -/
def validate (u : Uuid) : Result Unit :=
  if u.layout = .rfc4122 then .ok ()
  else .error (.invalid "UUID" ("expecting RFC4122 UUID, got " ++ u.layout.name ++ " instead"))

def toCbor (u : Uuid) : Cbor.Value := .bytes u.octets

def ofCbor (v : Cbor.Value) : Result Uuid := do ofBytes (← v.toBytes "UUID")

def toJson (u : Uuid) : Json.Value := .string u.toText

def ofJson (v : Json.Value) : Result Uuid := do parse (← v.toText "UUID")

end Uuid

end Rim
