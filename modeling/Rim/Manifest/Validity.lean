import Rim.Cbor.Fields
import Rim.Json.Members
import Rim.Sequence
import Rim.Time.Rfc3339

/-!
# Validity windows

A window of time with an end and perhaps a start, both at whole seconds. The binary format counts
seconds since the epoch and the text format writes timestamps.

* `Validity.contains`: whether an instant lies in the window.
-/

namespace Rim

open Time (Instant)

/-- A window of time, which need not be valid. -/
structure Validity where
  notBefore : Option Instant
  notAfter : Instant
deriving DecidableEq

namespace Validity

/-- A bound is a whole second. -/
def checkWhole (what : String) (t : Instant) : Result Unit :=
  if t.nanos = 0 then .ok ()
  else .error (.invalid what (t.display ++ " has a fractional second"))

/-- The bounds are whole seconds, and the start is not later than the end. -/
def validate (v : Validity) : Result Unit := do
  checkWhole "not-after" v.notAfter
  match v.notBefore with
  | none => return
  | some start =>
    checkWhole "not-before" start
    if start ≤ v.notAfter then return
    else .error (.invalid "validity" "not-before is later than not-after")

/-- The window up to an instant, its fraction dropped. -/
def upTo (notAfter : Instant) : Validity := ⟨none, notAfter.toSeconds⟩

/-- The window between two instants, their fractions dropped. -/
def between (notBefore notAfter : Instant) : Result Validity := do
  let v : Validity := ⟨some notBefore.toSeconds, notAfter.toSeconds⟩
  v.validate
  return v

/-- Whether an instant lies in the window. -/
def contains (v : Validity) (now : Instant) : Bool :=
  (match v.notBefore with
    | some start => decide (start ≤ now)
    | none => true) && decide (now ≤ v.notAfter)

/-- An instant has to lie in the window. -/
def checkAt (now : Instant) (v : Validity) : Result Unit :=
  if v.contains now then .ok ()
  else .error (.invalid "validity" (now.display ++ " is outside the validity window"))

def boundToCbor (t : Instant) : Cbor.Value := .epoch (Int64.ofInt t.seconds)

/-- Reads the binary form of a bound. -/
def boundOfCbor (what : String) (v : Cbor.Value) : Result Instant := do
  let seconds ← v.toEpoch what
  match Instant.ofSeconds? seconds.toInt with
  | some t => return t
  | none => .error (.malformed what ("epoch " ++ toString seconds.toInt ++ " out of range"))

def toCbor (v : Validity) : Cbor.Value :=
  .ofFields [(0, v.notBefore.map boundToCbor), (1, some (boundToCbor v.notAfter))]

def ofCbor (v : Cbor.Value) : Result Validity :=
  v.readMap "validity" do
    let notBefore ← Cbor.Fields.takeWith 0 (boundOfCbor "not-before")
    let notAfter ← Cbor.Fields.requireWith 1 "not-after" (boundOfCbor "not-after")
    return ⟨notBefore, notAfter⟩

def boundToJson (t : Instant) : Json.Value := .string t.rfc3339

/-- Reads the text form of a bound. -/
def boundOfJson (what : String) (v : Json.Value) : Result Instant := do
  let text ← v.toText what
  match Time.Rfc3339.parse? text with
  | some t => return t
  | none =>
    .error (.malformed what ("bad timestamp " ++ Text.quote text ++ ": not in RFC 3339 form"))

def toJson (v : Validity) : Json.Value :=
  .ofMemberList [("not-before", v.notBefore.map boundToJson),
    ("not-after", some (boundToJson v.notAfter))]

def ofJson (v : Json.Value) : Result Validity :=
  v.readObject "validity" do
    let notBefore ← Json.Remaining.takeWith "not-before" (boundOfJson "not-before")
    let notAfter ← Json.Remaining.requireWith "not-after" (boundOfJson "not-after")
    return ⟨notBefore, notAfter⟩

end Validity

end Rim
