import Rim.Cbor.Fields
import Rim.Proofs.Failure

/-!
# What the readers of the binary format fail with

Taking a value apart fails only as malformed, and a map is read as its fields are.

* `Value.toArray_shape` and others: a value that is not of the shape that is asked for.
* `decode_failsAs`, `Value.toArray_failsAs` and others: the same among what readers fail with.
* `Value.readMap_ends`, `Value.readItems_ends`: maps and arrays.
-/

namespace Rim.Cbor

open ErrorKind (reading)

theorem decode_failsAs (b : Bytes) : (decode b).FailsAs reading := by
  unfold decode
  split
  · trivial
  · exact .malformed

namespace Value

variable {α : Type} {P : α → Prop}

theorem toText_shape (what : String) (v : Value) : (v.toText what).FailsAs [.malformed] := by
  cases v with
  | text s => trivial
  | _ => exact .shape

theorem toText_failsAs (what : String) (v : Value) : (v.toText what).FailsAs reading :=
  (v.toText_shape what).ofShape

theorem toBytes_shape (what : String) (v : Value) : (v.toBytes what).FailsAs [.malformed] := by
  cases v with
  | bytes b => trivial
  | _ => exact .shape

theorem toBytes_failsAs (what : String) (v : Value) : (v.toBytes what).FailsAs reading :=
  (v.toBytes_shape what).ofShape

theorem toUInt64_shape (what : String) (v : Value) : (v.toUInt64 what).FailsAs [.malformed] := by
  cases v with
  | natural n => trivial
  | _ => exact .shape

theorem toUInt64_failsAs (what : String) (v : Value) : (v.toUInt64 what).FailsAs reading :=
  (v.toUInt64_shape what).ofShape

theorem toInt64_failsAs (what : String) (v : Value) : (v.toInt64 what).FailsAs reading := by
  unfold toInt64
  split
  · exact .ite trivial .malformed
  · exact .malformed

theorem toArray_shape (what : String) (v : Value) : (v.toArray what).FailsAs [.malformed] := by
  cases v with
  | array items => trivial
  | _ => exact .shape

theorem toArray_failsAs (what : String) (v : Value) : (v.toArray what).FailsAs reading :=
  (v.toArray_shape what).ofShape

theorem toPair_shape (what : String) (v : Value) : (v.toPair what).FailsAs [.malformed] := by
  have hitems : (v.toArrayOf what 2).FailsAs [.malformed] :=
    (v.toArray_shape what).bind fun _ _ => .ite trivial .shape
  refine hitems.bind fun items _ => ?_
  split
  · trivial
  · exact .shape

theorem toPair_failsAs (what : String) (v : Value) : (v.toPair what).FailsAs reading :=
  (v.toPair_shape what).ofShape

theorem untag_failsAs (what : String) (number : UInt64) (v : Value) :
    (v.untag what number).FailsAs reading := by
  cases v with
  | tag n body => exact .ite trivial .malformed
  | _ => exact .malformed

theorem toUri_failsAs (what : String) (v : Value) : (v.toUri what).FailsAs reading :=
  (v.untag_failsAs what uriTag).bind fun body _ => body.toText_failsAs what

theorem toEpoch_failsAs (what : String) (v : Value) : (v.toEpoch what).FailsAs reading :=
  (v.untag_failsAs what epochTag).bind fun body _ => body.toInt64_failsAs what

/-- **An array ends as its items do.** -/
theorem readItems_ends {read : Value → Result α} (h : ∀ v, (read v).Ends P reading) (what : String)
    (v : Value) :
    Result.Ends (fun xs => ∀ x ∈ xs, P x) reading (do (← v.toArray what).mapM read) :=
  (v.toArray_failsAs what).bind fun _ _ => .mapM fun x _ => h x

/-- **A map ends as the steps of its reading do.** -/
theorem readMap_ends {body : Taking α} (h : Unread.Ends P body) (what : String) (v : Value) :
    (v.readMap what body).Ends P reading := by
  refine Result.Ends.bind (P := fun _ => True) ?_ fun u _ => h.readAll _ u
  cases v with
  | map entries => trivial
  | _ => exact .malformed

end Value

end Rim.Cbor
