import Rim.Proofs.Cbor.Failure
import Rim.Proofs.Choice.Lossless

/-!
# What choices fail with

A choice that cannot be read is malformed or, where its own rule is broken, invalid; a rule is broken in
no other way. A registry of kinds adds the tags that it does not know.

* `Choice.validate_failsAs`: the rules of the kinds.
* `Kind.ofCbor_failsAs`: the readings of the kinds.
* `ChoiceRegistry.ofCbor_failsAs`: the reading of tagged values.
-/

namespace Rim

open Cbor (Value)
open ErrorKind (reading)

/-! ### Rules -/

theorem Uuid.validate_failsAs (u : Uuid) : u.validate.FailsAs [.invalid] :=
  .ite trivial .invalid

namespace Oid

/-- Octets that write no numbers are invalid, wherever the reading of them stands. -/
theorem numbersFrom_failsAs (i n : Nat) (unfinished : Bool) (b : Bytes) :
    (numbersFrom i n unfinished b).FailsAs [.invalid] := by
  induction b generalizing i n unfinished with
  | nil => exact .ite .invalid trivial
  | cons b r ih =>
    rw [numbersFrom]
    refine .ite .invalid ?_
    refine .ite .invalid ?_
    -- an octet ends its number or leaves it unfinished
    refine .ite ?_ (ih _ _ _)
    exact (ih _ _ _).bind fun _ _ => trivial

theorem arcs_failsAs (o : Oid) : o.arcs.FailsAs [.invalid] := by
  refine (numbersFrom_failsAs 0 0 false o.ber).bind fun numbers _ => ?_
  cases numbers with
  | nil => exact .invalid
  | cons n rest => trivial

theorem validate_failsAs (o : Oid) : o.validate.FailsAs [.invalid] :=
  (arcs_failsAs o).bind fun _ _ => trivial

end Oid

theorem Ueid.validate_failsAs (u : Ueid) : u.validate.FailsAs [.invalid] := by
  unfold validate
  split
  · exact .invalid
  · split
    · exact .invalid
    · exact .ite trivial .invalid

theorem PublicKey.validate_failsAs (k : PublicKey) : k.validate.FailsAs [.invalid] := by
  have hder : k.der.FailsAs [.invalid] := by
    unfold der
    split
    · exact .invalid
    · split
      · exact .invalid
      · exact .invalid
      · trivial
  exact hder.bind fun _ _ => trivial

theorem MaskedValue.validate_failsAs (x : MaskedValue) : x.validate.FailsAs [.invalid] :=
  .ite .invalid (.ite .invalid trivial)

theorem ReferenceValueId.validate_failsAs (i : ReferenceValueId) : i.validate.FailsAs [.invalid] :=
  .ite .invalid (.ite .invalid trivial)

/-- **The rules of the kinds refuse values as invalid.** -/
theorem Choice.validate_failsAs (x : Choice) : x.validate.FailsAs [.invalid] := by
  cases x with
  | uuid u => exact u.validate_failsAs
  | oid o => exact o.validate_failsAs
  | ueid u => exact u.validate_failsAs
  | int | svn | minSvn => trivial
  | publicKey k => exact k.validate_failsAs
  | bytes b => exact .ite .invalid trivial
  | masked x => exact x.validate_failsAs
  | implementationId => trivial
  | referenceValueId i => exact i.validate_failsAs

/-! ### Readings -/

theorem Uuid.ofBytes_failsAs (b : Bytes) : (Uuid.ofBytes b).FailsAs reading := by
  unfold ofBytes
  split
  · trivial
  · exact .malformed

theorem Uuid.ofCbor_failsAs (v : Value) : (Uuid.ofCbor v).FailsAs reading :=
  (v.toBytes_failsAs _).bind fun b _ => Uuid.ofBytes_failsAs b

theorem Oid.ofCbor_failsAs (v : Value) : (Oid.ofCbor v).FailsAs reading :=
  (v.toBytes_failsAs _).bind fun _ _ => trivial

theorem Ueid.ofCbor_failsAs (v : Value) : (Ueid.ofCbor v).FailsAs reading :=
  (v.toBytes_failsAs _).bind fun _ _ => trivial

theorem PublicKey.ofCbor_failsAs (v : Value) : (PublicKey.ofCbor v).FailsAs reading :=
  (v.toText_failsAs _).bind fun _ _ => trivial

theorem MaskedValue.ofCbor_failsAs (v : Value) : (MaskedValue.ofCbor v).FailsAs reading := by
  refine (v.toPair_failsAs _).bind fun parts _ => ?_
  refine (parts.1.toBytes_failsAs _).bind fun _ _ => ?_
  exact (parts.2.toBytes_failsAs _).bind fun _ _ => trivial

theorem ImplementationId.ofCbor_failsAs (v : Value) :
    (ImplementationId.ofCbor v).FailsAs reading := by
  refine (v.toBytes_failsAs _).bind fun b _ => ?_
  unfold ofBytes
  split
  · trivial
  · exact Result.Ends.invalid.reading

theorem ReferenceValueId.ofCbor_failsAs (v : Value) :
    (ReferenceValueId.ofCbor v).FailsAs reading := by
  refine Value.readMap_ends ?_ _ v
  refine .bind (.takeWith (Value.toText_failsAs _) _) fun _ _ => ?_
  refine .bind (.takeWith (Value.toText_failsAs _) _) fun _ _ => ?_
  exact .bind (.requireWith (Value.toBytes_failsAs _) _ _) fun _ _ => .pure trivial

/-- What stands under the tag of a kind is malformed or invalid where it cannot be read. -/
theorem Kind.ofCbor_failsAs (k : Kind) (v : Value) : (k.ofCbor v).FailsAs reading := by
  cases k with
  | uuid => exact (Uuid.ofCbor_failsAs v).map fun _ _ => trivial
  | oid => exact (Oid.ofCbor_failsAs v).map fun _ _ => trivial
  | ueid => exact (Ueid.ofCbor_failsAs v).map fun _ _ => trivial
  | int | svn | minSvn => exact (v.toUInt64_failsAs _).map fun _ _ => trivial
  | publicKey => exact (PublicKey.ofCbor_failsAs v).map fun _ _ => trivial
  | bytes => exact (v.toBytes_failsAs _).map fun _ _ => trivial
  | masked => exact (MaskedValue.ofCbor_failsAs v).map fun _ _ => trivial
  | implementationId => exact (ImplementationId.ofCbor_failsAs v).map fun _ _ => trivial
  | referenceValueId => exact (ReferenceValueId.ofCbor_failsAs v).map fun _ _ => trivial

namespace ChoiceRegistry

variable {r : ChoiceRegistry}

theorem checked_failsAs (x : Choice) : (Registry.checked x).FailsAs reading :=
  ((x.validate_failsAs.reading).context _).bind fun _ _ => trivial

/-- **A tagged value that is refused** has an unknown tag, or the reading or the rule of its kind
refuses it. -/
theorem ofCbor_failsAs (hr : r.Consistent) (ho : r.Owned) (v : Value) :
    (r.ofCbor v).FailsAs reading := by
  have htag (n : UInt64) :
      (r.readerOfTag n).Ends (fun reader => ∀ body, (reader.ofCbor body).FailsAs reading) reading := by
    cases h : r.readerOfTag n with
    | ok reader =>
      obtain ⟨k, -, rfl⟩ := readerOfTag_eq_ok hr ho h
      exact k.ofCbor_failsAs
    | error e =>
      unfold Registry.readerOfTag at h
      split at h
      · cases h
      · cases h
        exact (by decide : ErrorKind.unknownTypeChoice ∈ reading)
  cases v with
  | tag n body =>
    have hread : (r.readTagged n body).FailsAs reading := (htag n).bind fun _ h => h body
    exact hread.bind fun x _ => checked_failsAs x
  | _ => exact .malformed

end ChoiceRegistry

end Rim
