import Rim.Manifest.Entity
import Rim.Manifest.Identifier
import Rim.Manifest.Locator
import Rim.Manifest.Meta
import Rim.Proofs.Choice.Failure

/-!
# What the parts of manifests fail with

Digests, entities, identifiers, locators, windows, profile identifiers and signers: what their readings
and their rules fail with. The readings do not know the rules, except that an identifier of a fixed
length is malformed if it has another one.

* `Digest.ofCbor_failsAs`, `Digest.validate_failsAs`, and the same for the other parts.
* `Meta.ofCbor_failsAs`, `Meta.validate_failsAs`: signer metadata.
-/

namespace Rim

open Cbor (Value)
open ErrorKind (reading rules)

/-! ### Digests -/

namespace Digest

theorem ofCbor_failsAs (v : Value) : (Digest.ofCbor v).FailsAs reading := by
  refine (v.toPair_failsAs _).bind fun parts _ => ?_
  refine (parts.1.toUInt64_failsAs _).bind fun _ _ => ?_
  exact (parts.2.toBytes_failsAs _).bind fun _ _ => trivial

theorem validate_failsAs (d : Digest) : d.validate.FailsAs [.invalid] := by
  refine .ite .invalid ?_
  split
  · exact .ite trivial .invalid
  · trivial

theorem validateAll_failsAs (ds : List Digest) : (validateAll ds).FailsAs [.invalid] :=
  .ite .invalid (checkEach_failsAs _ fun d _ => d.validate_failsAs)

end Digest

/-! ### Entities -/

namespace Entity

variable {ρ : Type}

theorem validate_failsAs (e : Entity ρ) : e.validate.FailsAs [.invalid] := by
  refine .ite .invalid ?_
  exact .ite .invalid (.ite .invalid trivial)

theorem validateAll_failsAs (es : List (Entity ρ)) : (validateAll es).FailsAs [.invalid] :=
  checkEach_failsAs _ fun e _ => e.validate_failsAs

variable [RoleSet ρ]

/-- A number that is no role is malformed. -/
theorem roleOfCbor_failsAs (v : Value) : (roleOfCbor v : Result ρ).FailsAs reading := by
  refine (v.toUInt64_failsAs _).bind fun n _ => ?_
  split
  · trivial
  · exact .malformed

theorem ofCbor_failsAs (v : Value) : (Entity.ofCbor v : Result (Entity ρ)).FailsAs reading := by
  refine Value.readMap_ends ?_ _ v
  refine .bind (.requireWith (Value.toText_failsAs _) _ _) fun _ _ => ?_
  refine .bind (.takeWith (Value.toUri_failsAs _) _) fun _ _ => ?_
  exact .bind (.requireWith (Value.readItems_ends roleOfCbor_failsAs _) _ _) fun _ _ => .pure trivial

end Entity

/-! ### Identifiers -/

namespace Identifier

theorem ofCbor_failsAs (v : Value) : (Identifier.ofCbor v).FailsAs reading := by
  cases v with
  | text s => trivial
  | bytes b => exact (Uuid.ofBytes_failsAs b).map fun _ _ => trivial
  | _ => exact .malformed

/-- A text that is empty has an error of its own. -/
theorem validate_failsAs (i : Identifier) : i.validate.FailsAs rules := by
  cases i with
  | text s =>
    have hempty : ErrorKind.emptyIdentifier ∈ rules := by decide
    exact .ite hempty trivial
  | uuid u => exact u.validate_failsAs.rules

end Identifier

/-! ### Locators -/

namespace Locator

theorem ofCbor_failsAs (v : Value) : (Locator.ofCbor v).FailsAs reading := by
  refine Value.readMap_ends ?_ _ v
  refine .bind (.requireWith (Value.toUri_failsAs _) _ _) fun _ _ => ?_
  exact .bind (.takeWith Digest.ofCbor_failsAs _) fun _ _ => .pure trivial

theorem validate_failsAs (l : Locator) : l.validate.FailsAs [.invalid] := by
  refine .ite .invalid ?_
  exact (checkOptional_failsAs fun d _ => d.validate_failsAs).context _

end Locator

/-! ### Windows -/

namespace Validity

theorem boundOfCbor_failsAs (what : String) (v : Value) :
    (boundOfCbor what v).FailsAs reading := by
  refine (v.toEpoch_failsAs _).bind fun seconds _ => ?_
  split
  · trivial
  · exact .malformed

theorem ofCbor_failsAs (v : Value) : (Validity.ofCbor v).FailsAs reading := by
  refine Value.readMap_ends ?_ _ v
  refine .bind (.takeWith (boundOfCbor_failsAs _) _) fun _ _ => ?_
  exact .bind (.requireWith (boundOfCbor_failsAs _) _ _) fun _ _ => .pure trivial

theorem validate_failsAs (v : Validity) : v.validate.FailsAs [.invalid] := by
  have hwhole (what : String) (t : Time.Instant) : (checkWhole what t).FailsAs [.invalid] :=
    .ite trivial .invalid
  refine (hwhole _ _).bind fun _ _ => ?_
  split
  · trivial
  · exact (hwhole _ _).bind fun _ _ => .ite trivial .invalid

end Validity

/-! ### Profile identifiers -/

namespace ProfileId

theorem ofCbor_failsAs (v : Value) : (ProfileId.ofCbor v).FailsAs reading := by
  cases v with
  | tag n body =>
    refine .ite ((body.toText_failsAs _).map fun _ _ => trivial) ?_
    exact .ite ((Oid.ofCbor_failsAs body).map fun _ _ => trivial) .malformed
  | _ => exact .malformed

theorem validate_failsAs (i : ProfileId) : i.validate.FailsAs [.invalid] := by
  cases i with
  | uri text => exact .ite .invalid (.ite .invalid trivial)
  | oid o => exact o.validate_failsAs

end ProfileId

/-! ### Signer metadata -/

namespace SignerInfo

theorem ofCbor_failsAs (v : Value) : (SignerInfo.ofCbor v).FailsAs reading := by
  refine Value.readMap_ends ?_ _ v
  refine .bind (.requireWith (Value.toText_failsAs _) _ _) fun _ _ => ?_
  exact .bind (.takeWith (Value.toUri_failsAs _) _) fun _ _ => .pure trivial

theorem validate_failsAs (s : SignerInfo) : s.validate.FailsAs [.invalid] :=
  .ite .invalid (.ite .invalid trivial)

end SignerInfo

namespace Meta

theorem ofCbor_failsAs (v : Value) : (Meta.ofCbor v).FailsAs reading := by
  refine Value.readMap_ends ?_ _ v
  refine .bind (.requireWith SignerInfo.ofCbor_failsAs _ _) fun _ _ => ?_
  exact .bind (.takeWith Validity.ofCbor_failsAs _) fun _ _ => .pure trivial

theorem validate_failsAs (m : Meta) : m.validate.FailsAs [.invalid] := by
  refine (m.signer.validate_failsAs.context _).bind fun _ _ => ?_
  exact (checkOptional_failsAs fun v _ => v.validate_failsAs).context _

end Meta

end Rim
