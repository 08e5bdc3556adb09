import Rim.Choice.Registry
import Rim.Proofs.Catalogue
import Rim.Proofs.Cbor.Fields

/-!
# Type choices in the binary format

What stands under the tag of a choice is read back by the reading of its kind, valid or not. So a
registry that holds the kind reads a valid choice back.

* `Kind.ofCbor_body`: the reading of a kind undoes the writing of its values.
* `ChoiceRegistry.ofCbor_toCbor`: a registry reads a valid choice of a kind that it holds.
* `Choice.canonical_toCbor`: what is written is canonical.
-/

namespace Rim

open Cbor Unread

theorem Uuid.ofBytes_octets (u : Uuid) : Uuid.ofBytes u.octets = .ok u := dif_pos u.length_octets

theorem ImplementationId.ofBytes_octets (i : ImplementationId) :
    ImplementationId.ofBytes i.octets = .ok i := dif_pos i.length_octets

theorem ReferenceValueId.ofCbor_toCbor (i : ReferenceValueId) :
    ReferenceValueId.ofCbor i.toCbor = .ok i := by
  refine Value.readMap_ofFields [1, 4, 5] rfl (by decide) ?_
  refine .bind (.takeWith fun _ _ => rfl) ?_
  refine .bind (.takeWith fun _ _ => rfl) ?_
  exact .bind (.requireWith rfl) (.pure _ _)

theorem ReferenceValueId.canonical_toCbor (i : ReferenceValueId) : i.toCbor.Canonical 1 :=
  .ofFields (.map .text (.map .text (.some (.bytes _) .nil)))

namespace Choice

/-- **The reading of a kind undoes the writing of its values.** -/
theorem ofCbor_body (x : Choice) : x.kind.ofCbor x.body = .ok x := by
  cases x with
  | uuid u =>
    show Choice.uuid <$> Uuid.ofBytes u.octets = _
    rw [u.ofBytes_octets]
    rfl
  | implementationId i =>
    show Choice.implementationId <$> ImplementationId.ofBytes i.octets = _
    rw [i.ofBytes_octets]
    rfl
  | referenceValueId i =>
    show Choice.referenceValueId <$> ReferenceValueId.ofCbor i.toCbor = _
    rw [i.ofCbor_toCbor]
    rfl
  | oid | ueid | int | svn | minSvn | publicKey | bytes | masked => rfl

theorem canonical_body (x : Choice) : x.body.Canonical 1 := by
  cases x with
  | referenceValueId i => exact i.canonical_toCbor
  | masked x =>
    refine .array ?_
    intro v hv
    rcases List.mem_cons.1 hv with rfl | hv
    · exact .bytes _
    · rw [List.mem_singleton.1 hv]
      exact .bytes _
  | uuid | oid | ueid | bytes | implementationId => exact .bytes _
  | int | svn | minSvn => exact .natural _
  | publicKey => exact .text _

theorem canonical_toCbor (x : Choice) : x.toCbor.Canonical 2 := .tag _ x.canonical_body

end Choice

namespace Registry

variable {κ χ : Type} [Checkable χ] {r : Registry κ χ} {x y : χ}

/-- A value that is valid stays as it is. -/
theorem checked_eq_ok : checked x = .ok y ↔ Checkable.validate x = .ok () ∧ x = y := by
  unfold checked
  rw [Result.check_eq_ok, Result.context_eq_ok, Result.pure_eq_ok]

/-- What is read from the binary format is valid. -/
theorem validate_of_ofCbor {v : Cbor.Value} (h : r.ofCbor v = .ok x) :
    Checkable.validate x = .ok () := by
  cases v with
  | tag n body =>
    obtain ⟨y, -, h⟩ := Result.bind_eq_ok.1 h
    obtain ⟨hv, rfl⟩ := checked_eq_ok.1 h
    exact hv
  | _ => cases h

/-- **What a held kind reads under its tag** is accepted if it is valid. -/
theorem ofCbor_of_holds [DecidableEq κ] [KindFamily κ χ] {k : κ} {body : Cbor.Value}
    (h : r.Consistent) (hk : r.holds k) (hread : (KindFamily.reader k).ofCbor body = .ok x)
    (hv : Checkable.validate x = .ok ()) : r.ofCbor (.tag (KindFamily.tag k) body) = .ok x := by
  have ht : r.readTagged (KindFamily.tag k) body = .ok x := by
    rw [readTagged, readerOfTag_of_holds h hk]
    exact hread
  show (do checked (← r.readTagged (KindFamily.tag k) body) : Result χ) = _
  rw [ht]
  exact checked_eq_ok.2 ⟨hv, rfl⟩

end Registry

namespace ChoiceRegistry

variable {r : ChoiceRegistry} {x : Choice}

/-- **A registry reads a valid choice back** if it holds the kind. -/
theorem ofCbor_toCbor (hr : r.Consistent) (hk : r.holds x.kind) (hv : x.validate = .ok ()) :
    r.ofCbor x.toCbor = .ok x :=
  Registry.ofCbor_of_holds hr hk x.ofCbor_body hv

end ChoiceRegistry

end Rim
