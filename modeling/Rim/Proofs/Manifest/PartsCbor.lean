import Rim.Manifest.Locator
import Rim.Manifest.Entity
import Rim.Manifest.Identifier
import Rim.Manifest.Meta
import Rim.Proofs.Choice.Cbor

/-!
# The parts of manifests in the binary format

Each part of a manifest that does not depend on what a catalogue knows is read back from its binary
form. Only the bounds of a window have a condition: they have to be whole seconds.

* `Identifier.ofCbor_toCbor`, `Digest.ofCbor_toCbor`, `Locator.ofCbor_toCbor`: no condition.
* `Entity.ofCbor_toCbor`: for both sets of roles.
* `Validity.ofCbor_toCbor`, `Meta.ofCbor_toCbor`: where the window is valid.
-/

namespace Rim

open Cbor Unread

/-! ### Identifiers and digests -/

theorem Identifier.ofCbor_toCbor (i : Identifier) : Identifier.ofCbor i.toCbor = .ok i := by
  cases i with
  | text s => rfl
  | uuid u =>
    show Identifier.uuid <$> Uuid.ofBytes u.octets = _
    rw [u.ofBytes_octets]
    rfl

theorem Identifier.canonical_toCbor {levels : Nat} (i : Identifier) :
    i.toCbor.Canonical levels := by
  cases i with
  | text s => exact .text s
  | uuid u => exact .bytes _

theorem Digest.ofCbor_toCbor (d : Digest) : Digest.ofCbor d.toCbor = .ok d := rfl

theorem Digest.canonical_toCbor (d : Digest) : d.toCbor.Canonical 1 := by
  refine .array ?_
  intro v hv
  rcases List.mem_cons.1 hv with rfl | hv
  · exact .natural _
  · rw [List.mem_singleton.1 hv]
    exact .bytes _

theorem ProfileId.ofCbor_toCbor (i : ProfileId) : ProfileId.ofCbor i.toCbor = .ok i := by
  cases i <;> rfl

theorem ProfileId.canonical_toCbor (i : ProfileId) : i.toCbor.Canonical 1 := by
  cases i with
  | uri s => exact .tag _ (.text s)
  | oid o => exact .tag _ (.bytes _)

/-! ### Locators -/

theorem Locator.ofCbor_toCbor (l : Locator) : Locator.ofCbor l.toCbor = .ok l := by
  refine Value.readMap_ofFields [0, 1] rfl (by decide) ?_
  refine .bind (.requireWith (Value.toUri_uri _ _)) ?_
  exact .bind (.takeWith fun d _ => d.ofCbor_toCbor) (.pure _ _)

theorem Locator.canonical_toCbor (l : Locator) : l.toCbor.Canonical 2 :=
  .ofFields (.some (Value.Canonical.uri _) (.map Digest.canonical_toCbor .nil))

/-! ### Entities -/

/-- A role set in which number and name tell the role. -/
class LawfulRoleSet (ρ : Type) [RoleSet ρ] : Prop where
  ofNumber?_number (r : ρ) : RoleSet.ofNumber? (RoleSet.number r) = some r
  ofName?_name (r : ρ) : RoleSet.ofName? (RoleSet.name r) = some r

instance : LawfulRoleSet ManifestRole where
  ofNumber?_number r := by cases r; decide
  ofName?_name r := by cases r; decide

instance : LawfulRoleSet TagRole where
  ofNumber?_number r := by cases r <;> decide
  ofName?_name r := by cases r <;> decide

namespace Entity

variable {ρ : Type} [RoleSet ρ]

theorem canonical_toCbor (e : Entity ρ) : e.toCbor.Canonical 2 :=
  .ofFields (.some (.text _) (.map Value.Canonical.uri
    (.some (.array_map (fun _ => .natural _) _) .nil)))

variable [LawfulRoleSet ρ]

theorem roleOfCbor_number (r : ρ) : roleOfCbor (.natural (RoleSet.number r)) = .ok r := by
  simp only [roleOfCbor, Value.toUInt64, Result.ok_bind, LawfulRoleSet.ofNumber?_number]
  rfl

theorem ofCbor_toCbor (e : Entity ρ) : ofCbor e.toCbor = .ok e := by
  refine Value.readMap_ofFields [0, 1, 2] rfl (by decide) ?_
  refine .bind (.requireWith rfl) ?_
  refine .bind (.takeWith fun s _ => Value.toUri_uri _ s) ?_
  exact .bind (.requireWith (mapM_map fun r _ => roleOfCbor_number r)) (.pure _ _)

end Entity

/-! ### Windows -/

namespace Validity

theorem boundOfCbor_boundToCbor {what : String} {t : Time.Instant} (h : t.nanos = 0) :
    boundOfCbor what (boundToCbor t) = .ok t := by
  have hs := t.represented
  unfold Time.Instant.firstSecond Time.Instant.lastSecond at hs
  have hn : (Int64.ofInt t.seconds).toInt = t.seconds :=
    Int64.toInt_ofInt_of_le (by omega) (by omega)
  have ht : Time.Instant.ofSeconds? t.seconds = some t := by
    rw [Time.Instant.ofSeconds?, Time.Instant.of?, dif_pos t.represented, ← h]
  rw [boundOfCbor, boundToCbor, Value.toEpoch_epoch, Result.ok_bind, hn, ht]
  rfl

/-- The bounds of a valid window are whole seconds. -/
theorem whole_of_validate {v : Validity} (h : v.validate = .ok ()) :
    v.notAfter.nanos = 0 ∧ ∀ t ∈ v.notBefore, t.nanos = 0 := by
  have hw {what : String} {t : Time.Instant} (h : checkWhole what t = .ok ()) : t.nanos = 0 :=
    (Result.demand_eq_ok.1 h).1
  obtain ⟨ha, hb⟩ := Result.check_eq_ok.1 h
  refine ⟨hw ha, ?_⟩
  intro t ht
  rw [Option.mem_def.1 ht] at hb
  exact hw (Result.check_eq_ok.1 hb).1

theorem ofCbor_toCbor {v : Validity} (h : v.validate = .ok ()) : ofCbor v.toCbor = .ok v := by
  obtain ⟨ha, hb⟩ := whole_of_validate h
  refine Value.readMap_ofFields [0, 1] rfl (by decide) ?_
  refine .bind (.takeWith fun t ht => boundOfCbor_boundToCbor (hb t ht)) ?_
  exact .bind (.requireWith (boundOfCbor_boundToCbor ha)) (.pure _ _)

theorem canonical_toCbor (v : Validity) : v.toCbor.Canonical 2 :=
  .ofFields (.map (fun _ => .epoch _) (.some (.epoch _) .nil))

end Validity

/-! ### Metadata -/

theorem SignerInfo.ofCbor_toCbor (s : SignerInfo) : SignerInfo.ofCbor s.toCbor = .ok s := by
  refine Value.readMap_ofFields [0, 1] rfl (by decide) ?_
  refine .bind (.requireWith rfl) ?_
  exact .bind (.takeWith fun s _ => Value.toUri_uri _ s) (.pure _ _)

theorem SignerInfo.canonical_toCbor (s : SignerInfo) : s.toCbor.Canonical 2 :=
  .ofFields (.some (.text _) (.map Value.Canonical.uri .nil))

namespace Meta

theorem validity_of_validate {m : Meta} (h : m.validate = .ok ()) :
    ∀ v ∈ m.validity, v.validate = .ok () := by
  obtain ⟨-, hv⟩ := Result.check_eq_ok.1 h
  exact checkOptional_eq_ok.1 (Result.context_eq_ok.1 hv)

theorem ofCbor_toCbor {m : Meta} (h : m.validate = .ok ()) : ofCbor m.toCbor = .ok m := by
  refine Value.readMap_ofFields [0, 1] rfl (by decide) ?_
  refine .bind (.requireWith m.signer.ofCbor_toCbor) ?_
  exact .bind (.takeWith fun v hv => Validity.ofCbor_toCbor (validity_of_validate h v hv)) (.pure _ _)

theorem canonical_toCbor (m : Meta) : m.toCbor.Canonical 3 :=
  .ofFields (.some m.signer.canonical_toCbor (.map Validity.canonical_toCbor .nil))

end Meta

end Rim
