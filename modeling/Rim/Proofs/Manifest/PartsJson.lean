import Rim.Proofs.Choice.Json
import Rim.Proofs.Contents
import Rim.Proofs.Manifest.Digest
import Rim.Proofs.Manifest.PartsCbor
import Rim.Proofs.Time.Rfc3339

/-!
# The parts of manifests in the text format

The text format writes several parts as one string: an identifier, a digest, a profile identifier and
a bound of a window. Each is read back under a condition of its own. A text that writes a UUID would be
read as that UUID, and a year that does not have four digits has no timestamp.

* `Identifier.ofJson_toJson`: where no text writes a UUID.
* `Digest.ofJson_toJson`, `Locator.ofJson_toJson`, `Entity.ofJson_toJson`: no condition.
* `ProfileId.ofJson_toJson`: where the identifier is valid.
* `Validity.ofJson_toJson`: where the window is valid and its years have four digits.
-/

namespace Rim

open Json Unread

/-! ### Identifiers and digests -/

namespace Identifier

/-- An identifier that is no text that writes a UUID. -/
def Unmistakable : Identifier → Prop
  | text s => ∀ u, Uuid.parse s ≠ .ok u
  | uuid _ => True

theorem ofJson_toJson {i : Identifier} (h : i.Unmistakable) : ofJson i.toJson = .ok i := by
  cases i with
  | text s =>
    have ht : ofText s = text s := by
      unfold ofText
      cases hp : Uuid.parse s with
      | ok u => exact absurd hp (h u)
      | error _ => rfl
    exact congrArg Except.ok ht
  | uuid u =>
    have ht : ofText u.toText = uuid u := by
      rw [ofText, u.parse_toText]
    exact congrArg Except.ok ht

theorem canonical_toJson {levels : Nat} (i : Identifier) : i.toJson.Canonical levels := .string _

end Identifier

namespace Digest

theorem ofJson_toJson (d : Digest) : ofJson d.toJson = .ok d := d.parse_toText

theorem canonical_toJson {levels : Nat} (d : Digest) : d.toJson.Canonical levels := .string _

end Digest

theorem ProfileId.ofJson_toJson {i : ProfileId} (h : i.validate = .ok ()) :
    ProfileId.ofJson i.toJson = .ok i := ProfileId.parse_toText h

theorem ProfileId.canonical_toJson {levels : Nat} (i : ProfileId) : i.toJson.Canonical levels :=
  .string _

/-! ### Locators and entities -/

theorem Locator.ofJson_toJson (l : Locator) : Locator.ofJson l.toJson = .ok l := by
  refine Value.readObject_ofMemberList ["href", "thumbprint"] rfl (by decide) ?_
  refine .bind (.requireWith rfl) ?_
  exact .bind (.takeWith fun d _ => d.ofJson_toJson) (.pure _ _)

theorem Locator.canonical_toJson (l : Locator) : l.toJson.Canonical 1 :=
  .ofMemberList (.some (.string _) (.map Digest.canonical_toJson .nil))

namespace Entity

variable {ρ : Type} [RoleSet ρ]

theorem canonical_toJson (e : Entity ρ) : e.toJson.Canonical 2 :=
  .ofMemberList (.some (.string _) (.map .string
    (.some (.array_map (fun _ => .string _) _) .nil)))

variable [LawfulRoleSet ρ]

theorem roleOfJson_name (r : ρ) : roleOfJson (.string (RoleSet.name r)) = .ok r := by
  simp only [roleOfJson, Value.toText, Result.ok_bind, LawfulRoleSet.ofName?_name]
  rfl

theorem ofJson_toJson (e : Entity ρ) : ofJson e.toJson = .ok e := by
  refine Value.readObject_ofMemberList ["name", "regid", "roles"] rfl (by decide) ?_
  refine .bind (.requireWith rfl) ?_
  refine .bind (.takeWith fun _ _ => rfl) ?_
  exact .bind (.requireWith (mapM_map fun r _ => roleOfJson_name r)) (.pure _ _)

end Entity

/-! ### Windows -/

/-- An instant whose year has four digits. -/
def Time.Instant.FourDigitYear (t : Time.Instant) : Prop := 0 ≤ t.date.year ∧ t.date.year ≤ 9999

namespace Validity

theorem boundOfJson_boundToJson {what : String} {t : Time.Instant} (h : t.nanos = 0)
    (hy : t.FourDigitYear) : boundOfJson what (boundToJson t) = .ok t := by
  refine Result.bind_eq_ok.2 ⟨t.rfc3339, rfl, ?_⟩
  rw [Time.Rfc3339.parse?_rfc3339 h hy]
  rfl

theorem ofJson_toJson {v : Validity} (h : v.validate = .ok ())
    (hy : ∀ t ∈ v.bounds, t.FourDigitYear) : ofJson v.toJson = .ok v := by
  obtain ⟨ha, hb⟩ := whole_of_validate h
  have hafter : v.notAfter.FourDigitYear := hy _ (List.mem_append_right _ List.mem_cons_self)
  have hbefore (t : Time.Instant) (ht : t ∈ v.notBefore) : t.FourDigitYear :=
    hy t (List.mem_append_left _ (Option.mem_toList.2 ht))
  refine Value.readObject_ofMemberList ["not-before", "not-after"] rfl (by decide) ?_
  refine .bind (.takeWith fun t ht => boundOfJson_boundToJson (hb t ht) (hbefore t ht)) ?_
  exact .bind (.requireWith (boundOfJson_boundToJson ha hafter)) (.pure _ _)

theorem canonical_toJson (v : Validity) : v.toJson.Canonical 1 :=
  .ofMemberList (.map (fun _ => .string _) (.some (.string _) .nil))

end Validity

end Rim
