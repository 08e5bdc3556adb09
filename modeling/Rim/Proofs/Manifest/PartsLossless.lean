import Rim.Proofs.Choice.Lossless
import Rim.Proofs.Manifest.PartsCbor

/-!
# The parts of manifests are read without loss

Each part of a manifest that does not depend on what a catalogue knows is written as it was read: no
entry, item or tag of it is passed over, and each number, text and octet is kept.

* `Identifier.lossless`, `Digest.lossless`, `ProfileId.lossless`, `Locator.lossless`: single parts.
* `Entity.lossless`: for both sets of roles.
* `Validity.lossless`: a bound is kept to the second.
-/

namespace Rim

open Cbor

theorem Identifier.lossless : Lossless Identifier.toCbor Identifier.ofCbor := by
  intro v i hv h
  cases v with
  | text s =>
    obtain rfl := Except.ok.inj h
    rfl
  | bytes b =>
    obtain ⟨u, hu, rfl⟩ := Result.map_eq_ok.1 h
    exact Uuid.lossless_ofBytes "UUID" (.bytes b) u hv hu
  | _ => cases h

theorem Digest.lossless : Lossless Digest.toCbor Digest.ofCbor := by
  refine Value.lossless_pair _ fun a b d ha hb h => ?_
  obtain ⟨n, hn, h⟩ := Result.bind_eq_ok.1 h
  obtain ⟨o, ho, h⟩ := Result.bind_eq_ok.1 h
  obtain rfl := Except.ok.inj h
  have hna : Value.natural n = a := Value.lossless_toUInt64 _ a n ha hn
  have hob : Value.bytes o = b := Value.lossless_toBytes _ b o hb ho
  rw [Digest.toCbor, hna, hob]

theorem ProfileId.lossless : Lossless ProfileId.toCbor ProfileId.ofCbor := by
  intro v i hv h
  cases v with
  | tag n body =>
    unfold ProfileId.ofCbor at h
    dsimp only at h
    split at h
    · rename_i hn
      obtain ⟨s, hs, rfl⟩ := Result.map_eq_ok.1 h
      have hbody : Value.text s = body := Value.lossless_toText _ body s hv.body hs
      rw [hn, ← hbody]
      rfl
    · split at h
      · rename_i hn
        obtain ⟨o, ho, rfl⟩ := Result.map_eq_ok.1 h
        have hbody : o.toCbor = body := Oid.lossless body o hv.body ho
        rw [hn, ← hbody]
        rfl
      · cases h
  | _ => cases h

theorem Locator.lossless : Lossless Locator.toCbor Locator.ofCbor := by
  refine Accounts.readMap_lossless ?_
  refine .requireWith (Value.lossless_toUri _) rfl fun href => ?_
  exact .takeWith Digest.lossless rfl fun thumbprint => .pure (.refl _)

/-! ### Entities -/

namespace Entity

variable {ρ : Type} [RoleSet ρ]

theorem lossless_role :
    Lossless (fun r : ρ => .natural (RoleSet.number r)) (roleOfCbor : Value → Result ρ) := by
  intro v r hv h
  obtain ⟨n, hn, h⟩ := Result.bind_eq_ok.1 h
  cases hr : (RoleSet.ofNumber? n : Option ρ) with
  | none =>
    rw [hr] at h
    cases h
  | some s =>
    rw [hr] at h
    obtain rfl := Except.ok.inj h
    -- the role was found by its number
    have hfound := List.find?_some hr
    have hnumber : RoleSet.number s = n := beq_iff_eq.1 hfound
    show Value.natural (RoleSet.number s) = id v
    rw [hnumber]
    exact Value.lossless_toUInt64 _ v n hv hn

theorem lossless : Lossless (toCbor : Entity ρ → Value) ofCbor := by
  refine Accounts.readMap_lossless ?_
  refine .requireWith (Value.lossless_toText _) rfl fun name => ?_
  refine .takeWith (Value.lossless_toUri _) rfl fun registration => ?_
  exact .requireWith (lossless_role.array _) rfl fun roles => .pure (.refl _)

end Entity

/-! ### Windows -/

namespace Validity

theorem lossless_bound (what : String) : Lossless boundToCbor (boundOfCbor what) := by
  intro v t hv h
  obtain ⟨n, hn, h⟩ := Result.bind_eq_ok.1 h
  cases ht : Time.Instant.ofSeconds? n.toInt with
  | none =>
    rw [ht] at h
    cases h
  | some s =>
    rw [ht] at h
    obtain rfl := Except.ok.inj h
    have hs : s.seconds = n.toInt := by
      unfold Time.Instant.ofSeconds? Time.Instant.of? at ht
      split at ht
      · obtain rfl := Option.some.inj ht
        rfl
      · cases ht
    rw [boundToCbor, hs, Int64.ofInt_toInt]
    exact Value.lossless_toEpoch what v n hv hn

theorem lossless : Lossless Validity.toCbor Validity.ofCbor := by
  refine Accounts.readMap_lossless ?_
  refine .takeWith (lossless_bound _) rfl fun notBefore => ?_
  exact .requireWith (lossless_bound _) rfl fun notAfter => .pure (.refl _)

end Validity

end Rim
