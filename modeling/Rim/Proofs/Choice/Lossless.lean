import Rim.Proofs.Catalogue
import Rim.Proofs.Cbor.Rewriting
import Rim.Proofs.Choice.Cbor

/-!
# Type choices are read without loss

A choice that is read of a tagged value is written as that value again: the tag selects one kind, and
the reading of a kind keeps all that stands under its tag.

* `Kind.lossless`: the reading of a kind keeps all of what stands under the tag.
* `Registry.Owned`: every entry was made for a kind.
* `ChoiceRegistry.lossless`: tagged values are restored by registries of that sort.
-/

namespace Rim

open Cbor

theorem Uuid.lossless_ofBytes (what : String) :
    Lossless Uuid.toCbor (fun v => do Uuid.ofBytes (← v.toBytes what)) := by
  intro v u hv h
  obtain ⟨b, hb, h⟩ := Result.bind_eq_ok.1 h
  unfold Uuid.ofBytes at h
  split at h
  · obtain rfl := Except.ok.inj h
    exact Value.lossless_toBytes what v b hv hb
  · cases h

theorem Oid.lossless : Lossless Oid.toCbor Oid.ofCbor :=
  (Value.lossless_toBytes "OID").map (f := Oid.mk) fun _ => rfl

theorem Ueid.lossless_ofBytes (what : String) :
    Lossless Ueid.toCbor (fun v => do return ⟨← v.toBytes what⟩) :=
  (Value.lossless_toBytes what).map (f := Ueid.mk) fun _ => rfl

theorem PublicKey.lossless : Lossless PublicKey.toCbor PublicKey.ofCbor :=
  (Value.lossless_toText "PKIX key").map (f := PublicKey.mk) fun _ => rfl

theorem ImplementationId.lossless : Lossless ImplementationId.toCbor ImplementationId.ofCbor := by
  intro v i hv h
  obtain ⟨b, hb, h⟩ := Result.bind_eq_ok.1 h
  unfold ImplementationId.ofBytes at h
  split at h
  · obtain rfl := Except.ok.inj h
    exact Value.lossless_toBytes _ v b hv hb
  · cases h

theorem ReferenceValueId.lossless : Lossless ReferenceValueId.toCbor ReferenceValueId.ofCbor := by
  refine Accounts.readMap_lossless ?_
  refine .takeWith (Value.lossless_toText _) rfl fun label => ?_
  refine .takeWith (Value.lossless_toText _) rfl fun version => ?_
  exact .requireWith (Value.lossless_toBytes _) rfl fun signer => .pure (.refl _)

theorem MaskedValue.lossless : Lossless MaskedValue.toCbor MaskedValue.ofCbor := by
  refine Value.lossless_pair _ fun a b x ha hb h => ?_
  obtain ⟨value, hvalue, h⟩ := Result.bind_eq_ok.1 h
  obtain ⟨mask, hmask, h⟩ := Result.bind_eq_ok.1 h
  obtain rfl := Except.ok.inj h
  have hva : Value.bytes value = a := Value.lossless_toBytes _ a value ha hvalue
  have hvb : Value.bytes mask = b := Value.lossless_toBytes _ b mask hb hmask
  rw [MaskedValue.toCbor, hva, hvb]

namespace Kind

theorem kind_of_ofCbor {k : Kind} {v : Value} {x : Choice} (h : k.ofCbor v = .ok x) : x.kind = k := by
  cases k <;> obtain ⟨a, -, rfl⟩ := Result.map_eq_ok.1 h <;> rfl

/-- **The reading of a kind keeps all of what stands under its tag.** -/
theorem lossless (k : Kind) : Lossless Choice.body k.ofCbor := by
  cases k with
  | uuid => exact (Uuid.lossless_ofBytes _).map fun _ => rfl
  | oid => exact Oid.lossless.map fun _ => rfl
  | ueid => exact (Ueid.lossless_ofBytes _).map fun _ => rfl
  | int | svn | minSvn => exact (Value.lossless_toUInt64 _).map fun _ => rfl
  | publicKey => exact PublicKey.lossless.map fun _ => rfl
  | bytes => exact (Value.lossless_toBytes _).map fun _ => rfl
  | masked => exact MaskedValue.lossless.map fun _ => rfl
  | implementationId => exact ImplementationId.lossless.map fun _ => rfl
  | referenceValueId => exact ReferenceValueId.lossless.map fun _ => rfl

end Kind

/-- Every entry was made for a kind. -/
def Registry.Owned {κ χ : Type} (r : Registry κ χ) : Prop := ∀ e ∈ r.entries, e.owner.isSome

instance {κ χ : Type} (r : Registry κ χ) : Decidable r.Owned :=
  inferInstanceAs (Decidable (∀ e ∈ r.entries, e.owner.isSome))

namespace ChoiceRegistry

variable {r : ChoiceRegistry}

/-- What a tag selects in a registry of kinds is a kind of that tag. -/
theorem readerOfTag_eq_ok (hr : r.Consistent) (ho : r.Owned) {tag : UInt64} {reader : Reader Choice}
    (h : r.readerOfTag tag = .ok reader) :
    ∃ k : Kind, k.tag = tag ∧ reader = ⟨k.ofCbor, k.ofJson⟩ := by
  unfold Registry.readerOfTag at h
  cases hf : r.byTag? tag with
  | none =>
    rw [hf] at h
    cases h
  | some e =>
    rw [hf] at h
    obtain rfl := Except.ok.inj h
    have he : e ∈ r.entries := Table.mem_values.2 ⟨tag, hf⟩
    obtain ⟨k, hk⟩ := Option.isSome_iff_exists.1 (ho e he)
    have hkind := hr.owned tag e hf k hk
    exact ⟨k, hkind.tag.symm.trans (hr.tagged tag e hf).1, hkind.reader⟩

/-- **A tagged value is restored** by a registry of kinds. -/
theorem lossless (hr : r.Consistent) (ho : r.Owned) : Lossless Choice.toCbor r.ofCbor := by
  intro v x hv h
  cases v with
  | tag n body =>
    obtain ⟨y, hy, h⟩ := Result.bind_eq_ok.1 h
    obtain ⟨-, h⟩ := Result.check_eq_ok.1 h
    obtain rfl := Except.ok.inj h
    obtain ⟨reader, hread, hy⟩ := Result.bind_eq_ok.1 hy
    obtain ⟨k, rfl, rfl⟩ := readerOfTag_eq_ok hr ho hread
    have hbody : y.body = body := k.lossless body y hv.body hy
    rw [Choice.toCbor, Kind.kind_of_ofCbor hy, hbody]
    rfl
  | _ => cases h

end ChoiceRegistry

end Rim
