import Rim.Manifest
import Rim.Proofs.Comid.Failure

/-!
# What documents fail with

A manifest that is not accepted cannot be read or breaks a rule, and the same holds of signer metadata.
The fields that a manifest is read with are those of a registered profile, so what its rules fail with is
known as soon as the rules of these profiles are.

* `Catalogue.Lawful`: registered profiles whose rules refuse values as invalid.
* `Manifest.ofCbor_ends`, `Manifest.validate_failsAs`: the reading and the rules of manifests.
* `Document.decodeCbor_failsAs`: documents that are read and checked.
-/

namespace Rim

open Cbor (Value)
open ErrorKind (reading rules)

/-- The kinds of errors of documents that are not accepted. -/
def ErrorKind.documents : List ErrorKind :=
  [.unknownTypeChoice, .malformed, .invalid, .missingField, .emptyIdentifier]

/-- The fields of the registered profiles have rules that refuse values as invalid. -/
def Catalogue.Lawful (c : Catalogue) : Prop := ∀ p ∈ c.profiles.values, ∀ f ∈ p.fields, f.Lawful

theorem Tdx.fields_lawful (f : Extension.Field) (hf : f ∈ Tdx.fields) : f.Lawful := by
  unfold Tdx.fields at hf
  simp only [List.mem_cons, List.not_mem_nil, or_false] at hf
  -- two of the fields have rules
  rcases hf with rfl | rfl | rfl | rfl | rfl | rfl
  · exact nofun
  · rintro _ ⟨⟩ v
    exact .ite .invalid trivial
  · rintro _ ⟨⟩ v
    exact .ite .invalid trivial
  · exact nofun
  · exact nofun
  · exact nofun

/-- The bundled profiles have such fields. -/
theorem Catalogue.bundled_lawful : bundled.Lawful := by
  have hprofiles : bundled.profiles.values = [Psa.profile, Tdx.profile] := rfl
  unfold Lawful
  rw [hprofiles]
  exact List.forall_mem_cons.2 ⟨nofun, List.forall_mem_singleton.2 Tdx.fields_lawful⟩

variable {c : Catalogue} {s : Scope}

/-- What a document is read with has such fields, whatever profile it names. -/
theorem Catalogue.Lawful.scope (h : c.Lawful) (hc : c.Consistent) (ho : c.registry.Owned)
    (id : Option ProfileId) : (c.scope id).Lawful := by
  refine ⟨hc.registry, ho, ?_⟩
  rcases c.fields_scope id with hf | ⟨p, hp, hf⟩
  · rw [hf]
    nofun
  · rw [hf]
    exact h p hp

/-! ### Embedded tags -/

namespace EmbeddedTag

/-- What is asked of the extension values of a module tag. -/
def Lawful (t : EmbeddedTag) : Prop :=
  ∀ d ∈ t.comid?, Extension.Lawful d.triples.extensionEntries

theorem ofCbor_ends (hs : s.Lawful) (v : Value) :
    (EmbeddedTag.ofCbor s v).Ends Lawful reading := by
  refine (v.toBytes_failsAs _).bind fun b _ => ?_
  refine .ite ?_ nofun
  refine (Cbor.decode_failsAs b).bind fun w _ => ?_
  refine (w.untag_failsAs _ _).bind fun body _ => ?_
  refine (Comid.ofCbor_ends hs body).bind fun d hd e he => ?_
  obtain rfl := Option.some.inj he
  exact hd

theorem validate_failsAs {t : EmbeddedTag} (h : t.Lawful) : t.validate.FailsAs rules := by
  cases t with
  | comid d => exact Comid.validate_failsAs (h d rfl)
  | opaqueOctets b => exact .ite Result.Ends.invalid.rules trivial

end EmbeddedTag

/-! ### Manifests -/

namespace Manifest

/-- **The reading of a manifest** fails as readers do, or the extension values stand under fields of
registered profiles. -/
theorem ofCbor_ends (hs : ∀ id, (c.scope id).Lawful) (v : Value) :
    (Manifest.ofCbor c v).Ends (fun m => ∀ t ∈ m.tags, t.Lawful) reading := by
  refine Cbor.Value.readMap_ends ?_ _ v
  refine .bind (.takeWith (fun v => (ProfileId.ofCbor_failsAs v).context _) _) fun profile _ => ?_
  refine .bind (.requireWith (fun v => (Identifier.ofCbor_failsAs v).context _) _ _) fun _ _ => ?_
  have htags (v : Value) : Result.Ends (fun ts => ∀ t ∈ ts, t.Lawful) reading
      (do readEach "tag" (EmbeddedTag.ofCbor (c.scope profile)) (← v.toArray "tags")) :=
    (v.toArray_failsAs _).bind fun items _ =>
      readEach_ends (EmbeddedTag.ofCbor_ends (hs profile)) _ items
  refine .bind (.requireWith htags _ _) fun tags h => ?_
  refine .bind (.takeWith (Value.readItems_ends Locator.ofCbor_failsAs _) _) fun _ _ => ?_
  refine .bind (.takeWith (fun v => (Validity.ofCbor_failsAs v).context _) _) fun _ _ => ?_
  refine .bind (.takeWith (Value.readItems_ends Entity.ofCbor_failsAs _) _) fun _ _ => ?_
  exact .pure h

theorem validate_failsAs {m : Manifest} (h : ∀ t ∈ m.tags, t.Lawful) :
    m.validate.FailsAs rules := by
  have hmissing : ErrorKind.missingField ∈ rules := by decide
  refine m.id.validate_failsAs.bind fun _ _ => ?_
  refine .ite hmissing ?_
  refine (checkEach_failsAs _ fun t ht => EmbeddedTag.validate_failsAs (h t ht)).bind fun _ _ => ?_
  refine (checkEach_failsAs _ fun l _ => l.validate_failsAs.rules).bind fun _ _ => ?_
  refine ((checkOptional_failsAs fun p _ => p.validate_failsAs.rules).context _).bind fun _ _ => ?_
  refine ((checkOptional_failsAs fun v _ => v.validate_failsAs.rules).context _).bind fun _ _ => ?_
  exact (Entity.validateAll_failsAs _).rules.context _

end Manifest

/-! ### Documents -/

namespace Document

variable {δ : Type} [Document δ] {P : δ → Prop}

/-- **A document that is not accepted** cannot be read or breaks a rule. -/
theorem decodeCbor_failsAs (hread : ∀ v, (ofCbor c v : Result δ).Ends P reading)
    (hrules : ∀ d, P d → (validate d).FailsAs rules) (b : Bytes) :
    (decodeCbor c b : Result δ).FailsAs ErrorKind.documents := by
  have huntagged (v : Value) : (untagged δ v).FailsAs reading := by
    unfold untagged
    split
    · exact .ite trivial .malformed
    · trivial
  have hreading : reading ⊆ ErrorKind.documents := by decide
  have hchecking : rules ⊆ ErrorKind.documents := by decide
  refine (((Cbor.decode_failsAs b).mono hreading).context _).bind fun v _ => ?_
  refine ((huntagged v).mono hreading).bind fun w _ => ?_
  refine (((hread w).mono hreading).context _).bind fun d hd => ?_
  exact (((hrules d hd).mono hchecking).context _).bind fun _ _ => trivial

end Document

theorem Manifest.decodeCbor_failsAs (hc : c.Consistent) (ho : c.registry.Owned) (hf : c.Lawful)
    (b : Bytes) : (Document.decodeCbor c b : Result Manifest).FailsAs ErrorKind.documents :=
  Document.decodeCbor_failsAs (Manifest.ofCbor_ends (hf.scope hc ho))
    (fun _ => Manifest.validate_failsAs) b

theorem Meta.decodeCbor_failsAs (b : Bytes) :
    (Document.decodeCbor c b : Result Meta).FailsAs ErrorKind.documents :=
  Document.decodeCbor_failsAs Meta.ofCbor_failsAs (fun m _ => m.validate_failsAs.rules) b

end Rim
