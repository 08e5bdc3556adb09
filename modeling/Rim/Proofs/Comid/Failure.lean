import Rim.Proofs.Comid.Lossless
import Rim.Proofs.Contents
import Rim.Proofs.Manifest.PartsFailure

/-!
# What module tags fail with

What the readings and the rules of module tags and of their parts fail with. A profile may check the
values of its fields by rules of its own; where these refuse values as invalid, so do the rules of what
is read with the fields.

* `Extension.Field.Lawful`, `Scope.Lawful`: fields whose rules refuse values as invalid.
* `MeasurementValues.ofCbor_ends`, `Measurement.ofCbor_ends`, `Triples.ofCbor_ends`,
  `Comid.ofCbor_ends`: the readings of a scope.
* `Measurement.validate_failsAs`, `Triples.validate_failsAs`, `Comid.validate_failsAs`: the rules.
-/

namespace Rim

open Cbor (Value)
open ErrorKind (reading rules)
open Extension (Field)

/-- The rule of a field refuses values as invalid, and in no other way. -/
def Extension.Field.Lawful (f : Field) : Prop :=
  ∀ rule ∈ f.rule, ∀ v, (rule v).FailsAs [.invalid]

/-- Values that stand under such fields. -/
def Extension.Lawful (entries : List Extension.Entry) : Prop := ∀ e ∈ entries, e.field.Lawful

/-- What a document is read with: a registry of kinds, and such fields. -/
structure Scope.Lawful (s : Scope) : Prop where
  registry : s.registry.Consistent
  owned : s.registry.Owned
  fields : ∀ f ∈ s.fields, f.Lawful

theorem Scope.Lawful.ofCbor_failsAs {s : Scope} (h : s.Lawful) (v : Value) :
    (s.registry.ofCbor v).FailsAs reading :=
  ChoiceRegistry.ofCbor_failsAs h.registry h.owned v

/-! ### Environments -/

section

variable {r : ChoiceRegistry} (hr : ∀ v, (r.ofCbor v).FailsAs reading)

include hr

theorem ModuleClass.ofCbor_failsAs (v : Value) : (ModuleClass.ofCbor r v).FailsAs reading := by
  refine Value.readMap_ends ?_ _ v
  refine .bind (.takeWith hr _) fun _ _ => ?_
  refine .bind (.takeWith (Value.toText_failsAs _) _) fun _ _ => ?_
  refine .bind (.takeWith (Value.toText_failsAs _) _) fun _ _ => ?_
  refine .bind (.takeWith (Value.toUInt64_failsAs _) _) fun _ _ => ?_
  exact .bind (.takeWith (Value.toUInt64_failsAs _) _) fun _ _ => .pure trivial

theorem Environment.ofCbor_failsAs (v : Value) : (Environment.ofCbor r v).FailsAs reading := by
  refine Value.readMap_ends ?_ _ v
  refine .bind (.takeWith (ModuleClass.ofCbor_failsAs hr) _) fun _ _ => ?_
  refine .bind (.takeWith hr _) fun _ _ => ?_
  exact .bind (.takeWith hr _) fun _ _ => .pure trivial

theorem KeyTriple.ofCbor_failsAs (v : Value) : (KeyTriple.ofCbor r v).FailsAs reading := by
  refine (v.toPair_failsAs _).bind fun t _ => ?_
  refine ((Environment.ofCbor_failsAs hr t.1).context _).bind fun _ _ => ?_
  refine (t.2.toArray_failsAs _).bind fun items _ => ?_
  exact (Result.FailsAs.mapM hr items).bind fun _ _ => trivial

/-- A security version number is a plain number or a tagged value. -/
theorem MeasurementValues.svnOfCbor_failsAs (v : Value) : (svnOfCbor r v).FailsAs reading := by
  cases v with
  | natural n => trivial
  | tag n body => exact hr (.tag n body)
  | _ => exact .malformed

end

theorem ModuleClass.validate_failsAs (c : ModuleClass) : c.validate.FailsAs [.invalid] := by
  refine .ite .invalid ?_
  refine ((checkOptional_failsAs fun x _ => x.validate_failsAs).context _).bind fun _ _ => ?_
  refine .ite .invalid ?_
  exact .ite .invalid trivial

theorem Environment.validate_failsAs (e : Environment) : e.validate.FailsAs [.invalid] := by
  refine .ite .invalid ?_
  refine ((checkOptional_failsAs fun c _ => c.validate_failsAs).context _).bind fun _ _ => ?_
  refine ((checkOptional_failsAs fun x _ => x.validate_failsAs).context _).bind fun _ _ => ?_
  exact (checkOptional_failsAs fun x _ => x.validate_failsAs).context _

/-! ### Extension values -/

theorem Extension.Field.ofCbor_failsAs (f : Field) (v : Cbor.Value) :
    (f.ofCbor v).FailsAs reading := by
  unfold ofCbor
  split
  · exact (v.toUInt64_failsAs _).map fun _ _ => trivial
  · exact (v.toInt64_failsAs _).map fun _ _ => trivial
  · exact (v.toText_failsAs _).map fun _ _ => trivial
  · exact (v.toBytes_failsAs _).map fun _ _ => trivial
  · refine (v.toArray_failsAs _).bind fun items _ => ?_
    exact (Result.FailsAs.mapM (Cbor.Value.toText_failsAs _) items).bind fun _ _ => trivial
  · split
    · trivial
    · exact (Cbor.Value.toUInt64_failsAs _ _).map fun _ _ => trivial

/-- A value of another shape, an empty set and whatever the rule refuses is invalid. -/
theorem Extension.Field.Lawful.check_failsAs {f : Field} (h : f.Lawful) (v : Extension.Value) :
    (f.check v).FailsAs [.invalid] := by
  refine .ite .invalid (.ite .invalid ?_)
  split
  · rename_i rule hrule
    exact h rule hrule v
  · trivial

namespace Extensions

variable {schema : List Field}

/-- A key that no field of the schema has is malformed. -/
theorem readEntry_failsAs (key value : Value) : (readEntry schema key value).FailsAs reading := by
  unfold readEntry
  split
  · rename_i f _
    exact (f.ofCbor_failsAs value).bind fun _ _ => trivial
  · exact .malformed

theorem ofCbor_failsAs (entries : Cbor.Entries) : (ofCbor schema entries).FailsAs reading := by
  unfold ofCbor
  generalize empty = x
  induction entries generalizing x with
  | nil => trivial
  | cons e r ih =>
    have hstep : Result.FailsAs reading (do return x.insert (← readEntry schema e.1 e.2)) :=
      (readEntry_failsAs e.1 e.2).bind fun _ _ => trivial
    rw [List.foldlM_cons]
    exact hstep.bind fun y _ => ih y

theorem validate_failsAs {x : Extensions} (h : Extension.Lawful x.entries) :
    x.validate.FailsAs [.invalid] :=
  .forM fun e he => ((h e he).check_failsAs e.value).context _

end Extensions

/-! ### Measurements -/

theorem Version.ofCbor_failsAs (v : Value) : (Version.ofCbor v).FailsAs reading := by
  refine Value.readMap_ends ?_ _ v
  refine .bind (.requireWith (Value.toText_failsAs _) _ _) fun _ _ => ?_
  exact .bind (.takeWith (Value.toInt64_failsAs _) _) fun _ _ => .pure trivial

theorem Version.validate_failsAs (v : Version) : v.validate.FailsAs [.invalid] :=
  .ite .invalid trivial

variable {s : Scope}

namespace MeasurementValues

theorem ofCbor_failsAs (hs : s.Lawful) (v : Value) :
    (MeasurementValues.ofCbor s v).FailsAs reading := by
  refine Value.readMap_ends ?_ _ v
  refine .bind (.takeWith (fun v => (Version.ofCbor_failsAs v).context _) _) fun version _ => ?_
  have hsvn (v : Value) : (svnOfCbor s.registry v).FailsAs reading :=
    svnOfCbor_failsAs hs.ofCbor_failsAs v
  refine .bind (.takeWith (fun v => (hsvn v).context _) _) fun svn _ => ?_
  have hdigests := Value.readItems_ends Digest.ofCbor_failsAs "digests"
  refine .bind (.takeWith (fun v => (hdigests v).context _) _) fun digests _ => ?_
  refine .bind (.takeWith (fun v => (hs.ofCbor_failsAs v).context _) _) fun rawValue _ => ?_
  refine .bind (.takeWith (Value.toBytes_failsAs _) _) fun rawValueMask _ => ?_
  refine .bind (.takeWith (Value.toText_failsAs _) _) fun serialNumber _ => ?_
  have hueid (v : Value) : Result.FailsAs reading (do return Ueid.mk (← v.toBytes "ueid")) :=
    (v.toBytes_failsAs _).bind fun _ _ => trivial
  have huuid (v : Value) : Result.FailsAs reading (do Uuid.ofBytes (← v.toBytes "uuid")) :=
    (v.toBytes_failsAs _).bind fun b _ => Uuid.ofBytes_failsAs b
  refine .bind (.takeWith hueid _) fun ueid _ => ?_
  refine .bind (.takeWith huuid _) fun uuid _ => ?_
  refine .bind (.takeWith (Value.toText_failsAs _) _) fun name _ => ?_
  -- what the core leaves is read by the fields of the scope
  refine .bind .takeRest fun rest _ => ?_
  exact .bind (.ofResult (Extensions.ofCbor_failsAs rest)) fun _ _ => .pure trivial

/-- What is read stands under fields of the scope. -/
theorem ofCbor_ends (hs : s.Lawful) (v : Value) :
    (MeasurementValues.ofCbor s v).Ends (fun m => Extension.Lawful m.extensions.entries) reading :=
  (ofCbor_failsAs hs v).with fun _ hm e he => hs.fields e.field (fields_of_ofCbor hm e he)

theorem checkText_failsAs (what : String) (t : Option String) :
    (checkText what t).FailsAs [.invalid] := .ite .invalid trivial

theorem checkSvn_failsAs (x : Choice) : (checkSvn x).FailsAs [.invalid] := by
  cases x with
  | svn | minSvn => trivial
  | _ => exact .invalid

theorem checkRawValue_failsAs (x : Choice) : (checkRawValue x).FailsAs [.invalid] := by
  cases x with
  | bytes | masked => exact (Choice.validate_failsAs _).context _
  | _ => exact .invalid

/-- A mask without a plain raw value is invalid too. -/
theorem checkMask_failsAs (rawValue : Option Choice) (mask : Bytes) :
    (checkMask rawValue mask).FailsAs [.invalid] := by
  unfold checkMask
  split
  · exact .ite trivial .invalid
  · exact .invalid

theorem validate_failsAs {m : MeasurementValues} (h : Extension.Lawful m.extensions.entries) :
    m.validate.FailsAs [.invalid] := by
  refine .ite .invalid ?_
  refine ((checkOptional_failsAs fun v _ => v.validate_failsAs).context _).bind fun _ _ => ?_
  refine (checkOptional_failsAs fun x _ => checkSvn_failsAs x).bind fun _ _ => ?_
  refine (checkOptional_failsAs fun ds _ => Digest.validateAll_failsAs ds).bind fun _ _ => ?_
  refine (checkOptional_failsAs fun x _ => checkRawValue_failsAs x).bind fun _ _ => ?_
  refine (checkOptional_failsAs fun mask _ => checkMask_failsAs _ mask).bind fun _ _ => ?_
  refine (checkText_failsAs _ _).bind fun _ _ => ?_
  refine ((checkOptional_failsAs fun u _ => u.validate_failsAs).context _).bind fun _ _ => ?_
  refine ((checkOptional_failsAs fun u _ => u.validate_failsAs).context _).bind fun _ _ => ?_
  exact (checkText_failsAs _ _).bind fun _ _ => Extensions.validate_failsAs h

end MeasurementValues

namespace Measurement

theorem ofCbor_ends (hs : s.Lawful) (v : Value) :
    (Measurement.ofCbor s v).Ends (fun m => Extension.Lawful m.values.extensions.entries)
      reading := by
  refine Value.readMap_ends ?_ _ v
  refine .bind (.takeWith (fun v => (hs.ofCbor_failsAs v).context _) _) fun _ _ => ?_
  refine .bind (.requireWith (MeasurementValues.ofCbor_ends hs) _ _) fun values h => ?_
  exact .pure h

theorem validate_failsAs {m : Measurement} (h : Extension.Lawful m.values.extensions.entries) :
    m.validate.FailsAs [.invalid] := by
  refine ((checkOptional_failsAs fun x _ => x.validate_failsAs).context _).bind fun _ _ => ?_
  exact MeasurementValues.validate_failsAs h

end Measurement

/-! ### Triples -/

namespace ValueTriple

theorem ofCbor_ends (hs : s.Lawful) (v : Value) :
    (ValueTriple.ofCbor s v).Ends (fun t => Extension.Lawful t.extensionEntries) reading := by
  refine (v.toPair_failsAs _).bind fun t _ => ?_
  refine ((Environment.ofCbor_failsAs hs.ofCbor_failsAs t.1).context _).bind fun _ _ => ?_
  refine (t.2.toArray_failsAs _).bind fun items _ => ?_
  refine (Result.Ends.mapM fun x _ => Measurement.ofCbor_ends hs x).bind fun measurements h => ?_
  intro e he
  obtain ⟨m, hm, he⟩ := List.mem_flatMap.1 he
  exact h m hm e he

theorem validate_failsAs {t : ValueTriple} (h : Extension.Lawful t.extensionEntries) :
    t.validate.FailsAs [.invalid] := by
  refine (t.environment.validate_failsAs.context _).bind fun _ _ => ?_
  refine .ite .invalid (checkEach_failsAs _ fun m hm => ?_)
  exact Measurement.validate_failsAs fun e he => h e (List.mem_flatMap.2 ⟨m, hm, he⟩)

end ValueTriple

theorem KeyTriple.validate_failsAs (t : KeyTriple) : t.validate.FailsAs [.invalid] := by
  refine (t.environment.validate_failsAs.context _).bind fun _ _ => ?_
  exact .ite .invalid (checkEach_failsAs _ fun x _ => x.validate_failsAs)

namespace Triples

/-- A list of triples that is not there has no members. -/
theorem takeCbor_ends {α : Type} {P : α → Prop} {read : Value → Result α}
    (h : ∀ v, (read v).Ends P reading) (key : Int64) (what : String) :
    Unread.Ends (fun ts => ∀ t ∈ ts, P t) (takeCbor key what read) := by
  have hlist (v : Value) : Result.Ends (fun ts => ∀ t ∈ ts, P t) reading
      (do readEach what read (← v.toArray what)) :=
    (v.toArray_failsAs what).bind fun items _ => readEach_ends h what items
  refine .bind (.takeWith hlist _) fun ts hts => .pure ?_
  cases ts with
  | none => exact nofun
  | some ts => exact hts ts rfl

theorem ofCbor_ends (hs : s.Lawful) (v : Value) :
    (Triples.ofCbor s v).Ends (fun t => Extension.Lawful t.extensionEntries) reading := by
  have hkeys := KeyTriple.ofCbor_failsAs hs.ofCbor_failsAs
  refine Value.readMap_ends ?_ _ v
  refine .bind (takeCbor_ends (ValueTriple.ofCbor_ends hs) _ _) fun referenceValues href => ?_
  refine .bind (takeCbor_ends (ValueTriple.ofCbor_ends hs) _ _) fun endorsedValues hend => ?_
  refine .bind (takeCbor_ends hkeys _ _) fun _ _ => ?_
  refine .bind (takeCbor_ends hkeys _ _) fun _ _ => .pure ?_
  intro e he
  obtain ⟨t, ht, he⟩ := List.mem_flatMap.1 he
  rcases List.mem_append.1 ht with ht | ht
  · exact href t ht e he
  · exact hend t ht e he

theorem validate_failsAs {t : Triples} (h : Extension.Lawful t.extensionEntries) :
    t.validate.FailsAs [.invalid] := by
  have hvalues (v : ValueTriple) (hv : v ∈ t.referenceValues ++ t.endorsedValues) :
      v.validate.FailsAs [.invalid] :=
    ValueTriple.validate_failsAs fun e he => h e (List.mem_flatMap.2 ⟨v, hv, he⟩)
  refine .ite .invalid ?_
  refine (checkEach_failsAs _ fun v hv => hvalues v ?_).bind fun _ _ => ?_
  · exact List.mem_append_left _ hv
  refine (checkEach_failsAs _ fun v hv => hvalues v ?_).bind fun _ _ => ?_
  · exact List.mem_append_right _ hv
  refine (checkEach_failsAs _ fun k _ => k.validate_failsAs).bind fun _ _ => ?_
  exact checkEach_failsAs _ fun k _ => k.validate_failsAs

end Triples

/-! ### Module tags -/

theorem TagIdentity.ofCbor_failsAs (v : Value) : (TagIdentity.ofCbor v).FailsAs reading := by
  refine Value.readMap_ends ?_ _ v
  refine .bind (.requireWith Identifier.ofCbor_failsAs _ _) fun _ _ => ?_
  exact .bind (.takeWith (Value.toUInt64_failsAs _) _) fun _ _ => .pure trivial

namespace Comid

/-- **The reading of a module tag** fails as readers do, or the extension values stand under fields of
the scope. -/
theorem ofCbor_ends (hs : s.Lawful) (v : Value) :
    (Comid.ofCbor s v).Ends (fun c => Extension.Lawful c.triples.extensionEntries) reading := by
  refine Value.readMap_ends ?_ _ v
  refine .bind (.takeWith (Value.toText_failsAs _) _) fun _ _ => ?_
  refine .bind (.requireWith (fun v => (TagIdentity.ofCbor_failsAs v).context _) _ _) fun _ _ => ?_
  refine .bind (.takeWith (Value.readItems_ends Entity.ofCbor_failsAs _) _) fun _ _ => ?_
  refine .bind (.requireWith (fun v => (Triples.ofCbor_ends hs v).context _) _ _) fun _ h => ?_
  exact .pure h

theorem validate_failsAs {c : Comid} (h : Extension.Lawful c.triples.extensionEntries) :
    c.validate.FailsAs rules := by
  refine .ite Result.Ends.invalid.rules ?_
  -- the identifier of the tag is the one part whose rule has another error
  refine ((c.identity.id.validate_failsAs.context _).context _).bind fun _ _ => ?_
  refine ((Entity.validateAll_failsAs _).rules.context _).bind fun _ _ => ?_
  exact (Triples.validate_failsAs h).rules.context _

end Comid

end Rim
