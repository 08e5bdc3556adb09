import Rim.Proofs.Choice.Failure
import Rim.Proofs.Layout.Cbor
import Rim.Proofs.Layout.Json
import Rim.Proofs.Layout.Missing
import Rim.Proofs.Registry.Dispatch

/-!
# What is at fault in a type choice

A type choice that is refused has an unknown tag or name, is of the wrong shape, or breaks the rule
of its kind. The kind of the error says which, but for two lapses: an implementation identifier of
the wrong length is refused as invalid when it is read, and a map or an object that lacks a
mandatory member is refused for the missing field.

* `Kind.BinaryLapse`, `Kind.TextLapse`: the lapses of the two formats.
* `Kind.failure?_ofCbor_iff`, `Kind.failure?_ofJson_iff`: the readings of the kinds lapse there and
  nowhere else.
* `Registry.failure?_dispatch`: the step from a discriminator to a checked value.
* `ChoiceRegistry.fault_decides`: the kind of the error tells the fault.
-/

namespace Rim

open Layout (Lacks)

/-! ### The lapses -/

/-- What stands under the tag of a kind is refused for something else than its shape: an
implementation identifier for its length, a reference value identifier for its missing signer. -/
inductive Kind.BinaryLapse : Kind → Cbor.Value → ErrorKind → Prop
  | length {b : Bytes} (hb : b.length ≠ 32) : BinaryLapse .implementationId (.bytes b) .invalid
  | lacking {entries : Cbor.Entries} (h : Lacks ReferenceValueId.binaryMembers entries) :
      BinaryLapse .referenceValueId (.map entries) .missingField

/-- What stands beside the name of a kind is refused for something else than its shape: an
implementation identifier for its length, an object for a missing member. -/
inductive Kind.TextLapse : Kind → Json.Value → ErrorKind → Prop
  | length {v : Json.Value} {b : Bytes} (hv : v.toBytes "PSA implementation id" = .ok b)
      (hb : b.length ≠ 32) : TextLapse .implementationId v .invalid
  | lacking {k : Kind} {members : List (Member String (Layout Json.Value))} {ms : Json.Members}
      (hk : k.textLayout? = some (.object members)) (h : Lacks members ms) :
      TextLapse k (.object ms) .missingField

namespace ImplementationId

/-- Octets that are read but not of the right number are invalid, and nothing else is. -/
theorem failure?_ofBytes_iff {octets : Result Bytes} (h : octets.FailsAs [.malformed])
    {kind : ErrorKind} :
    (Result.failure? (do ofBytes (← octets)) = some kind ∧ kind ≠ .malformed) ↔
      kind = .invalid ∧ ∃ b, octets = .ok b ∧ b.length ≠ 32 := by
  cases octets with
  | error e =>
    constructor
    · rintro ⟨he, hkind⟩
      exact absurd (Result.eq_malformed_of_shape h he) hkind
    · rintro ⟨-, b, hb, -⟩
      cases hb
  | ok b =>
    rw [Result.ok_bind]
    unfold ofBytes
    by_cases hb : b.length = 32
    · rw [dif_pos hb]
      constructor
      · rintro ⟨hok, -⟩
        cases hok
      · rintro ⟨-, b', hok, hb'⟩
        obtain rfl := Except.ok.inj hok
        exact absurd hb hb'
    · rw [dif_neg hb]
      constructor
      · rintro ⟨hk, -⟩
        exact ⟨(Option.some.inj hk).symm, b, rfl, hb⟩
      · rintro ⟨rfl, -⟩
        exact ⟨rfl, nofun⟩

end ImplementationId

/-! ### The binary format -/

open Cbor (field)

namespace ReferenceValueId

theorem binaryMembers_shaped : ∀ m ∈ binaryMembers, m.layout.Shaped := by
  intro m hm
  rcases List.mem_cons.1 hm with rfl | hm
  · exact Layout.shaped_reading (Cbor.Value.toText_shape _) _
  rcases List.mem_cons.1 hm with rfl | hm
  · exact Layout.shaped_reading (Cbor.Value.toText_shape _) _
  obtain rfl := List.mem_singleton.1 hm
  exact Layout.shaped_reading (Cbor.Value.toBytes_shape _) _

end ReferenceValueId

/-- The readings of most kinds refuse values for their shape only. -/
theorem Kind.ofCbor_shape {k : Kind} (hi : k ≠ .implementationId) (hr : k ≠ .referenceValueId)
    (v : Cbor.Value) : (k.ofCbor v).FailsAs [.malformed] := by
  have huuid : (Uuid.ofCbor v).FailsAs [.malformed] := by
    refine (v.toBytes_shape _).bind fun b _ => ?_
    unfold Uuid.ofBytes
    split
    · trivial
    · exact .shape
  have hoid : (Oid.ofCbor v).FailsAs [.malformed] := (v.toBytes_shape _).bind fun _ _ => trivial
  have hueid : (Ueid.ofCbor v).FailsAs [.malformed] := (v.toBytes_shape _).bind fun _ _ => trivial
  have hkey : (PublicKey.ofCbor v).FailsAs [.malformed] :=
    (v.toText_shape _).bind fun _ _ => trivial
  have hmasked : (MaskedValue.ofCbor v).FailsAs [.malformed] := by
    refine (v.toPair_shape _).bind fun parts _ => ?_
    refine (parts.1.toBytes_shape _).bind fun _ _ => ?_
    exact (parts.2.toBytes_shape _).bind fun _ _ => trivial
  cases k with
  | uuid => exact huuid.map fun _ _ => trivial
  | oid => exact hoid.map fun _ _ => trivial
  | ueid => exact hueid.map fun _ _ => trivial
  | int | svn | minSvn => exact (v.toUInt64_shape _).map fun _ _ => trivial
  | publicKey => exact hkey.map fun _ _ => trivial
  | bytes => exact (v.toBytes_shape _).map fun _ _ => trivial
  | masked => exact hmasked.map fun _ _ => trivial
  | implementationId => exact absurd rfl hi
  | referenceValueId => exact absurd rfl hr

/-- **What stands under a tag is malformed** where it cannot be read, but for the lapses. -/
theorem Kind.failure?_ofCbor_iff {k : Kind} {v : Cbor.Value} {kind : ErrorKind} :
    ((k.ofCbor v).failure? = some kind ∧ kind ≠ .malformed) ↔ k.BinaryLapse v kind := by
  by_cases hi : k = .implementationId
  · subst hi
    have hmap : (Kind.implementationId.ofCbor v).failure? = (ImplementationId.ofCbor v).failure? :=
      Result.failure?_map
    rw [hmap]
    refine (ImplementationId.failure?_ofBytes_iff (v.toBytes_shape _)).trans ?_
    constructor
    · rintro ⟨rfl, b, hv, hb⟩
      cases v with
      | bytes b' =>
        obtain rfl := Except.ok.inj hv
        exact .length hb
      | _ => cases hv
    · rintro ⟨hb⟩
      exact ⟨rfl, _, rfl, hb⟩
  by_cases hr : k = .referenceValueId
  · subst hr
    have hmap : (Kind.referenceValueId.ofCbor v).failure? = (ReferenceValueId.ofCbor v).failure? :=
      Result.failure?_map
    rw [hmap, ReferenceValueId.failure?_ofCbor]
    cases v with
    | map entries =>
      refine (Layout.failureOfMembers_not_malformed ReferenceValueId.binaryMembers_shaped).trans ?_
      constructor
      · rintro ⟨rfl, h⟩
        exact .lacking h
      · intro h
        cases h with
        | lacking h => exact ⟨rfl, h⟩
    | _ =>
      constructor
      · rintro ⟨h, hkind⟩
        exact absurd (Option.some.inj h).symm hkind
      · intro h
        cases h
  · constructor
    · rintro ⟨h, hkind⟩
      exact absurd (Result.eq_malformed_of_shape (Kind.ofCbor_shape hi hr v) h) hkind
    · intro h
      cases h with
      | length => exact absurd rfl hi
      | lacking => exact absurd rfl hr

/-! ### The text format -/

namespace Json.Value

theorem toText_shape (what : String) (v : Value) : (v.toText what).FailsAs [.malformed] := by
  cases v with
  | string s => trivial
  | _ => exact .shape

theorem toBytes_shape (what : String) (v : Value) : (v.toBytes what).FailsAs [.malformed] := by
  refine (v.toText_shape what).bind fun s _ => ?_
  unfold octetsOf
  split
  · trivial
  · exact .shape

theorem toUInt64_shape (what : String) (v : Value) : (v.toUInt64 what).FailsAs [.malformed] := by
  unfold toUInt64
  split
  · exact .ite trivial .shape
  · exact .shape

end Json.Value

theorem Uuid.parse_shape (text : String) : (Uuid.parse text).FailsAs [.malformed] := by
  unfold parse
  refine .ite .shape ?_
  split
  · split
    · trivial
    · exact .shape
  · exact .shape

/-- A notation that writes no arcs is of the wrong shape. -/
theorem Oid.parse_shape (text : String) : (Oid.parse text).FailsAs [.malformed] := by
  have harcs : (Oid.parseArcs text).FailsAs [.malformed] := by
    refine Result.FailsAs.mapM (fun arc => ?_) _
    split
    · trivial
    · exact .shape
  refine harcs.bind fun arcs _ => ?_
  split
  · exact .ite .shape (.ite .shape trivial)
  · exact .shape

/-- The members of the objects that the kinds have are refused for their shape only. -/
theorem Kind.textMembers_shaped {k : Kind} {members : List (Member String (Layout Json.Value))}
    (h : k.textLayout? = some (.object members)) : ∀ m ∈ members, m.layout.Shaped := by
  intro m hm
  cases k with
  | masked =>
    obtain ⟨rfl, -⟩ := Layout.map.inj (Option.some.inj h)
    rcases List.mem_cons.1 hm with rfl | hm
    · exact Layout.shaped_reading (Json.Value.toBytes_shape _) _
    obtain rfl := List.mem_singleton.1 hm
    exact Layout.shaped_reading (Json.Value.toBytes_shape _) _
  | referenceValueId =>
    obtain ⟨rfl, -⟩ := Layout.map.inj (Option.some.inj h)
    rcases List.mem_cons.1 hm with rfl | hm
    · exact Layout.shaped_reading (Json.Value.toText_shape _) _
    rcases List.mem_cons.1 hm with rfl | hm
    · exact Layout.shaped_reading (Json.Value.toText_shape _) _
    obtain rfl := List.mem_singleton.1 hm
    exact Layout.shaped_reading (Json.Value.toBytes_shape _) _
  | _ => cases h

/-- The kinds whose values are objects have layouts of members. -/
theorem Kind.textLayout?_cases (k : Kind) :
    k.textLayout? = none ∨ ∃ members, k.textLayout? = some (.object members) := by
  cases k with
  | masked => exact .inr ⟨_, rfl⟩
  | referenceValueId => exact .inr ⟨_, rfl⟩
  | _ => exact .inl rfl

/-- The readings of the other kinds refuse values for their shape only, implementation identifiers
apart. -/
theorem Kind.ofJson_shape {k : Kind} (hi : k ≠ .implementationId) (hl : k.textLayout? = none)
    (v : Json.Value) : (k.ofJson v).FailsAs [.malformed] := by
  have huuid : (Uuid.ofJson v).FailsAs [.malformed] :=
    (v.toText_shape _).bind fun text _ => Uuid.parse_shape text
  have hoid : (Oid.ofJson v).FailsAs [.malformed] :=
    (v.toText_shape _).bind fun text _ => Oid.parse_shape text
  have hueid : (Ueid.ofJson v).FailsAs [.malformed] := (v.toBytes_shape _).bind fun _ _ => trivial
  have hkey : (PublicKey.ofJson v).FailsAs [.malformed] :=
    (v.toText_shape _).bind fun _ _ => trivial
  cases k with
  | uuid => exact huuid.map fun _ _ => trivial
  | oid => exact hoid.map fun _ _ => trivial
  | ueid => exact hueid.map fun _ _ => trivial
  | int | svn | minSvn => exact (v.toUInt64_shape _).map fun _ _ => trivial
  | publicKey => exact hkey.map fun _ _ => trivial
  | bytes => exact (v.toBytes_shape _).map fun _ _ => trivial
  | implementationId => exact absurd rfl hi
  | masked => cases hl
  | referenceValueId => cases hl

/-- **What stands beside a name is malformed** where it cannot be read, but for the lapses. -/
theorem Kind.failure?_ofJson_iff {k : Kind} {v : Json.Value} {kind : ErrorKind} :
    ((k.ofJson v).failure? = some kind ∧ kind ≠ .malformed) ↔ k.TextLapse v kind := by
  by_cases hi : k = .implementationId
  · subst hi
    have hmap : (Kind.implementationId.ofJson v).failure? = (ImplementationId.ofJson v).failure? :=
      Result.failure?_map
    rw [hmap]
    refine (ImplementationId.failure?_ofBytes_iff (v.toBytes_shape _)).trans ?_
    constructor
    · rintro ⟨rfl, b, hv, hb⟩
      exact .length hv hb
    · intro h
      cases h with
      | length hv hb => exact ⟨rfl, _, hv, hb⟩
      | lacking hk => cases hk
  rcases k.textLayout?_cases with hl | ⟨members, hl⟩
  · constructor
    · rintro ⟨h, hkind⟩
      exact absurd (Result.eq_malformed_of_shape (Kind.ofJson_shape hi hl v) h) hkind
    · intro h
      cases h with
      | length => exact absurd rfl hi
      | lacking hk =>
        rw [hl] at hk
        cases hk
  · rw [Kind.failure?_ofJson hl]
    cases v with
    | object ms =>
      refine (Layout.failureOfMembers_not_malformed (Kind.textMembers_shaped hl)).trans ?_
      constructor
      · rintro ⟨rfl, h⟩
        exact .lacking hl h
      · intro h
        cases h with
        | length => exact absurd rfl hi
        | lacking hk h =>
          rw [hl] at hk
          obtain ⟨rfl, -⟩ := Layout.map.inj (Option.some.inj hk)
          exact ⟨rfl, h⟩
    | _ =>
      constructor
      · rintro ⟨h, hkind⟩
        exact absurd (Option.some.inj h).symm hkind
      · intro h
        cases h
        exact absurd rfl hi

/-! ### Registries -/

/-- What can be at fault in a type choice that is refused. -/
inductive Fault
  /-- The tag or the type name is not known. -/
  | discriminator
  /-- What stands under the tag or beside the name cannot be read. -/
  | shape
  /-- What was read breaks the rule of its kind. -/
  | rule
deriving DecidableEq, Repr

/-- The kind of the errors that tell a fault. -/
def Fault.kind : Fault → ErrorKind
  | discriminator => .unknownTypeChoice
  | shape => .malformed
  | rule => .invalid

namespace Registry

variable {κ χ : Type} [Checkable χ]

/-- What is at fault with the entry that a tag or a name selects and with what the entry reads, if
anything is. -/
def fault? (found : Option (Entry κ χ)) (read : Reader χ → Result χ) : Option Fault :=
  match found with
  | none => some .discriminator
  | some e =>
    match read e.reader with
    | .error _ => some .shape
    | .ok x =>
      match Checkable.validate x with
      | .error _ => some .rule
      | .ok () => none

/-- **A discriminator is looked up, what it selects reads, and what was read is checked.** The kind
of the error tells at which step a value was refused, if the readings refuse values as malformed and
the rules refuse them as invalid. -/
theorem failure?_dispatch {found : Option (Entry κ χ)} {selected : Result (Reader χ)}
    {read : Reader χ → Result χ}
    (hnone : found = none → selected.failure? = some .unknownTypeChoice)
    (hsome : ∀ e, found = some e → selected = .ok e.reader)
    (hread : ∀ e, found = some e → ∀ kind, (read e.reader).failure? = some kind →
      kind = .malformed)
    (hrule : ∀ x : χ, (Checkable.validate x).FailsAs [.invalid]) :
    Result.failure? ((selected >>= read) >>= checked) = (fault? found read).map Fault.kind := by
  unfold fault?
  cases found with
  | none => exact Result.failure?_bind_of_some (Result.failure?_bind_of_some (hnone rfl))
  | some e =>
    rw [hsome e rfl, Result.ok_bind]
    dsimp only
    cases hx : read e.reader with
    | error err =>
      have hkind := hread e rfl err.kind (by rw [hx]; rfl)
      exact congrArg some hkind
    | ok x =>
      rw [Result.ok_bind, checked]
      dsimp only
      have hkind := hrule x
      cases hv : Checkable.validate x with
      | ok u => rfl
      | error err =>
        rw [hv] at hkind
        exact congrArg some (List.mem_singleton.1 hkind)

end Registry

namespace ChoiceRegistry

open Registry (fault?)

variable {r : ChoiceRegistry}

/-- The entries of a registry of kinds read as their kinds do. -/
theorem reader_of_byTag? (hr : r.Consistent) (ho : r.Owned) {tag : UInt64} {e : Entry Kind Choice}
    (he : r.byTag? tag = some e) :
    ∃ k : Kind, k.tag = tag ∧ k.name = e.name ∧ e.reader = ⟨k.ofCbor, k.ofJson⟩ := by
  obtain ⟨k, hk⟩ := ho.owner he
  have hof := hr.owned tag e he k hk
  exact ⟨k, hof.tag.symm.trans (hr.tagged tag e he).1, hof.name.symm, hof.reader⟩

/-- **The kind of the error tells what is at fault** in a type choice, in every registry of kinds:
an unknown tag or name, a shape that cannot be read (malformed), or a rule that is broken (invalid);
and a choice without a fault is accepted. The rules refuse values as invalid and in no other way;
the readings refuse them as malformed, but for the lapses, which are left out. -/
theorem fault_decides (hr : r.Consistent) (ho : r.Owned) :
    (∀ (k : Kind) v kind, (k.ofCbor v).failure? = some kind →
      kind = .malformed ∨ k.BinaryLapse v kind) ∧
    (∀ (k : Kind) v kind, (k.ofJson v).failure? = some kind →
      kind = .malformed ∨ k.TextLapse v kind) ∧
    (∀ (x : Choice) kind, x.validate.failure? = some kind → kind = .invalid) ∧
    (∀ tag body, (∀ k : Kind, k.tag = tag → ∀ kind, ¬ k.BinaryLapse body kind) →
      (r.ofCbor (.tag tag body)).failure? =
        (fault? (r.byTag? tag) (·.ofCbor body)).map Fault.kind) ∧
    ∀ v name value, v.untyped = .ok (name, value) →
      (∀ k : Kind, k.name = name → ∀ kind, ¬ k.TextLapse value kind) →
      (r.ofJson v).failure? = (fault? (r.byName? name) (·.ofJson value)).map Fault.kind := by
  have hcbor (k : Kind) v kind (h : (k.ofCbor v).failure? = some kind) :
      kind = .malformed ∨ k.BinaryLapse v kind :=
    or_iff_not_imp_left.2 fun hkind => Kind.failure?_ofCbor_iff.1 ⟨h, hkind⟩
  have hjson (k : Kind) v kind (h : (k.ofJson v).failure? = some kind) :
      kind = .malformed ∨ k.TextLapse v kind :=
    or_iff_not_imp_left.2 fun hkind => Kind.failure?_ofJson_iff.1 ⟨h, hkind⟩
  refine ⟨hcbor, hjson, ?_, ?_, ?_⟩
  · intro x kind h
    obtain ⟨e, he, rfl⟩ := Result.failure?_eq_some.1 h
    exact List.mem_singleton.1 (x.validate_failsAs.of_error he)
  · intro tag body hlapse
    refine Registry.failure?_dispatch (fun h => ?_) (fun e he => ?_) ?_ Choice.validate_failsAs
    · rw [Registry.readerOfTag, h]
      rfl
    · rw [Registry.readerOfTag, he]
    · intro e he kind h
      obtain ⟨k, htag, -, hreader⟩ := reader_of_byTag? hr ho he
      rw [hreader] at h
      exact (hcbor k body kind h).resolve_right (hlapse k htag kind)
  · intro v name value hv hlapse
    have hofJson : r.ofJson v = r.readNamed name value >>= Registry.checked := by
      rw [Registry.ofJson, hv]
      rfl
    rw [hofJson]
    refine Registry.failure?_dispatch (fun h => ?_) (fun e he => ?_) ?_ Choice.validate_failsAs
    · rw [Registry.readerOfName, h]
      rfl
    · rw [Registry.readerOfName, he]
    · intro e he kind h
      -- the entry that the name selects stands under its tag as well
      obtain ⟨hname, htag⟩ := hr.named name e he
      obtain ⟨k, -, hk, hreader⟩ := reader_of_byTag? hr ho htag
      rw [hreader] at h
      exact (hjson k value kind h).resolve_right (hlapse k (hk.trans hname) kind)

/-- An unknown tag, a UUID that is a text, octets that are none, and a number, read by the bundled
registry. -/
theorem fault_decides_bundled :
    (Catalogue.bundled.registry.ofCbor (.tag 4711 .null)).failure? = some .unknownTypeChoice ∧
    (Catalogue.bundled.registry.ofCbor (.tag 37 (.text "uuid"))).failure? = some .malformed ∧
    (Catalogue.bundled.registry.ofJson (.typed "bytes" (.string ""))).failure? = some .invalid ∧
    (Catalogue.bundled.registry.ofJson (.typed "int" (.ofUInt64 7))).failure? = none := by
  have hr := (Catalogue.consistent_of_reachable Catalogue.bundled_reachable).registry
  obtain ⟨-, -, -, hcbor, hjson⟩ := fault_decides hr (by decide)
  have hbody {tag : UInt64} (h : tag ≠ 600 ∧ tag ≠ 601) (body : Cbor.Value) (k : Kind)
      (hk : k.tag = tag) (kind : ErrorKind) : ¬ k.BinaryLapse body kind := by
    intro hlapse
    cases hlapse with
    | length => exact h.1 hk.symm
    | lacking => exact h.2 hk.symm
  have htext {name : String} (h : name = "bytes" ∨ name = "int") (value : Json.Value) (k : Kind)
      (hk : k.name = name) (kind : ErrorKind) : ¬ k.TextLapse value kind := by
    subst hk
    intro hlapse
    cases hlapse with
    | length => exact absurd h (by decide)
    | lacking hl =>
      -- the kinds whose values are objects have other names
      cases k with
      | masked | referenceValueId => exact absurd h (by decide)
      | _ => cases hl
  refine ⟨?_, ?_, ?_, ?_⟩
  · rw [hcbor 4711 .null (hbody (by decide) _)]
    rfl
  · rw [hcbor 37 (.text "uuid") (hbody (by decide) _)]
    rfl
  · rw [hjson _ _ _ (Json.Value.untyped_typed "bytes" (.string "")) (htext (.inl rfl) _)]
    decide +kernel
  · rw [hjson _ _ _ (Json.Value.untyped_typed "int" (.ofUInt64 7)) (htext (.inr rfl) _)]
    decide +kernel

/-- An implementation identifier of 31 octets is refused as invalid, although its shape is at fault
and no value was read that could break a rule. A reference value identifier without a signer and a
masked value without its members are refused for a missing field. -/
theorem short_implementationId_invalid :
    (Kind.implementationId.ofCbor (.bytes (List.replicate 31 0))).failure? = some .invalid ∧
    (Catalogue.bundled.registry.ofCbor (.tag 600 (.bytes (List.replicate 31 0)))).failure? =
      some .invalid ∧
    fault? (Catalogue.bundled.registry.byTag? 600) (·.ofCbor (.bytes (List.replicate 31 0))) =
      some .shape ∧
    (Kind.referenceValueId.ofCbor (.map [])).failure? = some .missingField ∧
    (Kind.masked.ofJson (.object [])).failure? = some .missingField ∧
    ¬ ∀ (k : Kind) v kind, (k.ofCbor v).failure? = some kind → kind = .malformed := by
  refine ⟨rfl, rfl, rfl, rfl, rfl, ?_⟩
  intro h
  cases h .implementationId (.bytes (List.replicate 31 0)) .invalid rfl

end ChoiceRegistry

end Rim
