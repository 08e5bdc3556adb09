import Rim.Proofs.Choice.Json
import Rim.Proofs.Choice.Lossless

/-!
# Readings are selected coherently

A value is read by a tag or by a type name, and it is written with the tag and the name of its own
kind. In a registry that was built of kinds alone the two sides fit: what a tag or a name selects
gives values that are written with that tag and that name.

* `Variants`: kinds whose readings give their own values, and how a value is written with its keys.
* `Registry.Adds.owned`: adding kinds keeps every entry the entry of some kind.
* `Registry.run_owned`: what whole runs of such calls keep, by induction on the calls.
* `Registry.isOf_of_readerOfTag`, `Registry.isOf_of_readerOfName`: what a key selects.
* `Registry.coherent_of_run`: whatever such a registry accepts is coherent with it.
-/

namespace Rim

/-- Kinds that values belong to. A reading of a kind gives values of that kind, and the name that a
value tells is the name of its kind. What stands under the tag or beside the name is written by the
value. -/
class Variants (κ : outParam Type) (χ : Type) [KindFamily κ χ] [Checkable χ] where
  kindOf : χ → κ
  body : χ → Cbor.Value
  text : χ → Json.Value
  typeName_eq (x : χ) : Checkable.typeName x = KindFamily.name (kindOf x)
  kindOf_ofCbor {k : κ} {v : Cbor.Value} {x : χ} :
    (KindFamily.reader k).ofCbor v = .ok x → kindOf x = k
  kindOf_ofJson {k : κ} {v : Json.Value} {x : χ} :
    (KindFamily.reader k).ofJson v = .ok x → kindOf x = k

namespace Variants

variable {κ χ : Type} [KindFamily κ χ] [Checkable χ] [Variants κ χ]

/-- The tag that a value is written with. -/
def tag (x : χ) : UInt64 := KindFamily.tag (kindOf x)

/-- The binary form: the body under the tag of the value's kind. -/
def toCbor (x : χ) : Cbor.Value := .tag (tag x) (body x)

/-- The text form: the text beside the name of the value's kind. -/
def toJson (x : χ) : Json.Value := .typed (Checkable.typeName x) (text x)

end Variants

theorem Kind.kind_of_ofJson {k : Kind} {v : Json.Value} {x : Choice} (h : k.ofJson v = .ok x) :
    x.kind = k := by
  cases k <;> obtain ⟨a, -, rfl⟩ := Result.map_eq_ok.1 h <;> rfl

instance : Variants Kind Choice where
  kindOf := Choice.kind
  body := Choice.body
  text := Choice.text
  typeName_eq _ := rfl
  kindOf_ofCbor := Kind.kind_of_ofCbor
  kindOf_ofJson := Kind.kind_of_ofJson

namespace Choice

/-- Type choices are written as all values with keys are. -/
@[simp] theorem variants_toCbor (x : Choice) : Variants.toCbor x = x.toCbor := rfl

@[simp] theorem variants_toJson (x : Choice) : Variants.toJson x = x.toJson := rfl

end Choice

namespace Registry

variable {κ χ : Type} {r r' : Registry κ χ} {ks : List κ} {k : κ}

/-! ### Registries of kinds alone -/

theorem empty_owned : (empty : Registry κ χ).Owned := by
  intro e he
  cases he

/-- Every entry is some kind's. -/
theorem Owned.owner (ho : r.Owned) {tag : UInt64} {e : Entry κ χ} (he : r.byTag? tag = some e) :
    ∃ k, e.owner = some k :=
  Option.isSome_iff_exists.1 (ho e (Table.mem_values.2 ⟨tag, he⟩))

variable [KindFamily κ χ]

/-- **Adding kinds** keeps every entry the entry of some kind. -/
theorem Adds.owned (h : r.Adds ks r') (ho : r.Owned) : r'.Owned := by
  intro e he
  obtain ⟨tag, he⟩ := Table.mem_values.1 he
  rcases h.tags tag e he with he | ⟨k, -, -, hk, -⟩
  · exact ho e (Table.mem_values.2 ⟨tag, he⟩)
  · exact Option.isSome_iff_exists.2 ⟨k, hk⟩

theorem isOf_of_readerOfTag (hr : r.Consistent) (ho : r.Owned) {tag : UInt64} {reader : Reader χ}
    (h : r.readerOfTag tag = .ok reader) :
    ∃ e k, r.byTag? tag = some e ∧ e.IsOf k ∧ reader = KindFamily.reader k := by
  unfold readerOfTag at h
  split at h
  · rename_i e he
    obtain ⟨k, hk⟩ := ho.owner he
    have hof := hr.owned tag e he k hk
    exact ⟨e, k, he, hof, (Except.ok.inj h).symm.trans hof.reader⟩
  · cases h

theorem isOf_of_readerOfName (hr : r.Consistent) (ho : r.Owned) {name : String} {reader : Reader χ}
    (h : r.readerOfName name = .ok reader) :
    ∃ e k, r.byName? name = some e ∧ e.IsOf k ∧ reader = KindFamily.reader k := by
  unfold readerOfName at h
  split at h
  · rename_i e he
    -- the entry that the name selects stands under its tag as well
    have htag := (hr.named name e he).2
    obtain ⟨k, hk⟩ := ho.owner htag
    have hof := hr.owned e.tag e htag k hk
    exact ⟨e, k, he, hof, (Except.ok.inj h).symm.trans hof.reader⟩
  · cases h

section

variable [DecidableEq κ]

/-- A call for a kind adds an entry of that kind at most, whether it fails or not. -/
theorem call_adds (r : Registry κ χ) (k : κ) : r.Adds [k] (r.call (.registerKind k)) := by
  cases ha : r.attempt (.registerKind k) with
  | ok r' =>
    rw [call_of_attempt ha]
    exact adds_of_registerKind ha
  | error err =>
    rw [call_of_error ha]
    exact .refl _ _

/-- A run of calls for kinds leaves entries of kinds. -/
theorem foldl_owned (ho : r.Owned) (ks : List κ) :
    ((ks.map .registerKind).foldl call r).Owned := by
  induction ks generalizing r with
  | nil => exact ho
  | cons k ks ih => exact ih ((call_adds r k).owned ho)

theorem run_owned (ks : List κ) : (run (ks.map .registerKind) : Registry κ χ).Owned :=
  foldl_owned empty_owned ks

end

/-! ### What is read -/

variable [Checkable χ] [Variants κ χ]

/-- A valid value that was read by a tag or a name, with what the registry says of these keys: the
value has them and is written with them, each leads to the other, and both select one reading. -/
structure Coherent (r : Registry κ χ) (tag : UInt64) (name : String) (x : χ) : Prop where
  tag_eq : Variants.tag x = tag
  typeName_eq : Checkable.typeName x = name
  nameOf : r.nameOf? tag = some name
  tagOf : r.tagOf? name = some tag
  reader : ∃ reader, r.readerOfTag tag = .ok reader ∧ r.readerOfName name = .ok reader
  valid : Checkable.validate x = .ok ()
  toCbor : ∃ body, Variants.toCbor x = .tag tag body
  toJson : ∃ value, (Variants.toJson x).untyped = .ok (name, value)

/-- A valid value of a kind is coherent with a registry where the kind's tag has the kind's name. -/
theorem coherent_of_kind (hr : r.Consistent) {x : χ} (hx : Variants.kindOf x = k)
    (hv : Checkable.validate x = .ok ())
    (hname : r.nameOf? (KindFamily.tag k) = some (KindFamily.name k)) :
    r.Coherent (KindFamily.tag k) (KindFamily.name k) x := by
  have htype : Checkable.typeName x = KindFamily.name k := by
    rw [Variants.typeName_eq, hx]
  have htag : Variants.tag x = KindFamily.tag k := congrArg KindFamily.tag hx
  refine ⟨htag, htype, hname, (hr.paired.keys _ _).1 hname, hr.paired.readers _ _ hname, hv, ?_, ?_⟩
  · exact ⟨Variants.body x, by rw [Variants.toCbor, htag]⟩
  · exact ⟨Variants.text x, by rw [Variants.toJson, Json.Value.untyped_typed, htype]⟩

/-- What is read under a tag is coherent with the tag and the value's own name. -/
theorem coherent_of_ofCbor (hr : r.Consistent) (ho : r.Owned) {v : Cbor.Value} {x : χ}
    (h : r.ofCbor v = .ok x) :
    ∃ tag body, v = .tag tag body ∧ r.Coherent tag (Checkable.typeName x) x := by
  have hv := validate_of_ofCbor h
  cases v with
  | tag tag body =>
    refine ⟨tag, body, rfl, ?_⟩
    obtain ⟨y, hy, h⟩ := Result.bind_eq_ok.1 h
    obtain ⟨-, rfl⟩ := checked_eq_ok.1 h
    obtain ⟨reader, hreader, hy⟩ := Result.bind_eq_ok.1 hy
    obtain ⟨e, k, he, hof, rfl⟩ := isOf_of_readerOfTag hr ho hreader
    have hkind : Variants.kindOf y = k := Variants.kindOf_ofCbor hy
    obtain rfl : KindFamily.tag k = tag := hof.tag.symm.trans (hr.tagged tag e he).1
    have hname : r.nameOf? (KindFamily.tag k) = some (KindFamily.name k) := by
      rw [nameOf?, he, Option.map_some, hof.name]
    rw [Variants.typeName_eq, hkind]
    exact coherent_of_kind hr hkind hv hname
  | _ => cases h

/-- What is read beside a name is coherent with the name and the value's own tag. -/
theorem coherent_of_ofJson (hr : r.Consistent) (ho : r.Owned) {v : Json.Value} {x : χ}
    (h : r.ofJson v = .ok x) :
    ∃ name value, v.untyped = .ok (name, value) ∧ r.Coherent (Variants.tag x) name x := by
  have hv := validate_of_ofJson h
  obtain ⟨⟨name, value⟩, huntyped, h⟩ := Result.bind_eq_ok.1 h
  refine ⟨name, value, huntyped, ?_⟩
  obtain ⟨y, hy, h⟩ := Result.bind_eq_ok.1 h
  obtain ⟨-, rfl⟩ := checked_eq_ok.1 h
  obtain ⟨reader, hreader, hy⟩ := Result.bind_eq_ok.1 hy
  obtain ⟨e, k, he, hof, rfl⟩ := isOf_of_readerOfName hr ho hreader
  have hkind : Variants.kindOf y = k := Variants.kindOf_ofJson hy
  obtain ⟨hname, htag⟩ := hr.named name e he
  rw [hof.tag] at htag
  obtain rfl : KindFamily.name k = name := hof.name.symm.trans hname
  have hnameOf : r.nameOf? (KindFamily.tag k) = some (KindFamily.name k) := by
    rw [nameOf?, htag, Option.map_some, hname]
  rw [Variants.tag, hkind]
  exact coherent_of_kind hr hkind hv hnameOf

variable [DecidableEq κ]

/-- **Dispatch is coherent** in every registry that calls for kinds have built, in whatever order
and whichever of them failed: a value that is accepted under a tag, or beside a name, has that tag
and that name, is valid, is written with them again in both formats, and the registry knows each of
them by the other and reads both alike. -/
theorem coherent_of_run (ks : List κ) :
    (∀ v (x : χ), (run (ks.map .registerKind)).ofCbor v = .ok x → ∃ tag body, v = .tag tag body ∧
      (run (ks.map .registerKind)).Coherent tag (Checkable.typeName x) x) ∧
    ∀ v (x : χ), (run (ks.map .registerKind)).ofJson v = .ok x → ∃ name value,
      v.untyped = .ok (name, value) ∧
      (run (ks.map .registerKind)).Coherent (Variants.tag x) name x := by
  have hr := run_consistent (ks.map (.registerKind : κ → Call κ χ))
  have ho : (run (ks.map .registerKind) : Registry κ χ).Owned := run_owned ks
  exact ⟨fun v x => coherent_of_ofCbor hr ho, fun v x => coherent_of_ofJson hr ho⟩

/-- Numbers that were registered twice, read in either format. -/
theorem coherent_of_run_int :
    (run ([Kind.int, .svn, .int].map .registerKind)).Coherent 551 "int" (Choice.int 7) ∧
    (run ([Kind.int, .svn, .int].map .registerKind)).Coherent 552 "svn" (Choice.svn 7) := by
  obtain ⟨hcbor, hjson⟩ := coherent_of_run [Kind.int, .svn, .int]
  constructor
  · obtain ⟨tag, body, hv, h⟩ := hcbor (.tag 551 (.natural 7)) (.int 7) rfl
    obtain ⟨rfl, -⟩ := Cbor.Value.tag.inj hv
    exact h
  · obtain ⟨name, value, hv, h⟩ := hjson (.typed "svn" (.ofUInt64 7)) (.svn 7) (by decide +kernel)
    rw [Json.Value.untyped_typed] at hv
    obtain ⟨rfl, -⟩ := Prod.mk.inj (Except.ok.inj hv)
    exact h

end Registry

end Rim
