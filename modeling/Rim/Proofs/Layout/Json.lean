import Rim.Manifest
import Rim.Profile.Bundled
import Rim.Proofs.Json.Members
import Rim.Proofs.Layout.Reading

/-!
# Layouts of the text format

For every object of the text format the members that it has, in the order in which they are read, and
that reading it follows them. The layout of a manifest is that of everything in it, down to the
members of measurement values, where the active profile adds its fields.

* `Json.typed`: the object of a type name and a value.
* `Manifest.textLayout`: a manifest, read with the fields of a scope.
* `EmbeddedTag.failure?_ofJson`: reading a tag follows its layout, and so does reading each part.
-/

namespace Rim

instance : TreeFormat String Json.Value where
  map := .object
  list := .array
  null := .null
  entries?
    | .object members => some members
    | _ => none
  items?
    | .array items => some items
    | _ => none
  entries?_map _ := rfl
  items?_list _ := rfl
  entries?_null := rfl
  items?_null := rfl

namespace Json

/-- The object of a type name and a value. -/
def typed : Wrapping Value := ⟨Value.untyped, nofun⟩

variable {α : Type} {l : Layout Value} {read : Value → Result α}

/-- Reading an object follows its members. -/
theorem failure?_readObject {members : List (Member String (Layout Value))}
    {field? : String → Option (Leaf Value)} {p : Taking α} (h : Unread.Follows p members field?)
    (what : String) (v : Value) :
    (v.readObject what p).failure? = (Layout.map members field?).failure? v := by
  cases v with
  | object entries => exact h _ ⟨what, entries⟩
  | _ => rfl

/-- Two readings of objects are one if they are on the members. -/
theorem readObject_congr {p q : Taking α} {what : String} {v : Value}
    (h : ∀ members, v = .object members → Unread.readAll Remaining.unexpected p ⟨what, members⟩ =
      Unread.readAll Remaining.unexpected q ⟨what, members⟩) :
    v.readObject what p = v.readObject what q := by
  cases v with
  | object members => exact h members rfl
  | _ => rfl

/-- Reading a list follows what its items follow. -/
theorem failure?_items (h : ∀ v, (read v).failure? = l.failure? v) (what : String) (v : Value) :
    Result.failure? (do (← v.toArray what).mapM read) = (Layout.list l).failure? v := by
  cases v with
  | array items => exact Result.failure?_mapM h items
  | _ => rfl

theorem failure?_eachItem (h : ∀ v, (read v).failure? = l.failure? v) (name what : String)
    (v : Value) :
    Result.failure? (do readEach name read (← v.toArray what)) = (Layout.list l).failure? v := by
  cases v with
  | array items => exact Result.failure?_readEach h name items
  | _ => rfl

end Json

/-! ### Values of type choices -/

namespace MaskedValue

def textLayout : Layout Json.Value :=
  .object [⟨"value", true, .reading (Json.Value.toBytes "masked raw value")⟩,
    ⟨"mask", true, .reading (Json.Value.toBytes "masked raw value mask")⟩]

theorem failure?_ofJson (v : Json.Value) : (ofJson v).failure? = textLayout.failure? v := by
  refine Json.failure?_readObject ?_ _ v
  refine .requireWith (fun _ => rfl) fun value => ?_
  exact .requireWith (fun _ => rfl) fun mask => .pure _

end MaskedValue

namespace ReferenceValueId

def textLayout : Layout Json.Value :=
  .object [⟨"label", false, .reading (Json.Value.toText "PSA label")⟩,
    ⟨"version", false, .reading (Json.Value.toText "PSA version")⟩,
    ⟨"signer-id", true, .reading (Json.Value.toBytes "PSA signer-id")⟩]

theorem failure?_ofJson (v : Json.Value) : (ofJson v).failure? = textLayout.failure? v := by
  refine Json.failure?_readObject ?_ _ v
  refine .takeWith (fun _ => rfl) fun label => ?_
  refine .takeWith (fun _ => rfl) fun version => ?_
  exact .requireWith (fun _ => rfl) fun signer => .pure _

end ReferenceValueId

/-- The layout of the values of a kind, for the kinds whose values are objects. -/
def Kind.textLayout? : Kind → Option (Layout Json.Value)
  | masked => some MaskedValue.textLayout
  | referenceValueId => some ReferenceValueId.textLayout
  | _ => none

theorem Kind.failure?_ofJson {k : Kind} {l : Layout Json.Value} (h : k.textLayout? = some l)
    (v : Json.Value) : (k.ofJson v).failure? = l.failure? v := by
  cases k with
  | masked =>
    obtain rfl := Option.some.inj h
    exact Result.failure?_map.trans (MaskedValue.failure?_ofJson v)
  | referenceValueId =>
    obtain rfl := Option.some.inj h
    exact Result.failure?_map.trans (ReferenceValueId.failure?_ofJson v)
  | _ => cases h

/-- A type choice, which is read as a whole. -/
def ChoiceRegistry.textLayout (r : ChoiceRegistry) : Layout Json.Value := .reading r.ofJson

/-! ### Environments -/

namespace ModuleClass

def textLayout (r : ChoiceRegistry) : Layout Json.Value :=
  .object [⟨"id", false, r.textLayout⟩, ⟨"vendor", false, .reading (Json.Value.toText "vendor")⟩,
    ⟨"model", false, .reading (Json.Value.toText "model")⟩,
    ⟨"layer", false, .reading (Json.Value.toUInt64 "layer")⟩,
    ⟨"index", false, .reading (Json.Value.toUInt64 "index")⟩]

theorem failure?_ofJson (r : ChoiceRegistry) (v : Json.Value) :
    (ofJson r v).failure? = (textLayout r).failure? v := by
  refine Json.failure?_readObject ?_ _ v
  refine .takeWith (fun _ => rfl) fun id => ?_
  refine .takeWith (fun _ => rfl) fun vendor => ?_
  refine .takeWith (fun _ => rfl) fun model => ?_
  refine .takeWith (fun _ => rfl) fun layer => ?_
  exact .takeWith (fun _ => rfl) fun index => .pure _

end ModuleClass

namespace Environment

def textLayout (r : ChoiceRegistry) : Layout Json.Value :=
  .object [⟨"class", false, ModuleClass.textLayout r⟩, ⟨"instance", false, r.textLayout⟩,
    ⟨"group", false, r.textLayout⟩]

theorem failure?_ofJson (r : ChoiceRegistry) (v : Json.Value) :
    (ofJson r v).failure? = (textLayout r).failure? v := by
  refine Json.failure?_readObject ?_ _ v
  refine .takeWith (ModuleClass.failure?_ofJson r) fun moduleClass => ?_
  refine .takeWith (fun _ => rfl) fun instanceId => ?_
  exact .takeWith (fun _ => rfl) fun group => .pure _

end Environment

/-! ### Measurements -/

namespace Version

def textLayout : Layout Json.Value :=
  .object [⟨"value", true, .reading (Json.Value.toText "version")⟩,
    ⟨"scheme", false, .reading schemeOfJson⟩]

theorem failure?_ofJson (v : Json.Value) : (ofJson v).failure? = textLayout.failure? v := by
  refine Json.failure?_readObject ?_ _ v
  refine .requireWith (fun _ => rfl) fun value => ?_
  exact .takeWith (fun _ => rfl) fun scheme => .pure _

end Version

/-- The value of an extension field. -/
def Extension.Field.textLeaf (f : Field) : Leaf Json.Value :=
  .reading f.ofJson (by cases h : f.shape <;> simp only [ofJson, h] <;> exact nofun)

/-- The field that a scope has for a member. -/
def Scope.textField? (s : Scope) (name : String) : Option (Leaf Json.Value) :=
  (s.fields.find? (·.name == name)).map (·.textLeaf)

/-- Reading extension values follows the fields of the scope. -/
theorem Extensions.failure?_ofJson (s : Scope) (members : Json.Members) :
    (ofJson s.fields members).failure? = Layout.failureOfRest s.textField? members := by
  unfold ofJson
  generalize empty = x
  induction members generalizing x with
  | nil => rfl
  | cons m r ih =>
    have hm : (readMember s.fields m.1 m.2).failure? =
        Layout.failureOfField s.textField? m.1 m.2 := by
      unfold readMember Layout.failureOfField Scope.textField?
      cases s.fields.find? (·.name == m.1) with
      | none => rfl
      | some f => exact Result.failure?_bind_pure
    rw [List.foldlM_cons, Layout.failureOfRest, Result.failure?_bind fun x _ => ih x,
      Result.failure?_bind_pure, hm]

namespace MeasurementValues

/-- The core values. -/
def textMembers (r : ChoiceRegistry) : List (Member String (Layout Json.Value)) :=
  [⟨"version", false, Version.textLayout⟩, ⟨"svn", false, r.textLayout⟩,
    ⟨"digests", false, .list (.reading Digest.ofJson)⟩, ⟨"raw-value", false, r.textLayout⟩,
    ⟨"raw-value-mask", false, .reading (Json.Value.toBytes "raw value mask")⟩,
    ⟨"serial-number", false, .reading (Json.Value.toText "serial number")⟩,
    ⟨"ueid", false, .reading Ueid.ofJson⟩, ⟨"uuid", false, .reading Uuid.ofJson⟩,
    ⟨"name", false, .reading (Json.Value.toText "name")⟩]

def textLayout (s : Scope) : Layout Json.Value := .map (textMembers s.registry) s.textField?

theorem failure?_ofJson (s : Scope) (v : Json.Value) :
    (ofJson s v).failure? = (textLayout s).failure? v := by
  refine Json.failure?_readObject ?_ _ v
  refine .takeWith (fun v => ?_) fun version => ?_
  · exact Result.failure?_context.trans (Version.failure?_ofJson v)
  refine .takeWith (fun _ => Result.failure?_context) fun svn => ?_
  refine .takeWith (fun v => ?_) fun digests => ?_
  · exact Result.failure?_context.trans (Json.failure?_items (fun _ => rfl) "digests" v)
  refine .takeWith (fun _ => Result.failure?_context) fun rawValue => ?_
  refine .takeWith (fun _ => rfl) fun rawValueMask => ?_
  refine .takeWith (fun _ => rfl) fun serialNumber => ?_
  refine .takeWith (fun _ => rfl) fun ueid => ?_
  refine .takeWith (fun _ => rfl) fun uuid => ?_
  refine .takeWith (fun _ => rfl) fun name => ?_
  exact .takeRest (Extensions.failure?_ofJson s)

end MeasurementValues

namespace Measurement

def textLayout (s : Scope) : Layout Json.Value :=
  .object [⟨"key", false, s.registry.textLayout⟩,
    ⟨"value", true, MeasurementValues.textLayout s⟩]

theorem failure?_ofJson (s : Scope) (v : Json.Value) :
    (ofJson s v).failure? = (textLayout s).failure? v := by
  refine Json.failure?_readObject ?_ _ v
  refine .takeWith (fun _ => Result.failure?_context) fun key => ?_
  exact .requireWith (MeasurementValues.failure?_ofJson s) fun values => .pure _

end Measurement

/-! ### Triples -/

namespace ValueTriple

def textLayout (s : Scope) : Layout Json.Value :=
  .object [⟨"environment", true, Environment.textLayout s.registry⟩,
    ⟨"measurements", true, .list (Measurement.textLayout s)⟩]

theorem failure?_ofJson (s : Scope) (v : Json.Value) :
    (ofJson s v).failure? = (textLayout s).failure? v := by
  refine Json.failure?_readObject ?_ _ v
  refine .requireWith (fun v => ?_) fun environment => ?_
  · exact Result.failure?_context.trans (Environment.failure?_ofJson s.registry v)
  exact .requireWith (Json.failure?_items (Measurement.failure?_ofJson s) _) fun ms => .pure _

end ValueTriple

namespace KeyTriple

def textLayout (r : ChoiceRegistry) : Layout Json.Value :=
  .object [⟨"environment", true, Environment.textLayout r⟩,
    ⟨"verification-keys", true, .list r.textLayout⟩]

theorem failure?_ofJson (r : ChoiceRegistry) (v : Json.Value) :
    (ofJson r v).failure? = (textLayout r).failure? v := by
  refine Json.failure?_readObject ?_ _ v
  refine .requireWith (fun v => ?_) fun environment => ?_
  · exact Result.failure?_context.trans (Environment.failure?_ofJson r v)
  exact .requireWith (Json.failure?_items (fun _ => rfl) _) fun keys => .pure _

end KeyTriple

namespace Triples

def textLayout (s : Scope) : Layout Json.Value :=
  .object [⟨"reference-values", false, .list (ValueTriple.textLayout s)⟩,
    ⟨"endorsed-values", false, .list (ValueTriple.textLayout s)⟩,
    ⟨"dev-identity-keys", false, .list (KeyTriple.textLayout s.registry)⟩,
    ⟨"attester-verification-keys", false, .list (KeyTriple.textLayout s.registry)⟩]

theorem failure?_ofJson (s : Scope) (v : Json.Value) :
    (ofJson s v).failure? = (textLayout s).failure? v := by
  have hv := Json.failure?_items (ValueTriple.failure?_ofJson s)
  have hk := Json.failure?_items (KeyTriple.failure?_ofJson s.registry)
  refine Json.failure?_readObject ?_ _ v
  simp only [takeJson, bind_assoc, pure_bind]
  refine .takeWith (hv _) fun referenceValues => ?_
  refine .takeWith (hv _) fun endorsedValues => ?_
  refine .takeWith (hk _) fun identityKeys => ?_
  exact .takeWith (hk _) fun attestKeys => .pure _

end Triples

/-! ### Module tags -/

namespace TagIdentity

def textLayout : Layout Json.Value :=
  .object [⟨"id", true, .reading Identifier.ofJson⟩,
    ⟨"version", false, .reading (Json.Value.toUInt64 "tag-version")⟩]

theorem failure?_ofJson (v : Json.Value) : (ofJson v).failure? = textLayout.failure? v := by
  refine Json.failure?_readObject ?_ _ v
  refine .requireWith (fun _ => rfl) fun id => ?_
  exact .takeWith (fun _ => rfl) fun version => .pure _

end TagIdentity

namespace Entity

def textLayout (ρ : Type) [RoleSet ρ] : Layout Json.Value :=
  .object [⟨"name", true, .reading (Json.Value.toText "entity name")⟩,
    ⟨"regid", false, .reading (Json.Value.toText "regid")⟩,
    ⟨"roles", true, .list (.reading (roleOfJson (ρ := ρ)))⟩]

theorem failure?_ofJson {ρ : Type} [RoleSet ρ] (v : Json.Value) :
    (ofJson v : Result (Entity ρ)).failure? = (textLayout ρ).failure? v := by
  refine Json.failure?_readObject ?_ _ v
  refine .requireWith (fun _ => rfl) fun name => ?_
  refine .takeWith (fun _ => rfl) fun registration => ?_
  exact .requireWith (Json.failure?_items (fun _ => rfl) _) fun roles => .pure _

end Entity

namespace Comid

def textLayout (s : Scope) : Layout Json.Value :=
  .object [⟨"lang", false, .reading (Json.Value.toText "lang")⟩,
    ⟨"tag-identity", true, TagIdentity.textLayout⟩,
    ⟨"entities", false, .list (Entity.textLayout TagRole)⟩,
    ⟨"triples", true, Triples.textLayout s⟩]

theorem failure?_ofJson (s : Scope) (v : Json.Value) :
    (ofJson s v).failure? = (textLayout s).failure? v := by
  refine Json.failure?_readObject ?_ _ v
  refine .takeWith (fun _ => rfl) fun language => ?_
  refine .requireWith (fun v => ?_) fun identity => ?_
  · exact Result.failure?_context.trans (TagIdentity.failure?_ofJson v)
  refine .takeWith (Json.failure?_items Entity.failure?_ofJson _) fun entities => ?_
  refine .requireWith (fun v => ?_) fun triples => .pure _
  exact Result.failure?_context.trans (Triples.failure?_ofJson s v)

end Comid

namespace EmbeddedTag

/-- What stands under a type name. -/
def textBody (s : Scope) (type : String) : Layout Json.Value :=
  if type = "comid" then Comid.textLayout s
  else if type = "opaque" then .reading (Json.Value.toBytes "opaque tag")
  else .leaf (.refused _ .malformed)

def textLayout (s : Scope) : Layout Json.Value := .wrapped Json.typed (textBody s)

theorem failure?_ofJson (s : Scope) (v : Json.Value) :
    (ofJson s v).failure? = (textLayout s).failure? v := by
  refine Layout.failure?_unwrap (w := Json.typed) (fun type v => ?_) v
  unfold textBody
  dsimp only
  split
  · exact Result.failure?_bind_pure.trans (Comid.failure?_ofJson s v)
  · split
    · exact Result.failure?_bind_pure
    · rfl

end EmbeddedTag

/-! ### Manifests -/

namespace Validity

def textLayout : Layout Json.Value :=
  .object [⟨"not-before", false, .reading (boundOfJson "not-before")⟩,
    ⟨"not-after", true, .reading (boundOfJson "not-after")⟩]

theorem failure?_ofJson (v : Json.Value) : (ofJson v).failure? = textLayout.failure? v := by
  refine Json.failure?_readObject ?_ _ v
  refine .takeWith (fun _ => rfl) fun notBefore => ?_
  exact .requireWith (fun _ => rfl) fun notAfter => .pure _

end Validity

namespace Locator

def textLayout : Layout Json.Value :=
  .object [⟨"href", true, .reading (Json.Value.toText "href")⟩,
    ⟨"thumbprint", false, .reading Digest.ofJson⟩]

theorem failure?_ofJson (v : Json.Value) : (ofJson v).failure? = textLayout.failure? v := by
  refine Json.failure?_readObject ?_ _ v
  refine .requireWith (fun _ => rfl) fun href => ?_
  exact .takeWith (fun _ => rfl) fun thumbprint => .pure _

end Locator

namespace Manifest

/-- The members that are read after the profile. -/
def textMembers (s : Scope) : List (Member String (Layout Json.Value)) :=
  [⟨"corim-id", true, .reading Identifier.ofJson⟩,
    ⟨"tags", true, .list (EmbeddedTag.textLayout s)⟩,
    ⟨"dependent-rims", false, .list Locator.textLayout⟩,
    ⟨"validity", false, Validity.textLayout⟩,
    ⟨"entities", false, .list (Entity.textLayout ManifestRole)⟩]

def textLayout (s : Scope) : Layout Json.Value :=
  .object (⟨"profile", false, .reading ProfileId.ofJson⟩ :: textMembers s)

/-- **Reading a manifest follows its layout** for the fields of the profile that it names. -/
theorem failure?_ofJson (c : Catalogue) {p : Option ProfileId} {members : Json.Members}
    (hp : Unread.Finds "profile" ProfileId.ofJson p members) :
    (ofJson c (.object members)).failure? =
      (textLayout (c.scope p)).failure? (.object members) := by
  refine Unread.failure?_takeFirst (fun _ => Result.failure?_context)
    (Unread.Finds.context_iff.2 hp) ?_
  refine .requireWith (fun _ => Result.failure?_context) fun id => ?_
  refine .requireWith (Json.failure?_eachItem (EmbeddedTag.failure?_ofJson _) _ _) fun tags => ?_
  refine .takeWith (Json.failure?_items Locator.failure?_ofJson _) fun dependents => ?_
  refine .takeWith (fun v => ?_) fun validity => ?_
  · exact Result.failure?_context.trans (Validity.failure?_ofJson v)
  exact .takeWith (Json.failure?_items Entity.failure?_ofJson _) fun entities => .pure _

variable {c : Catalogue} {m : Manifest} {v v' : Json.Value}

/-- A manifest has the profile that its tree names. -/
theorem finds_of_ofJson (h : ofJson c v = .ok m) :
    ∃ members, v = .object members ∧ Unread.Finds "profile" ProfileId.ofJson m.profile members := by
  cases v with
  | object members =>
    refine ⟨members, rfl, ?_⟩
    have hf := Unread.Finds.of_readAll Manifest.profile (fun o => ?_) h
    · exact Unread.Finds.context_iff.1 hf
    · exact .skip fun _ => .skip fun _ => .skip fun _ => .skip fun _ => .skip fun _ => .pure rfl
  | _ => cases h

/-- **A change of one place of a manifest** decides whether it is refused and why, unless the manifest
names another profile by it. -/
theorem failure?_ofJson_changed {R : Layout Json.Value → Json.Value → Json.Value → Prop}
    {out : Option ErrorKind} (h : ofJson c v = .ok m)
    (hR : ∀ l v v', R l v v' → l.failure? v = none → l.failure? v' = out)
    (hprofile : ∀ v v', R (.reading ProfileId.ofJson) v v' →
      (ProfileId.ofJson v).failure? = none → (ProfileId.ofJson v').failure? ≠ none)
    (htop : ∀ members v', R (textLayout (c.scope m.profile)) (.object members) v' →
      Unread.Finds "profile" ProfileId.ofJson m.profile members → ∃ members', v' = .object members' ∧
        Unread.Finds "profile" ProfileId.ofJson m.profile members')
    (hi : Layout.Inside R (textLayout (c.scope m.profile)) v v') : (ofJson c v').failure? = out := by
  obtain ⟨members, rfl, hf⟩ := finds_of_ofJson h
  have hv := (failure?_ofJson c hf).symm.trans (congrArg Result.failure? h)
  obtain ⟨members', rfl, hf'⟩ := hf.of_inside (d := ⟨"profile", false, _⟩) rfl
    (fun v v' hi => hprofile v v' hi.of_leaf) hv (fun v' ht => htop members v' ht hf) hi
  exact (failure?_ofJson c hf').trans (hi.failure? hR hv)

end Manifest

/-! ### Manifests around measurement values -/

section

open Layout

variable {s : Scope} {R : Layout Json.Value → Json.Value → Json.Value → Prop} {v v' : Json.Value}

/-- A module tag of one measurement with the given values. -/
def Comid.textAround (values : Json.Value) : Json.Value :=
  let environment : Json.Value := .object [("instance", .typed Kind.int.name (.ofUInt64 1))]
  let triple : Json.Value := .object [("environment", environment),
    ("measurements", .array [.object [("value", values)]])]
  .object [("tag-identity", .object [("id", .string "acme-module")]),
    ("triples", .object [("reference-values", .array [triple])])]

/-- A manifest of that module tag and the TDX profile. -/
def Manifest.textAround (values : Json.Value) : Json.Value :=
  .object [("corim-id", .string "acme-rim"), ("profile", Tdx.profileId.toJson),
    ("tags", .array [.typed "comid" (Comid.textAround values)])]

theorem Comid.inside_textAround (h : Inside R (MeasurementValues.textLayout s) v v') :
    Inside R (Comid.textLayout s) (Comid.textAround v) (Comid.textAround v') := by
  refine .member (m := ⟨"triples", true, Triples.textLayout s⟩) (by simp [member?])
    (.skip (by simp) (.replaced (by simp))) ?_
  refine .member (m := ⟨"reference-values", false, .list (ValueTriple.textLayout s)⟩)
    (by simp [member?]) (.replaced (by simp)) (.head ?_)
  refine .member (m := ⟨"measurements", true, .list (Measurement.textLayout s)⟩)
    (by simp [member?]) (.skip (by simp) (.replaced (by simp))) (.head ?_)
  exact .member (m := ⟨"value", true, MeasurementValues.textLayout s⟩) (by simp [member?])
    (.replaced (by simp)) h

/-- A change of the values is one of the manifest. -/
theorem Manifest.inside_textAround (h : Inside R (MeasurementValues.textLayout s) v v') :
    Inside R (Manifest.textLayout s) (Manifest.textAround v) (Manifest.textAround v') := by
  refine .member (m := ⟨"tags", true, .list (EmbeddedTag.textLayout s)⟩)
    (by simp [member?, textMembers])
    (.skip (by simp) (.skip (by simp) (.replaced (by simp)))) (.head ?_)
  exact .body (Json.Value.untyped_typed _ _) (Json.Value.untyped_typed _ _)
    (Comid.inside_textAround h)

/-- A manifest of a security version number, and perhaps other measurement values. -/
def Manifest.svnAndText (members : Json.Members) : Json.Value :=
  textAround (.object (("svn", .typed "svn" (.ofUInt64 7)) :: members))

end

end Rim
