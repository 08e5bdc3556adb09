import Rim.Manifest
import Rim.Profile.Bundled
import Rim.Proofs.Cbor.Order
import Rim.Proofs.Layout.Reading

/-!
# Layouts of the binary format

For every map and array of the binary format on the way to a type choice or to measurement values the
members that it has, in the order in which they are read, and that reading it follows them. Parts on
no such way are read as a whole.

* `Cbor.embedded`: the octets of a tag in a manifest.
* `Manifest.binaryLayout`: a manifest, read with the fields of a scope.
* `EmbeddedTag.failure?_ofCbor`: reading a tag follows its layout, and so does reading each part.
-/

namespace Rim

instance : TreeFormat Cbor.Value Cbor.Value where
  map := .map
  list := .array
  null := .null
  entries?
    | .map entries => some entries
    | _ => none
  items?
    | .array items => some items
    | _ => none
  entries?_map _ := rfl
  items?_list _ := rfl
  entries?_null := rfl
  items?_null := rfl

namespace Cbor

variable {α β : Type} {l : Layout Value} {read : Value → Result α}

/-- The member of an integer key. -/
def field (key : Int64) (required : Bool) (layout : Layout Value) :
    Member Value (Layout Value) := ⟨.ofInt64 key, required, layout⟩

/-- Reading a map follows its members. -/
theorem failure?_readMap {members : List (Member Value (Layout Value))}
    {field? : Value → Option (Leaf Value)} {p : Taking α} (h : Unread.Follows p members field?)
    (what : String) (v : Value) :
    (v.readMap what p).failure? = (Layout.map members field?).failure? v := by
  cases v with
  | map entries => exact h _ ⟨what, entries⟩
  | _ => rfl

/-- Two readings of maps are one if they are on the entries. -/
theorem readMap_congr {p q : Taking α} {what : String} {v : Value}
    (h : ∀ entries, v = .map entries → Unread.readAll Fields.unexpected p ⟨what, entries⟩ =
      Unread.readAll Fields.unexpected q ⟨what, entries⟩) : v.readMap what p = v.readMap what q := by
  cases v with
  | map entries => exact h entries rfl
  | _ => rfl

/-- Reading a list follows what its items follow. -/
theorem failure?_items (h : ∀ v, (read v).failure? = l.failure? v) (what : String) (v : Value) :
    Result.failure? (do (← v.toArray what).mapM read) = (Layout.list l).failure? v := by
  cases v with
  | array items => exact Result.failure?_mapM h items
  | _ => rfl

theorem failure?_eachItem (h : ∀ v, (read v).failure? = l.failure? v) (name what : String)
    (v : Value) :
    Result.failure? (do readEach name read (← v.toArray what)) = (Layout.list l).failure? v := by
  cases v with
  | array items => exact Result.failure?_readEach h name items
  | _ => rfl

/-- Reading a pair follows what its items follow. -/
theorem failure?_toPair {k : Layout Value} {f : Value × Value → Result α}
    (h : ∀ a b, (f (a, b)).failure? = (l.failure? a).or (k.failure? b)) (what : String)
    (v : Value) : Result.failure? (v.toPair what >>= f) = (Layout.pair l k).failure? v := by
  cases v with
  | array items =>
    rcases items with _ | ⟨a, _ | ⟨b, _ | ⟨d, r⟩⟩⟩
    · rfl
    · rfl
    · exact h a b
    · -- there are more than two items
      have hr : ((Value.array (a :: b :: d :: r)).toPair what).failure? = some .malformed := by
        have hn : (a :: b :: d :: r).length ≠ 2 := by
          simp only [List.length_cons]
          omega
        rw [Value.toPair, Value.toArrayOf, Value.toArray, Result.ok_bind, if_neg hn]
        rfl
      obtain ⟨e, he, hkind⟩ := Result.failure?_eq_some.1 hr
      rw [he]
      exact congrArg some hkind
  | _ => rfl

/-- The octets of a tag in a manifest: those of a module tag, or any others. -/
def embedded : Wrapping Value where
  read v := do
    let b ← v.toBytes "concise tag"
    if EmbeddedTag.comidHead.isPrefixOf b then
      return ("comid", ← (← decode b).untag "CoMID" Comid.tag)
    else return ("opaque", v)
  null := nofun

end Cbor

open Cbor (field)

/-! ### Values of type choices -/

namespace ReferenceValueId

def binaryMembers : List (Member Cbor.Value (Layout Cbor.Value)) :=
  [field 1 false (.reading (Cbor.Value.toText "PSA label")),
    field 4 false (.reading (Cbor.Value.toText "PSA version")),
    field 5 true (.reading (Cbor.Value.toBytes "PSA signer-id"))]

theorem failure?_ofCbor (v : Cbor.Value) :
    (ofCbor v).failure? = (Layout.object binaryMembers).failure? v := by
  refine Cbor.failure?_readMap ?_ _ v
  refine .takeWith (fun _ => rfl) fun label => ?_
  refine .takeWith (fun _ => rfl) fun version => ?_
  exact .requireWith (fun _ => rfl) fun signer => .pure _

end ReferenceValueId

/-- A type choice, which is read as a whole. -/
def ChoiceRegistry.binaryLayout (r : ChoiceRegistry) : Layout Cbor.Value := .reading r.ofCbor

/-! ### Environments -/

namespace ModuleClass

def binaryLayout (r : ChoiceRegistry) : Layout Cbor.Value :=
  .object [field 0 false r.binaryLayout, field 1 false (.reading (Cbor.Value.toText "vendor")),
    field 2 false (.reading (Cbor.Value.toText "model")),
    field 3 false (.reading (Cbor.Value.toUInt64 "layer")),
    field 4 false (.reading (Cbor.Value.toUInt64 "index"))]

theorem failure?_ofCbor (r : ChoiceRegistry) (v : Cbor.Value) :
    (ofCbor r v).failure? = (binaryLayout r).failure? v := by
  refine Cbor.failure?_readMap ?_ _ v
  refine .takeWith (fun _ => rfl) fun id => ?_
  refine .takeWith (fun _ => rfl) fun vendor => ?_
  refine .takeWith (fun _ => rfl) fun model => ?_
  refine .takeWith (fun _ => rfl) fun layer => ?_
  exact .takeWith (fun _ => rfl) fun index => .pure _

end ModuleClass

namespace Environment

def binaryLayout (r : ChoiceRegistry) : Layout Cbor.Value :=
  .object [field 0 false (ModuleClass.binaryLayout r), field 1 false r.binaryLayout,
    field 2 false r.binaryLayout]

theorem failure?_ofCbor (r : ChoiceRegistry) (v : Cbor.Value) :
    (ofCbor r v).failure? = (binaryLayout r).failure? v := by
  refine Cbor.failure?_readMap ?_ _ v
  refine .takeWith (ModuleClass.failure?_ofCbor r) fun moduleClass => ?_
  refine .takeWith (fun _ => rfl) fun instanceId => ?_
  exact .takeWith (fun _ => rfl) fun group => .pure _

end Environment

/-! ### Measurements -/

/-- The value of an extension field. -/
def Extension.Field.binaryLeaf (f : Field) : Leaf Cbor.Value :=
  .reading f.ofCbor (by cases h : f.shape <;> simp only [ofCbor, h] <;> exact nofun)

/-- The field that a scope has for a map key. -/
def Scope.binaryField? (s : Scope) (key : Cbor.Value) : Option (Leaf Cbor.Value) :=
  (Extensions.fieldOfKey? s.fields key).map (·.binaryLeaf)

/-- Reading extension values follows the fields of the scope. -/
theorem Extensions.failure?_ofCbor (s : Scope) (entries : Cbor.Entries) :
    (ofCbor s.fields entries).failure? = Layout.failureOfRest s.binaryField? entries := by
  unfold ofCbor
  generalize empty = x
  induction entries generalizing x with
  | nil => rfl
  | cons e r ih =>
    have he : (readEntry s.fields e.1 e.2).failure? =
        Layout.failureOfField s.binaryField? e.1 e.2 := by
      unfold readEntry Layout.failureOfField Scope.binaryField?
      cases fieldOfKey? s.fields e.1 with
      | none => rfl
      | some f => exact Result.failure?_bind_pure
    rw [List.foldlM_cons, Layout.failureOfRest, Result.failure?_bind fun x _ => ih x,
      Result.failure?_bind_pure, he]

namespace MeasurementValues

/-- A security version number, which may be a plain number. -/
def svnLayout (r : ChoiceRegistry) : Layout Cbor.Value := .reading (svnOfCbor r)

/-- The core values. -/
def binaryMembers (r : ChoiceRegistry) : List (Member Cbor.Value (Layout Cbor.Value)) :=
  [field 0 false (.reading Version.ofCbor), field 1 false (svnLayout r),
    field 2 false (.list (.reading Digest.ofCbor)), field 4 false r.binaryLayout,
    field 5 false (.reading (Cbor.Value.toBytes "raw value mask")),
    field 8 false (.reading (Cbor.Value.toText "serial number")),
    field 9 false (.reading (Cbor.Value.toBytes "ueid")),
    field 10 false (.reading fun v => do Uuid.ofBytes (← v.toBytes "uuid")),
    field 11 false (.reading (Cbor.Value.toText "name"))]

def binaryLayout (s : Scope) : Layout Cbor.Value := .map (binaryMembers s.registry) s.binaryField?

theorem failure?_ofCbor (s : Scope) (v : Cbor.Value) :
    (ofCbor s v).failure? = (binaryLayout s).failure? v := by
  refine Cbor.failure?_readMap ?_ _ v
  refine .takeWith (fun _ => Result.failure?_context) fun version => ?_
  refine .takeWith (fun _ => Result.failure?_context) fun svn => ?_
  refine .takeWith (fun v => ?_) fun digests => ?_
  · exact Result.failure?_context.trans (Cbor.failure?_items (fun _ => rfl) "digests" v)
  refine .takeWith (fun _ => Result.failure?_context) fun rawValue => ?_
  refine .takeWith (fun _ => rfl) fun rawValueMask => ?_
  refine .takeWith (fun _ => rfl) fun serialNumber => ?_
  refine .takeWith (fun _ => Result.failure?_bind_pure) fun ueid => ?_
  refine .takeWith (fun _ => rfl) fun uuid => ?_
  refine .takeWith (fun _ => rfl) fun name => ?_
  exact .takeRest (Extensions.failure?_ofCbor s)

end MeasurementValues

namespace Measurement

def binaryLayout (s : Scope) : Layout Cbor.Value :=
  .object [field 0 false s.registry.binaryLayout, field 1 true (MeasurementValues.binaryLayout s)]

theorem failure?_ofCbor (s : Scope) (v : Cbor.Value) :
    (ofCbor s v).failure? = (binaryLayout s).failure? v := by
  refine Cbor.failure?_readMap ?_ _ v
  refine .takeWith (fun _ => Result.failure?_context) fun key => ?_
  exact .requireWith (MeasurementValues.failure?_ofCbor s) fun values => .pure _

end Measurement

/-! ### Triples -/

/-- Reading an environment and a list of what is said of it follows the pair of the two. -/
theorem Environment.failure?_pairOfCbor {r : ChoiceRegistry} {α β : Type}
    {read : Cbor.Value → Result α} {l : Layout Cbor.Value} {f : Environment → List α → β}
    (h : ∀ v, (read v).failure? = l.failure? v) (what name : String) (v : Cbor.Value) :
    Result.failure? (do
      let (environment, items) ← v.toPair what
      let environment ← (ofCbor r environment).context "environment"
      let items ← (← items.toArray name).mapM read
      return f environment items) = (Layout.pair (binaryLayout r) (.list l)).failure? v := by
  refine Cbor.failure?_toPair (fun a b => ?_) what v
  have hl : ∀ e : Environment, Result.failure? (do
      let items ← (← b.toArray name).mapM read
      return f e items) = (Layout.list l).failure? b := by
    intro e
    rw [← Cbor.failure?_items h name b, ← bind_assoc, Result.failure?_bind_pure]
  rw [Result.failure?_bind fun e _ => hl e, Result.failure?_context, failure?_ofCbor]

namespace ValueTriple

def binaryLayout (s : Scope) : Layout Cbor.Value :=
  .pair (Environment.binaryLayout s.registry) (.list (Measurement.binaryLayout s))

theorem failure?_ofCbor (s : Scope) (v : Cbor.Value) :
    (ofCbor s v).failure? = (binaryLayout s).failure? v :=
  Environment.failure?_pairOfCbor (Measurement.failure?_ofCbor s) _ _ v

end ValueTriple

namespace KeyTriple

def binaryLayout (r : ChoiceRegistry) : Layout Cbor.Value :=
  .pair (Environment.binaryLayout r) (.list r.binaryLayout)

theorem failure?_ofCbor (r : ChoiceRegistry) (v : Cbor.Value) :
    (ofCbor r v).failure? = (binaryLayout r).failure? v :=
  Environment.failure?_pairOfCbor (fun _ => rfl) _ _ v

end KeyTriple

namespace Triples

def binaryLayout (s : Scope) : Layout Cbor.Value :=
  .object [field 0 false (.list (ValueTriple.binaryLayout s)),
    field 1 false (.list (ValueTriple.binaryLayout s)),
    field 2 false (.list (KeyTriple.binaryLayout s.registry)),
    field 3 false (.list (KeyTriple.binaryLayout s.registry))]

theorem failure?_ofCbor (s : Scope) (v : Cbor.Value) :
    (ofCbor s v).failure? = (binaryLayout s).failure? v := by
  have hv := Cbor.failure?_eachItem (ValueTriple.failure?_ofCbor s)
  have hk := Cbor.failure?_eachItem (KeyTriple.failure?_ofCbor s.registry)
  refine Cbor.failure?_readMap ?_ _ v
  simp only [takeCbor, bind_assoc, pure_bind]
  refine .takeWith (hv _ _) fun referenceValues => ?_
  refine .takeWith (hv _ _) fun endorsedValues => ?_
  refine .takeWith (hk _ _) fun identityKeys => ?_
  exact .takeWith (hk _ _) fun attestKeys => .pure _

end Triples

/-! ### Module tags -/

namespace Comid

def binaryLayout (s : Scope) : Layout Cbor.Value :=
  .object [field 0 false (.reading (Cbor.Value.toText "language")),
    field 1 true (.reading TagIdentity.ofCbor),
    field 2 false (.list (.reading (Entity.ofCbor (ρ := TagRole)))),
    field 4 true (Triples.binaryLayout s)]

theorem failure?_ofCbor (s : Scope) (v : Cbor.Value) :
    (ofCbor s v).failure? = (binaryLayout s).failure? v := by
  refine Cbor.failure?_readMap ?_ _ v
  refine .takeWith (fun _ => rfl) fun language => ?_
  refine .requireWith (fun _ => Result.failure?_context) fun identity => ?_
  refine .takeWith (Cbor.failure?_items (fun _ => rfl) _) fun entities => ?_
  refine .requireWith (fun v => ?_) fun triples => .pure _
  exact Result.failure?_context.trans (Triples.failure?_ofCbor s v)

end Comid

namespace EmbeddedTag

/-- What the octets of a tag hold. -/
def binaryBody (s : Scope) (type : String) : Layout Cbor.Value :=
  if type = "comid" then Comid.binaryLayout s
  else .reading (Cbor.Value.toBytes "concise tag")

def binaryLayout (s : Scope) : Layout Cbor.Value := .wrapped Cbor.embedded (binaryBody s)

theorem failure?_ofCbor (s : Scope) (v : Cbor.Value) :
    (ofCbor s v).failure? = (binaryLayout s).failure? v := by
  have h : ofCbor s v = Cbor.embedded.read v >>= fun p =>
      if p.1 = "comid" then comid <$> Comid.ofCbor s p.2
      else opaqueOctets <$> p.2.toBytes "concise tag" := by
    cases v with
    | bytes b =>
      show ofOctets s b = (if _ then _ else _) >>= _
      unfold ofOctets
      split
      · cases Cbor.decode b with
        | error e => rfl
        | ok w =>
          simp only [Result.ok_bind]
          cases w.untag "CoMID" Comid.tag <;> rfl
      · rfl
    | _ => rfl
  rw [h]
  refine Layout.failure?_unwrap (fun type v => ?_) v
  unfold binaryBody
  dsimp only
  split
  · exact Result.failure?_map.trans (Comid.failure?_ofCbor s v)
  · exact Result.failure?_map

end EmbeddedTag

/-! ### Manifests -/

namespace Manifest

/-- The members that are read after the profile. -/
def binaryMembers (s : Scope) : List (Member Cbor.Value (Layout Cbor.Value)) :=
  [field 0 true (.reading Identifier.ofCbor), field 1 true (.list (EmbeddedTag.binaryLayout s)),
    field 2 false (.list (.reading Locator.ofCbor)), field 4 false (.reading Validity.ofCbor),
    field 5 false (.list (.reading (Entity.ofCbor (ρ := ManifestRole))))]

def binaryLayout (s : Scope) : Layout Cbor.Value :=
  .object (field 3 false (.reading ProfileId.ofCbor) :: binaryMembers s)

/-- **Reading a manifest follows its layout** for the fields of the profile that it names. -/
theorem failure?_ofCbor (c : Catalogue) {p : Option ProfileId} {entries : Cbor.Entries}
    (hp : Unread.Finds (.ofInt64 3) ProfileId.ofCbor p entries) :
    (ofCbor c (.map entries)).failure? = (binaryLayout (c.scope p)).failure? (.map entries) := by
  refine Unread.failure?_takeFirst (fun _ => Result.failure?_context)
    (Unread.Finds.context_iff.2 hp) ?_
  refine .requireWith (fun _ => Result.failure?_context) fun id => ?_
  refine .requireWith (Cbor.failure?_eachItem (EmbeddedTag.failure?_ofCbor _) _ _) fun tags => ?_
  refine .takeWith (Cbor.failure?_items (fun _ => rfl) _) fun dependents => ?_
  refine .takeWith (fun _ => Result.failure?_context) fun validity => ?_
  exact .takeWith (Cbor.failure?_items (fun _ => rfl) _) fun entities => .pure _

variable {c : Catalogue} {m : Manifest} {v v' : Cbor.Value}

/-- A manifest has the profile that its tree names. -/
theorem finds_of_ofCbor (h : ofCbor c v = .ok m) :
    ∃ entries, v = .map entries ∧ Unread.Finds (.ofInt64 3) ProfileId.ofCbor m.profile entries := by
  cases v with
  | map entries =>
    refine ⟨entries, rfl, ?_⟩
    have hf := Unread.Finds.of_readAll Manifest.profile (fun o => ?_) h
    · exact Unread.Finds.context_iff.1 hf
    · exact .skip fun _ => .skip fun _ => .skip fun _ => .skip fun _ => .skip fun _ => .pure rfl
  | _ => cases h

/-- **A change of one place of a manifest** decides whether it is refused and why, unless the manifest
names another profile by it. -/
theorem failure?_ofCbor_changed {R : Layout Cbor.Value → Cbor.Value → Cbor.Value → Prop}
    {out : Option ErrorKind} (h : ofCbor c v = .ok m)
    (hR : ∀ l v v', R l v v' → l.failure? v = none → l.failure? v' = out)
    (hprofile : ∀ v v', R (.reading ProfileId.ofCbor) v v' →
      (ProfileId.ofCbor v).failure? = none → (ProfileId.ofCbor v').failure? ≠ none)
    (htop : ∀ entries v', R (binaryLayout (c.scope m.profile)) (.map entries) v' →
      Unread.Finds (.ofInt64 3) ProfileId.ofCbor m.profile entries → ∃ entries', v' = .map entries' ∧
        Unread.Finds (.ofInt64 3) ProfileId.ofCbor m.profile entries')
    (hi : Layout.Inside R (binaryLayout (c.scope m.profile)) v v') : (ofCbor c v').failure? = out := by
  obtain ⟨entries, rfl, hf⟩ := finds_of_ofCbor h
  have hv := (failure?_ofCbor c hf).symm.trans (congrArg Result.failure? h)
  obtain ⟨entries', rfl, hf'⟩ := hf.of_inside (d := ⟨.ofInt64 3, false, _⟩) rfl
    (fun v v' hi => hprofile v v' hi.of_leaf) hv (fun v' ht => htop entries v' ht hf) hi
  exact (failure?_ofCbor c hf').trans (hi.failure? hR hv)

end Manifest

/-! ### Manifests around measurement values -/

section

open Layout

variable {s : Scope} {R : Layout Cbor.Value → Cbor.Value → Cbor.Value → Prop} {v v' : Cbor.Value}

/-- A module tag of one measurement with the given values. -/
def Comid.binaryAround (values : Cbor.Value) : Cbor.Value :=
  let environment : Cbor.Value := .map [(.natural 1, .tag Kind.int.tag (.natural 1))]
  let measurement : Cbor.Value := .map [(.natural 1, values)]
  .map [(.natural 1, .map [(.natural 0, .text "acme-module")]),
    (.natural 4, .map [(.natural 0, .array [.array [environment, .array [measurement]]])])]

/-- The octets of the module tag. -/
def EmbeddedTag.binaryAround (values : Cbor.Value) : Cbor.Value :=
  .embed (.tag Comid.tag (Comid.binaryAround values))

/-- A manifest of that module tag and the TDX profile. -/
def Manifest.binaryAround (values : Cbor.Value) : Cbor.Value :=
  .map [(.natural 0, .text "acme-rim"), (.natural 1, .array [EmbeddedTag.binaryAround values]),
    (.natural 3, Tdx.profileId.toCbor)]

theorem Comid.inside_binaryAround (h : Inside R (MeasurementValues.binaryLayout s) v v') :
    Inside R (Comid.binaryLayout s) (Comid.binaryAround v) (Comid.binaryAround v') := by
  refine .member (m := field 4 true (Triples.binaryLayout s)) rfl (.skip nofun (.replaced rfl)) ?_
  refine .member (m := field 0 false (.list (ValueTriple.binaryLayout s))) rfl (.replaced rfl) ?_
  refine .head (.second (.head ?_))
  exact .member (m := field 1 true (MeasurementValues.binaryLayout s)) rfl (.replaced rfl) h

/-- A change of the values is one of the manifest. -/
theorem Manifest.inside_binaryAround (h : Inside R (MeasurementValues.binaryLayout s) v v')
    (hv : Cbor.embedded.read (EmbeddedTag.binaryAround v) = .ok ("comid", Comid.binaryAround v))
    (hv' : Cbor.embedded.read (EmbeddedTag.binaryAround v') = .ok ("comid", Comid.binaryAround v')) :
    Inside R (Manifest.binaryLayout s) (Manifest.binaryAround v) (Manifest.binaryAround v') := by
  refine .member (m := field 1 true (.list (EmbeddedTag.binaryLayout s))) rfl
    (.skip nofun (.replaced rfl)) ?_
  exact .head (.body hv hv' (Comid.inside_binaryAround h))

end

end Rim
