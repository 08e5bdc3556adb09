import Rim.Proofs.Document
import Rim.Proofs.Layout.Cbor
import Rim.Proofs.Layout.Json

/-!
# Unknown kinds of type choices

A type choice is read by what its tag or its type name selects. Where nothing is registered under it,
the whole manifest is refused as one with an unknown kind, wherever the choice stands: before anything
under the tag is looked at, and whatever was being done.

* `Manifest.Retagged`, `Manifest.Renamed`: a choice under a tag or a type name that is not known.
* `Manifest.unknown_kind_reported`: how a manifest with such a choice is refused.
-/

namespace Rim

namespace Document

variable {δ : Type} [Document δ] {c : Catalogue} {kind : ErrorKind}

/-- A document is refused for what its value is refused for. -/
theorem failure?_decodeCbor {b : Bytes} {v w : Cbor.Value} (hb : Cbor.decode b = .ok v)
    (hu : untagged δ v = .ok w) (h : (ofCbor c w : Result δ).failure? = some kind) :
    (decodeCbor c b : Result δ).failure? = some kind := by
  obtain ⟨e, he, hkind⟩ := Result.failure?_eq_some.1 h
  unfold decodeCbor
  rw [hb]
  show Result.failure? (untagged δ v >>= _) = _
  rw [hu]
  show Result.failure? ((ofCbor c w : Result δ).context _ >>= _) = _
  rw [he]
  exact congrArg some hkind

theorem failure?_decodeJson {s : String} {v : Json.Value} (hs : Json.decode s = .ok v)
    (h : (ofJson c v : Result δ).failure? = some kind) :
    (decodeJson c s : Result δ).failure? = some kind := by
  obtain ⟨e, he, hkind⟩ := Result.failure?_eq_some.1 h
  unfold decodeJson
  rw [hs]
  show Result.failure? ((ofJson c v : Result δ).context _ >>= _) = _
  rw [he]
  exact congrArg some hkind

end Document

namespace Manifest

/-- A type choice, or a security version number, is put under a tag that is not known, with any
body. -/
inductive Retagged (r : ChoiceRegistry) : Layout Cbor.Value → Cbor.Value → Cbor.Value → Prop
  | choice {v body : Cbor.Value} {n : UInt64} (hn : r.byTag? n = none) :
      Retagged r r.binaryLayout v (.tag n body)
  | svn {v body : Cbor.Value} {n : UInt64} (hn : r.byTag? n = none) :
      Retagged r (MeasurementValues.svnLayout r) v (.tag n body)

/-- A type choice is put under a type name that is not known, with any value. -/
inductive Renamed (r : ChoiceRegistry) : Layout Json.Value → Json.Value → Json.Value → Prop
  | choice {v v' value : Json.Value} {name : String} (hv : v'.untyped = .ok (name, value))
      (hn : r.byName? name = none) : Renamed r r.textLayout v v'

variable {r : ChoiceRegistry}

theorem Retagged.failure? {l : Layout Cbor.Value} {v v' : Cbor.Value} (h : Retagged r l v v') :
    l.failure? v' = some .unknownTypeChoice := by
  have hunknown {n : UInt64} {body : Cbor.Value} (hn : r.byTag? n = none) :
      (r.ofCbor (.tag n body)).failure? = some .unknownTypeChoice := by
    unfold Registry.ofCbor Registry.readTagged Registry.readerOfTag
    dsimp only
    rw [hn]
    rfl
  cases h with
  | choice hn => exact hunknown hn
  | svn hn => exact hunknown hn

theorem Renamed.failure? {l : Layout Json.Value} {v v' : Json.Value} (h : Renamed r l v v') :
    l.failure? v' = some .unknownTypeChoice := by
  cases h with
  | choice hv hn =>
    show (r.ofJson v').failure? = _
    unfold Registry.ofJson Registry.readNamed Registry.readerOfName
    rw [hv]
    dsimp only [Result.ok_bind]
    rw [hn]
    rfl

/-- **A choice of an unknown kind is reported as such**, in either format, wherever in a manifest it
stands and whatever stands in it, also if the manifest is read from octets or from text. Octets that
are kept as they are have no choices in them. -/
theorem unknown_kind_reported (c : Catalogue) (m : Manifest) :
    (∀ v v', ofCbor c v = .ok m →
      Layout.Inside (Retagged c.registry) (binaryLayout (c.scope m.profile)) v v' →
      (ofCbor c v').failure? = some .unknownTypeChoice ∧
        ∀ b, Cbor.decode b = .ok v' ∨ Cbor.decode b = .ok (.tag tag v') →
          (Document.decodeCbor c b : Result Manifest).failure? = some .unknownTypeChoice) ∧
    ∀ v v', ofJson c v = .ok m →
      Layout.Inside (Renamed c.registry) (textLayout (c.scope m.profile)) v v' →
      (ofJson c v').failure? = some .unknownTypeChoice ∧
        ∀ s, Json.decode s = .ok v' →
          (Document.decodeJson c s : Result Manifest).failure? = some .unknownTypeChoice := by
  constructor
  · intro v v' hm hi
    have h : (ofCbor c v').failure? = some .unknownTypeChoice := by
      refine failure?_ofCbor_changed hm (fun _ _ _ h _ => h.failure?) ?_ ?_ hi
      · intro w w' h _ hn
        exact nomatch hn.symm.trans h.failure?
      · intro entries w h
        cases h
    refine ⟨h, fun b hb => ?_⟩
    cases v' with
    | map entries =>
      rcases hb with hb | hb
      · exact Document.failure?_decodeCbor hb (Document.untagged_map entries) h
      · exact Document.failure?_decodeCbor (w := .map entries) hb rfl h
    | _ => cases h
  · intro v v' hm hi
    have h : (ofJson c v').failure? = some .unknownTypeChoice := by
      refine failure?_ofJson_changed hm (fun _ _ _ h _ => h.failure?) ?_ ?_ hi
      · intro w w' h _ hn
        exact nomatch hn.symm.trans h.failure?
      · intro members w h
        cases h
    exact ⟨h, fun s hs => Document.failure?_decodeJson hs h⟩

/-- A manifest with a security version number under some tag. -/
def svnUnder (tag : UInt64) (body : Cbor.Value) : Cbor.Value :=
  binaryAround (.map [(.natural 1, .tag tag body)])

/-- A manifest with a security version number under some type name. -/
def svnNamed (name : String) (value : Json.Value) : Json.Value :=
  textAround (.object [("svn", .typed name value)])

/-- A least security version number is read; under another tag or name, and with another body, it is
of an unknown kind. -/
theorem unknown_kind_reported_svn :
    (∃ m, ofCbor Catalogue.bundled (svnUnder 553 (.natural 7)) = .ok m) ∧
    (∃ m, ofJson Catalogue.bundled (svnNamed "min-svn" (.ofUInt64 7)) = .ok m) ∧
    (Document.decodeCbor Catalogue.bundled (Cbor.Value.tag tag (svnUnder 999 (.bool true))).encode :
      Result Manifest).failure? = some .unknownTypeChoice ∧
    (ofJson Catalogue.bundled (svnNamed "other" (.bool true))).failure? =
      some .unknownTypeChoice := by
  obtain ⟨m, hm⟩ : ∃ m, ofCbor Catalogue.bundled (svnUnder 553 (.natural 7)) = .ok m := ⟨_, rfl⟩
  obtain ⟨n, hn⟩ : ∃ m, ofJson Catalogue.bundled (svnNamed "min-svn" (.ofUInt64 7)) = .ok m :=
    ⟨_, rfl⟩
  refine ⟨⟨m, hm⟩, ⟨n, hn⟩, ?_, ?_⟩
  · refine ((unknown_kind_reported Catalogue.bundled m).1 _ _ hm ?_).2 _ (.inr rfl)
    refine inside_binaryAround ?_ rfl rfl
    refine .member (m := Cbor.field 1 false (MeasurementValues.svnLayout _)) rfl (.replaced rfl) ?_
    exact .here (.svn rfl)
  · refine ((unknown_kind_reported Catalogue.bundled n).2 _ _ hn ?_).1
    refine inside_textAround ?_
    refine .member (m := ⟨"svn", false, (Catalogue.bundled.scope n.profile).registry.textLayout⟩)
      (by simp [Layout.member?, MeasurementValues.textMembers]) (.replaced (by simp)) ?_
    exact .here (.choice (Json.Value.untyped_typed _ _) rfl)

end Manifest

end Rim
