import Rim.Proofs.Comid.Lossless
import Rim.Proofs.Document
import Rim.Proofs.Layout.Cbor
import Rim.Proofs.Layout.Json

/-!
# Extension fields of the profile that a manifest names

Which extension values measurement values may have is said by the profile that is registered under the
identifier that the manifest itself names, and by nothing else: not by another profile that is
registered, and not by a place in the manifest.

* `Catalogue.Defines`: the fields that a catalogue has for a manifest that names some profile.
* `Manifest.ExtendedBinary`, `Manifest.ExtendedText`: measurement values with one more entry.
* `Manifest.own_profile_decides`: whether a manifest with one more entry is read, and that no other
  profile matters.
-/

namespace Rim

open Extension (Field)
open Keyed (Put)
open Layout (Inside Foreign)

/-- The registered profile of an identifier has the field. -/
def Catalogue.Defines (c : Catalogue) (id : Option ProfileId) (f : Field) : Prop :=
  ∃ p, id.bind c.profile? = some p ∧ f ∈ p.fields

theorem Catalogue.mem_fields_scope {c : Catalogue} {id : Option ProfileId} {f : Field} :
    f ∈ (c.scope id).fields ↔ c.Defines id f := by
  unfold Scope.fields Catalogue.scope Catalogue.Defines
  cases id.bind c.profile? with
  | none => exact ⟨nofun, fun ⟨_, h, _⟩ => nomatch h⟩
  | some p => exact ⟨fun h => ⟨p, rfl, h⟩, fun ⟨q, hq, h⟩ => Option.some.inj hq ▸ h⟩

namespace Manifest

/-- Measurement values get an entry under a key that is not a core one and that is not there yet. -/
inductive ExtendedBinary (s : Scope) (key value : Cbor.Value) :
    Layout Cbor.Value → Cbor.Value → Cbor.Value → Prop
  | values {entries entries' : Cbor.Entries}
      (hkey : Foreign (MeasurementValues.binaryMembers s.registry) key)
      (hput : Put key value none entries entries') :
      ExtendedBinary s key value (MeasurementValues.binaryLayout s) (.map entries) (.map entries')

/-- Measurement values get a member whose name is not a core one and that is not there yet. -/
inductive ExtendedText (s : Scope) (name : String) (value : Json.Value) :
    Layout Json.Value → Json.Value → Json.Value → Prop
  | values {members members' : Json.Members}
      (hname : Foreign (MeasurementValues.textMembers s.registry) name)
      (hput : Put name value none members members') :
      ExtendedText s name value (MeasurementValues.textLayout s) (.object members)
        (.object members')

theorem ExtendedText.layout_eq {s : Scope} {name : String} {value v v' : Json.Value}
    {l : Layout Json.Value} (h : ExtendedText s name value l v v') :
    l = MeasurementValues.textLayout s := by
  cases h with
  | values => rfl

variable {c : Catalogue} {m : Manifest}

theorem failure?_ofCbor_extended {key value v v' : Cbor.Value} (h : ofCbor c v = .ok m)
    (hi : Inside (ExtendedBinary (c.scope m.profile) key value) (binaryLayout (c.scope m.profile))
      v v') :
    (ofCbor c v').failure? =
      Layout.failureOfField (c.scope m.profile).binaryField? key value := by
  refine failure?_ofCbor_changed h ?_ ?_ ?_ hi
  · rintro _ _ _ ⟨hkey, hput⟩ hv
    exact Layout.failureOfMembers_added hput hkey hv
  · intro w w' hw
    cases hw
  · intro entries w hw
    cases hw

theorem failure?_ofJson_extended {name : String} {value v v' : Json.Value}
    (h : ofJson c v = .ok m)
    (hi : Inside (ExtendedText (c.scope m.profile) name value) (textLayout (c.scope m.profile))
      v v') :
    (ofJson c v').failure? = Layout.failureOfField (c.scope m.profile).textField? name value := by
  refine failure?_ofJson_changed h ?_ ?_ ?_ hi
  · rintro _ _ _ ⟨hname, hput⟩ hv
    exact Layout.failureOfMembers_added hput hname hv
  · intro w w' hw
    cases hw
  · intro members w hw
    -- a manifest has not as many members as there are core values
    obtain ⟨hl⟩ := Layout.map.inj hw.layout_eq
    exact nomatch congrArg List.length hl

/-! ### What a field takes -/

variable {s : Scope}

/-- An entry is refused unless a field of the scope stands under its key and takes its value. -/
theorem failureOfField_binary (hs : s.fields.Pairwise Profile.Apart) (key value : Cbor.Value) :
    (Layout.failureOfField s.binaryField? key value = none ↔
      ∃ f ∈ s.fields, key = .ofInt64 f.key ∧ ∃ x, f.ofCbor value = .ok x) ∧
    ((∀ f ∈ s.fields, key ≠ .ofInt64 f.key) →
      Layout.failureOfField s.binaryField? key value = some .malformed) := by
  unfold Layout.failureOfField Scope.binaryField?
  cases hf : Extensions.fieldOfKey? s.fields key with
  | none =>
    refine ⟨⟨nofun, ?_⟩, fun _ => rfl⟩
    rintro ⟨f, hm, rfl, -⟩
    rw [Extensions.fieldOfKey?_of_mem hs hm] at hf
    cases hf
  | some f =>
    obtain ⟨hm, rfl⟩ := Extensions.mem_of_fieldOfKey? hf
    refine ⟨⟨fun h => ⟨f, hm, rfl, Result.failure?_eq_none.1 h⟩, ?_⟩, fun h => absurd rfl (h f hm)⟩
    rintro ⟨g, hg, hkey, hx⟩
    rw [hkey, Extensions.fieldOfKey?_of_mem hs hg] at hf
    obtain rfl := Option.some.inj hf
    exact Result.failure?_eq_none.2 hx

theorem failureOfField_text (hs : s.fields.Pairwise Profile.Apart) (name : String)
    (value : Json.Value) :
    (Layout.failureOfField s.textField? name value = none ↔
      ∃ f ∈ s.fields, name = f.name ∧ ∃ x, f.ofJson value = .ok x) ∧
    ((∀ f ∈ s.fields, name ≠ f.name) →
      Layout.failureOfField s.textField? name value = some .malformed) := by
  have hfind {f : Field} : s.fields.find? (·.name == name) = some f ↔ f ∈ s.fields ∧ f.name = name :=
    find?_eq_some_of_pairwise (f := Field.name) (hs.imp And.right)
  unfold Layout.failureOfField Scope.textField?
  cases hf : s.fields.find? (·.name == name) with
  | none =>
    refine ⟨⟨nofun, ?_⟩, fun _ => rfl⟩
    rintro ⟨f, hm, hname, -⟩
    cases hf.symm.trans (hfind.2 ⟨hm, hname.symm⟩)
  | some f =>
    obtain ⟨hm, hname⟩ := hfind.1 hf
    refine ⟨⟨fun h => ⟨f, hm, hname.symm, Result.failure?_eq_none.1 h⟩, ?_⟩,
      fun h => absurd hname.symm (h f hm)⟩
    rintro ⟨g, hg, hgname, hx⟩
    obtain rfl := Option.some.inj ((hfind.2 ⟨hg, hgname.symm⟩).symm.trans hf)
    exact Result.failure?_eq_none.2 hx

/-! ### The profile that a tree names -/

/-- The profile that a tree names, if it can be read. -/
def binaryProfile? : Cbor.Value → Option ProfileId
  | .map entries =>
    (Keyed.get? (.ofInt64 3) entries).bind fun v => (ProfileId.ofCbor v).toOption
  | _ => none

/-- The profile that a tree names, if it can be read. -/
def textProfile? : Json.Value → Option ProfileId
  | .object members =>
    (Keyed.get? "profile" members).bind fun v => (ProfileId.ofJson v).toOption
  | _ => none

variable {c' : Catalogue}

theorem scope_eq (hr : c'.registry = c.registry) {id : Option ProfileId}
    (hp : ∀ i, id = some i → c'.profile? i = c.profile? i) : c'.scope id = c.scope id := by
  unfold Catalogue.scope
  rw [hr]
  cases id with
  | none => rfl
  | some i => rw [Option.bind_some, Option.bind_some, hp i rfl]

/-- Only the profile that a tree names matters to what is read of it. -/
theorem ofCbor_eq (hr : c'.registry = c.registry) {v : Cbor.Value}
    (hp : ∀ id, binaryProfile? v = some id → c'.profile? id = c.profile? id) :
    ofCbor c' v = ofCbor c v := by
  refine Cbor.readMap_congr ?_
  rintro entries rfl
  refine Unread.readAll_takeWith_congr (fun _ => ?_) fun w id hw hid => ?_
  · have hs : c'.scope none = c.scope none := scope_eq hr nofun
    rw [hs]
  · have hs : c'.scope (some id) = c.scope (some id) := by
      refine scope_eq hr fun i hi => hp i ?_
      obtain rfl := Option.some.inj hi
      rw [binaryProfile?, hw, Option.bind_some, Result.context_eq_ok.1 hid]
      rfl
    rw [hs]

theorem ofJson_eq (hr : c'.registry = c.registry) {v : Json.Value}
    (hp : ∀ id, textProfile? v = some id → c'.profile? id = c.profile? id) :
    ofJson c' v = ofJson c v := by
  refine Json.readObject_congr ?_
  rintro members rfl
  refine Unread.readAll_takeWith_congr (fun _ => ?_) fun w id hw hid => ?_
  · have hs : c'.scope none = c.scope none := scope_eq hr nofun
    rw [hs]
  · have hs : c'.scope (some id) = c.scope (some id) := by
      refine scope_eq hr fun i hi => hp i ?_
      obtain rfl := Option.some.inj hi
      rw [textProfile?, hw, Option.bind_some, Result.context_eq_ok.1 hid]
      rfl
    rw [hs]

theorem decodeCbor_eq (hr : c'.registry = c.registry) {b : Bytes}
    (hp : ∀ v id, Cbor.decode b = .ok v ∨ Cbor.decode b = .ok (.tag tag v) →
      binaryProfile? v = some id → c'.profile? id = c.profile? id) :
    (Document.decodeCbor c' b : Result Manifest) = Document.decodeCbor c b := by
  refine Document.decodeCbor_congr fun v w hb hu => ofCbor_eq hr fun id => hp w id ?_
  -- what is read as a manifest is the whole tree, or what is under its tag
  unfold Document.untagged at hu
  split at hu
  · rename_i expected t body he
    obtain rfl : tag = expected := Option.some.inj he
    obtain ⟨rfl, hbody⟩ := Result.demand_eq_ok.1 hu
    exact .inr (Except.ok.inj hbody ▸ hb)
  · exact .inl (Except.ok.inj hu ▸ hb)

theorem decodeJson_eq (hr : c'.registry = c.registry) {s : String}
    (hp : ∀ v id, Json.decode s = .ok v → textProfile? v = some id →
      c'.profile? id = c.profile? id) :
    (Document.decodeJson c' s : Result Manifest) = Document.decodeJson c s :=
  Document.decodeJson_congr fun v hs => ofJson_eq hr fun id => hp v id hs

/-- **Extension values are governed by the profile that the manifest names.** A manifest that is read
is still read with one more entry among measurement values, wherever they stand, if and only if the
profile registered under its own profile identifier has a field for the entry that takes the value; if
that profile has no such field, or there is none, the manifest is malformed. So catalogues of one
registry read a manifest in the same way if they agree on the profile that it names. -/
theorem own_profile_decides (hc : c.Reachable) :
    (∀ m key value v v', ofCbor c v = .ok m →
      Inside (ExtendedBinary (c.scope m.profile) key value) (binaryLayout (c.scope m.profile)) v v' →
      ((∃ m', ofCbor c v' = .ok m') ↔
        ∃ f, c.Defines m.profile f ∧ key = .ofInt64 f.key ∧ ∃ x, f.ofCbor value = .ok x) ∧
      ((∀ f, c.Defines m.profile f → key ≠ .ofInt64 f.key) →
        (ofCbor c v').failure? = some .malformed)) ∧
    (∀ m name value v v', ofJson c v = .ok m →
      Inside (ExtendedText (c.scope m.profile) name value) (textLayout (c.scope m.profile)) v v' →
      ((∃ m', ofJson c v' = .ok m') ↔
        ∃ f, c.Defines m.profile f ∧ name = f.name ∧ ∃ x, f.ofJson value = .ok x) ∧
      ((∀ f, c.Defines m.profile f → name ≠ f.name) →
        (ofJson c v').failure? = some .malformed)) ∧
    ∀ c' : Catalogue, c'.registry = c.registry →
      (∀ b, (∀ v id, Cbor.decode b = .ok v ∨ Cbor.decode b = .ok (.tag tag v) →
          binaryProfile? v = some id → c'.profile? id = c.profile? id) →
        (Document.decodeCbor c' b : Result Manifest) = Document.decodeCbor c b) ∧
      ∀ s, (∀ v id, Json.decode s = .ok v → textProfile? v = some id →
          c'.profile? id = c.profile? id) →
        (Document.decodeJson c' s : Result Manifest) = Document.decodeJson c s := by
  have hapart (id : Option ProfileId) : (c.scope id).fields.Pairwise Profile.Apart :=
    ((Catalogue.consistent_of_reachable hc).scope id).apart
  refine ⟨fun m key value v v' hm hi => ?_, fun m name value v v' hm hi => ?_, fun c' hr => ?_⟩
  · rw [← Result.failure?_eq_none, failure?_ofCbor_extended hm hi]
    simpa only [Catalogue.mem_fields_scope] using failureOfField_binary (hapart m.profile) key value
  · rw [← Result.failure?_eq_none, failure?_ofJson_extended hm hi]
    simpa only [Catalogue.mem_fields_scope] using failureOfField_text (hapart m.profile) name value
  · exact ⟨fun b => decodeCbor_eq hr, fun s => decodeJson_eq hr⟩

/-- A manifest of a security version number, and perhaps another entry. -/
def svnAndBinary (entries : Cbor.Entries) : Cbor.Value :=
  binaryAround (.map ((.natural 1, .natural 7) :: entries))

/-- The registry of the bundled profiles, and no profile but the TDX profile. -/
def tdxOnly : Catalogue :=
  { Catalogue.bundled with profiles := Table.empty.set Tdx.profileId Tdx.profile }

theorem tdx_defines {f : Field} :
    Catalogue.bundled.Defines (some Tdx.profileId) f ↔ f ∈ Tdx.fields := by
  constructor
  · rintro ⟨p, hp, hf⟩
    obtain rfl : Tdx.profile = p := Option.some.inj hp
    exact hf
  · exact fun hf => ⟨Tdx.profile, rfl, hf⟩

/-- A field of the TDX profile is read in a manifest that names it, an entry of no field is not, and no
other profile matters. -/
theorem own_profile_decides_tdx :
    (∃ m, ofCbor Catalogue.bundled (svnAndBinary [(.negative 76, .natural 1)]) = .ok m) ∧
    (ofCbor Catalogue.bundled (svnAndBinary [(.negative 89, .natural 1)])).failure? =
      some .malformed ∧
    (∃ m, ofJson Catalogue.bundled (svnAndText [("tcbstatus", .array [])]) = .ok m) ∧
    (ofJson Catalogue.bundled (svnAndText [("tcbstate", .array [])])).failure? = some .malformed ∧
    (Document.decodeCbor tdxOnly (svnAndBinary []).encode : Result Manifest) =
      Document.decodeCbor Catalogue.bundled (svnAndBinary []).encode := by
  obtain ⟨hbinary, htext, hagree⟩ := own_profile_decides Catalogue.bundled_reachable
  obtain ⟨m, hm, hmp⟩ : ∃ m, ofCbor Catalogue.bundled (svnAndBinary []) = .ok m ∧
      m.profile = some Tdx.profileId := ⟨_, rfl, rfl⟩
  obtain ⟨n, hn, hnp⟩ : ∃ m, ofJson Catalogue.bundled (svnAndText []) = .ok m ∧
      m.profile = some Tdx.profileId := ⟨_, rfl, rfl⟩
  have hkeys (r : ChoiceRegistry) : (MeasurementValues.binaryMembers r).map Member.key =
      [0, 1, 2, 4, 5, 8, 9, 10, 11].map Cbor.Value.ofInt64 := rfl
  have hnames (r : ChoiceRegistry) :
      (MeasurementValues.textMembers r).map Member.key = coreMembers := rfl
  refine ⟨?_, ?_, ?_, ?_, ?_⟩
  · refine (hbinary m (.negative 76) (.natural 1) _ _ hm ?_).1.2 ?_
    · refine inside_binaryAround (.here (.values ?_ ?_)) rfl rfl
      · exact .of_keys (hkeys _) (by decide)
      · exact .skip (by decide) (.singleton _ _)
    · rw [hmp]
      exact ⟨⟨-77, "instanceid", .uint, none⟩, tdx_defines.2 (by simp [Tdx.fields]), rfl, _, rfl⟩
  · refine (hbinary m (.negative 89) (.natural 1) _ _ hm ?_).2 ?_
    · refine inside_binaryAround (.here (.values ?_ ?_)) rfl rfl
      · exact .of_keys (hkeys _) (by decide)
      · exact .skip (by decide) (.singleton _ _)
    · rw [hmp]
      intro f hf he
      have hnumbers : (-90 : Int) ∉ Tdx.fields.map (·.key.toInt) := by decide
      have hnumber : f.key.toInt = -90 := by
        have hi := congrArg Cbor.Value.toInt? he
        rw [Cbor.Value.toInt?_ofInt64] at hi
        exact (Option.some.inj hi).symm
      exact hnumbers (hnumber ▸ List.mem_map_of_mem (tdx_defines.1 hf))
  · refine (htext n "tcbstatus" (.array []) _ _ hn ?_).1.2 ?_
    · refine inside_textAround (.here (.values ?_ ?_))
      · exact .of_keys (hnames _) (by simp [coreMembers])
      · exact .skip (by simp) (.singleton _ _)
    · rw [hnp]
      exact ⟨⟨-88, "tcbstatus", .textSet, none⟩, tdx_defines.2 (by simp [Tdx.fields]), rfl, _, rfl⟩
  · refine (htext n "tcbstate" (.array []) _ _ hn ?_).2 ?_
    · refine inside_textAround (.here (.values ?_ ?_))
      · exact .of_keys (hnames _) (by simp [coreMembers])
      · exact .skip (by simp) (.singleton _ _)
    · rw [hnp]
      intro f hf he
      have hfields : "tcbstate" ∉ Tdx.fields.map Field.name := by decide
      exact hfields (he ▸ List.mem_map_of_mem (tdx_defines.1 hf))
  · refine (hagree tdxOnly rfl).1 _ fun v id hv hid => ?_
    have hb : Cbor.decode (svnAndBinary []).encode = .ok (svnAndBinary []) := rfl
    rw [hb] at hv
    rcases hv with hv | hv
    · obtain rfl := Except.ok.inj hv
      obtain rfl : Tdx.profileId = id := Option.some.inj hid
      rfl
    · cases hv

end Manifest

end Rim
