import Rim.Proofs.Layout.Json

/-!
# Members that an object does not have

Every object of the text format is read by taking the members that it has, after which nothing may be
left. So no member can be added to any object in a manifest, at whatever depth it stands and also in
the values of type choices, and none of its members can be null where it could be left out.

* `Manifest.Stray`: an object with one more member, whose name it does not have.
* `Manifest.Nulled`: an object with a member that is null.
* `Manifest.stray_member_refused`: how a manifest with such an object is refused.
-/

namespace Rim

open Keyed (Put)
open Layout (Inside Foreign)

/-! ### The object of a type name and a value -/

/-- **No member can be added** to the object of a type name and a value. -/
theorem Json.Value.failure?_untyped_added {members members' : Members} {name : String}
    {value : Value} (hp : Put name value none members members') (ht : name ≠ "type")
    (hv : name ≠ "value") (h : (object members).untyped.failure? = none) :
    (object members').untyped.failure? = some .malformed := by
  have ht : compare name "type" ≠ .eq := fun he => ht (Std.LawfulEqOrd.compare_eq_iff_eq.1 he)
  have hv : compare name "value" ≠ .eq := fun he => hv (Std.LawfulEqOrd.compare_eq_iff_eq.1 he)
  -- type name and value are found where they were
  obtain ⟨p, h⟩ := Result.failure?_eq_none.1 h
  obtain ⟨rest, h, hrest⟩ := Unread.readAll_eq_ok.1 h
  obtain ⟨⟨type, u⟩, htype, h⟩ := Result.bind_eq_ok.1 h
  obtain ⟨⟨x, w⟩, hvalue, h⟩ := Result.bind_eq_ok.1 h
  obtain ⟨-, rfl⟩ := Prod.mk.inj (Except.ok.inj h)
  obtain ⟨rfl, t, hget, hread⟩ := Unread.requireWith_eq_ok htype
  obtain ⟨rfl, hgetv⟩ := Unread.require_eq_ok hvalue
  have hp' := hp.without_of_ne ht
  have hget : Keyed.get? "type" members' = some t := (hp.get?_of_ne ht).trans hget
  have hgetv : Keyed.get? "value" (Keyed.without "type" members') = some x :=
    (hp'.get?_of_ne hv).trans hgetv
  -- so the new member is left over
  have hleft : Put name value none [] (Keyed.without "value" (Keyed.without "type" members')) :=
    (show Keyed.without "value" (Keyed.without "type" members) = [] from hrest) ▸
      hp'.without_of_ne hv
  show Result.failure? (Unread.readAll _ _ ⟨"type choice", members'⟩) = _
  rw [Unread.readAll_requireWith_of_some hget, hread, Result.ok_bind,
    Unread.readAll_require_of_some hgetv, Unread.Follows.pure]
  exact Layout.failureOfRest_added hleft rfl

/-! ### Values of type choices -/

namespace ChoiceRegistry

variable {r : ChoiceRegistry} {type : String} {e : Entry Kind Choice} {k : Kind}
variable {l : Layout Json.Value} {v x : Json.Value}

/-- A choice is refused for what its value is refused for. -/
theorem failure?_of_value (hv : v.untyped = .ok (type, x)) (he : r.byName? type = some e)
    (hk : e.reader = KindFamily.reader k) (hl : k.textLayout? = some l) {kind : ErrorKind}
    (h : l.failure? x = some kind) : r.textLayout.failure? v = some kind := by
  obtain ⟨d, hd, hkind⟩ := Result.failure?_eq_some.1 ((k.failure?_ofJson hl x).trans h)
  have hread : r.readNamed type x = .error d := by
    unfold Registry.readNamed Registry.readerOfName
    rw [he]
    show e.reader.ofJson x = _
    rw [hk]
    exact hd
  show (r.ofJson v).failure? = _
  unfold Registry.ofJson
  rw [hv]
  dsimp only [Result.ok_bind]
  rw [hread]
  exact congrArg some hkind

/-- The value of a choice that is not refused is not refused. -/
theorem failure?_value (hv : v.untyped = .ok (type, x)) (he : r.byName? type = some e)
    (hk : e.reader = KindFamily.reader k) (hl : k.textLayout? = some l)
    (h : r.textLayout.failure? v = none) : l.failure? x = none := by
  cases hx : l.failure? x with
  | none => rfl
  | some kind =>
    rw [failure?_of_value hv he hk hl hx] at h
    cases h

end ChoiceRegistry

namespace Manifest

variable {r : ChoiceRegistry} {name : String} {l : Layout Json.Value} {v v' : Json.Value}

/-- An object gets a member whose name it does not have: neither as one of its members nor as a field
of the active profile. The object is one of the format itself, that of a type name and a value, or the
value of a choice whose type name selects the reading of a kind with objects for values. -/
inductive Stray (r : ChoiceRegistry) (name : String) :
    Layout Json.Value → Json.Value → Json.Value → Prop
  | member {members : List (Member String (Layout Json.Value))}
      {field? : String → Option (Leaf Json.Value)} {value : Json.Value} {ms ms' : Json.Members}
      (hname : Foreign members name) (hfield : field? name = none)
      (hput : Put name value none ms ms') :
      Stray r name (.map members field?) (.object ms) (.object ms')
  | wrapper {body : String → Layout Json.Value} {value : Json.Value} {ms ms' : Json.Members}
      (ht : name ≠ "type") (hv : name ≠ "value") (hput : Put name value none ms ms') :
      Stray r name (.wrapped Json.typed body) (.object ms) (.object ms')
  | choice {value : Json.Value} {ms ms' : Json.Members} (ht : name ≠ "type") (hv : name ≠ "value")
      (hput : Put name value none ms ms') : Stray r name r.textLayout (.object ms) (.object ms')
  | value {type : String} {e : Entry Kind Choice} {k : Kind}
      {members : List (Member String (Layout Json.Value))} {value v v' : Json.Value}
      {ms ms' : Json.Members} (he : r.byName? type = some e) (hk : e.reader = KindFamily.reader k)
      (hl : k.textLayout? = some (.object members)) (hv : v.untyped = .ok (type, .object ms))
      (hv' : v'.untyped = .ok (type, .object ms')) (hname : Foreign members name)
      (hput : Put name value none ms ms') : Stray r name r.textLayout v v'

/-- An object gets a member that is null, in the place of one that it had or as a new one. -/
inductive Nulled (r : ChoiceRegistry) (name : String) :
    Layout Json.Value → Json.Value → Json.Value → Prop
  | member {members : List (Member String (Layout Json.Value))}
      {field? : String → Option (Leaf Json.Value)} {old : Option Json.Value}
      {ms ms' : Json.Members} (hput : Put name .null old ms ms') :
      Nulled r name (.map members field?) (.object ms) (.object ms')
  | value {type : String} {e : Entry Kind Choice} {k : Kind}
      {members : List (Member String (Layout Json.Value))} {v v' : Json.Value}
      {old : Option Json.Value} {ms ms' : Json.Members} (he : r.byName? type = some e)
      (hk : e.reader = KindFamily.reader k) (hl : k.textLayout? = some (.object members))
      (hv : v.untyped = .ok (type, .object ms)) (hv' : v'.untyped = .ok (type, .object ms'))
      (hput : Put name .null old ms ms') : Nulled r name r.textLayout v v'

theorem Stray.failure? (h : Stray r name l v v') (hl : l.failure? v = none) :
    l.failure? v' = some .malformed := by
  have hrest {field? : String → Option (Leaf Json.Value)} (hf : field? name = none)
      (value : Json.Value) : Layout.failureOfField field? name value = some .malformed := by
    unfold Layout.failureOfField
    rw [hf]
  cases h with
  | member hname hfield hput =>
    exact (Layout.failureOfMembers_added hput hname hl).trans (hrest hfield _)
  | wrapper ht hv hput =>
    have hold := Layout.failure?_read_of_wrapped hl
    exact Layout.failure?_wrapped_of_some (Json.Value.failure?_untyped_added hput ht hv hold)
  | choice ht hv hput =>
    have hold := Result.failure?_of_bind hl
    exact Result.failure?_bind_of_some (Json.Value.failure?_untyped_added hput ht hv hold)
  | value he hk hform hv hv' hname hput =>
    have hold := ChoiceRegistry.failure?_value hv he hk hform hl
    refine ChoiceRegistry.failure?_of_value hv' he hk hform ?_
    exact (Layout.failureOfMembers_added hput hname hold).trans (hrest rfl _)

theorem Nulled.failure? (h : Nulled r name l v v') : l.failure? v' ≠ none := by
  cases h with
  | member hput =>
    obtain ⟨k, hk⟩ := hput.mem
    exact Layout.failureOfMembers_of_null hk
  | value he hk hform hv hv' hput =>
    obtain ⟨k, hmem⟩ := hput.mem
    intro hn
    exact Layout.failureOfMembers_of_null hmem (ChoiceRegistry.failure?_value hv' he hk hform hn)

/-- **No object has members that the format does not give it**, at whatever depth it stands in a
manifest that is read. With one more member, whose name is neither one of the object's nor, among
measurement values, that of a field of the active profile, the manifest is malformed; and it is refused
if a member is null, whether it was there or not. -/
theorem stray_member_refused (c : Catalogue) (m : Manifest) (name : String)
    (h : ofJson c v = .ok m) :
    (Inside (Stray c.registry name) (textLayout (c.scope m.profile)) v v' →
      (ofJson c v').failure? = some .malformed) ∧
    (Inside (Nulled c.registry name) (textLayout (c.scope m.profile)) v v' →
      ∃ e, ofJson c v' = .error e) := by
  have hfinds {ms ms' : Json.Members} {old : Option Json.Value} {value : Json.Value}
      (hput : Put name value old ms ms')
      (hname : name = "profile" → ∀ id, ProfileId.ofJson value ≠ .ok id)
      (hf : Unread.Finds "profile" ProfileId.ofJson m.profile ms) :
      Unread.Finds "profile" ProfileId.ofJson m.profile ms' :=
    hf.put hput fun he => hname (Std.LawfulEqOrd.compare_eq_iff_eq.1 he)
  constructor
  · refine failure?_ofJson_changed h (fun _ _ _ h hv => h.failure? hv) ?_ ?_
    · intro w w' hw hold hn
      exact nomatch hn.symm.trans (hw.failure? hold)
    · intro ms w hw hf
      cases hw with
      | member hname _ hput =>
        refine ⟨_, rfl, hfinds hput (fun he => ?_) hf⟩
        exact absurd (he ▸ Std.ReflCmp.compare_self) (hname _ List.mem_cons_self)
  · intro hi
    obtain ⟨kind, hi⟩ := hi.of_failure fun _ _ _ h => h.failure?
    rw [← Result.failure?_ne_none, failure?_ofJson_changed h (fun _ _ _ h _ => h.2) ?_ ?_ hi]
    · exact Option.some_ne_none kind
    · intro w w' hw _
      exact hw.1.failure?
    · rintro ms w ⟨hw, -⟩ hf
      cases hw with
      | member hput => exact ⟨_, rfl, hfinds hput (fun _ _ h => by cases h) hf⟩

/-- Measurement values have no serial member, and their name is not null. -/
theorem stray_member_refused_values :
    (∃ m, ofJson Catalogue.bundled (svnAndText []) = .ok m) ∧
    (ofJson Catalogue.bundled (svnAndText [("serial", .string "4711")])).failure? =
      some .malformed ∧
    ∃ e, ofJson Catalogue.bundled (svnAndText [("name", .null)]) = .error e := by
  obtain ⟨m, hm, hprofile⟩ : ∃ m, ofJson Catalogue.bundled (svnAndText []) = .ok m ∧
      m.profile = some Tdx.profileId := ⟨_, rfl, rfl⟩
  refine ⟨⟨m, hm⟩, ?_, ?_⟩
  · refine (stray_member_refused Catalogue.bundled m "serial" hm).1 (inside_textAround (.here ?_))
    refine .member ?_ ?_ (.skip (by simp) (.singleton _ _))
    · simp [Foreign, MeasurementValues.textMembers]
    · rw [hprofile]
      rfl
  · refine (stray_member_refused Catalogue.bundled m "name" hm).2 (inside_textAround (.here ?_))
    exact .member (.skip (by simp) (.singleton _ _))

end Manifest

end Rim
