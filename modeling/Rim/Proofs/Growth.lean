import Rim.Proofs.Catalogue
import Rim.Proofs.Within

/-!
# Catalogues only grow

A call adds entries and profiles beside those that are there, or none if it fails. So what a tag, a
name or an identifier selects stays selected, and whatever was read with a catalogue is read with the
catalogue after any run of calls.

* `Catalogue.Grows`: entries and profiles are kept in their places.
* `Registry.Grows.ofCbor`, `Registry.Grows.ofJson`: tagged and typed values are read as before.
* `Catalogue.run_grows`: every run of calls lets a catalogue grow.
* `Catalogue.holds_builtins`: the kinds that are always known are held after any run.
* `Scope.Grows`: what follows for what a document is read with.
-/

namespace Rim

/-! ### Registries -/

namespace Registry

variable {κ χ : Type} {r r' : Registry κ χ}

/-- A tag that selects a reading goes on selecting it. -/
theorem Grows.readerOfTag (h : r.Grows r') (tag : UInt64) :
    (r.readerOfTag tag).Within (r'.readerOfTag tag) := by
  intro reader hr
  unfold Registry.readerOfTag at hr ⊢
  cases hf : r.byTag? tag with
  | none =>
    rw [hf] at hr
    cases hr
  | some e =>
    rw [hf] at hr
    rw [h.tags tag e hf]
    exact hr

/-- A name that selects a reading goes on selecting it. -/
theorem Grows.readerOfName (h : r.Grows r') (name : String) :
    (r.readerOfName name).Within (r'.readerOfName name) := by
  intro reader hr
  unfold Registry.readerOfName at hr ⊢
  cases hf : r.byName? name with
  | none =>
    rw [hf] at hr
    cases hr
  | some e =>
    rw [hf] at hr
    rw [h.names name e hf]
    exact hr

/-- **A tagged value is read as before.** -/
theorem Grows.ofCbor [Checkable χ] (h : r.Grows r') (v : Cbor.Value) :
    (r.ofCbor v).Within (r'.ofCbor v) := by
  cases v with
  | tag n body =>
    exact ((h.readerOfTag n).bind fun _ => .refl _).bind fun _ => .refl _
  | _ => exact .refl _

/-- **A typed value is read as before.** -/
theorem Grows.ofJson [Checkable χ] (h : r.Grows r') (v : Json.Value) :
    (r.ofJson v).Within (r'.ofJson v) :=
  .bind (.refl _) fun t => ((h.readerOfName t.1).bind fun _ => .refl _).bind fun _ => .refl _

end Registry

/-! ### Catalogues -/

namespace Catalogue

variable {κ χ : Type} {c c' c'' : Catalogue κ χ}

/-- What the first catalogue finds under a tag, a name or an identifier, the other one finds there
too. -/
structure Grows (c c' : Catalogue κ χ) : Prop where
  registry : c.registry.Grows c'.registry
  profiles : ∀ id p, c.profile? id = some p → c'.profile? id = some p

theorem Grows.refl (c : Catalogue κ χ) : c.Grows c := ⟨.refl _, fun _ _ => id⟩

theorem Grows.trans (h : c.Grows c') (h' : c'.Grows c'') : c.Grows c'' :=
  ⟨h.registry.trans h'.registry, fun id p hp => h'.profiles id p (h.profiles id p hp)⟩

variable [DecidableEq κ] [KindFamily κ χ]

theorem register_grows (c : Catalogue κ χ) (p : Profile κ) : c.Grows (c.register p).1 := by
  have hr := Registry.registerKinds_grows c.registry p.kinds
  rcases register_cases c p with ⟨e, -, he⟩ | ⟨ha, r, hk, he⟩ | ⟨r, e, hk, he⟩
  · rw [he]
    exact .refl _
  · rw [he]
    rw [hk] at hr
    refine ⟨hr, fun id q hq => ?_⟩
    have hne : id ≠ p.id := by
      rintro rfl
      rw [(admission_eq_ok.1 ha).2] at hq
      cases hq
    show (c.profiles.set p.id p).get? id = some q
    rw [Table.get?_set, if_neg hne]
    exact hq
  · rw [he]
    rw [hk] at hr
    exact ⟨hr, fun _ _ => id⟩

/-- A call lets a catalogue grow, whether it fails or not. -/
theorem call_grows (c : Catalogue κ χ) (a : Call κ χ) : c.Grows (c.call a) := by
  cases a with
  | register tag name reader => exact ⟨Registry.call_grows _ _, fun _ _ => id⟩
  | registerKind k => exact ⟨Registry.call_grows _ _, fun _ _ => id⟩
  | registerProfile p => exact register_grows c p

/-- **Every run of calls lets a catalogue grow.** -/
theorem run_grows (c : Catalogue κ χ) (calls : List (Call κ χ)) : c.Grows (calls.foldl call c) := by
  induction calls generalizing c with
  | nil => exact .refl _
  | cons a r ih => exact (call_grows c a).trans (ih (c.call a))

/-- The kinds that are always known are held after any run. -/
theorem holds_builtins {c : Catalogue} (hc : c.Reachable) {k : Kind}
    (hk : k ∈ Kind.builtins) : c.registry.holds k := by
  have hconsistent := consistent_of_reachable hc
  obtain ⟨calls, rfl⟩ := hc
  have hinitial : ∀ k ∈ Kind.builtins, initial.registry.holds k = true := by decide +kernel
  exact (run_grows initial calls).registry.holds initial_consistent.registry hconsistent.registry
    (hinitial k hk)

end Catalogue

/-! ### Scopes -/

/-- The known kinds grow, and there are the same extension fields, or there were none. -/
structure Scope.Grows (s s' : Scope) : Prop where
  registry : s.registry.Grows s'.registry
  fields : s'.fields = s.fields ∨ s.fields = []

/-- A profile that is registered stays the one of its identifier, and one that was not had no
fields. -/
theorem Catalogue.Grows.scope {c c' : Catalogue} (h : c.Grows c') (id : Option ProfileId) :
    (c.scope id).Grows (c'.scope id) := by
  refine ⟨h.registry, ?_⟩
  cases hp : id.bind c.profile? with
  | none =>
    refine .inr ?_
    rw [Scope.fields, Catalogue.scope, hp]
  | some p =>
    obtain ⟨i, rfl, hi⟩ := Option.bind_eq_some_iff.1 hp
    have hi' : c'.profile? i = some p := h.profiles i p hi
    refine .inl ?_
    rw [Scope.fields, Scope.fields, Catalogue.scope, Catalogue.scope, Option.bind_some,
      Option.bind_some, hi, hi']

end Rim
