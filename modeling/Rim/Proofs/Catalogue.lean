import Rim.Profile.Bundled
import Rim.Proofs.Registry

/-!
# Catalogues over whole runs

A catalogue starts with the kinds that are always known and changes by calls only, each of which may
fail. Whatever the calls were, its registry is consistent, and every registered profile stands under its
own identifier and keeps its rule.

* `Catalogue.register_cases`: all that registering a profile can do.
* `Catalogue.Consistent`: the invariant; `Catalogue.consistent_of_reachable`: it holds after every run.
* `Profile.checkFields_eq_ok`: the rule of a profile's fields.
* `Scope.Consistent`: what follows for the fields that a document is read with.
-/

namespace Rim

open Extension (Field)

/-! ### Profiles -/

namespace Profile

/-- What sets a field apart from another: its key and its name. -/
def Apart (f g : Field) : Prop := f.key ≠ g.key ∧ f.name ≠ g.name

instance : Std.Symm Apart := ⟨fun _ _ h => ⟨h.1.symm, h.2.symm⟩⟩

/-- A field has a key and a name that no core field has. -/
def BesideCore (f : Field) : Prop :=
  ¬(coreKeys.1 ≤ f.key ∧ f.key ≤ coreKeys.2) ∧ f.name ∉ coreMembers

theorem checkField_eq_ok {before : List Field} {f : Field} :
    checkField before f = .ok () ↔ BesideCore f ∧ ∀ g ∈ before, Apart g f := by
  unfold checkField BesideCore Apart
  rw [Result.refuse_eq_ok, Result.refuse_eq_ok, Result.refuse_eq_ok, and_assoc, List.any_eq_true]
  simp

/-- **Fields pass if they are beside the core and apart from each other.** -/
theorem checkFields_eq_ok {before fields : List Field} : checkFields before fields = .ok () ↔
    (∀ f ∈ fields, BesideCore f) ∧ fields.Pairwise Apart ∧
      ∀ g ∈ before, ∀ f ∈ fields, Apart g f := by
  induction fields generalizing before with
  | nil => exact ⟨fun _ => ⟨nofun, .nil, nofun⟩, fun _ => rfl⟩
  | cons f r ih =>
    rw [checkFields, Result.check_eq_ok, checkField_eq_ok, ih, List.pairwise_cons,
      List.forall_mem_cons]
    constructor
    -- the fields before those of the rest are the ones before, and the first field
    · rintro ⟨⟨hf, hb⟩, hr, hp, hc⟩
      refine ⟨⟨hf, hr⟩, ⟨fun g hg => hc f (by simp) g hg, hp⟩, ?_⟩
      intro g hg
      exact List.forall_mem_cons.2 ⟨hb g hg, fun h hh => hc g (by simp [hg]) h hh⟩
    · rintro ⟨⟨hf, hr⟩, ⟨hfr, hp⟩, hc⟩
      refine ⟨⟨hf, fun g hg => (List.forall_mem_cons.1 (hc g hg)).1⟩, hr, hp, ?_⟩
      intro g hg
      rcases List.mem_append.1 hg with hg | hg
      · exact (List.forall_mem_cons.1 (hc g hg)).2
      · rw [List.mem_singleton.1 hg]
        exact hfr

/-- The fields of a profile that keeps its rule. -/
theorem fields_of_check {κ : Type} {p : Profile κ} (h : p.check = .ok ()) :
    (∀ f ∈ p.fields, BesideCore f) ∧ p.fields.Pairwise Apart := by
  obtain ⟨-, h⟩ := Result.check_eq_ok.1 h
  obtain ⟨hb, hp, -⟩ := checkFields_eq_ok.1 h
  exact ⟨hb, hp⟩

end Profile

/-- What a document is read with: the registry is consistent, and the fields are beside the core and
apart from each other. -/
structure Scope.Consistent (s : Scope) : Prop where
  registry : s.registry.Consistent
  beside : ∀ f ∈ s.fields, Profile.BesideCore f
  apart : s.fields.Pairwise Profile.Apart

/-! ### Catalogues -/

namespace Catalogue

/-- A call that changes a catalogue, or tries to. -/
inductive Call (κ : Type := Kind) (χ : Type := Choice)
  | register (tag : UInt64) (name : String) (reader : Reader χ)
  | registerKind (k : κ)
  | registerProfile (p : Profile κ)

section

variable {κ χ : Type} {c : Catalogue κ χ} {p : Profile κ}

/-- A profile may be registered if it keeps its rule and its identifier is free. -/
theorem admission_eq_ok : c.admission p = .ok () ↔ p.check = .ok () ∧ c.profile? p.id = none := by
  unfold admission
  rw [Result.check_eq_ok, Result.context_eq_ok]
  refine and_congr_right fun _ => ?_
  cases c.profile? p.id with
  | none => exact ⟨fun _ => rfl, fun _ => rfl⟩
  | some q => exact ⟨nofun, nofun⟩

variable [KindFamily κ χ]

/-- The registry is consistent, and every registered profile stands under its own identifier and keeps
its rule. -/
structure Consistent (c : Catalogue κ χ) : Prop where
  registry : c.registry.Consistent
  profiles : ∀ id p, c.profile? id = some p → p.id = id ∧ p.check = .ok ()

/-- A registered profile keeps its rule. -/
theorem Consistent.check (h : c.Consistent) (hp : p ∈ c.profiles.values) : p.check = .ok () := by
  obtain ⟨id, hid⟩ := Table.mem_values.1 hp
  exact (h.profiles id p hid).2

variable [DecidableEq κ]

/-- The catalogue after a call, whether it failed or not. -/
def call (c : Catalogue κ χ) : Call κ χ → Catalogue κ χ
  | .register tag name reader =>
    { c with registry := c.registry.call (.register tag name reader) }
  | .registerKind k => { c with registry := c.registry.call (.registerKind k) }
  | .registerProfile p => (c.register p).1

/-- **What registering a profile does**: nothing where the profile is not admitted; otherwise its kinds
are added, and it is recorded if none of them fails. -/
theorem register_cases (c : Catalogue κ χ) (p : Profile κ) :
    (∃ e, c.admission p = .error e ∧ c.register p = (c, some e)) ∨
    (c.admission p = .ok () ∧ ∃ r, c.registry.registerKinds p.kinds = (r, none) ∧
      c.register p = (⟨r, c.profiles.set p.id p⟩, none)) ∨
    ∃ r e, c.registry.registerKinds p.kinds = (r, some e) ∧
      c.register p = ({ c with registry := r }, some (.context (registering p) e)) := by
  unfold register registerIn
  cases ha : c.admission p with
  | error e => exact .inl ⟨e, rfl, rfl⟩
  | ok _ =>
    rcases hk : c.registry.registerKinds p.kinds with ⟨r, _ | e⟩
    · exact .inr (.inl ⟨rfl, r, rfl, rfl⟩)
    · exact .inr (.inr ⟨r, e, rfl, rfl⟩)

theorem register_consistent (h : c.Consistent) (p : Profile κ) : (c.register p).1.Consistent := by
  have hr := Registry.registerKinds_consistent h.registry p.kinds
  rcases register_cases c p with ⟨e, -, he⟩ | ⟨ha, r, hk, he⟩ | ⟨r, e, hk, he⟩
  · rw [he]
    exact h
  · rw [he]
    rw [hk] at hr
    refine ⟨hr, fun id q hq => ?_⟩
    have hq : (c.profiles.set p.id p).get? id = some q := hq
    rw [Table.get?_set] at hq
    split at hq
    · rename_i hid
      obtain rfl := Option.some.inj hq
      exact ⟨hid.symm, (admission_eq_ok.1 ha).1⟩
    · exact h.profiles id q hq
  · rw [he]
    rw [hk] at hr
    exact ⟨hr, h.profiles⟩

/-- A call keeps a catalogue consistent, whether it fails or not. -/
theorem call_consistent (h : c.Consistent) (a : Call κ χ) : (c.call a).Consistent := by
  cases a with
  | register tag name reader => exact ⟨Registry.call_consistent h.registry _, h.profiles⟩
  | registerKind k => exact ⟨Registry.call_consistent h.registry _, h.profiles⟩
  | registerProfile p => exact register_consistent h p

/-- A run of calls keeps a catalogue consistent. -/
theorem foldl_consistent (h : c.Consistent) (calls : List (Call κ χ)) :
    (calls.foldl call c).Consistent := by
  induction calls generalizing c with
  | nil => exact h
  | cons a rest ih => exact ih (call_consistent h a)

end

/-- A catalogue that a run of calls leads to. -/
def Reachable (c : Catalogue) : Prop := ∃ calls : List Call, c = calls.foldl call initial

theorem initial_consistent : initial.Consistent :=
  ⟨Registry.registerKinds_consistent Registry.empty_consistent _, fun _ _ h => by cases h⟩

/-- **Every run leads to a consistent catalogue.** -/
theorem consistent_of_reachable {c : Catalogue} (h : c.Reachable) : c.Consistent := by
  obtain ⟨calls, rfl⟩ := h
  exact foldl_consistent initial_consistent calls

/-- Registering all bundled profiles is a run of calls. -/
theorem bundled_reachable : bundled.Reachable :=
  ⟨[.registerProfile Psa.profile, .registerProfile Tdx.profile], rfl⟩

variable {c : Catalogue}

/-- The fields that a document is read with are those of a registered profile, or there are none. -/
theorem fields_scope (c : Catalogue) (id : Option ProfileId) :
    (c.scope id).fields = [] ∨ ∃ p ∈ c.profiles.values, (c.scope id).fields = p.fields := by
  cases hp : id.bind c.profile? with
  | none =>
    refine .inl ?_
    rw [Scope.fields, Catalogue.scope, hp]
  | some p =>
    obtain ⟨i, -, hi⟩ := Option.bind_eq_some_iff.1 hp
    refine .inr ⟨p, Table.mem_values.2 ⟨i, hi⟩, ?_⟩
    rw [Scope.fields, Catalogue.scope, hp]

/-- What a document is read with is consistent, whatever profile it names. -/
theorem Consistent.scope (h : c.Consistent) (id : Option ProfileId) : (c.scope id).Consistent := by
  rcases c.fields_scope id with hf | ⟨p, hp, hf⟩
  · exact ⟨h.registry, by rw [hf]; nofun, by rw [hf]; exact .nil⟩
  · obtain ⟨hb, ha⟩ := Profile.fields_of_check (h.check hp)
    exact ⟨h.registry, by rw [hf]; exact hb, by rw [hf]; exact ha⟩

end Catalogue

end Rim
