import Rim.Proofs.Choice.Oid
import Rim.Proofs.Growth

/-!
# Registered profiles over whole runs

A run starts with some kinds known and registers profiles, which need not keep any rule, and it may add
further entries to the registry between them. A profile that is recorded keeps its rule and its kinds
are held; both stay so, because a registry and a table of profiles only grow. So a recorded profile can
be relied on however the run goes on, and whatever failed before.

* `Catalogue.Installed`: the kinds of recorded profiles are held; every call keeps this
  (`call_installed`).
* `Catalogue.Recorded`: what a recorded profile can rely on, and `recorded_of_mem`.
* `Catalogue.register_succeeds_iff`: when a profile is recorded.
* `Catalogue.Refused`: what a failed registration leaves behind, and `refused_of_register`.
* `Catalogue.run_recorded`: recorded profiles and failed registrations of every run.
-/

namespace Rim.Catalogue

open Extension (Field)

variable {κ χ : Type} {c : Catalogue κ χ} {p : Profile κ}

/-! ### Recorded profiles -/

/-- The text of a valid identifier selects what the identifier selects. -/
theorem profileOfText?_toText {id : ProfileId} (h : id.validate = .ok ()) :
    c.profileOfText? id.toText = c.profile? id := by
  unfold profileOfText?
  rw [ProfileId.parse_toText h]

variable [KindFamily κ χ] [DecidableEq κ]

/-- The kinds of recorded profiles are held. -/
def Installed (c : Catalogue κ χ) : Prop :=
  ∀ id p, c.profile? id = some p → ∀ k ∈ p.kinds, c.registry.holds k

/-- Kinds that are held stay held as long as no profile is recorded. -/
theorem Installed.of_grows {c' : Catalogue κ χ} (hi : c.Installed) (h : c.Consistent)
    (h' : c'.Consistent) (hg : c.registry.Grows c'.registry) (hp : c'.profiles = c.profiles) :
    c'.Installed := by
  intro id p hid k hk
  have hid : c.profiles.get? id = some p := hp ▸ hid
  exact hg.holds h.registry h'.registry (hi id p hid k hk)

theorem register_installed (hi : c.Installed) (h : c.Consistent) (p : Profile κ) :
    (c.register p).1.Installed := by
  have h' := register_consistent h p
  have hg := (register_grows c p).registry
  rcases register_cases c p with ⟨e, -, he⟩ | ⟨-, r, hk, he⟩ | ⟨r, e, -, he⟩
  · rw [he]
    exact hi
  · rw [he] at h' hg ⊢
    intro id q hq k hkq
    have hq : (c.profiles.set p.id p).get? id = some q := hq
    rw [Table.get?_set] at hq
    split at hq
    · -- the profile that is recorded now had all its kinds added
      obtain rfl := Option.some.inj hq
      exact Registry.holds_of_registerKinds h.registry hk k hkq
    · exact hg.holds h.registry h'.registry (hi id q hq k hkq)
  · rw [he] at h' hg ⊢
    exact hi.of_grows h h' hg rfl

/-- **A call keeps the kinds of recorded profiles**, whether it fails or not. -/
theorem call_installed (hi : c.Installed) (h : c.Consistent) (a : Call κ χ) :
    (c.call a).Installed := by
  have h' := call_consistent h a
  have hg := (call_grows c a).registry
  cases a with
  | register tag name reader => exact hi.of_grows h h' hg rfl
  | registerKind k => exact hi.of_grows h h' hg rfl
  | registerProfile p => exact register_installed hi h p

theorem foldl_installed (hi : c.Installed) (h : c.Consistent) (calls : List (Call κ χ)) :
    (calls.foldl call c).Installed := by
  induction calls generalizing c with
  | nil => exact hi
  | cons a rest ih => exact ih (call_installed hi h a) (call_consistent h a)

/-- What a recorded profile can rely on: its identifier and the text of it select it, and no others do;
its fields have keys and names of their own; and each of its kinds stands under its tag and its name. -/
structure Recorded (c : Catalogue κ χ) (p : Profile κ) : Prop where
  byId : c.profile? p.id = some p
  byText : c.profileOfText? p.id.toText = some p
  noOtherId : ∀ id, c.profile? id = some p → id = p.id
  noOtherText : ∀ id, id.validate = .ok () → c.profileOfText? id.toText = some p → id = p.id
  keys : (p.fields.map (·.key)).Nodup
  keysBesideCore : ∀ f ∈ p.fields, f.key.toInt < 0 ∨ 11 < f.key.toInt
  names : (p.fields.map (·.name)).Nodup
  namesBesideCore : ∀ f ∈ p.fields, f.name ∉ coreMembers
  kinds : ∀ k ∈ p.kinds, ∃ e, c.registry.byTag? (KindFamily.tag k) = some e ∧
    c.registry.byName? (KindFamily.name k) = some e ∧ e.owner = some k ∧ e.IsOf k

theorem toInt_of_besideCore {f : Field} (h : Profile.BesideCore f) :
    f.key.toInt < 0 ∨ 11 < f.key.toInt := by
  have hcore := h.1
  rw [Int64.le_iff_toInt_le, Int64.le_iff_toInt_le] at hcore
  have hfirst : coreKeys.1.toInt = 0 := by decide
  have hlast : coreKeys.2.toInt = 11 := by decide
  omega

theorem recorded_of_mem (hi : c.Installed) (h : c.Consistent) (hp : p ∈ c.profiles.values) :
    c.Recorded p := by
  obtain ⟨id, hid⟩ := Table.mem_values.1 hp
  have hid : c.profile? id = some p := hid
  obtain ⟨rfl, hcheck⟩ := h.profiles id p hid
  have hvalid : p.id.validate = .ok () := (Result.check_eq_ok.1 hcheck).1
  obtain ⟨hbeside, hapart⟩ := Profile.fields_of_check hcheck
  have honly (id : ProfileId) (hq : c.profile? id = some p) : id = p.id := (h.profiles id p hq).1.symm
  exact {
    byId := hid
    byText := (profileOfText?_toText hvalid).trans hid
    noOtherId := honly
    noOtherText := fun id hv hq => honly id ((profileOfText?_toText hv).symm.trans hq)
    keys := List.pairwise_map.2 (hapart.imp And.left)
    keysBesideCore := fun f hf => toInt_of_besideCore (hbeside f hf)
    names := List.pairwise_map.2 (hapart.imp And.right)
    namesBesideCore := fun f hf => (hbeside f hf).2
    kinds := fun k hk => by
      obtain ⟨e, ht, hn, ho⟩ := (Registry.holds_iff h.registry).1 (hi p.id p hid k hk)
      exact ⟨e, ht, hn, ho, h.registry.owned _ e ht k ho⟩ }

/-! ### Registrations -/

/-- When a profile is recorded: it keeps its rule, its identifier is free, and none of its kinds fails. -/
theorem register_succeeds_iff : (c.register p).2 = none ↔ p.check = .ok () ∧
    c.profile? p.id = none ∧ (c.registry.registerKinds p.kinds).2 = none := by
  rw [← and_assoc, ← admission_eq_ok]
  rcases register_cases c p with ⟨e, ha, he⟩ | ⟨ha, r, hk, he⟩ | ⟨r, e, hk, he⟩
  · rw [he, ha]
    exact ⟨nofun, nofun⟩
  · rw [he, hk]
    exact ⟨fun _ => ⟨ha, rfl⟩, fun _ => rfl⟩
  · rw [he, hk]
    exact ⟨nofun, nofun⟩

/-- What a failed registration leaves behind: no profile, and no entries but those of the kinds before
the first one that failed. -/
structure Refused (c : Catalogue κ χ) (p : Profile κ) (c' : Catalogue κ χ) : Prop where
  profiles : c'.profiles = c.profiles
  registry : c'.registry = c.registry ∨ ∃ before k after e, p.kinds = before ++ k :: after ∧
    c'.registry.registerKind k = .error e ∧ c.registry.Adds before c'.registry ∧
    ∀ k ∈ before, c'.registry.holds k

theorem refused_of_register (h : c.Consistent) {e : Error} (he : (c.register p).2 = some e) :
    c.Refused p (c.register p).1 := by
  rcases register_cases c p with ⟨e', -, hc⟩ | ⟨-, r, -, hc⟩ | ⟨r, e', hk, hc⟩
  · rw [hc]
    exact ⟨rfl, .inl rfl⟩
  · rw [hc] at he
    cases he
  · obtain ⟨before, k, after, hsplit, hbefore, hfail⟩ := Registry.stop_of_registerKinds hk
    have hadds := c.registry.registerKinds_adds before
    rw [hbefore] at hadds
    rw [hc]
    exact ⟨rfl, .inr ⟨before, k, after, e', hsplit, hfail, hadds,
      Registry.holds_of_registerKinds h.registry hbefore⟩⟩

/-- A registration that succeeds records the profile and adds its kinds. -/
theorem recorded_of_register (h : (c.register p).2 = none) :
    (c.register p).1.profile? p.id = some p ∧
      c.registry.Adds p.kinds (c.register p).1.registry := by
  have hadds := c.registry.registerKinds_adds p.kinds
  rcases register_cases c p with ⟨e, -, he⟩ | ⟨-, r, hk, he⟩ | ⟨r, e, -, he⟩
  · rw [he] at h
    cases h
  · rw [hk] at hadds
    rw [he]
    exact ⟨Table.get?_set.trans (if_pos rfl), hadds⟩
  · rw [he] at h
    cases h

/-! ### Runs -/

/-- Some kinds are known, and no profile is recorded; `initial` is this for the kinds that are always
known. -/
def knowing (known : List κ) : Catalogue κ χ := ⟨(Registry.empty.registerKinds known).1, .empty⟩

/-- The catalogue that a run of calls leads to from some known kinds. -/
def run (known : List κ) (calls : List (Call κ χ)) : Catalogue κ χ :=
  calls.foldl call (knowing known)

theorem knowing_consistent (known : List κ) : (knowing known : Catalogue κ χ).Consistent :=
  ⟨Registry.registerKinds_consistent Registry.empty_consistent known, fun _ _ h => by cases h⟩

theorem knowing_installed (known : List κ) : (knowing known : Catalogue κ χ).Installed :=
  fun _ _ h => by cases h

theorem run_consistent (known : List κ) (calls : List (Call κ χ)) : (run known calls).Consistent :=
  foldl_consistent (knowing_consistent known) calls

theorem run_installed (known : List κ) (calls : List (Call κ χ)) : (run known calls).Installed :=
  foldl_installed (knowing_installed known) (knowing_consistent known) calls

/-- **Registered profiles of every run.** Every recorded profile is found under its identifier and the
text of it and under no other one, its fields are beside the core and apart, and its kinds stand in the
registry. However the run goes on it is found there. A registration succeeds if the profile keeps its
rule, its identifier is free and none of its kinds fails, and then the profile is recorded; otherwise no
profile is recorded, and at most the kinds before the failing one are added. -/
theorem run_recorded (known : List κ) (calls : List (Call κ χ)) :
    (∀ p ∈ (run known calls).profiles.values, (run known calls).Recorded p) ∧
    (∀ p ∈ (run known calls).profiles.values, ∀ more,
      (run known (calls ++ more)).profile? p.id = some p) ∧
    (∀ p, ((run known calls).register p).2 = none ↔ p.check = .ok () ∧
      (run known calls).profile? p.id = none ∧
      ((run known calls).registry.registerKinds p.kinds).2 = none) ∧
    (∀ p, ((run known calls).register p).2 = none →
      p ∈ (run known (calls ++ [.registerProfile p])).profiles.values ∧
      (run known calls).registry.Adds p.kinds
        (run known (calls ++ [.registerProfile p])).registry) ∧
    ∀ p e, ((run known calls).register p).2 = some e →
      (run known calls).Refused p (run known (calls ++ [.registerProfile p])) := by
  have hc := run_consistent known calls
  have hrecorded (p : Profile κ) (hp : p ∈ (run known calls).profiles.values) :
      (run known calls).Recorded p := recorded_of_mem (run_installed known calls) hc hp
  have hlast (p : Profile κ) :
      run known (calls ++ [.registerProfile p]) = ((run known calls).register p).1 :=
    List.foldl_concat ..
  refine ⟨hrecorded, fun p hp more => ?_, fun p => register_succeeds_iff, fun p hp => ?_,
    fun p e he => ?_⟩
  · have hmore : run known (calls ++ more) = more.foldl call (run known calls) :=
      List.foldl_append
    rw [hmore]
    exact (run_grows (run known calls) more).profiles _ _ (hrecorded p hp).byId
  · obtain ⟨hid, hadds⟩ := recorded_of_register hp
    rw [hlast]
    exact ⟨Table.mem_values.2 ⟨p.id, hid⟩, hadds⟩
  · rw [hlast]
    exact refused_of_register hc he

/-- A run that registers the TDX profile, and gives another reading the tag of the second kind that the
PSA profile adds. -/
def blockedRun : List Call :=
  [.registerProfile Tdx.profile, .register 601 "blocker" (KindFamily.reader Kind.uuid)]

/-- The TDX profile is recorded in that run. The PSA profile fails at its second kind: the first one stays
known, the profile is not recorded, and the TDX profile is found as before. -/
theorem run_recorded_blockedRun :
    (run Kind.builtins blockedRun).Recorded Tdx.profile ∧
    ((run Kind.builtins blockedRun).register Psa.profile).2 ≠ none ∧
    (run Kind.builtins blockedRun).Refused Psa.profile
      (run Kind.builtins (blockedRun ++ [.registerProfile Psa.profile])) ∧
    (run Kind.builtins (blockedRun ++ [.registerProfile Psa.profile])).registry.holds
      Kind.implementationId ∧
    (run Kind.builtins (blockedRun ++ [.registerProfile Psa.profile])).profile? Tdx.profileId =
      some Tdx.profile := by
  obtain ⟨hrecorded, hstays, -, -, hrefused⟩ := run_recorded (χ := Choice) Kind.builtins blockedRun
  have htdx : Tdx.profile ∈ (run Kind.builtins blockedRun).profiles.values :=
    List.mem_singleton_self _
  exact ⟨hrecorded _ htdx, nofun, hrefused _ _ rfl, rfl, hstays _ htdx _⟩

end Rim.Catalogue
