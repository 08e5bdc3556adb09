import Mathlib.Data.Set.Card
import Rim.Choice.Registry
import Rim.Proofs.Result

/-!
# Registries over whole runs

A registry starts empty and changes by calls, each of which may fail. Whatever the calls were, its two
tables hold the same entries, every entry stays where it was put, and a kind that was registered reads
its own values.

* `Registry.Consistent`: the invariant, kept by every call (`attempt_consistent`).
* `Registry.attempt_eq_ok`: all that a call can do to a registry.
* `Registry.Grows`: what is found under a tag or a name goes on being found there.
* `Registry.makes_iff`: the entry of a kind is the one that a call for the kind made.
* `Registry.run_spec`: the tables and the calls of every run.
-/

namespace Rim

open Set

/-- The size of a table counts its keys. -/
theorem Table.ncard_keys {κ ν : Type} [DecidableEq κ] (t : Table κ ν) :
    {key | (t.get? key).isSome}.ncard = t.size := by
  have hkeys : {key | (t.get? key).isSome} = ((t.entries.map (·.1)).toFinset : Set κ) := by
    ext key
    rw [List.coe_toFinset, mem_ofPred_eq, mem_ofPred_eq, Option.isSome_iff_exists, List.mem_map]
    constructor
    · rintro ⟨value, h⟩
      exact ⟨_, mem_of_get? h, rfl⟩
    · rintro ⟨⟨k, value⟩, h, rfl⟩
      exact ⟨value, get?_of_mem h⟩
  have hnodup : (t.entries.map (·.1)).Nodup := List.pairwise_map.2 t.distinct
  rw [hkeys, ncard_coe_finset, List.toFinset_card_of_nodup hnodup, List.length_map]
  rfl

/-- An entry has the tag, the name and the reading of a kind. -/
structure Entry.IsOf {κ χ : Type} [KindFamily κ χ] (e : Entry κ χ) (k : κ) : Prop where
  tag : e.tag = KindFamily.tag k
  name : e.name = KindFamily.name k
  reader : e.reader = KindFamily.reader k

namespace Registry

variable {κ χ : Type} {r r' r'' : Registry κ χ} {e : Entry κ χ}

/-! ### Adding an entry -/

@[simp] theorem byTag?_insert (tag : UInt64) :
    (r.insert e).byTag? tag = if tag = e.tag then some e else r.byTag? tag := Table.get?_set

@[simp] theorem byName?_insert (name : String) :
    (r.insert e).byName? name = if name = e.name then some e else r.byName? name := Table.get?_set

/-- An entry is made if its tag and its name are free. -/
theorem add_eq_ok {tag : UInt64} {name : String} {reader : Reader χ} {owner : Option κ} :
    r.add tag name reader owner = .ok r' ↔ r.byTag? tag = none ∧ r.byName? name = none ∧
      r' = r.insert (r.next tag name reader owner) := by
  unfold add
  split
  · rename_i ht hn
    rw [ht, hn]
    exact ⟨fun h => ⟨rfl, rfl, (Except.ok.inj h).symm⟩, fun h => congrArg _ h.2.2.symm⟩
  · rename_i ht
    rw [ht]
    exact ⟨nofun, nofun⟩
  · rename_i hn
    rw [hn]
    exact ⟨nofun, nofun⟩

/-- What the first registry finds under a tag or a name, the other one finds there too. -/
structure Grows (r r' : Registry κ χ) : Prop where
  tags : ∀ tag e, r.byTag? tag = some e → r'.byTag? tag = some e
  names : ∀ name e, r.byName? name = some e → r'.byName? name = some e

theorem Grows.refl (r : Registry κ χ) : r.Grows r := ⟨fun _ _ => id, fun _ _ => id⟩

theorem Grows.trans (h : r.Grows r') (h' : r'.Grows r'') : r.Grows r'' :=
  ⟨fun _ _ he => h'.tags _ _ (h.tags _ _ he), fun _ _ he => h'.names _ _ (h.names _ _ he)⟩

/-- An entry whose tag and name are free stands beside the others. -/
theorem insert_grows (ht : r.byTag? e.tag = none) (hn : r.byName? e.name = none) :
    r.Grows (r.insert e) := by
  constructor
  · intro tag d hd
    have hne : tag ≠ e.tag := by
      rintro rfl
      rw [ht] at hd
      cases hd
    rw [byTag?_insert, if_neg hne]
    exact hd
  · intro name d hd
    have hne : name ≠ e.name := by
      rintro rfl
      rw [hn] at hd
      cases hd
    rw [byName?_insert, if_neg hne]
    exact hd

/-! ### Calls -/

/-- A call that adds an entry to a registry, or tries to. -/
inductive Call (κ χ : Type)
  | register (tag : UInt64) (name : String) (reader : Reader χ)
  | registerKind (k : κ)

variable [KindFamily κ χ]

namespace Call

/-- The tag that a call is about. -/
def tag : Call κ χ → UInt64
  | register tag _ _ => tag
  | registerKind k => KindFamily.tag k

/-- The name that a call is about. -/
def name : Call κ χ → String
  | register _ name _ => name
  | registerKind k => KindFamily.name k

def reader : Call κ χ → Reader χ
  | register _ _ reader => reader
  | registerKind k => KindFamily.reader k

/-- The kind that a call is for, if it is for one. -/
def owner : Call κ χ → Option κ
  | register _ _ _ => none
  | registerKind k => some k

end Call

/-- The entry that a call makes where it makes one. -/
def made (r : Registry κ χ) (a : Call κ χ) : Entry κ χ := r.next a.tag a.name a.reader a.owner

section

variable [DecidableEq κ] {a : Call κ χ} {k : κ}

/-- What a call gives: the registry with what it adds, or why it fails. -/
def attempt (r : Registry κ χ) : Call κ χ → Result (Registry κ χ)
  | .register tag name reader => r.register tag name reader
  | .registerKind k => r.registerKind k

/-- The registry after a call, whether it failed or not. -/
def call (r : Registry κ χ) (a : Call κ χ) : Registry κ χ :=
  match r.attempt a with
  | .ok r' => r'
  | .error _ => r

/-- The registry that a run of calls leads to. -/
def run (calls : List (Call κ χ)) : Registry κ χ := calls.foldl call empty

theorem holds_of_free (h : r.byTag? (KindFamily.tag k) = none) : r.holds k = false := by
  unfold holds
  rw [h]

/-- **A call makes its entry**, if tag and name are free, or it is for a kind that is held and changes
nothing. -/
theorem attempt_eq_ok : r.attempt a = .ok r' ↔
    (r.byTag? a.tag = none ∧ r.byName? a.name = none ∧ r' = r.insert (r.made a)) ∨
      ∃ k, a = .registerKind k ∧ r.holds k ∧ r' = r := by
  cases a with
  | register tag name reader =>
    refine add_eq_ok.trans ⟨.inl, ?_⟩
    rintro (h | ⟨k, hk, -⟩)
    · exact h
    · cases hk
  | registerKind k =>
    show r.registerKind k = .ok r' ↔ _
    unfold registerKind
    by_cases hk : r.holds k = true
    · rw [if_pos hk]
      constructor
      · intro h
        exact .inr ⟨k, rfl, hk, (Except.ok.inj h).symm⟩
      · rintro (⟨ht, -⟩ | ⟨-, -, -, rfl⟩)
        · rw [holds_of_free ht] at hk
          cases hk
        · rfl
    · rw [if_neg hk]
      refine add_eq_ok.trans ⟨.inl, ?_⟩
      rintro (h | ⟨k', he, hk', -⟩)
      · exact h
      · cases he
        exact absurd hk' hk

theorem call_of_attempt (h : r.attempt a = .ok r') : r.call a = r' := by
  unfold call
  rw [h]

theorem call_of_error {err : Error} (h : r.attempt a = .error err) : r.call a = r := by
  unfold call
  rw [h]

theorem attempt_grows (h : r.attempt a = .ok r') : r.Grows r' := by
  rcases attempt_eq_ok.1 h with ⟨ht, hn, rfl⟩ | ⟨k, -, -, rfl⟩
  · exact insert_grows ht hn
  · exact .refl _

theorem call_grows (r : Registry κ χ) (a : Call κ χ) : r.Grows (r.call a) := by
  cases h : r.attempt a with
  | ok r' =>
    rw [call_of_attempt h]
    exact attempt_grows h
  | error err =>
    rw [call_of_error h]
    exact .refl _

/-- A run of calls lets a registry grow. -/
theorem foldl_grows (r : Registry κ χ) (calls : List (Call κ χ)) : r.Grows (calls.foldl call r) := by
  induction calls generalizing r with
  | nil => exact .refl _
  | cons a rest ih => exact (call_grows r a).trans (ih (r.call a))

end

/-! ### The invariant -/

/-- Both tables hold the same entries, each under its own keys, and an entry that was made for a kind is
that kind's. -/
structure Consistent (r : Registry κ χ) : Prop where
  tagged : ∀ tag e, r.byTag? tag = some e → e.tag = tag ∧ r.byName? e.name = some e
  named : ∀ name e, r.byName? name = some e → e.name = name ∧ r.byTag? e.tag = some e
  owned : ∀ tag e, r.byTag? tag = some e → ∀ k, e.owner = some k → e.IsOf k
  sizes : r.names.size = r.tags.size

theorem empty_consistent : (empty : Registry κ χ).Consistent :=
  ⟨fun _ _ h => (by cases h), fun _ _ h => (by cases h), fun _ _ h => (by cases h), rfl⟩

theorem insert_consistent (h : r.Consistent) (ht : r.byTag? e.tag = none)
    (hn : r.byName? e.name = none) (ho : ∀ k, e.owner = some k → e.IsOf k) :
    (r.insert e).Consistent := by
  have hg := insert_grows ht hn
  refine ⟨?_, ?_, ?_, ?_⟩
  · intro tag d hd
    rw [byTag?_insert] at hd
    split at hd
    · rename_i heq
      obtain rfl := Option.some.inj hd
      exact ⟨heq.symm, by rw [byName?_insert, if_pos rfl]⟩
    · obtain ⟨heq, hd⟩ := h.tagged tag d hd
      exact ⟨heq, hg.names _ _ hd⟩
  · intro name d hd
    rw [byName?_insert] at hd
    split at hd
    · rename_i heq
      obtain rfl := Option.some.inj hd
      exact ⟨heq.symm, by rw [byTag?_insert, if_pos rfl]⟩
    · obtain ⟨heq, hd⟩ := h.named name d hd
      exact ⟨heq, hg.tags _ _ hd⟩
  · intro tag d hd
    rw [byTag?_insert] at hd
    split at hd
    · obtain rfl := Option.some.inj hd
      exact ho
    · exact h.owned tag d hd
  · show (r.names.set _ e).size = (r.tags.set _ e).size
    rw [Table.size_set_of_get?_eq_none hn, Table.size_set_of_get?_eq_none ht, h.sizes]

theorem made_isOf (r : Registry κ χ) (a : Call κ χ) (k : κ) (h : (r.made a).owner = some k) :
    (r.made a).IsOf k := by
  cases a with
  | register tag name reader => cases h
  | registerKind k' =>
    obtain rfl := Option.some.inj h
    exact ⟨rfl, rfl, rfl⟩

/-- Tag and name of one entry select each other, and size counts both. -/
structure Paired (r : Registry κ χ) : Prop where
  entries : ∀ e, (∃ tag, r.byTag? tag = some e) ↔ ∃ name, r.byName? name = some e
  keys : ∀ tag name, r.nameOf? tag = some name ↔ r.tagOf? name = some tag
  readers : ∀ tag name, r.nameOf? tag = some name →
    ∃ reader, r.readerOfTag tag = .ok reader ∧ r.readerOfName name = .ok reader
  tagCount : {tag | (r.byTag? tag).isSome}.ncard = r.size
  nameCount : {name | (r.byName? name).isSome}.ncard = r.size

theorem Consistent.paired (h : r.Consistent) : r.Paired := by
  have hpair {tag : UInt64} {name : String} : r.nameOf? tag = some name ↔
      ∃ e, r.byTag? tag = some e ∧ r.byName? name = some e := by
    rw [nameOf?, Option.map_eq_some_iff]
    constructor
    · rintro ⟨e, he, rfl⟩
      exact ⟨e, he, (h.tagged tag e he).2⟩
    · rintro ⟨e, he, hn⟩
      exact ⟨e, he, (h.named name e hn).1⟩
  refine ⟨?_, ?_, ?_, ?_, ?_⟩
  · intro e
    exact ⟨fun ⟨tag, he⟩ => ⟨_, (h.tagged tag e he).2⟩, fun ⟨name, he⟩ => ⟨_, (h.named name e he).2⟩⟩
  · intro tag name
    rw [hpair, tagOf?, Option.map_eq_some_iff]
    constructor
    · rintro ⟨e, he, hn⟩
      exact ⟨e, hn, (h.tagged tag e he).1⟩
    · rintro ⟨e, hn, rfl⟩
      exact ⟨e, (h.named name e hn).2, hn⟩
  · intro tag name hname
    obtain ⟨e, he, hn⟩ := hpair.1 hname
    refine ⟨e.reader, ?_, ?_⟩
    · rw [readerOfTag, he]
    · rw [readerOfName, hn]
  · exact r.tags.ncard_keys
  · exact r.names.ncard_keys.trans h.sizes

/-- What the second registry finds beyond the first one are entries of some kinds, under their own tags
and names. -/
structure Adds (r : Registry κ χ) (ks : List κ) (r' : Registry κ χ) : Prop where
  grows : r.Grows r'
  tags : ∀ tag e, r'.byTag? tag = some e → r.byTag? tag = some e ∨
    ∃ k ∈ ks, tag = KindFamily.tag k ∧ e.owner = some k ∧ e.IsOf k
  names : ∀ name e, r'.byName? name = some e → r.byName? name = some e ∨
    ∃ k ∈ ks, name = KindFamily.name k ∧ e.owner = some k ∧ e.IsOf k

theorem Adds.refl (r : Registry κ χ) (ks : List κ) : r.Adds ks r :=
  ⟨.refl r, fun _ _ => .inl, fun _ _ => .inl⟩

theorem Adds.cons {ks : List κ} (h : r.Adds [k] r') (h' : r'.Adds ks r'') :
    r.Adds (k :: ks) r'' := by
  refine ⟨h.grows.trans h'.grows, fun tag e he => ?_, fun name e he => ?_⟩
  · rcases h'.tags tag e he with he | ⟨k', hk', hof⟩
    · exact (h.tags tag e he).imp_right fun ⟨k', hk', hof⟩ =>
        ⟨k', List.mem_cons.2 (.inl (List.mem_singleton.1 hk')), hof⟩
    · exact .inr ⟨k', List.mem_cons_of_mem _ hk', hof⟩
  · rcases h'.names name e he with he | ⟨k', hk', hof⟩
    · exact (h.names name e he).imp_right fun ⟨k', hk', hof⟩ =>
        ⟨k', List.mem_cons.2 (.inl (List.mem_singleton.1 hk')), hof⟩
    · exact .inr ⟨k', List.mem_cons_of_mem _ hk', hof⟩

variable [DecidableEq κ] {a : Call κ χ} {k : κ}

/-- **A call keeps a registry consistent.** -/
theorem attempt_consistent (h : r.Consistent) (ha : r.attempt a = .ok r') : r'.Consistent := by
  rcases attempt_eq_ok.1 ha with ⟨ht, hn, rfl⟩ | ⟨k, -, -, rfl⟩
  · exact insert_consistent h ht hn (made_isOf r a)
  · exact h

theorem call_consistent (h : r.Consistent) (a : Call κ χ) : (r.call a).Consistent := by
  cases ha : r.attempt a with
  | ok r' =>
    rw [call_of_attempt ha]
    exact attempt_consistent h ha
  | error err =>
    rw [call_of_error ha]
    exact h

theorem foldl_consistent (h : r.Consistent) (calls : List (Call κ χ)) :
    (calls.foldl call r).Consistent := by
  induction calls generalizing r with
  | nil => exact h
  | cons a rest ih => exact ih (call_consistent h a)

theorem run_consistent (calls : List (Call κ χ)) : (run calls).Consistent :=
  foldl_consistent empty_consistent calls

/-! ### Kinds -/

/-- The entry that a kind has of its own stands under the kind's tag and under its name. -/
theorem holds_iff (h : r.Consistent) : r.holds k = true ↔
    ∃ e, r.byTag? (KindFamily.tag k) = some e ∧ r.byName? (KindFamily.name k) = some e ∧
      e.owner = some k := by
  unfold holds
  split
  · rename_i d e hd he
    rw [Bool.and_eq_true_iff, decide_eq_true_iff, beq_iff_eq]
    constructor
    · rintro ⟨ho, -⟩
      -- an entry of the kind has the kind's name, so the name selects it and no other
      have hname := (h.tagged _ d hd).2
      rw [(h.owned _ d hd k ho).name] at hname
      exact ⟨d, hd, hname, ho⟩
    · rintro ⟨c, hc, hc', ho⟩
      obtain rfl := Option.some.inj (hd.symm.trans hc)
      obtain rfl := Option.some.inj (he.symm.trans hc')
      exact ⟨ho, rfl⟩
  · rename_i hnone
    constructor
    · exact nofun
    · rintro ⟨e, ht, hn, -⟩
      exact absurd hn (hnone _ _ ht)

/-- A tag selects the reading of the kind that is held under it. -/
theorem readerOfTag_of_holds (h : r.Consistent) (hk : r.holds k) :
    r.readerOfTag (KindFamily.tag k) = .ok (KindFamily.reader k) := by
  obtain ⟨e, ht, -, ho⟩ := (holds_iff h).1 hk
  rw [readerOfTag, ht, ← (h.owned _ e ht k ho).reader]

/-- A name selects the reading of the kind that is held under it. -/
theorem readerOfName_of_holds (h : r.Consistent) (hk : r.holds k) :
    r.readerOfName (KindFamily.name k) = .ok (KindFamily.reader k) := by
  obtain ⟨e, ht, hn, ho⟩ := (holds_iff h).1 hk
  rw [readerOfName, hn, ← (h.owned _ e ht k ho).reader]

theorem Grows.holds (hg : r.Grows r') (h : r.Consistent) (h' : r'.Consistent) (hk : r.holds k) :
    r'.holds k := by
  obtain ⟨e, ht, hn, ho⟩ := (holds_iff h).1 hk
  exact (holds_iff h').2 ⟨e, hg.tags _ _ ht, hg.names _ _ hn, ho⟩

/-- A kind is held once it is registered. -/
theorem holds_of_registerKind (h : r.Consistent) (hk : r.registerKind k = .ok r') : r'.holds k := by
  have ha : r.attempt (.registerKind k) = .ok r' := hk
  rcases attempt_eq_ok.1 ha with ⟨ht, hn, rfl⟩ | ⟨k', he, hk', rfl⟩
  · refine (holds_iff (attempt_consistent h ha)).2 ⟨r.made (.registerKind k), ?_, ?_, rfl⟩
    · exact (byTag?_insert _).trans (if_pos rfl)
    · exact (byName?_insert _).trans (if_pos rfl)
  · obtain rfl := Call.registerKind.inj he
    exact hk'

theorem registerKinds_consistent (h : r.Consistent) (ks : List κ) :
    (r.registerKinds ks).1.Consistent := by
  induction ks generalizing r with
  | nil => exact h
  | cons k ks ih =>
    rw [registerKinds]
    split
    · rename_i ha
      exact ih (attempt_consistent (a := .registerKind k) h ha)
    · -- the first failure ends the run and keeps what was added before it
      exact h

theorem adds_of_registerKind (hr : r.registerKind k = .ok r') : r.Adds [k] r' := by
  have ha : r.attempt (.registerKind k) = .ok r' := hr
  rcases attempt_eq_ok.1 ha with ⟨-, -, rfl⟩ | ⟨-, -, -, rfl⟩
  · refine ⟨attempt_grows ha, fun tag e he => ?_, fun name e he => ?_⟩
    · rw [byTag?_insert] at he
      split at he
      · rename_i htag
        obtain rfl := Option.some.inj he
        exact .inr ⟨k, List.mem_singleton_self k, htag, rfl, made_isOf r (.registerKind k) k rfl⟩
      · exact .inl he
    · rw [byName?_insert] at he
      split at he
      · rename_i hname
        obtain rfl := Option.some.inj he
        exact .inr ⟨k, List.mem_singleton_self k, hname, rfl, made_isOf r (.registerKind k) k rfl⟩
      · exact .inl he
  · exact .refl _ _

/-- **Adding kinds adds their entries and nothing else**, whether one of them fails or not. -/
theorem registerKinds_adds (r : Registry κ χ) (ks : List κ) : r.Adds ks (r.registerKinds ks).1 := by
  induction ks generalizing r with
  | nil => exact .refl _ _
  | cons k ks ih =>
    rw [registerKinds]
    split
    · rename_i r' ha
      exact (adds_of_registerKind ha).cons (ih r')
    · exact .refl _ _

theorem registerKinds_grows (r : Registry κ χ) (ks : List κ) : r.Grows (r.registerKinds ks).1 :=
  (r.registerKinds_adds ks).grows

/-- Kinds that were added without a failure are all held. -/
theorem holds_of_registerKinds {ks : List κ} (h : r.Consistent)
    (hr : r.registerKinds ks = (r', none)) : ∀ k ∈ ks, r'.holds k := by
  induction ks generalizing r with
  | nil => exact nofun
  | cons k ks ih =>
    rw [registerKinds] at hr
    split at hr
    · rename_i s ha
      have hs : s.Consistent := attempt_consistent (a := .registerKind k) h ha
      have hr' := registerKinds_consistent hs ks
      have hg := registerKinds_grows s ks
      rw [hr] at hr' hg
      exact List.forall_mem_cons.2 ⟨hg.holds hs hr' (holds_of_registerKind h ha), ih hs hr⟩
    · cases hr

/-- **Adding kinds stops at the first one that fails**, and those before it were added. -/
theorem stop_of_registerKinds {ks : List κ} {err : Error}
    (hr : r.registerKinds ks = (r', some err)) : ∃ before k after, ks = before ++ k :: after ∧
      r.registerKinds before = (r', none) ∧ r'.registerKind k = .error err := by
  induction ks generalizing r with
  | nil => cases hr
  | cons k ks ih =>
    rw [registerKinds] at hr
    split at hr
    · rename_i s ha
      obtain ⟨before, k', after, rfl, hbefore, hk'⟩ := ih hr
      refine ⟨k :: before, k', after, rfl, ?_, hk'⟩
      rw [registerKinds, ha]
      exact hbefore
    · rename_i ha
      obtain ⟨rfl, he⟩ := Prod.mk.inj hr
      exact ⟨[], k, ks, rfl, rfl, ha.trans (congrArg _ (Option.some.inj he))⟩

/-! ### Runs -/

theorem run_concat (calls : List (Call κ χ)) (a : Call κ χ) :
    run (calls ++ [a]) = (run calls).call a := List.foldl_concat ..

theorem run_append_grows (calls more : List (Call κ χ)) :
    (run calls).Grows (run (calls ++ more)) := by
  rw [run, run, List.foldl_append]
  exact foldl_grows _ more

/-- A call for a kind made an entry in the course of a run. -/
def Makes (calls : List (Call κ χ)) (k : κ) (e : Entry κ χ) : Prop :=
  ∃ before after, calls = before ++ .registerKind k :: after ∧
    (run before).byTag? e.tag = none ∧ (run (before ++ [.registerKind k])).byTag? e.tag = some e

/-- **The entry of a kind** is the one that a call for the kind made. -/
theorem makes_iff {calls : List (Call κ χ)} : Makes calls k e ↔
    (run calls).byTag? (KindFamily.tag k) = some e ∧ e.owner = some k := by
  constructor
  · rintro ⟨before, after, rfl, hfree, he⟩
    have hgrows := run_append_grows (before ++ [.registerKind k]) after
    rw [List.append_assoc, List.singleton_append] at hgrows
    have hrun := hgrows.tags _ _ he
    rw [run_concat] at he
    -- a call that finds the tag free and leaves an entry under it made that entry
    cases ha : (run before).attempt (.registerKind k) with
    | error err =>
      rw [call_of_error ha, hfree] at he
      cases he
    | ok r' =>
      rw [call_of_attempt ha] at he
      rcases attempt_eq_ok.1 ha with ⟨-, -, rfl⟩ | ⟨-, -, -, rfl⟩
      · rw [byTag?_insert] at he
        split at he
        · obtain rfl := Option.some.inj he
          exact ⟨hrun, rfl⟩
        · rw [hfree] at he
          cases he
      · rw [hfree] at he
        cases he
  · rintro ⟨he, ho⟩
    -- the last call made the entry, or the ones before it did
    induction calls using List.reverseRecOn with
    | nil => cases he
    | append_singleton calls a ih =>
      have htag := ((run_consistent _).owned _ e he k ho).tag
      have hbefore (h : (run calls).byTag? (KindFamily.tag k) = some e) :
          Makes (calls ++ [a]) k e := by
        obtain ⟨before, after, rfl, hmade⟩ := ih h
        exact ⟨before, after ++ [a], by rw [List.append_assoc, List.cons_append], hmade⟩
      have hlast := he
      rw [run_concat] at he
      cases ha : (run calls).attempt a with
      | error err => exact hbefore (call_of_error ha ▸ he)
      | ok r' =>
        rw [call_of_attempt ha] at he
        rcases attempt_eq_ok.1 ha with ⟨ht, -, rfl⟩ | ⟨-, -, -, rfl⟩
        · rw [byTag?_insert] at he
          split at he
          · obtain rfl := Option.some.inj he
            cases a with
            | register tag name reader => cases ho
            | registerKind k' =>
              obtain rfl := Option.some.inj ho
              exact ⟨calls, [], rfl, ht, hlast⟩
          · exact hbefore he
        · exact hbefore he

/-- One registry has an entry more than another: a new one under a tag and a name that were free. -/
structure Gains (r : Registry κ χ) (e : Entry κ χ) (r' : Registry κ χ) : Prop where
  tag_free : r.byTag? e.tag = none
  name_free : r.byName? e.name = none
  tags : ∀ tag, r'.byTag? tag = if tag = e.tag then some e else r.byTag? tag
  names : ∀ name, r'.byName? name = if name = e.name then some e else r.byName? name
  size : r'.size = r.size + 1

/-- **Every run** leads to a registry whose tables hold the same entries. A call that fails changes
nothing; one that succeeds adds its entry under a new tag and a new name, or it is for a kind that stands
under both with the entry that an earlier call for the kind made, and then nothing changes. A call
succeeds in just these cases. What is found once stays. -/
theorem run_spec (calls : List (Call κ χ)) :
    (run calls).Paired ∧
    (∀ a err, (run calls).attempt a = .error err → run (calls ++ [a]) = run calls) ∧
    (∀ a r, (run calls).attempt a = .ok r → run (calls ++ [a]) = r ∧
      ((run calls).Gains ((run calls).made a) r ∨
        ∃ k e, a = .registerKind k ∧ Makes calls k e ∧
          (run calls).byName? (KindFamily.name k) = some e ∧ r = run calls)) ∧
    (∀ a, (∃ r, (run calls).attempt a = .ok r) ↔
      ((run calls).byTag? a.tag = none ∧ (run calls).byName? a.name = none) ∨
      ∃ k e, a = .registerKind k ∧ Makes calls k e ∧
        (run calls).byTag? (KindFamily.tag k) = some e ∧
        (run calls).byName? (KindFamily.name k) = some e) ∧
    ∀ more, (run calls).Grows (run (calls ++ more)) := by
  have hc := run_consistent calls
  -- a kind is held with the entry that a call for it made
  have hheld (k : κ) : (run calls).holds k = true ↔ ∃ e, Makes calls k e ∧
      (run calls).byTag? (KindFamily.tag k) = some e ∧
      (run calls).byName? (KindFamily.name k) = some e := by
    rw [holds_iff hc]
    refine exists_congr fun e => ?_
    rw [makes_iff]
    exact ⟨fun ⟨ht, hn, ho⟩ => ⟨⟨ht, ho⟩, ht, hn⟩, fun ⟨⟨_, ho⟩, ht, hn⟩ => ⟨ht, hn, ho⟩⟩
  refine ⟨hc.paired, ?_, ?_, ?_, run_append_grows calls⟩
  · intro a err ha
    rw [run_concat, call_of_error ha]
  · intro a r ha
    refine ⟨by rw [run_concat, call_of_attempt ha], ?_⟩
    rcases attempt_eq_ok.1 ha with ⟨ht, hn, rfl⟩ | ⟨k, rfl, hk, rfl⟩
    · exact .inl ⟨ht, hn, byTag?_insert, byName?_insert, Table.size_set_of_get?_eq_none ht⟩
    · obtain ⟨e, hm, -, hn⟩ := (hheld k).1 hk
      exact .inr ⟨k, e, rfl, hm, hn, rfl⟩
  · intro a
    constructor
    · rintro ⟨r, hr⟩
      rcases attempt_eq_ok.1 hr with ⟨ht, hn, -⟩ | ⟨k, rfl, hk, -⟩
      · exact .inl ⟨ht, hn⟩
      · obtain ⟨e, he⟩ := (hheld k).1 hk
        exact .inr ⟨k, e, rfl, he⟩
    · rintro (⟨ht, hn⟩ | ⟨k, e, rfl, he⟩)
      · exact ⟨_, attempt_eq_ok.2 (.inl ⟨ht, hn, rfl⟩)⟩
      · exact ⟨_, attempt_eq_ok.2 (.inr ⟨k, rfl, (hheld k).2 ⟨e, he⟩, rfl⟩)⟩

/-- A run that makes the entry of UUIDs. -/
def uuidRun : List (Call Kind Choice) := [.registerKind .uuid]

/-- Tag and name of UUIDs select each other; another reading cannot take the tag, object identifiers are
added beside it, and UUIDs may be registered again. -/
theorem run_spec_uuidRun :
    (run uuidRun).tagOf? "uuid" = some 37 ∧
    run (uuidRun ++ [.register 37 "id" (KindFamily.reader Kind.oid)]) = run uuidRun ∧
    (run uuidRun).Gains ((run uuidRun).made (.registerKind .oid))
      (run (uuidRun ++ [.registerKind .oid])) ∧
    (∃ r, (run uuidRun).registerKind Kind.uuid = .ok r) ∧
    (run uuidRun).Grows (run (uuidRun ++ [.registerKind .oid])) := by
  obtain ⟨hp, hfail, hok, hkind, hgrows⟩ := run_spec uuidRun
  refine ⟨(hp.keys 37 "uuid").1 rfl, hfail _ _ rfl, ?_, ?_, hgrows _⟩
  · obtain ⟨hrun, hgains | ⟨k, e, hk, hmade, -⟩⟩ := hok (.registerKind .oid) _ rfl
    · rw [hrun]
      exact hgains
    · -- no call of the run was for object identifiers
      obtain rfl := Call.registerKind.inj hk
      cases (makes_iff.1 hmade).1
  · have hmade : Makes uuidRun Kind.uuid ((empty : ChoiceRegistry).made (.registerKind .uuid)) :=
      ⟨[], [], rfl, rfl, rfl⟩
    exact (hkind (.registerKind .uuid)).2 (.inr ⟨.uuid, _, rfl, hmade, rfl, rfl⟩)

end Registry

end Rim
