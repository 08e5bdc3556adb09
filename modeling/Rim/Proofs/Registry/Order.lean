import Rim.Proofs.Registry

/-!
# The order in which kinds are added

Parts of a program add their kinds when they start, in whatever order they happen to run. No order
and no repetition matters: either every order adds all of the kinds, and the registries answer
alike, or every order meets a failure.

* `Registry.Compatible`: what decides it, which depends on the kinds and not on their order.
* `Registry.Compatible.registerKind`: the step; a call for one of compatible kinds succeeds and
  leaves them compatible.
* `Registry.compatible_of_holds`: kinds that a registry came to hold were compatible before.
* `Registry.accepts_iff`: whole runs, by induction on the calls.
* `Registry.order_irrelevant`: the result.
-/

namespace Rim

/-- What can be found out about an entry: its tag, its name and its reading. -/
def Entry.content {κ χ : Type} (e : Entry κ χ) : UInt64 × String × Reader χ :=
  (e.tag, e.name, e.reader)

/-- Two entries that one kind owns show the same. -/
theorem Entry.IsOf.content_eq {κ χ : Type} [KindFamily κ χ] {d e : Entry κ χ} {k : κ}
    (hd : d.IsOf k) (he : e.IsOf k) : d.content = e.content := by
  rw [content, content, hd.tag, hd.name, hd.reader, he.tag, he.name, he.reader]

/-- What two look-ups find shows the same if either of them finds what the other one does. -/
theorem Entry.content_ext {κ χ : Type} {o o' : Option (Entry κ χ)}
    (h : ∀ e, o = some e → ∃ d, o' = some d ∧ d.content = e.content)
    (h' : ∀ e, o' = some e → ∃ d, o = some d ∧ d.content = e.content) :
    o.map content = o'.map content := by
  cases o with
  | some e =>
    obtain ⟨d, rfl, hd⟩ := h e rfl
    exact congrArg some hd.symm
  | none =>
    cases o' with
    | none => rfl
    | some e =>
      obtain ⟨d, hd, -⟩ := h' e rfl
      cases hd

namespace Registry

variable {κ χ : Type} {r r' r'' : Registry κ χ}

/-- Two registries answer alike: the same readings under the same tags and names, the same name for
each tag and tag for each name, and as many entries. -/
structure Agrees (r r' : Registry κ χ) : Prop where
  readersOfTags : ∀ tag, (r.byTag? tag).map (·.reader) = (r'.byTag? tag).map (·.reader)
  readersOfNames : ∀ name, (r.byName? name).map (·.reader) = (r'.byName? name).map (·.reader)
  names : ∀ tag, r.nameOf? tag = r'.nameOf? tag
  tags : ∀ name, r.tagOf? name = r'.tagOf? name
  size : r.size = r'.size

variable [KindFamily κ χ]

/-- Registries whose tables show the same answer alike. -/
theorem agrees_of_content (hr : r.Consistent) (hr' : r'.Consistent)
    (ht : ∀ tag, (r.byTag? tag).map Entry.content = (r'.byTag? tag).map Entry.content)
    (hn : ∀ name, (r.byName? name).map Entry.content = (r'.byName? name).map Entry.content) :
    r.Agrees r' := by
  have hmap {β : Type} (f : UInt64 × String × Reader χ → β) {o o' : Option (Entry κ χ)}
      (h : o.map Entry.content = o'.map Entry.content) :
      o.map (f ∘ Entry.content) = o'.map (f ∘ Entry.content) := by
    rw [← Option.map_map, h, Option.map_map]
  refine ⟨fun tag => hmap (·.2.2) (ht tag), fun name => hmap (·.2.2) (hn name),
    fun tag => hmap (·.2.1) (ht tag), fun name => hmap (·.1) (hn name), ?_⟩
  have htaken : {tag | (r.byTag? tag).isSome} = {tag | (r'.byTag? tag).isSome} := by
    ext tag
    have hsome := congrArg Option.isSome (ht tag)
    rw [Option.isSome_map, Option.isSome_map] at hsome
    exact iff_of_eq (congrArg (· = true) hsome)
  rw [← hr.paired.tagCount, ← hr'.paired.tagCount, htaken]

/-! ### Runs of calls for kinds -/

variable [DecidableEq κ] {k : κ} {ks ks' : List κ}

/-- The registry after a call for each of some kinds, one after the other, whether they fail or not.
-/
def afterKinds (r : Registry κ χ) (ks : List κ) : Registry κ χ :=
  (ks.map .registerKind).foldl call r

/-- Each of the calls for some kinds succeeds, in the order of the list. -/
def Accepts (r : Registry κ χ) (ks : List κ) : Prop :=
  ∀ before k after, ks = before ++ k :: after → ∃ r', (r.afterKinds before).registerKind k = .ok r'

/-- One of the calls for some kinds fails, in the order of the list. -/
def Refuses (r : Registry κ χ) (ks : List κ) : Prop :=
  ∃ before k after err, ks = before ++ k :: after ∧
    (r.afterKinds before).registerKind k = .error err

/-- Kinds that a registry can take in together: each is held already or finds its tag and its name
free, and no two of them share a tag or a name. -/
structure Compatible (r : Registry κ χ) (ks : List κ) : Prop where
  placed : ∀ k ∈ ks, r.holds k ∨
    r.byTag? (KindFamily.tag k) = none ∧ r.byName? (KindFamily.name k) = none
  apart : ∀ j ∈ ks, ∀ k ∈ ks, j ≠ k →
    KindFamily.tag j ≠ KindFamily.tag k ∧ KindFamily.name j ≠ KindFamily.name k

theorem refuses_iff : r.Refuses ks ↔ ¬ r.Accepts ks := by
  constructor
  · rintro ⟨before, k, after, err, hks, herr⟩ h
    obtain ⟨r', hr'⟩ := h before k after hks
    rw [herr] at hr'
    cases hr'
  · intro h
    unfold Accepts at h
    push Not at h
    obtain ⟨before, k, after, hks, hno⟩ := h
    cases hr : (r.afterKinds before).registerKind k with
    | ok r' => exact absurd hr (hno r')
    | error err => exact ⟨before, k, after, err, hks, hr⟩

theorem afterKinds_cons (h : r.registerKind k = .ok r') :
    r.afterKinds (k :: ks) = r'.afterKinds ks := by
  have ha : r.attempt (.registerKind k) = .ok r' := h
  rw [afterKinds, List.map_cons, List.foldl_cons, call_of_attempt ha]
  rfl

theorem accepts_nil : r.Accepts [] := by
  intro before k after hks
  cases before <;> cases hks

theorem accepts_cons : r.Accepts (k :: ks) ↔
    ∃ r', r.registerKind k = .ok r' ∧ r'.Accepts ks := by
  constructor
  · intro h
    obtain ⟨r', hr'⟩ : ∃ r', r.registerKind k = .ok r' := h [] k ks rfl
    refine ⟨r', hr', fun before j after hks => ?_⟩
    have hj := h (k :: before) j after (congrArg (k :: ·) hks)
    rw [afterKinds_cons hr'] at hj
    exact hj
  · rintro ⟨r', hr', h⟩ before j after hks
    cases before with
    | nil =>
      obtain ⟨rfl, rfl⟩ := List.cons.inj hks
      exact ⟨r', hr'⟩
    | cons i before =>
      obtain ⟨rfl, rfl⟩ := List.cons.inj hks
      rw [afterKinds_cons hr']
      exact h before j after rfl

/-- Calls that all succeed leave the registry that adding the kinds up to the first failure leaves.
-/
theorem registerKinds_of_accepts (h : r.Accepts ks) :
    r.registerKinds ks = (r.afterKinds ks, none) := by
  induction ks generalizing r with
  | nil => rfl
  | cons k ks ih =>
    obtain ⟨r', hr', h⟩ := accepts_cons.1 h
    rw [registerKinds, hr', afterKinds_cons hr']
    exact ih h

theorem afterKinds_consistent (h : r.Consistent) (ks : List κ) : (r.afterKinds ks).Consistent :=
  foldl_consistent h _

/-! ### Compatible kinds -/

/-- Whether kinds are compatible is a matter of which kinds they are. -/
theorem Compatible.congr (h : r.Compatible ks) (hks : ∀ k, k ∈ ks' → k ∈ ks) : r.Compatible ks' :=
  ⟨fun k hk => h.placed k (hks k hk), fun j hj k hk => h.apart j (hks j hj) k (hks k hk)⟩

/-- **A call for one of compatible kinds** succeeds, and the kinds are compatible afterwards. -/
theorem Compatible.registerKind (hr : r.Consistent) (h : r.Compatible ks) (hk : k ∈ ks) :
    ∃ r', r.registerKind k = .ok r' ∧ r'.Compatible ks := by
  rcases h.placed k hk with hheld | ⟨ht, hn⟩
  · exact ⟨r, if_pos hheld, h⟩
  have ha : r.attempt (.registerKind k) = .ok (r.insert (r.made (.registerKind k))) :=
    attempt_eq_ok.2 (.inl ⟨ht, hn, rfl⟩)
  have hr' := attempt_consistent hr ha
  refine ⟨_, ha, ?_, h.apart⟩
  intro j hj
  by_cases hjk : j = k
  · subst hjk
    exact .inl (holds_of_registerKind hr ha)
  · -- the new entry stands under another tag and another name than those of `j`
    obtain ⟨htag, hname⟩ := h.apart j hj k hk hjk
    refine (h.placed j hj).imp ?_ ?_
    · exact (attempt_grows ha).holds hr hr'
    · rintro ⟨htj, hnj⟩
      constructor
      · exact (byTag?_insert _).trans ((if_neg htag).trans htj)
      · exact (byName?_insert _).trans ((if_neg hname).trans hnj)

theorem Compatible.accepts (hr : r.Consistent) (h : r.Compatible ks) : r.Accepts ks := by
  induction ks generalizing r with
  | nil => exact accepts_nil
  | cons k ks ih =>
    obtain ⟨r', hr', h'⟩ := h.registerKind hr List.mem_cons_self
    have hc : r'.Consistent := attempt_consistent (a := .registerKind k) hr hr'
    exact accepts_cons.2 ⟨r', hr', ih hc (h'.congr fun j => List.mem_cons_of_mem k)⟩

/-- **Kinds that a registry holds were compatible** with every registry that it grew from. -/
theorem compatible_of_holds (hr : r.Consistent) (hr' : r'.Consistent) (hg : r.Grows r')
    (hks : ∀ k ∈ ks, r'.holds k) : r.Compatible ks := by
  constructor
  · intro k hk
    obtain ⟨e, ht, hn, ho⟩ := (holds_iff hr').1 (hks k hk)
    have htag := (hr'.owned _ e ht k ho).tag
    -- what stands under the kind's tag or name in the smaller registry is the kind's entry
    cases htk : r.byTag? (KindFamily.tag k) with
    | some d =>
      obtain rfl := Option.some.inj ((hg.tags _ d htk).symm.trans ht)
      have hname := (hr.tagged _ d htk).2
      rw [(hr'.owned _ d ht k ho).name] at hname
      exact .inl ((holds_iff hr).2 ⟨d, htk, hname, ho⟩)
    | none =>
      refine .inr ⟨rfl, ?_⟩
      cases hnk : r.byName? (KindFamily.name k) with
      | none => rfl
      | some d =>
        obtain rfl := Option.some.inj ((hg.names _ d hnk).symm.trans hn)
        have hd := (hr.named _ d hnk).2
        rw [htag, htk] at hd
        cases hd
  · intro j hj k hk hjk
    obtain ⟨d, htd, hnd, hod⟩ := (holds_iff hr').1 (hks j hj)
    obtain ⟨e, hte, hne, hoe⟩ := (holds_iff hr').1 (hks k hk)
    have hde : d ≠ e := by
      rintro rfl
      exact hjk (Option.some.inj (hod.symm.trans hoe))
    constructor
    · intro htag
      rw [htag, hte] at htd
      exact hde (Option.some.inj htd).symm
    · intro hname
      rw [hname, hne] at hnd
      exact hde (Option.some.inj hnd).symm

/-- Once every call has succeeded, every kind is held. -/
theorem Accepts.holds (hr : r.Consistent) (h : r.Accepts ks) :
    ∀ k ∈ ks, (r.afterKinds ks).holds k :=
  holds_of_registerKinds hr (registerKinds_of_accepts h)

theorem Accepts.adds (h : r.Accepts ks) : r.Adds ks (r.afterKinds ks) := by
  have hadds := r.registerKinds_adds ks
  rw [registerKinds_of_accepts h] at hadds
  exact hadds

/-- **The calls for some kinds all succeed** just if the kinds are compatible. -/
theorem accepts_iff (hr : r.Consistent) : r.Accepts ks ↔ r.Compatible ks := by
  constructor
  · intro h
    exact compatible_of_holds hr (afterKinds_consistent hr ks) h.adds.grows (h.holds hr)
  · exact Compatible.accepts hr

/-! ### What the registries answer -/

/-- An entry that one registry has from before or from some kinds shows the same in another registry
that grew from there and holds the kinds. -/
theorem Adds.byTag? (ha : r.Adds ks r') (hg : r.Grows r'') (hr' : r''.Consistent)
    (hk : ∀ k ∈ ks, r''.holds k) {tag : UInt64} {e : Entry κ χ} (he : r'.byTag? tag = some e) :
    ∃ d, r''.byTag? tag = some d ∧ d.content = e.content := by
  rcases ha.tags tag e he with he | ⟨k, hmem, rfl, -, hof⟩
  · exact ⟨e, hg.tags tag e he, rfl⟩
  · obtain ⟨d, ht, -, ho⟩ := (holds_iff hr').1 (hk k hmem)
    exact ⟨d, ht, (hr'.owned _ d ht k ho).content_eq hof⟩

theorem Adds.byName? (ha : r.Adds ks r') (hg : r.Grows r'') (hr' : r''.Consistent)
    (hk : ∀ k ∈ ks, r''.holds k) {name : String} {e : Entry κ χ} (he : r'.byName? name = some e) :
    ∃ d, r''.byName? name = some d ∧ d.content = e.content := by
  rcases ha.names name e he with he | ⟨k, hmem, rfl, -, hof⟩
  · exact ⟨e, hg.names name e he, rfl⟩
  · obtain ⟨d, ht, hn, ho⟩ := (holds_iff hr').1 (hk k hmem)
    exact ⟨d, hn, (hr'.owned _ d ht k ho).content_eq hof⟩

/-- **The order does not matter.** Let some kinds be added to a registry in two ways, in different
orders and with different repetitions. If each call succeeds one way, then each succeeds the other
way and the registries answer alike; if a call fails one way, then a call fails the other way. -/
theorem order_irrelevant (calls : List (Call κ χ)) (hks : ∀ k, k ∈ ks ↔ k ∈ ks') :
    ((run calls).Accepts ks →
      (run calls).Accepts ks' ∧ ((run calls).afterKinds ks).Agrees ((run calls).afterKinds ks')) ∧
    ((run calls).Refuses ks → (run calls).Refuses ks') := by
  have hr := run_consistent calls
  have haccepts : (run calls).Accepts ks ↔ (run calls).Accepts ks' := by
    rw [accepts_iff hr, accepts_iff hr]
    exact ⟨fun h => h.congr fun k => (hks k).2, fun h => h.congr fun k => (hks k).1⟩
  constructor
  · intro h
    have h' := haccepts.1 h
    have hc := afterKinds_consistent hr ks
    have hc' := afterKinds_consistent hr ks'
    have hheld k (hk : k ∈ ks') := h.holds hr k ((hks k).2 hk)
    have hheld' k (hk : k ∈ ks) := h'.holds hr k ((hks k).1 hk)
    refine ⟨h', agrees_of_content hc hc' ?_ ?_⟩
    · intro tag
      exact Entry.content_ext (fun e => h.adds.byTag? h'.adds.grows hc' hheld')
        (fun e => h'.adds.byTag? h.adds.grows hc hheld)
    · intro name
      exact Entry.content_ext (fun e => h.adds.byName? h'.adds.grows hc' hheld')
        (fun e => h'.adds.byName? h.adds.grows hc hheld)
  · rw [refuses_iff, refuses_iff, haccepts]
    exact id

/-- UUIDs and object identifiers are added in either order, once or again; neither order adds them
where another reading has taken the tag of UUIDs. -/
theorem order_irrelevant_uuid_oid :
    (run ([] : List (Call Kind Choice))).Accepts [.oid, .uuid, .oid] ∧
    ((run []).afterKinds [Kind.uuid, .oid]).Agrees ((run []).afterKinds [.oid, .uuid, .oid]) ∧
    (run [.register 37 "id" (KindFamily.reader Kind.oid)]).Refuses [Kind.oid, .uuid, .oid] := by
  have hks (k : Kind) : k ∈ [.uuid, .oid] ↔ k ∈ [.oid, .uuid, .oid] := by
    cases k <;> decide
  have haccepts : (run ([] : List (Call Kind Choice))).Accepts [.uuid, .oid] :=
    accepts_cons.2 ⟨_, rfl, accepts_cons.2 ⟨_, rfl, accepts_nil⟩⟩
  obtain ⟨h, hagrees⟩ := (order_irrelevant [] hks).1 haccepts
  refine ⟨h, hagrees, (order_irrelevant _ hks).2 ?_⟩
  exact ⟨[], .uuid, [.oid], _, rfl, rfl⟩

end Registry

end Rim
