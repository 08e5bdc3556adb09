import Mathlib.Data.List.Induction
import Rim.Proofs.Result
import Rim.Staged

/-!
# What setters build

A value is built from parts, each one put in by a setter under a label. If the setters check a part
by a rule and make a change if it passes, then the first part that does not pass decides, whatever
follows, and parts that all pass are put in one after the other. What the value then holds of them
is read off the change that a single part makes.

* `Obeys`: setters that check a part by a rule, on values that they keep sound.
* `Obeys.run_eq`, `Obeys.run_of_refused`: a run over parts that pass, and over parts that do not.
* `made_last`, `made_list`: what the value holds of the parts.
* `made_achieves`: which conditions it meets.
* `Builds`, `Obeys.builds`: a builder that succeeds exactly when it should.
-/

namespace Rim.Staged

variable {α β π : Type}

/-! ### Setters -/

namespace Setter

variable {set : α → α} {a : α} {e : Error}

theorem ofResult_of_ok {f : α → Result α} {b : α} (h : f a = .ok b) : ofResult f a = (b, none) := by
  rw [ofResult, h]

theorem ofResult_of_error {f : α → Result α} (h : f a = .error e) : ofResult f a = (a, some e) := by
  rw [ofResult, h]

theorem checked_of_ok {c : Result Unit} (h : c = .ok ()) : checked c set a = (set a, none) := by
  subst h
  rfl

theorem checked_of_error {c : Result Unit} (h : c = .error e) : checked c set a = (a, some e) := by
  subst h
  rfl

theorem thenCheck_of_ok {check : α → Result Unit} (h : check (set a) = .ok ()) :
    thenCheck set check a = (set a, none) := by
  rw [thenCheck, h]

theorem thenCheck_of_error {check : α → Result Unit} (h : check (set a) = .error e) :
    thenCheck set check a = (set a, some e) := by
  rw [thenCheck, h]

end Setter

/-! ### Runs -/

theorem step_of_passed {f : Setter α} {a b : α} (h : f a = (b, none)) (doing : String) :
    step ⟨a, none⟩ (.apply doing f) = ⟨b, none⟩ := by
  show (⟨(f a).1, (f a).2.map (.context doing)⟩ : Staged α) = _
  rw [h]
  rfl

theorem step_of_refused {f : Setter α} {a : α} {e : Error} (h : (f a).2 = some e) (doing : String) :
    (step ⟨a, none⟩ (.apply doing f)).error = some (.context doing e) := by
  show (f a).2.map (Error.context doing) = _
  rw [h]
  rfl

/-- **The first error stands**, and so does the value. -/
theorem run_of_error {s : Staged α} {e : Error} (h : s.error = some e) (steps : List (Step α)) :
    s.run steps = s := by
  induction steps with
  | nil => rfl
  | cons t r ih =>
    have hstep : s.step t = s := by
      cases t <;> simp only [step, apply, fail, h]
    show run (s.step t) r = s
    rw [hstep, ih]

/-- Setters that ask a rule of their part. If it passes they make a change, which keeps the value
sound; if it fails they give its error, and what they leave of the value is not said. -/
structure Obeys (put : π → Setter α) (check : π → Result Unit) (set : π → α → α) (sound : α → Prop) :
    Prop where
  passes : ∀ p a, sound a → check p = .ok () → put p a = (set p a, none)
  refuses : ∀ p a e, sound a → check p = .error e → (put p a).2 = some e
  keeps : ∀ p a, sound a → check p = .ok () → sound (set p a)

/-- The value with all parts put in, one after the other. -/
def made (set : π → α → α) (a : α) (parts : List π) : α := parts.foldl (fun a p => set p a) a

theorem made_concat {set : π → α → α} {a : α} {parts : List π} {p : π} :
    made set a (parts ++ [p]) = set p (made set a parts) := by
  rw [made, List.foldl_append]
  rfl

variable {put : π → Setter α} {check : π → Result Unit} {set : π → α → α} {sound : α → Prop}
  {label : π → String} {a : α}

/-- Parts that pass leave the value sound. -/
theorem Obeys.sound_made (h : Obeys put check set sound) {parts : List π}
    (hparts : ∀ p ∈ parts, check p = .ok ()) (ha : sound a) : sound (made set a parts) := by
  induction parts generalizing a with
  | nil => exact ha
  | cons p r ih =>
    obtain ⟨hp, hr⟩ := List.forall_mem_cons.1 hparts
    exact ih hr (h.keeps p a ha hp)

/-- **Parts that pass** are put in one after the other. -/
theorem Obeys.run_eq (h : Obeys put check set sound) {parts : List π}
    (hparts : ∀ p ∈ parts, check p = .ok ()) (ha : sound a) :
    run ⟨a, none⟩ (parts.map fun p => .apply (label p) (put p)) = ⟨made set a parts, none⟩ := by
  induction parts generalizing a with
  | nil => rfl
  | cons p r ih =>
    obtain ⟨hp, hr⟩ := List.forall_mem_cons.1 hparts
    show run (step ⟨a, none⟩ (.apply (label p) (put p))) _ = _
    rw [step_of_passed (h.passes p a ha hp)]
    exact ih hr (h.keeps p a ha hp)

/-- **The first part that does not pass** gives the error, whatever follows. -/
theorem Obeys.run_of_refused (h : Obeys put check set sound) {before : List π} {p : π} {e : Error}
    (hbefore : ∀ q ∈ before, check q = .ok ()) (hp : check p = .error e) (after : List π)
    (ha : sound a) :
    (run ⟨a, none⟩ ((before ++ p :: after).map fun p => .apply (label p) (put p))).error =
      some (.context (label p) e) := by
  have hstep := step_of_refused (h.refuses p _ e (h.sound_made hbefore ha) hp) (label p)
  rw [List.map_append, run, List.foldl_append]
  show (run (step (run _ _) _) (after.map _)).error = _
  rw [h.run_eq hbefore ha, run_of_error hstep, hstep]

/-! ### What a value holds -/

theorem forall_mem_none {P : β → Prop} : ∀ x ∈ (none : Option β), P x := nofun

theorem forall_mem_some {P : β → Prop} {b : β} (h : P b) : ∀ x ∈ some b, P x := by
  rintro x ⟨⟩
  exact h

theorem forall_mem_concat {P : β → Prop} {xs : List β} {b : β} (hxs : ∀ x ∈ xs, P x) (hb : P b) :
    ∀ x ∈ xs ++ [b], P x := List.forall_mem_append.2 ⟨hxs, List.forall_mem_singleton.2 hb⟩

/-- The last of what is picked out of parts. -/
def last (pick : π → Option β) (parts : List π) : Option β := (parts.filterMap pick).getLast?

theorem last_append {pick : π → Option β} {parts others : List π} :
    last pick (parts ++ others) = (last pick others).or (last pick parts) := by
  unfold last
  rw [List.filterMap_append, List.getLast?_append]

@[simp] theorem last_concat {pick : π → Option β} {parts : List π} {p : π} :
    last pick (parts ++ [p]) = (pick p).or (last pick parts) := by
  have hp : last pick [p] = pick p := by
    unfold last
    rw [List.filterMap_cons]
    cases pick p <;> rfl
  rw [last_append, hp]

/-- The last of lists one after the other is that of the last list that has one. -/
theorem last_flatMap {ρ : Type} {pick : π → Option β} {each : ρ → List π} (xs : List ρ) :
    last pick (xs.flatMap each) = last (fun x => last pick (each x)) xs := by
  induction xs using List.reverseRecOn with
  | nil => rfl
  | append_singleton xs x ih =>
    rw [List.flatMap_append, last_append, List.flatMap_singleton, ih, last_concat]

theorem last_eq_some {pick : π → Option β} {parts : List π} {b : β} (h : last pick parts = some b) :
    ∃ p ∈ parts, pick p = some b := List.mem_filterMap.1 (List.mem_of_getLast? h)

/-- **A slot that a part overwrites** holds the last one. -/
theorem made_last (get : α → Option β) (pick : π → Option β)
    (h : ∀ p a, get (set p a) = (pick p).or (get a)) (parts : List π) :
    get (made set a parts) = (last pick parts).or (get a) := by
  induction parts using List.reverseRecOn with
  | nil => rfl
  | append_singleton parts p ih => rw [made_concat, h, ih, last_concat, Option.or_assoc]

/-- A slot that starts empty holds nothing else. -/
theorem made_last_of_none (get : α → Option β) (pick : π → Option β) (ha : get a = none)
    (h : ∀ p a, get (set p a) = (pick p).or (get a)) (parts : List π) :
    get (made set a parts) = last pick parts := by
  rw [made_last get pick h, ha, Option.or_none]

/-- A slot that is never empty holds the last one too, if there is one. -/
theorem made_some (get : α → β) (pick : π → Option β)
    (h : ∀ p a, some (get (set p a)) = (pick p).or (some (get a))) {parts : List π}
    (hparts : ∃ p ∈ parts, (pick p).isSome) : some (get (made set a parts)) = last pick parts := by
  obtain ⟨p, hp, hsome⟩ := hparts
  obtain ⟨b, hb⟩ := Option.isSome_iff_exists.1 hsome
  have hmem := List.mem_filterMap.2 ⟨p, hp, hb⟩
  rw [made_last (fun a => some (get a)) pick h, last,
    List.getLast?_eq_some_getLast (List.ne_nil_of_mem hmem)]
  rfl

/-- **A list that a part is appended to** holds all of them in order. -/
theorem made_list (get : α → List β) (pick : π → Option β) (ha : get a = [])
    (h : ∀ p a, get (set p a) = (pick p).elim (get a) fun b => get a ++ [b]) (parts : List π) :
    get (made set a parts) = parts.filterMap pick := by
  induction parts using List.reverseRecOn with
  | nil => exact ha
  | append_singleton parts p ih =>
    rw [made_concat, h, ih, List.filterMap_append, List.filterMap_cons]
    cases pick p with
    | none => exact (List.append_nil _).symm
    | some b => rfl

/-- What no part touches stays. -/
theorem made_fixed (get : α → β) (h : ∀ (p : π) a, get (set p a) = get a) (parts : List π) :
    get (made set a parts) = get a := by
  induction parts using List.reverseRecOn with
  | nil => rfl
  | append_singleton parts p ih => rw [made_concat, h, ih]

/-- **A condition that only some parts bring about** is met if there is one of them. -/
theorem made_achieves (met : α → Prop) (brings : π → Prop) {parts : List π} (ha : ¬met a)
    (hother : ∀ p a, ¬brings p → (met (set p a) ↔ met a))
    (hbrings : ∀ p ∈ parts, brings p → ∀ a, met (set p a)) :
    met (made set a parts) ↔ ∃ p ∈ parts, brings p := by
  induction parts using List.reverseRecOn with
  | nil => exact iff_of_false ha (by simp)
  | append_singleton parts p ih =>
    obtain ⟨hparts, hp⟩ := List.forall_mem_append.1 hbrings
    rw [made_concat]
    by_cases hb : brings p
    · have hlast := List.mem_append_right parts (List.mem_singleton_self p)
      exact iff_of_true (hp p (List.mem_singleton_self p) hb _) ⟨p, hlast, hb⟩
    · rw [hother p _ hb, ih hparts]
      simp [or_and_right, exists_or, hb]

/-! ### Builders -/

/-- **A builder that succeeds exactly when it should.** The first invalid part decides; of valid
parts there is a value just if they are complete; and the value is valid and holds the parts. -/
structure Builds (label : π → String) (check : π → Result Unit) (complete : List π → Prop)
    (validate : α → Result Unit) (holds : List π → α → Prop) (build : List π → Result α) : Prop where
  first_invalid : ∀ before p after e, (∀ q ∈ before, check q = .ok ()) → check p = .error e →
    build (before ++ p :: after) = .error (.context (label p) e)
  succeeds : ∀ parts, (∀ p ∈ parts, check p = .ok ()) →
    ((∃ a, build parts = .ok a) ↔ complete parts)
  result : ∀ parts a, build parts = .ok a → validate a = .ok () ∧ holds parts a

/-- Parts are all valid or there is a first one that is not. -/
theorem valid_or_first (check : π → Result Unit) (parts : List π) :
    (∀ p ∈ parts, check p = .ok ()) ∨ ∃ before p after e, parts = before ++ p :: after ∧
      (∀ q ∈ before, check q = .ok ()) ∧ check p = .error e := by
  induction parts with
  | nil => exact .inl nofun
  | cons p r ih =>
    cases hp : check p with
    | error e => exact .inr ⟨[], p, r, e, rfl, nofun, hp⟩
    | ok _ =>
      rcases ih with hr | ⟨before, q, after, e, rfl, hbefore, hq⟩
      · exact .inl (List.forall_mem_cons.2 ⟨hp, hr⟩)
      · exact .inr ⟨p :: before, q, after, e, rfl, List.forall_mem_cons.2 ⟨hp, hbefore⟩, hq⟩

/-- **Setters that obey a rule make such a builder** with a check at the end that only incomplete
parts fail. -/
theorem Obeys.builds (h : Obeys put check set sound) (ha : sound a) (final : α → Result Unit)
    {complete : List π → Prop} {validate : α → Result Unit} {holds : List π → α → Prop}
    {build : List π → Result α}
    (hbuild : ∀ parts, build parts = (run ⟨a, none⟩ (parts.map fun p =>
      .apply (label p) (put p))).finish >>= fun b => final b >>= fun _ => .ok b)
    (hfinal : ∀ parts, (∀ p ∈ parts, check p = .ok ()) → sound (made set a parts) →
      (final (made set a parts) = .ok () ↔ complete parts))
    (hvalid : ∀ b, sound b → final b = .ok () → validate b = .ok ())
    (hholds : ∀ parts, complete parts → holds parts (made set a parts)) :
    Builds label check complete validate holds build := by
  have hfirst : ∀ before p after e, (∀ q ∈ before, check q = .ok ()) → check p = .error e →
      build (before ++ p :: after) = .error (.context (label p) e) := by
    intro before p after e hbefore hp
    rw [hbuild, finish, h.run_of_refused hbefore hp after ha]
    rfl
  -- of valid parts the value is the one made of them, if it passes the check at the end
  have hmade {parts : List π} (hparts : ∀ p ∈ parts, check p = .ok ()) {b : α} :
      build parts = .ok b ↔ complete parts ∧ b = made set a parts := by
    rw [hbuild, h.run_eq hparts ha, ← hfinal parts hparts (h.sound_made hparts ha)]
    show (final _ >>= fun _ => .ok _ : Result α) = _ ↔ _
    rw [Result.check_eq_ok, Except.ok.injEq]
    exact and_congr_right fun _ => eq_comm
  refine ⟨hfirst, fun parts hparts => ?_, fun parts b hb => ?_⟩
  · exact ⟨fun ⟨b, hb⟩ => ((hmade hparts).1 hb).1, fun hc => ⟨_, (hmade hparts).2 ⟨hc, rfl⟩⟩⟩
  · rcases valid_or_first check parts with hparts | ⟨before, p, after, e, rfl, hbefore, hp⟩
    · obtain ⟨hc, rfl⟩ := (hmade hparts).1 hb
      have hsound := h.sound_made hparts ha
      exact ⟨hvalid _ hsound ((hfinal parts hparts hsound).2 hc), hholds parts hc⟩
    · cases (hfirst before p after e hbefore hp).symm.trans hb

end Rim.Staged
