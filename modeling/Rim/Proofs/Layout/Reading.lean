import Rim.Proofs.Layout
import Rim.Proofs.Unread

/-!
# Reading by a layout

The readings of maps follow layouts: whatever is read, the reading fails when the layout says so and
with the kind that the layout says. A reading is a chain of steps that each take a member, so that it
follows the layout of which they are the members.

* `Unread.Follows`: a reading of a map that follows the layouts of its members.
* `Follows.takeWith`, `Follows.requireWith`, `Follows.takeRest`: one step, and the steps after it.
* `failure?_mapM`, `failure?_readEach`: reading a list member by member.
-/

namespace Rim

open Keyed

namespace Result

variable {α β : Type} {r : Result α}

theorem failure?_eq_none : r.failure? = none ↔ ∃ a, r = .ok a := by
  cases r with
  | ok a => exact ⟨fun _ => ⟨a, rfl⟩, fun _ => rfl⟩
  | error e => exact ⟨nofun, fun ⟨_, h⟩ => nomatch h⟩

theorem failure?_eq_some {kind : ErrorKind} :
    r.failure? = some kind ↔ ∃ e, r = .error e ∧ e.kind = kind := by
  cases r with
  | ok a => exact ⟨nofun, fun ⟨_, h, _⟩ => nomatch h⟩
  | error e =>
    constructor
    · intro h
      exact ⟨e, rfl, Option.some.inj h⟩
    · rintro ⟨_, h, rfl⟩
      cases h
      rfl

theorem failure?_ne_none : r.failure? ≠ none ↔ ∃ e, r = .error e := by
  cases r with
  | ok a => exact ⟨fun h => absurd rfl h, fun ⟨_, h⟩ => nomatch h⟩
  | error e => exact ⟨fun _ => ⟨e, rfl⟩, fun _ => nofun⟩

@[simp] theorem failure?_context {doing : String} : (r.context doing).failure? = r.failure? := by
  cases r <;> rfl

@[simp] theorem failure?_map {f : α → β} : (f <$> r : Result β).failure? = r.failure? := by
  cases r <;> rfl

/-- A step that cannot fail does not matter. -/
theorem failure?_bind_pure {f : α → β} :
    Result.failure? (r >>= fun a => pure (f a)) = r.failure? := by
  cases r <;> rfl

/-- Of two steps the first one that fails decides. -/
theorem failure?_bind {f : α → Result β} {out : Option ErrorKind}
    (h : ∀ a, r = .ok a → (f a).failure? = out) :
    Result.failure? (r >>= f) = r.failure?.or out := by
  cases r with
  | ok a => exact h a rfl
  | error e => rfl

/-- A step that fails decides. -/
theorem failure?_bind_of_some {f : α → Result β} {kind : ErrorKind} (h : r.failure? = some kind) :
    Result.failure? (r >>= f) = some kind := by
  cases r with
  | ok a => cases h
  | error e => exact h

theorem failure?_of_bind {f : α → Result β} (h : Result.failure? (r >>= f) = none) :
    r.failure? = none := by
  cases r with
  | ok a => rfl
  | error e => exact h

variable {γ : Type} {failure : γ → Option ErrorKind} {read : γ → Result α}

theorem failure?_mapM (h : ∀ x, (read x).failure? = failure x) (xs : List γ) :
    Result.failure? (xs.mapM read) = xs.findSome? failure := by
  induction xs with
  | nil => rfl
  | cons x r ih =>
    have hr : ∀ y : α, Result.failure? (do return y :: (← r.mapM read)) = r.findSome? failure :=
      fun y => failure?_bind_pure.trans ih
    rw [List.mapM_cons, failure?_bind fun y _ => hr y, List.findSome?_cons, h x]
    cases failure x <;> rfl

/-- Saying at which index a failure arose does not change its kind. -/
theorem failure?_readEach (h : ∀ x, (read x).failure? = failure x) (what : String)
    (xs : List γ) : (readEach what read xs).failure? = xs.findSome? failure := by
  unfold readEach
  generalize 0 = i
  induction xs generalizing i with
  | nil => rfl
  | cons x r ih =>
    have hr : ∀ y : α, Result.failure? (do return y :: (← readFrom what read (i + 1) r)) =
        r.findSome? failure := fun y => failure?_bind_pure.trans (ih (i + 1))
    rw [readFrom, failure?_bind fun y _ => hr y, failure?_context, List.findSome?_cons, h x]
    cases failure x <;> rfl

end Result

variable {κ ν α β : Type}

section

variable [TreeFormat κ ν]

/-- A part that a reader reads. -/
def Leaf.reading (read : ν → Result α)
    (h : (read TreeFormat.null).failure? ≠ none := by exact nofun) : Leaf ν :=
  ⟨fun v => (read v).failure?, h⟩

/-- A part under the name of its type is read by what the name selects. -/
theorem Layout.failure?_unwrap [Ord κ] {w : Wrapping ν} {body : String → Layout ν}
    {f : String × ν → Result α}
    (h : ∀ type v, (f (type, v)).failure? = (body type).failure? v) (v : ν) :
    Result.failure? (w.read v >>= f) = (Layout.wrapped w body).failure? v := by
  rw [Layout.failure?]
  cases w.read v with
  | ok p => exact h p.1 p.2
  | error e => rfl

/-- A part that is refused whatever it is. -/
def Leaf.refused (ν : Type) {κ : Type} [TreeFormat κ ν] (kind : ErrorKind) : Leaf ν :=
  ⟨fun _ => some kind, nofun⟩

/-- A part that a reader reads. -/
def Layout.reading (read : ν → Result α)
    (h : (read TreeFormat.null).failure? ≠ none := by exact nofun) : Layout ν :=
  .leaf (.reading read h)

end

namespace Unread

open Layout

/-- A whole map is read by the steps, and by looking whether anything is left. -/
theorem readAll_eq (unexpected : κ → String) (p : Taking κ ν α) (u : Unread κ ν) :
    readAll unexpected p u = p u >>= fun s => finish unexpected s.2 >>= fun _ => .ok s.1 := by
  unfold readAll
  show (p u >>= _) >>= _ = _
  cases p u with
  | error e => rfl
  | ok s =>
    show (finish unexpected s.2 >>= _) >>= _ = finish unexpected s.2 >>= _
    cases finish unexpected s.2 <;> rfl

theorem readAll_bind {unexpected : κ → String} {p : Taking κ ν α} {q : α → Taking κ ν β}
    {u u' : Unread κ ν} {a : α} (h : p u = .ok (a, u')) :
    readAll unexpected (p >>= q) u = readAll unexpected (q a) u' := by
  have hp : (p >>= q) u = q a u' := by
    show (p u >>= fun s => q s.1 s.2) = _
    rw [h]
    rfl
  rw [readAll_eq, readAll_eq, hp]

variable [Ord κ] {unexpected : κ → String} {u : Unread κ ν} {key : κ} {read : ν → Result α}
variable {q : Option α → Taking κ ν β} {v : ν} {field : String}

theorem readAll_takeWith_of_none (h : get? key u.entries = none) :
    readAll unexpected (takeWith key read >>= q) u =
      readAll unexpected (q none) (u.dropping key) := readAll_bind (takeWith_of_none h)

theorem readAll_takeWith_of_some (h : get? key u.entries = some v) :
    readAll unexpected (takeWith key read >>= q) u =
      read v >>= fun a => readAll unexpected (q (some a)) (u.dropping key) := by
  have hp : (takeWith key read >>= q) u = read v >>= fun a => q (some a) (u.dropping key) := by
    show (takeWith key read u >>= fun s => q s.1 s.2) = _
    rw [takeWith_of_some h]
    cases read v <;> rfl
  simp only [readAll_eq, hp, bind_assoc]

theorem readAll_requireWith_of_some {q : α → Taking κ ν β} (h : get? key u.entries = some v) :
    readAll unexpected (requireWith key field read >>= q) u =
      read v >>= fun a => readAll unexpected (q a) (u.dropping key) := by
  rw [requireWith_bind, readAll_takeWith_of_some h]

theorem readAll_require_of_some {q : ν → Taking κ ν β} (h : get? key u.entries = some v) :
    readAll unexpected (require key field >>= q) u = readAll unexpected (q v) (u.dropping key) :=
  readAll_bind (require_of_some h)

/-- Two readings are one if they go on in the same way after what they find first. -/
theorem readAll_takeWith_congr {q' : Option α → Taking κ ν β}
    (hnone : get? key u.entries = none → q none = q' none)
    (hsome : ∀ v a, get? key u.entries = some v → read v = .ok a → q (some a) = q' (some a)) :
    readAll unexpected (takeWith key read >>= q) u =
      readAll unexpected (takeWith key read >>= q') u := by
  cases hg : get? key u.entries with
  | none => rw [readAll_takeWith_of_none hg, readAll_takeWith_of_none hg, hnone hg]
  | some v =>
    rw [readAll_takeWith_of_some hg, readAll_takeWith_of_some hg]
    cases ha : read v with
    | error e => rfl
    | ok a => exact congrArg (fun p => readAll unexpected p _) (hsome v a hg ha)

variable [TreeFormat κ ν]

/-- A reading of a map that fails as the layouts of its members and fields say. -/
def Follows (p : Taking κ ν α) (members : List (Member κ (Layout ν)))
    (field? : κ → Option (Leaf ν)) : Prop :=
  ∀ unexpected u, (readAll unexpected p u).failure? = failureOfMembers members field? u.entries

namespace Follows

variable {members : List (Member κ (Layout ν))} {field? : κ → Option (Leaf ν)} {l : Layout ν}

/-- What is left when all members are taken is refused. -/
theorem pure (a : α) : Follows (Pure.pure a : Taking κ ν α) [] fun _ => none := by
  rintro unexpected ⟨what, _ | ⟨⟨k, v⟩, r⟩⟩
  · rfl
  · rfl

/-- **A member that may be there** is taken, and then the others are. -/
theorem takeWith (hl : ∀ v, (read v).failure? = l.failure? v)
    (hq : ∀ o, Follows (q o) members field?) :
    Follows (Unread.takeWith key read >>= q) (⟨key, false, l⟩ :: members) field? := by
  intro unexpected u
  rw [failureOfMembers]
  cases hg : get? key u.entries with
  | none =>
    rw [readAll_takeWith_of_none hg, hq]
    rfl
  | some v =>
    rw [readAll_takeWith_of_some hg, Result.failure?_bind fun a _ => hq (some a) _ _, hl]
    rfl

/-- **A member that has to be there** is taken, and then the others are. -/
theorem requireWith {q : α → Taking κ ν β}
    (hl : ∀ v, (read v).failure? = l.failure? v) (hq : ∀ a, Follows (q a) members field?) :
    Follows (Unread.requireWith key field read >>= q) (⟨key, true, l⟩ :: members) field? := by
  intro unexpected u
  rw [failureOfMembers, requireWith_bind]
  cases hg : get? key u.entries with
  | none =>
    rw [readAll_takeWith_of_none hg]
    rfl
  | some v =>
    rw [readAll_takeWith_of_some hg, Result.failure?_bind fun a _ => hq a _ _, hl]
    rfl

/-- What is left is read as fields. -/
theorem takeRest {r : List (κ × ν) → Result α} {f : α → β}
    (hr : ∀ entries, (r entries).failure? = failureOfRest field? entries) :
    Follows (do return f (← r (← Unread.takeRest)) : Taking κ ν β) [] field? := by
  rintro unexpected ⟨what, entries⟩
  rw [failureOfMembers, ← hr]
  have hp : (do return f (← r (← Unread.takeRest)) : Taking κ ν β) ⟨what, entries⟩ =
      (fun a => (f a, ⟨what, []⟩)) <$> r entries := by
    show (liftM (r entries) >>= fun a => Pure.pure (f a) : Taking κ ν β) ⟨what, []⟩ = _
    cases r entries <;> rfl
  rw [readAll_eq, hp]
  cases r entries <;> rfl

end Follows

/-! ### A step that the others depend on -/

/-- What stands under a key reads as `o`, unless it cannot be read. -/
def Finds (key : κ) (read : ν → Result α) (o : Option α) (entries : List (κ × ν)) : Prop :=
  match get? key entries with
  | none => o = none
  | some v => ∀ a, read v = .ok a → o = some a

variable {members : List (Member κ (Layout ν))} {field? : κ → Option (Leaf ν)} {l : Layout ν}
variable {o : Option α}

omit [TreeFormat κ ν] in
theorem Finds.context_iff {doing : String} {entries : List (κ × ν)} :
    Finds key (fun v => (read v).context doing) o entries ↔ Finds key read o entries := by
  unfold Finds
  cases get? key entries with
  | none => exact .rfl
  | some v => exact forall_congr' fun a => imp_congr_left Result.context_eq_ok

/-- **A member that says how the others are read.** -/
theorem failure?_takeFirst (hl : ∀ v, (read v).failure? = l.failure? v)
    (ho : Finds key read o u.entries) (hq : Follows (q o) members field?) :
    (readAll unexpected (takeWith key read >>= q) u).failure? =
      failureOfMembers (⟨key, false, l⟩ :: members) field? u.entries := by
  rw [failureOfMembers]
  unfold Finds at ho
  cases hg : get? key u.entries with
  | none =>
    rw [hg] at ho
    rw [readAll_takeWith_of_none hg, ← ho, hq]
    rfl
  | some v =>
    rw [hg] at ho
    have hr : ∀ a, read v = .ok a → (readAll unexpected (q (some a)) (u.dropping key)).failure? =
        failureOfMembers members field? (without key u.entries) := by
      intro a ha
      rw [← ho a ha, hq]
      rfl
    rw [readAll_takeWith_of_some hg, Result.failure?_bind hr, hl]

omit [TreeFormat κ ν] in
/-- What a reading gives tells what stands under the key that it takes first. -/
theorem Finds.of_readAll {b : β} (part : β → Option α) (hq : ∀ o, Gives (q o) fun b => part b = o)
    (h : readAll unexpected (takeWith key read >>= q) u = .ok b) :
    Finds key read (part b) u.entries := by
  unfold Finds
  cases hg : get? key u.entries with
  | none =>
    rw [readAll_takeWith_of_none hg] at h
    exact (hq none).readAll h
  | some v =>
    rw [readAll_takeWith_of_some hg] at h
    obtain ⟨a, ha, h⟩ := Result.bind_eq_ok.1 h
    intro a' ha'
    obtain rfl := Except.ok.inj (ha.symm.trans ha')
    exact (hq (some a)).readAll h

variable [Std.TransOrd κ] {R : Layout ν → ν → ν → Prop} {entries entries' : List (κ × ν)}
variable {k : κ} {value : ν}

omit [TreeFormat κ ν] in
/-- Putting an entry leaves what a member reads as, if it is not put under the key of the member or
cannot be read. -/
theorem Finds.put {old : Option ν} (h : Finds key read o entries)
    (hp : Put k value old entries entries') (hk : compare k key = .eq → ∀ a, read value ≠ .ok a) :
    Finds key read o entries' := by
  unfold Finds at h ⊢
  by_cases he : compare k key = .eq
  · rw [hp.get?_of_eq he]
    exact fun a ha => absurd ha (hk he a)
  · rw [hp.get?_of_ne he]
    exact h

/-- A change of one place leaves what a member reads as, if its own changes cannot be read. -/
theorem Finds.of_changed {m d : Member κ (Layout ν)} {old : ν} (h : Finds key read o entries)
    (hd : member? members key = some d)
    (hR : ∀ v v', Inside R d.layout v v' → d.layout.failure? v = none → (read v').failure? ≠ none)
    (hv : failureOfMembers members field? entries = none) (hm : member? members k = some m)
    (hp : Put k value (some old) entries entries') (hi : Inside R m.layout old value) :
    Finds key read o entries' := by
  refine h.put hp fun hk a ha => ?_
  have hsame : member? members k = member? members key := by
    unfold member?
    simp only [Std.TransCmp.congr_left hk]
  obtain rfl : m = d := Option.some.inj (hm.symm.trans (hsame.trans hd))
  obtain ⟨hold, -⟩ := failureOfMembers_changed hp hm hv
  exact hR _ _ hi hold (congrArg Result.failure? ha)

/-- So does a change of one place of the map or of the map itself, if the latter does. -/
theorem Finds.of_inside {d : Member κ (Layout ν)} {v' : ν} (h : Finds key read o entries)
    (hd : member? members key = some d)
    (hR : ∀ v v', Inside R d.layout v v' → d.layout.failure? v = none → (read v').failure? ≠ none)
    (hv : failureOfMembers members field? entries = none)
    (htop : ∀ v', R (.map members field?) (TreeFormat.map entries) v' →
      ∃ entries', v' = TreeFormat.map entries' ∧ Finds key read o entries')
    (hi : Inside R (.map members field?) (TreeFormat.map entries) v') :
    ∃ entries', v' = TreeFormat.map entries' ∧ Finds key read o entries' := by
  rcases hi.of_map with ht | ⟨m, old, value, es, es', hm, hp, hc, he, rfl⟩
  · exact htop v' ht
  · have he : some entries = some es := by
      rw [← TreeFormat.entries?_map, he, TreeFormat.entries?_map]
    obtain rfl := Option.some.inj he
    exact ⟨es', rfl, h.of_changed hd hR hv hm hp hc⟩

end Unread

end Rim
