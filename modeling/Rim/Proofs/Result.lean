import Mathlib.Data.List.Forall2
import Rim.Sequence

/-!
# Results that are values

What has to hold for a chain of checks to pass, and for a list to be read back member by member.

* `bind_eq_ok`, `refuse_eq_ok`, `context_eq_ok`: a chain passes if each of its steps does.
* `eq_of_read`: what is read back is determined by what was written.
* `checkEach_eq_ok`, `checkOptional_eq_ok`: what is checked part by part passes if each part does.
* `mapM_map`, `readEach_map`: reading a list undoes writing it if reading a member does.
* `mapM_eq_ok`, `map_of_mapM`, `mem_of_mapM`, `exists_of_mapM`: what the members of a list were read
  from.
-/

namespace Rim

namespace Result

variable {α β γ : Type}

@[simp] theorem ok_bind (a : α) (f : α → Result β) : (Except.ok a >>= f) = f a := rfl

theorem bind_eq_ok {r : Result α} {f : α → Result β} {b : β} :
    (r >>= f) = .ok b ↔ ∃ a, r = .ok a ∧ f a = .ok b := by
  cases r with
  | error e => exact ⟨fun h => (by cases h), fun ⟨a, h, _⟩ => by cases h⟩
  | ok a =>
    constructor
    · intro h
      exact ⟨a, rfl, h⟩
    · rintro ⟨c, hc, h⟩
      cases hc
      exact h

@[simp] theorem check_eq_ok {r : Result Unit} {f : Unit → Result β} {b : β} :
    (r >>= f) = .ok b ↔ r = .ok () ∧ f () = .ok b := by
  rw [bind_eq_ok]
  exact ⟨fun ⟨_, h⟩ => h, fun h => ⟨(), h⟩⟩

theorem map_eq_ok {r : Result α} {f : α → β} {b : β} :
    f <$> r = .ok b ↔ ∃ a, r = .ok a ∧ f a = b := by
  cases r with
  | error e => exact ⟨fun h => (by cases h), fun ⟨a, h, _⟩ => by cases h⟩
  | ok a =>
    constructor
    · intro h
      exact ⟨a, rfl, Except.ok.inj h⟩
    · rintro ⟨c, hc, rfl⟩
      cases hc
      rfl

/-- Values that are read from the same thing are equal. -/
theorem eq_of_read {read : β → Result α} {x y : β} {a b : α} (ha : read x = .ok a)
    (hb : read y = .ok b) (h : x = y) : a = b := by
  rw [h, hb] at ha
  exact (Except.ok.inj ha).symm

@[simp] theorem error_bind {e : Error} {f : α → Result β} :
    ((Except.error e : Result α) >>= f) = .error e := rfl

/-- A refusal that does not apply leaves what comes after it. -/
@[simp] theorem refuse_eq_ok {c : Prop} [Decidable c] {e : Error} {r : Result α} {a : α} :
    (if c then .error e else r) = .ok a ↔ ¬c ∧ r = .ok a := by
  split
  · rename_i h
    exact ⟨fun he => (by cases he), fun hn => absurd h hn.1⟩
  · rename_i h
    exact ⟨fun he => ⟨h, he⟩, And.right⟩

/-- A requirement that is met leaves what comes after it. -/
@[simp] theorem demand_eq_ok {c : Prop} [Decidable c] {e : Error} {r : Result α} {a : α} :
    (if c then r else .error e) = .ok a ↔ c ∧ r = .ok a := by
  split
  · rename_i h
    exact ⟨fun he => ⟨h, he⟩, And.right⟩
  · rename_i h
    exact ⟨fun he => (by cases he), fun hc => absurd hc.1 h⟩

@[simp] theorem pure_eq_ok {a b : α} : (pure a : Result α) = .ok b ↔ a = b :=
  ⟨Except.ok.inj, congrArg _⟩

/-- A context does not make a value of a failure. -/
@[simp] theorem context_eq_ok {doing : String} {r : Result α} {a : α} :
    r.context doing = .ok a ↔ r = .ok a := by
  cases r with
  | error e => exact ⟨fun h => (by cases h), fun h => by cases h⟩
  | ok b => exact .rfl

end Result

/-! ### Members of a list -/

variable {α β : Type}

theorem checkFrom_eq_ok {what : String} {check : α → Result Unit} {i : Nat} {xs : List α} :
    checkFrom what check i xs = .ok () ↔ ∀ x ∈ xs, check x = .ok () := by
  induction xs generalizing i with
  | nil => exact ⟨fun _ _ h => (by cases h), fun _ => rfl⟩
  | cons x r ih =>
    rw [checkFrom, Result.check_eq_ok, Result.context_eq_ok, ih, List.forall_mem_cons]

/-- A list passes if each member does. -/
@[simp] theorem checkEach_eq_ok {what : String} {check : α → Result Unit} {xs : List α} :
    checkEach what check xs = .ok () ↔ ∀ x ∈ xs, check x = .ok () := checkFrom_eq_ok

@[simp] theorem checkOptional_eq_ok {check : α → Result Unit} {o : Option α} :
    checkOptional check o = .ok () ↔ ∀ x ∈ o, check x = .ok () := by
  cases o with
  | none => exact ⟨fun _ _ h => (by cases h), fun _ => rfl⟩
  | some x =>
    constructor
    · rintro h y ⟨⟩
      exact h
    · intro h
      exact h x rfl

variable {write : α → β} {read : β → Result α}

/-- **Reading a list undoes writing it** if reading each member does. -/
theorem mapM_map {xs : List α} (h : ∀ x ∈ xs, read (write x) = .ok x) :
    (xs.map write).mapM read = .ok xs := by
  induction xs with
  | nil => rfl
  | cons x r ih =>
    rw [List.map_cons, List.mapM_cons, h x List.mem_cons_self,
      ih fun y hy => h y (List.mem_cons_of_mem _ hy)]
    rfl

theorem readFrom_map {what : String} {i : Nat} {xs : List α}
    (h : ∀ x ∈ xs, read (write x) = .ok x) : readFrom what read i (xs.map write) = .ok xs := by
  induction xs generalizing i with
  | nil => rfl
  | cons x r ih =>
    have hr : readFrom what read (i + 1) (r.map write) = .ok r :=
      ih fun y hy => h y (List.mem_cons_of_mem _ hy)
    rw [List.map_cons, readFrom, h x List.mem_cons_self]
    show (readFrom what read (i + 1) (r.map write) >>= fun ys => pure (x :: ys)) = _
    rw [hr]
    rfl

/-- Saying at which index a failure arose changes nothing where there is none. -/
theorem readEach_map {what : String} {xs : List α} (h : ∀ x ∈ xs, read (write x) = .ok x) :
    readEach what read (xs.map write) = .ok xs := readFrom_map h

/-! ### What a list was read from -/

variable {γ : Type} {xs : List β} {ys : List α}

/-- Saying at which index a failure arose changes nothing where there is none. -/
theorem readFrom_eq_ok {what : String} {i : Nat} :
    readFrom what read i xs = .ok ys ↔ xs.mapM read = .ok ys := by
  induction xs generalizing i ys with
  | nil => exact .rfl
  | cons x r ih =>
    rw [readFrom, List.mapM_cons, Result.bind_eq_ok, Result.bind_eq_ok]
    refine exists_congr fun y => and_congr Result.context_eq_ok ?_
    rw [Result.bind_eq_ok, Result.bind_eq_ok]
    exact exists_congr fun zs => and_congr_left' ih

theorem readEach_eq_ok {what : String} :
    readEach what read xs = .ok ys ↔ xs.mapM read = .ok ys := readFrom_eq_ok

/-- A list is read member by member. -/
theorem mapM_eq_ok : xs.mapM read = .ok ys ↔ List.Forall₂ (fun y x => read x = .ok y) ys xs := by
  induction xs generalizing ys with
  | nil =>
    rw [List.forall₂_nil_right_iff]
    exact ⟨fun h => (Except.ok.inj h).symm, fun h => h ▸ rfl⟩
  | cons x r ih =>
    rw [List.mapM_cons, List.forall₂_cons_right_iff]
    constructor
    · intro h
      obtain ⟨y, hy, h⟩ := Result.bind_eq_ok.1 h
      obtain ⟨zs, hz, h⟩ := Result.bind_eq_ok.1 h
      exact ⟨y, zs, hy, ih.1 hz, (Except.ok.inj h).symm⟩
    · rintro ⟨y, zs, hy, hz, rfl⟩
      rw [hy, ih.2 hz]
      rfl

/-- **What is written of the members is what they were read from**, if it is for each one. -/
theorem map_of_mapM {write : α → γ} {norm : β → γ}
    (h : ∀ x ∈ xs, ∀ y, read x = .ok y → write y = norm x) (hr : xs.mapM read = .ok ys) :
    ys.map write = xs.map norm := by
  induction xs generalizing ys with
  | nil =>
    obtain rfl := Except.ok.inj hr
    rfl
  | cons x r ih =>
    obtain ⟨hx, hxs⟩ := List.forall_mem_cons.1 h
    rw [List.mapM_cons] at hr
    obtain ⟨y, hy, hr⟩ := Result.bind_eq_ok.1 hr
    obtain ⟨zs, hz, hr⟩ := Result.bind_eq_ok.1 hr
    obtain rfl := Except.ok.inj hr
    rw [List.map_cons, List.map_cons, hx y hy, ih hxs hz]

/-- Members that are read in two steps may be taken through the first one together. -/
theorem mapM_bind {first : β → Result γ} {next : γ → Result α}
    (hr : xs.mapM (fun x => first x >>= next) = .ok ys) :
    ∃ zs, xs.mapM first = .ok zs ∧ zs.mapM next = .ok ys := by
  induction xs generalizing ys with
  | nil => exact ⟨[], rfl, hr⟩
  | cons x r ih =>
    rw [List.mapM_cons] at hr
    obtain ⟨y, hy, hr⟩ := Result.bind_eq_ok.1 hr
    obtain ⟨z, hz, hy⟩ := Result.bind_eq_ok.1 hy
    obtain ⟨ys', hys, hr⟩ := Result.bind_eq_ok.1 hr
    obtain rfl := Except.ok.inj hr
    obtain ⟨zs, hzs, hys⟩ := ih hys
    refine ⟨z :: zs, ?_, ?_⟩
    · rw [List.mapM_cons, hz, hzs]
      rfl
    · rw [List.mapM_cons, hy, hys]
      rfl

/-- Each one is read as a member. -/
theorem exists_of_mapM (hr : xs.mapM read = .ok ys) {x : β} (hx : x ∈ xs) :
    ∃ y ∈ ys, read x = .ok y := by
  induction xs generalizing ys with
  | nil => cases hx
  | cons z r ih =>
    rw [List.mapM_cons] at hr
    obtain ⟨y, hy, hr⟩ := Result.bind_eq_ok.1 hr
    obtain ⟨zs, hzs, hr⟩ := Result.bind_eq_ok.1 hr
    obtain rfl := Except.ok.inj hr
    rcases List.mem_cons.1 hx with rfl | hx
    · exact ⟨y, List.mem_cons_self, hy⟩
    · obtain ⟨w, hw, hread⟩ := ih hzs hx
      exact ⟨w, List.mem_cons_of_mem _ hw, hread⟩

/-- Each member was read from one. -/
theorem mem_of_mapM (hr : xs.mapM read = .ok ys) {y : α} (hy : y ∈ ys) :
    ∃ x ∈ xs, read x = .ok y := by
  induction xs generalizing ys with
  | nil =>
    obtain rfl := Except.ok.inj hr
    cases hy
  | cons x r ih =>
    rw [List.mapM_cons] at hr
    obtain ⟨z, hz, hr⟩ := Result.bind_eq_ok.1 hr
    obtain ⟨zs, hzs, hr⟩ := Result.bind_eq_ok.1 hr
    obtain rfl := Except.ok.inj hr
    rcases List.mem_cons.1 hy with rfl | hy
    · exact ⟨x, List.mem_cons_self, hz⟩
    · obtain ⟨w, hw, hread⟩ := ih hzs hy
      exact ⟨w, List.mem_cons_of_mem _ hw, hread⟩

end Rim
