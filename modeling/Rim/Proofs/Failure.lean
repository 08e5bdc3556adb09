import Rim.Proofs.Unread

/-!
# What a result ends with

A result ends with a value that has some property, or fails with an error of one of some kinds. A
context does not change the kind, and a chain of steps ends as its steps do. So what a reader or a
check can fail with is found step by step, and so is what a reader gives.

* `ErrorKind.reading`, `ErrorKind.rules`: the kinds of what readers and checks fail with.
* `Result.Ends`, `Result.FailsAs`: what a result ends with.
* `Unread.Ends`: what a step of reading a map ends with, whatever is left of the map.
-/

namespace Rim

/-- The kinds of errors of the readers of values. -/
def ErrorKind.reading : List ErrorKind := [.unknownTypeChoice, .malformed, .invalid, .missingField]

/-- The kinds of errors of the rules of values. -/
def ErrorKind.rules : List ErrorKind := [.invalid, .missingField, .emptyIdentifier]

namespace Result

variable {α β : Type} {P : α → Prop} {Q : β → Prop} {kinds kinds' : List ErrorKind}
variable {r : Result α} {f : α → Result β}

/-- A value with a property, or a failure of one of some kinds. -/
def Ends (P : α → Prop) (kinds : List ErrorKind) : Result α → Prop
  | .ok a => P a
  | .error e => e.kind ∈ kinds

/-- Any value, or a failure of one of some kinds. -/
abbrev FailsAs (kinds : List ErrorKind) (r : Result α) : Prop := r.Ends (fun _ => True) kinds

theorem Ends.of_error {e : Error} (h : r.Ends P kinds) (hr : r = .error e) : e.kind ∈ kinds := by
  rw [hr] at h
  exact h

/-- Readers refuse input of the wrong shape. -/
theorem Ends.malformed {what detail : String} :
    Ends P ErrorKind.reading (.error (.malformed what detail)) :=
  (by decide : ErrorKind.malformed ∈ ErrorKind.reading)

/-- Input of the wrong shape, where nothing else can be wrong. -/
theorem Ends.shape {what detail : String} : Ends P [.malformed] (.error (.malformed what detail)) :=
  List.mem_cons_self

/-- A rule that is broken. -/
theorem Ends.invalid {what detail : String} : Ends P [.invalid] (.error (.invalid what detail)) :=
  List.mem_cons_self

theorem Ends.mono (hk : kinds ⊆ kinds') (h : r.Ends P kinds) : r.Ends P kinds' := by
  cases r with
  | ok a => exact h
  | error e => exact hk h

theorem Ends.imp {P' : α → Prop} (hp : ∀ a, P a → P' a) (h : r.Ends P kinds) : r.Ends P' kinds := by
  cases r with
  | ok a => exact hp a h
  | error e => exact h

theorem Ends.reading (h : r.Ends P [.invalid]) : r.Ends P ErrorKind.reading := h.mono (by decide)

theorem Ends.ofShape (h : r.Ends P [.malformed]) : r.Ends P ErrorKind.reading := h.mono (by decide)

theorem Ends.rules (h : r.Ends P [.invalid]) : r.Ends P ErrorKind.rules := h.mono (by decide)

theorem Ends.failsAs (h : r.Ends P kinds) : r.FailsAs kinds := h.imp fun _ _ => trivial

/-- What is known of the value besides. -/
theorem FailsAs.with (h : r.FailsAs kinds) (hp : ∀ a, r = .ok a → P a) : r.Ends P kinds := by
  cases r with
  | ok a => exact hp a rfl
  | error e => exact h

/-- **A chain of steps ends as its steps do.** -/
theorem Ends.bind (hr : r.Ends P kinds) (hf : ∀ a, P a → (f a).Ends Q kinds) :
    Result.Ends Q kinds (r >>= f) := by
  cases r with
  | ok a => exact hf a hr
  | error e => exact hr

theorem Ends.map {g : α → β} (hr : r.Ends P kinds) (hg : ∀ a, P a → Q (g a)) :
    Result.Ends Q kinds (g <$> r) := by
  cases r with
  | ok a => exact hg a hr
  | error e => exact hr

/-- A context does not change the kind of a failure. -/
theorem Ends.context (doing : String) (h : r.Ends P kinds) : (r.context doing).Ends P kinds := by
  cases r with
  | ok a => exact h
  | error e => exact h

/-- Either way that a condition goes. -/
theorem Ends.ite {c : Prop} [Decidable c] {s : Result α} (hr : r.Ends P kinds)
    (hs : s.Ends P kinds) : Result.Ends P kinds (if c then r else s) := by
  split
  · exact hr
  · exact hs

/-! ### Members of a list -/

variable {xs : List α}

theorem Ends.mapM (h : ∀ x ∈ xs, (f x).Ends Q kinds) :
    Result.Ends (fun ys => ∀ y ∈ ys, Q y) kinds (xs.mapM f) := by
  induction xs with
  | nil => exact fun _ hy => (List.not_mem_nil hy).elim
  | cons x r ih =>
    obtain ⟨hx, hr⟩ := List.forall_mem_cons.1 h
    rw [List.mapM_cons]
    exact hx.bind fun y hy => (ih hr).bind fun ys hys => List.forall_mem_cons.2 ⟨hy, hys⟩

theorem FailsAs.forM {f : α → Result Unit} (h : ∀ x ∈ xs, (f x).FailsAs kinds) :
    Result.FailsAs kinds (xs.forM f) := by
  induction xs with
  | nil => trivial
  | cons x r ih =>
    obtain ⟨hx, hr⟩ := List.forall_mem_cons.1 h
    exact hx.bind fun _ _ => ih hr

theorem FailsAs.mapM (h : ∀ x, (f x).FailsAs kinds) (xs : List α) :
    Result.FailsAs kinds (xs.mapM f) := (Ends.mapM fun x _ => h x).failsAs

end Result

section

variable {α β : Type} {Q : β → Prop} {kinds : List ErrorKind} {xs : List α}

theorem readFrom_ends {read : α → Result β} (h : ∀ x, (read x).Ends Q kinds) (what : String)
    (i : Nat) (xs : List α) :
    (readFrom what read i xs).Ends (fun ys => ∀ y ∈ ys, Q y) kinds := by
  induction xs generalizing i with
  | nil => exact fun _ hy => (List.not_mem_nil hy).elim
  | cons x r ih =>
    refine ((h x).context _).bind fun y hy => ?_
    exact (ih (i + 1)).bind fun ys hys => List.forall_mem_cons.2 ⟨hy, hys⟩

theorem readEach_ends {read : α → Result β} (h : ∀ x, (read x).Ends Q kinds) (what : String)
    (xs : List α) : (readEach what read xs).Ends (fun ys => ∀ y ∈ ys, Q y) kinds :=
  readFrom_ends h what 0 xs

theorem checkFrom_failsAs {check : α → Result Unit} (what : String) (i : Nat)
    (h : ∀ x ∈ xs, (check x).FailsAs kinds) : (checkFrom what check i xs).FailsAs kinds := by
  induction xs generalizing i with
  | nil => trivial
  | cons x r ih =>
    obtain ⟨hx, hr⟩ := List.forall_mem_cons.1 h
    exact (hx.context _).bind fun _ _ => ih (i + 1) hr

theorem checkEach_failsAs {check : α → Result Unit} (what : String)
    (h : ∀ x ∈ xs, (check x).FailsAs kinds) : (checkEach what check xs).FailsAs kinds :=
  checkFrom_failsAs what 0 h

theorem checkOptional_failsAs {check : α → Result Unit} {o : Option α}
    (h : ∀ x ∈ o, (check x).FailsAs kinds) : (checkOptional check o).FailsAs kinds := by
  cases o with
  | none => trivial
  | some x => exact h x rfl

end

/-! ### Steps of reading a map -/

namespace Unread

open ErrorKind (reading)

variable {κ ν α β : Type} {P : α → Prop} {Q : β → Prop} {p : Taking κ ν α} {q : α → Taking κ ν β}

/-- What a step gives of a map has a property, or it fails as readers do. -/
def Ends (P : α → Prop) (p : Taking κ ν α) : Prop :=
  ∀ u, Result.Ends (fun s => P s.1) reading (p u)

theorem Ends.pure {a : α} (h : P a) : Ends P (Pure.pure a : Taking κ ν α) := fun _ => h

/-- **Steps compose.** -/
theorem Ends.bind (hp : Ends P p) (hq : ∀ a, P a → Ends Q (q a)) : Ends Q (p >>= q) :=
  fun u => (hp u).bind fun s hs => hq s.1 hs s.2

theorem Ends.ofResult {r : Result α} (h : r.Ends P reading) : Ends P (r : Taking κ ν α) :=
  fun _ => h.bind fun _ ha => ha

theorem Ends.takeRest : Ends (fun _ => True) (takeRest : Taking κ ν _) := fun _ => trivial

theorem Ends.readAll (hp : Ends P p) (unexpected : κ → String) (u : Unread κ ν) :
    (readAll unexpected p u).Ends P reading := by
  -- what nothing took is malformed
  have hfinish : Ends (fun _ => True) (finish unexpected : Taking κ ν Unit) := by
    intro v
    unfold finish
    split
    · trivial
    · exact .malformed
  refine Result.Ends.bind (P := fun s : α × Unread κ ν => P s.1) ?_ fun _ hs => hs
  exact Ends.bind hp (fun a ha => hfinish.bind fun _ _ => .pure ha) u

variable [Ord κ] {read : ν → Result α}

/-- A field that is there or not. -/
theorem Ends.takeWith (h : ∀ v, (read v).Ends P reading) (key : κ) :
    Ends (fun o => ∀ a ∈ o, P a) (takeWith key read) := by
  intro u
  cases hg : Keyed.get? key u.entries with
  | none =>
    rw [takeWith_of_none hg]
    exact nofun
  | some v =>
    rw [takeWith_of_some hg]
    refine (h v).map fun a ha b hb => ?_
    exact Option.some.inj hb ▸ ha

/-- A field that has to be there. -/
theorem Ends.requireWith (h : ∀ v, (read v).Ends P reading) (key : κ) (field : String) :
    Ends P (requireWith key field read) := by
  rw [← bind_pure (Unread.requireWith key field read), requireWith_bind]
  refine (Ends.takeWith h key).bind fun o ho => ?_
  cases o with
  | none => exact fun _ => (by decide : ErrorKind.missingField ∈ reading)
  | some a => exact .pure (ho a rfl)

end Unread

end Rim
