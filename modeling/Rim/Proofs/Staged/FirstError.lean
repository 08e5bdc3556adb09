import Mathlib.Data.Nat.Find
import Rim.Proofs.Staged

/-!
# The first error of a construction

The steps of a construction are setters that are applied and failures that are reported. Up to the first
error each one works on what those before it leave; from then on nothing changes, and no setter is run.
What a setter does before it fails stays.

* `Step.leaves`, `Step.error?`: what a step does to a value, by itself.
* `errorAt`: the error that a step meets after those before it.
* `run_of_no_error`, `run_of_firstError`: a run without an error, and one with a first error.
* `noting`: steps that note which setters are run.
* `first_error_stands`: what a run shows after each of its steps.
-/

namespace Rim.Staged

variable {α : Type}

/-! ### Single steps -/

namespace Step

/-- What a step leaves of a value. -/
def leaves : Step α → α → α
  | .apply _ f, a => (f a).1
  | .fail _, a => a

/-- The error that a step meets: the one of its setter, under the context of the step, or the failure
that it reports. -/
def error? : Step α → α → Option Error
  | .apply doing f, a => (f a).2.map (.context doing)
  | .fail e, _ => some e

end Step

theorem step_eq (a : α) (t : Step α) : step ⟨a, none⟩ t = ⟨t.leaves a, t.error? a⟩ := by
  cases t <;> rfl

/-! ### Runs -/

/-- The error that the step at `k` meets on what the steps before it leave, if it meets one. -/
def errorAt (a : α) (steps : List (Step α)) (k : Nat) : Option Error :=
  steps[k]?.bind (·.error? (made Step.leaves a (steps.take k)))

variable {a : α} {steps : List (Step α)} {t : Step α} {k : Nat} {e : Error}

@[simp] theorem errorAt_zero : errorAt a (t :: steps) 0 = t.error? a := rfl

@[simp] theorem errorAt_succ : errorAt a (t :: steps) (k + 1) = errorAt (t.leaves a) steps k := rfl

/-- The steps that are left out make no difference to those before them. -/
theorem errorAt_take {n : Nat} :
    errorAt a (steps.take n) k = if k < n then errorAt a steps k else none := by
  unfold errorAt
  rw [List.getElem?_take]
  split
  · rename_i hk
    rw [List.take_take, Nat.min_eq_left (Nat.le_of_lt hk)]
  · rfl

/-- The first error that steps meet, and at which of them. -/
structure FirstError (a : α) (steps : List (Step α)) (k : Nat) (e : Error) : Prop where
  error : errorAt a steps k = some e
  first : ∀ j < k, errorAt a steps j = none

/-- Steps meet no error, or there is a first one. -/
theorem no_error_or_first (a : α) (steps : List (Step α)) :
    (∀ k, errorAt a steps k = none) ∨ ∃ k e, FirstError a steps k e := by
  by_cases h : ∃ k, errorAt a steps k ≠ none
  · obtain ⟨e, he⟩ := Option.ne_none_iff_exists'.1 (Nat.find_spec h)
    exact .inr ⟨_, e, he, fun j hj => not_not.1 (Nat.find_min h hj)⟩
  · exact .inl fun k => not_not.1 fun hk => h ⟨k, hk⟩

/-- **Steps that meet no error** are taken one after the other. -/
theorem run_of_no_error (h : ∀ k, errorAt a steps k = none) :
    run ⟨a, none⟩ steps = ⟨made Step.leaves a steps, none⟩ := by
  induction steps generalizing a with
  | nil => rfl
  | cons t steps ih =>
    show run (step ⟨a, none⟩ t) steps = _
    rw [step_eq, show t.error? a = none from h 0]
    exact ih fun k => h (k + 1)

/-- **At the first error a run stops**, with what the step that met it leaves. -/
theorem run_of_firstError (h : FirstError a steps k e) :
    run ⟨a, none⟩ steps = ⟨made Step.leaves a (steps.take (k + 1)), some e⟩ := by
  induction steps generalizing a k with
  | nil => cases h.error
  | cons t steps ih =>
    show run (step ⟨a, none⟩ t) steps = _
    rw [step_eq]
    cases k with
    | zero =>
      rw [show t.error? a = some e from h.error]
      exact run_of_error rfl steps
    | succ k =>
      rw [show t.error? a = none from h.first 0 (Nat.zero_lt_succ k)]
      exact ih ⟨h.error, fun j hj => h.first (j + 1) (Nat.succ_lt_succ hj)⟩

/-- Before the first error a run is as if there was none, and after it nothing changes. -/
theorem run_take_of_firstError (h : FirstError a steps k e) (n : Nat) :
    run ⟨a, none⟩ (steps.take n) =
      ⟨made Step.leaves a (steps.take (min n (k + 1))), if n ≤ k then none else some e⟩ := by
  by_cases hn : n ≤ k
  · have hno (j : Nat) : errorAt a (steps.take n) j = none := by
      rw [errorAt_take]
      split
      · rename_i hj
        exact h.first j (by omega)
      · rfl
    rw [run_of_no_error hno, if_pos hn, Nat.min_eq_left (by omega)]
  · have hfirst : FirstError a (steps.take n) k e := by
      refine ⟨?_, fun j hj => ?_⟩
      · rw [errorAt_take, if_pos (by omega), h.error]
      · rw [errorAt_take, if_pos (by omega), h.first j hj]
    rw [run_of_firstError hfirst, if_neg hn, List.take_take, Nat.min_comm]

/-! ### Which setters are run -/

/-- A step that notes its place when its setter is run. -/
def Step.noting (i : Nat) : Step α → Step (α × List Nat)
  | .apply doing f => .apply doing fun s => (((f s.1).1, s.2 ++ [i]), (f s.1).2)
  | .fail e => .fail e

/-- Steps that note the places of the setters that are run, from `i` on. -/
def noting (i : Nat) : List (Step α) → List (Step (α × List Nat))
  | [] => []
  | t :: steps => t.noting i :: noting (i + 1) steps

/-- The places of the setters among steps, from `i` on. -/
def setters (i : Nat) : List (Step α) → List Nat
  | [] => []
  | .apply _ _ :: steps => i :: setters (i + 1) steps
  | .fail _ :: steps => setters (i + 1) steps

variable {i : Nat} {ran : List Nat}

/-- Steps that note what is run leave the same and note the setters among them. -/
theorem made_noting : made Step.leaves (a, ran) ((noting i steps).take k) =
    (made Step.leaves a (steps.take k), ran ++ setters i (steps.take k)) := by
  induction steps generalizing a ran i k with
  | nil => simp [noting, setters, made]
  | cons t steps ih =>
    cases k with
    | zero => simp [setters, made]
    | succ k =>
      show made Step.leaves ((t.noting i).leaves (a, ran)) ((noting (i + 1) steps).take k) = _
      cases t with
      | apply doing f =>
        refine ih.trans ?_
        rw [List.append_assoc]
        rfl
      | fail e => exact ih

/-- Steps that note what is run meet the same errors. -/
theorem errorAt_noting : errorAt (a, ran) (noting i steps) k = errorAt a steps k := by
  induction steps generalizing a ran i k with
  | nil => rfl
  | cons t steps ih =>
    cases k with
    | zero => cases t <;> rfl
    | succ k => cases t <;> exact ih

/-! ### What a run shows -/

/-- **The first error stands.** If no step meets an error, the value is what the steps leave one after
the other. If there is a first error, it is the result, under its context or as it was reported; of the
setters just those up to it are run, each one once and in order; and after each step the value is what
those up to the error leave, and all is well just as long as the error has not been met. -/
theorem first_error_stands (a : α) (steps : List (Step α)) :
    ((∀ k, errorAt a steps k = none) ∧
      (run ⟨a, none⟩ steps).finish = .ok (made Step.leaves a steps)) ∨
    ∃ k e, FirstError a steps k e ∧ (run ⟨a, none⟩ steps).finish = .error e ∧
      (run ⟨(a, []), none⟩ (noting 0 steps)).value =
        ((run ⟨a, none⟩ steps).value, setters 0 (steps.take (k + 1))) ∧
      ∀ n, (run ⟨a, none⟩ (steps.take n)).value =
          made Step.leaves a (steps.take (min n (k + 1))) ∧
        (run ⟨a, none⟩ (steps.take n)).isOk = decide (n ≤ k) := by
  rcases no_error_or_first a steps with h | ⟨k, e, h⟩
  · refine .inl ⟨h, ?_⟩
    rw [run_of_no_error h]
    rfl
  · refine .inr ⟨k, e, h, ?_, ?_, fun n => ?_⟩
    · rw [run_of_firstError h]
      rfl
    · have hnoting : FirstError (a, []) (noting 0 steps) k e :=
        ⟨errorAt_noting.trans h.error, fun j hj => errorAt_noting.trans (h.first j hj)⟩
      rw [run_of_firstError hnoting, run_of_firstError h]
      exact made_noting
    · rw [run_take_of_firstError h n]
      refine ⟨rfl, ?_⟩
      by_cases hn : n ≤ k <;> simp [isOk, hn]

end Rim.Staged
