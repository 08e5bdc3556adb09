import Rim.Error

/-!
# Values under construction

A value being built by setters, and the first error met on the way. After an error no setter runs
and no error replaces it.

* `Staged.Setter`: a change of the value that may fail, checked before it is made or after.
* `Staged.apply`, `Staged.fail`: run a setter, or record a failure.
* `Staged.run`: a sequence of both.
* `Staged.finish`: the value, or the first error.
-/

namespace Rim

/-- A value under construction and the first error met while building it. -/
structure Staged (α : Type) where
  value : α
  error : Option Error := none

namespace Staged

variable {α : Type}

/-- A setter: the value it leaves and, if it fails, why. A failing setter may have changed the value
before it failed. -/
abbrev Setter (α : Type) := α → α × Option Error

/-- A setter that leaves the value alone when it fails. -/
def Setter.ofResult (f : α → Result α) : Setter α := fun a =>
  match f a with
  | .ok b => (b, none)
  | .error e => (a, some e)

/-- A change that is made if a check passes. -/
def Setter.checked (check : Result Unit) (set : α → α) : Setter α := .ofResult fun a => do
  check
  return set a

/-- A change that is checked when it has been made, and stays if the check fails. -/
def Setter.thenCheck (set : α → α) (check : α → Result Unit) : Setter α := fun a =>
  match check (set a) with
  | .ok _ => (set a, none)
  | .error e => (set a, some e)

/-- Runs a setter unless an earlier step failed; a failure is recorded under a context. -/
def apply (doing : String) (f : Setter α) (s : Staged α) : Staged α :=
  match s.error with
  | some _ => s
  | none => ⟨(f s.value).1, (f s.value).2.map (.context doing)⟩

/-- Records a failure unless an earlier step failed. -/
def fail (e : Error) (s : Staged α) : Staged α :=
  match s.error with
  | some _ => s
  | none => { s with error := some e }

def isOk (s : Staged α) : Bool := s.error.isNone

/-- The value, or the first error. -/
def finish (s : Staged α) : Result α :=
  match s.error with
  | some e => .error e
  | none => .ok s.value

/-- A step of a construction. -/
inductive Step (α : Type)
  | apply (doing : String) (f : Setter α)
  | fail (e : Error)

/-- Takes a step. -/
def step (s : Staged α) : Step α → Staged α
  | .apply doing f => s.apply doing f
  | .fail e => s.fail e

def run (s : Staged α) (steps : List (Step α)) : Staged α := steps.foldl step s

end Staged

end Rim
