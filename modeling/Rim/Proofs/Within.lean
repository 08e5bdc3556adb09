import Rim.Cbor.Fields
import Rim.Json.Members
import Rim.Proofs.Result

/-!
# Readings that accept more

One result lies within another if whatever the first one gives the other gives too; only a failure may
become a value. A reading stays within another one if each of its steps does, so that it is enough to
compare the steps.

* `Result.Within`: the relation of two results.
* `Unread.Within`: the relation of two steps of reading a map, for whatever is left of the map.
* `Value.readMap_within`, `Value.readObject_within`: the readings of whole maps in either format.
-/

namespace Rim

namespace Result

variable {α β : Type}

/-- Whatever the first result gives, the other one gives too. -/
def Within (r r' : Result α) : Prop := ∀ a, r = .ok a → r' = .ok a

variable {r r' : Result α} {f f' : α → Result β}

theorem Within.refl (r : Result α) : r.Within r := fun _ h => h

theorem Within.bind (hr : r.Within r') (hf : ∀ a, (f a).Within (f' a)) :
    Result.Within (r >>= f) (r' >>= f') := by
  intro b h
  obtain ⟨a, ha, h⟩ := bind_eq_ok.1 h
  exact bind_eq_ok.2 ⟨a, hr a ha, hf a b h⟩

theorem Within.context (doing : String) (hr : r.Within r') :
    (r.context doing).Within (r'.context doing) := by
  intro a h
  exact context_eq_ok.2 (hr a (context_eq_ok.1 h))

/-- Members are read as before if each one is. -/
theorem Within.mapM (hf : ∀ a, (f a).Within (f' a)) (xs : List α) :
    Result.Within (xs.mapM f) (xs.mapM f') := by
  induction xs with
  | nil => exact .refl _
  | cons x r ih =>
    rw [List.mapM_cons, List.mapM_cons]
    exact (hf x).bind fun y => ih.bind fun ys => .refl _

end Result

theorem readFrom_within {α β : Type} {read read' : α → Result β}
    (h : ∀ a, (read a).Within (read' a)) (what : String) (i : Nat) (xs : List α) :
    (readFrom what read i xs).Within (readFrom what read' i xs) := by
  induction xs generalizing i with
  | nil => exact .refl _
  | cons x r ih => exact ((h x).context _).bind fun y => (ih (i + 1)).bind fun ys => .refl _

theorem readEach_within {α β : Type} {read read' : α → Result β}
    (h : ∀ a, (read a).Within (read' a)) (what : String) (xs : List α) :
    (readEach what read xs).Within (readEach what read' xs) := readFrom_within h what 0 xs

namespace Unread

variable {κ ν α β : Type}

/-- Whatever the first step gives and leaves of a map, the other one gives and leaves too. -/
def Within (p p' : Taking κ ν α) : Prop := ∀ u, Result.Within (p u) (p' u)

variable {p p' : Taking κ ν α} {q q' : α → Taking κ ν β} {read read' : ν → Result α}

theorem Within.refl (p : Taking κ ν α) : Within p p := fun _ => .refl _

/-- **Steps compose.** -/
theorem Within.bind (hp : Within p p') (hq : ∀ a, Within (q a) (q' a)) :
    Within (p >>= q) (p' >>= q') := fun u => (hp u).bind fun s => hq s.1 s.2

theorem Within.map (f : α → β) (hp : Within p p') : Within (f <$> p) (f <$> p') :=
  fun u => (hp u).bind fun _ => .refl _

/-- A reading of what was taken. -/
theorem Within.ofResult {r r' : Result α} (h : r.Within r') :
    Within (r : Taking κ ν α) (r' : Taking κ ν α) := fun _ => h.bind fun _ => .refl _

/-- A reading of a whole map. -/
theorem Within.readAll (hp : Within p p') (unexpected : κ → String) (u : Unread κ ν) :
    (readAll unexpected p u).Within (readAll unexpected p' u) :=
  Result.Within.bind ((hp.bind fun _ => .refl _) u) fun _ => .refl _

variable [Ord κ]

/-- A field that is there or not. -/
theorem Within.takeWith (h : ∀ v, (read v).Within (read' v)) (key : κ) :
    Within (takeWith key read) (takeWith key read') := by
  refine .bind (.refl _) ?_
  intro o
  cases o with
  | none => exact .refl _
  | some v => exact .map some (.ofResult (h v))

/-- A field that has to be there. -/
theorem Within.requireWith (h : ∀ v, (read v).Within (read' v)) (key : κ) (field : String) :
    Within (requireWith key field read) (requireWith key field read') :=
  .bind (.refl _) fun v => .ofResult (h v)

end Unread

/-- A map is read as before if its steps are taken as before. -/
theorem Cbor.Value.readMap_within {α : Type} {body body' : Cbor.Taking α}
    (h : Unread.Within body body') (what : String) (v : Cbor.Value) :
    (v.readMap what body).Within (v.readMap what body') :=
  .bind (.refl _) fun u => h.readAll _ u

/-- An object is read as before if its steps are taken as before. -/
theorem Json.Value.readObject_within {α : Type} {body body' : Json.Taking α}
    (h : Unread.Within body body') (what : String) (v : Json.Value) :
    (v.readObject what body).Within (v.readObject what body') :=
  .bind (.refl _) fun u => h.readAll _ u

end Rim
