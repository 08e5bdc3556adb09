import Rim.Proofs.Keyed

/-!
# Maps that differ in one entry

A map in which the value of one key was replaced, or to which one entry was added. Two such maps
differ in what is found under that key and in nothing else.

* `Keyed.Put`: one map is another with a value put under a key.
* `Put.get?`, `Put.without`: what is found under that key, and what is left when it is taken.
* `Put.get?_of_ne`, `Put.without_of_ne`: any other key is found as before, and taking it leaves two
  maps that differ in the same way.
-/

namespace Rim.Keyed

open Std

variable {κ ν : Type} [Ord κ]

/-- The second map is the first with `value` put under `key`, where there was the value given or
none. -/
inductive Put (key : κ) (value : ν) : Option ν → List (κ × ν) → List (κ × ν) → Prop
  | replaced {k : κ} {old : ν} {r : List (κ × ν)} (hk : compare k key = .eq) :
      Put key value (some old) ((k, old) :: r) ((k, value) :: r)
  | added {r : List (κ × ν)} (hr : Fresh key r) : Put key value none r ((key, value) :: r)
  | skip {e : κ × ν} {o : Option ν} {r r' : List (κ × ν)} (he : compare e.1 key ≠ .eq)
      (h : Put key value o r r') : Put key value o (e :: r) (e :: r')

namespace Put

variable {key other : κ} {value : ν} {o : Option ν} {es es' : List (κ × ν)}

/-- One entry is put where there is none. -/
theorem singleton (key : κ) (value : ν) : Put key value none [] [(key, value)] :=
  .added (List.forall_mem_nil _)

theorem get?_before (h : Put key value o es es') : get? key es = o := by
  induction h with
  | replaced hk => rw [get?, if_pos hk]
  | added hr => exact get?_of_fresh hr
  | skip he _ ih => rw [get?, if_neg he, ih]

/-- The entry that was put is there. -/
theorem mem (h : Put key value o es es') : ∃ k, (k, value) ∈ es' := by
  induction h with
  | replaced => exact ⟨_, List.mem_cons_self⟩
  | added => exact ⟨_, List.mem_cons_self⟩
  | skip _ _ ih =>
    obtain ⟨k, hk⟩ := ih
    exact ⟨k, List.mem_cons_of_mem _ hk⟩

variable [TransOrd κ]

/-- What was put is found under any equal key. -/
theorem get?_of_eq (h : Put key value o es es') (hk : compare key other = .eq) :
    Keyed.get? other es' = some value := by
  induction h with
  | replaced hk' => rw [Keyed.get?, if_pos (TransCmp.eq_trans hk' hk)]
  | added => rw [Keyed.get?, if_pos hk]
  | skip he _ ih =>
    rw [Keyed.get?, if_neg fun heq => he (TransCmp.eq_trans heq (OrientedCmp.eq_symm hk)), ih]

protected theorem get? (h : Put key value o es es') : Keyed.get? key es' = some value :=
  h.get?_of_eq ReflCmp.compare_self

/-- Taking the key leaves the same of both. -/
protected theorem without (h : Put key value o es es') : without key es' = without key es := by
  induction h with
  | replaced hk => rw [Keyed.without, Keyed.without, if_pos hk, if_pos hk]
  | added hr => rw [Keyed.without, if_pos ReflCmp.compare_self, without_of_fresh hr]
  | skip he _ ih => rw [Keyed.without, Keyed.without, if_neg he, if_neg he, ih]

theorem compare_ne {k : κ} (hk : compare k key = .eq) (hne : compare key other ≠ .eq) :
    compare k other ≠ .eq :=
  fun he => hne (TransCmp.eq_trans (OrientedCmp.eq_symm hk) he)

/-- What was replaced may be named by any equal key. -/
theorem of_eq {old : ν} (h : Put key value (some old) es es') (hk : compare key other = .eq) :
    Put other value (some old) es es' := by
  generalize ho : some old = o at h
  induction h with
  | replaced hk' =>
    obtain rfl := Option.some.inj ho
    exact .replaced (TransCmp.eq_trans hk' hk)
  | added => cases ho
  | skip he _ ih =>
    exact .skip (fun heq => he (TransCmp.eq_trans heq (OrientedCmp.eq_symm hk))) (ih ho)

/-- Any other key is found as before. -/
theorem get?_of_ne (h : Put key value o es es') (hne : compare key other ≠ .eq) :
    Keyed.get? other es' = Keyed.get? other es := by
  induction h with
  | replaced hk =>
    rw [Keyed.get?, Keyed.get?, if_neg (compare_ne hk hne), if_neg (compare_ne hk hne)]
  | added => rw [Keyed.get?, if_neg hne]
  | skip _ _ ih => rw [Keyed.get?, Keyed.get?, ih]

/-- Taking any other key leaves two maps that differ in the same way. -/
theorem without_of_ne (h : Put key value o es es') (hne : compare key other ≠ .eq) :
    Put key value o (Keyed.without other es) (Keyed.without other es') := by
  induction h with
  | replaced hk =>
    rw [Keyed.without, Keyed.without, if_neg (compare_ne hk hne), if_neg (compare_ne hk hne)]
    exact .replaced hk
  | added hr =>
    rw [Keyed.without, if_neg hne]
    exact .added fun e he => hr e ((without_sublist _ _).subset he)
  | skip he h ih =>
    rw [Keyed.without, Keyed.without]
    split
    · exact h
    · exact .skip he ih

end Put

end Rim.Keyed
