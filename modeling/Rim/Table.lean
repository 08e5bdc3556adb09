/-!
# Tables

A table holds one value for each of some keys. A key that is set again loses the value that it had.

* `Table.get?`, `Table.set`: look a key up, and set it.
* `Table.get?_set`: setting a key changes what is found under that key and under no other.
* `Table.size_set_of_get?_eq_none`: a key that was not there is one key more.
-/

namespace Rim

/-- One value for each of some keys. -/
structure Table (κ ν : Type) where
  entries : List (κ × ν)
  distinct : entries.Pairwise fun a b => a.1 ≠ b.1

namespace Table

variable {κ ν : Type} {key key' : κ} {value : ν}

def empty : Table κ ν := ⟨[], .nil⟩

def size (t : Table κ ν) : Nat := t.entries.length

def values (t : Table κ ν) : List ν := t.entries.map (·.2)

variable [DecidableEq κ] {t : Table κ ν}

/-- The value of a key, if it is there. -/
def get? (t : Table κ ν) (key : κ) : Option ν := t.entries.lookup key

/-- The entries of the other keys. -/
def others (t : Table κ ν) (key : κ) : List (κ × ν) := t.entries.filter (·.1 ≠ key)

/-- Sets a key to a value, whether it was there or not. -/
def set (t : Table κ ν) (key : κ) (value : ν) : Table κ ν where
  entries := t.others key ++ [(key, value)]
  distinct := by
    refine List.pairwise_append.2 ⟨t.distinct.filter _, List.pairwise_singleton _ _, ?_⟩
    intro a ha b hb
    rw [List.mem_singleton.1 hb]
    exact of_decide_eq_true (List.mem_filter.1 ha).2

theorem mem_of_get? (h : t.get? key = some value) : (key, value) ∈ t.entries := by
  obtain ⟨before, after, he, -⟩ := List.lookup_eq_some_iff.1 h
  rw [he]
  exact List.mem_append_right _ List.mem_cons_self

/-- What stands in a table is found there. -/
theorem get?_of_mem (h : (key, value) ∈ t.entries) : t.get? key = some value := by
  obtain ⟨before, after, he⟩ := List.append_of_mem h
  refine List.lookup_eq_some_iff.2 ⟨before, after, he, fun p hp => bne_iff_ne.2 ?_⟩
  have hd := t.distinct
  rw [he] at hd
  exact ((List.pairwise_append.1 hd).2.2 p hp _ List.mem_cons_self).symm

theorem mem_values : value ∈ t.values ↔ ∃ key, t.get? key = some value := by
  constructor
  · intro h
    obtain ⟨⟨key, v⟩, he, rfl⟩ := List.mem_map.1 h
    exact ⟨key, get?_of_mem he⟩
  · rintro ⟨key, h⟩
    exact List.mem_map.2 ⟨_, mem_of_get? h, rfl⟩

theorem get?_others (h : key' ≠ key) : (t.others key).lookup key' = t.get? key' := by
  unfold others get?
  induction t.entries with
  | nil => rfl
  | cons e r ih =>
    rw [List.filter_cons, List.lookup_cons]
    by_cases he : e.1 = key
    · -- an entry of the key itself is not one that is looked for
      have hne : (key' == e.1) = false := beq_false_of_ne (he ▸ h)
      simp only [he, ne_eq, not_true_eq_false, decide_false, Bool.false_eq_true, if_false]
      rw [ih, ← he, hne]
    · simp only [he, ne_eq, not_false_eq_true, decide_true, if_true]
      rw [List.lookup_cons, ih]

/-- **Setting a key** changes what is found under that key and under no other. -/
theorem get?_set : (t.set key value).get? key' = if key' = key then some value else t.get? key' := by
  have hset : (t.set key value).get? key' =
      ((t.others key).lookup key').or ([(key, value)].lookup key') := List.lookup_append
  rw [hset]
  by_cases h : key' = key
  · -- the key has no entry among the others
    have hnone : (t.others key).lookup key' = none := by
      refine List.lookup_eq_none_iff.2 fun p hp => bne_iff_ne.2 ?_
      have hp : p.1 ≠ key := of_decide_eq_true (List.mem_filter.1 hp).2
      rw [h]
      exact hp.symm
    rw [if_pos h, hnone, h, List.lookup_cons, beq_self_eq_true]
    rfl
  · rw [if_neg h, get?_others h, List.lookup_cons, beq_false_of_ne h]
    exact Option.or_none

/-- A key that was not there is one key more. -/
theorem size_set_of_get?_eq_none (h : t.get? key = none) :
    (t.set key value).size = t.size + 1 := by
  have hall : t.others key = t.entries := by
    refine List.filter_eq_self.2 fun p hp => decide_eq_true ?_
    exact (bne_iff_ne.1 (List.lookup_eq_none_iff.1 h p hp)).symm
  show (t.others key ++ [(key, value)]).length = t.entries.length + 1
  rw [hall, List.length_append, List.length_singleton]

end Table

end Rim
