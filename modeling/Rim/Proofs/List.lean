import Mathlib.Data.List.Perm.Basic

/-!
# Lists

* `find?_of_pairwise`, `find?_eq_some_of_pairwise`: a member is found by what sets it apart from the
  others.
* `exists_map_of_perm`: what is a list of written things in another order is written itself.
* `nodup_append_map`: what is listed beside a list of distinct things.
-/

namespace Rim

variable {α β : Type}

/-- A member is found by what sets it apart from the others. -/
theorem find?_of_pairwise [BEq β] [LawfulBEq β] {f : α → β} {a : α} {xs : List α}
    (h : xs.Pairwise fun x y => f x ≠ f y) (ha : a ∈ xs) :
    xs.find? (fun x => f x == f a) = some a := by
  induction xs with
  | nil => cases ha
  | cons x r ih =>
    obtain ⟨hx, hr⟩ := List.pairwise_cons.1 h
    rcases List.mem_cons.1 ha with rfl | ha
    · exact List.find?_cons_of_pos (beq_self_eq_true _)
    · have hne : (f x == f a) = false := beq_false_of_ne (hx a ha)
      rw [List.find?_cons, hne]
      exact ih hr ha

theorem find?_eq_some_of_pairwise [BEq β] [LawfulBEq β] {f : α → β} {a : α} {b : β} {xs : List α}
    (h : xs.Pairwise fun x y => f x ≠ f y) :
    xs.find? (fun x => f x == b) = some a ↔ a ∈ xs ∧ f a = b := by
  constructor
  · intro hfind
    exact ⟨List.mem_of_find?_eq_some hfind, beq_iff_eq.1 (List.find?_some hfind :)⟩
  · rintro ⟨ha, rfl⟩
    exact find?_of_pairwise h ha

/-- What is a list of written things in another order is written itself. -/
theorem exists_map_of_perm {write : α → β} {ys : List β} {xs : List α}
    (h : ys.Perm (xs.map write)) : ∃ zs : List α, ys = zs.map write ∧ zs.Perm xs := by
  have he := congrFun (congrFun (List.eq_map_comp_perm write) ys) xs
  exact he.mpr h

/-- A list of distinct things stays one with what a function lists, if that is distinct and new. -/
theorem nodup_append_map {xs : List β} {ys : List α} {f : α → β} (hx : xs.Nodup) :
    (xs ++ ys.map f).Nodup ↔ (∀ y ∈ ys, f y ∉ xs) ∧ (ys.map f).Nodup := by
  rw [List.nodup_append]
  constructor
  · rintro ⟨-, hy, h⟩
    refine ⟨?_, hy⟩
    intro y hmem hxs
    exact h _ hxs _ (List.mem_map_of_mem hmem) rfl
  · rintro ⟨h, hy⟩
    refine ⟨hx, hy, ?_⟩
    rintro x hxs _ hmem rfl
    obtain ⟨y, hymem, rfl⟩ := List.mem_map.1 hmem
    exact h y hymem hxs

end Rim
