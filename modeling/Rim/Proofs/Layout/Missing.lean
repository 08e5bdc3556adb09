import Rim.Proofs.Failure
import Rim.Proofs.Layout.Reading

/-!
# Missing members

A map may be refused for the shape of what it has, or for a mandatory member that it has not. If
only the shape of its members can be wrong, the kind of the failure tells the two apart.

* `Layout.Shaped`: layouts that trees fail for their shape only.
* `Layout.Lacks`: a mandatory member is missing, and nothing was wrong before.
* `Layout.failureOfMembers_not_malformed`: a map is not malformed, but refused, just if it lacks
  one.
-/

namespace Rim

open Keyed

theorem Result.eq_malformed_of_shape {α : Type} {r : Result α} (h : r.FailsAs [.malformed])
    {kind : ErrorKind} (hr : r.failure? = some kind) : kind = .malformed := by
  obtain ⟨e, rfl, rfl⟩ := Result.failure?_eq_some.1 hr
  exact List.mem_singleton.1 h

namespace Layout

variable {κ ν : Type} [TreeFormat κ ν]

theorem failureOfRest_malformed {entries : List (κ × ν)} {kind : ErrorKind}
    (h : failureOfRest (fun _ => none) entries = some kind) : kind = .malformed := by
  cases entries with
  | nil => cases h
  | cons e r => exact (Option.some.inj h).symm

variable [Ord κ]

/-- Why a member of a map is refused, if it is. -/
def failureOfMember (m : Member κ (Layout ν)) (entries : List (κ × ν)) : Option ErrorKind :=
  match get? m.key entries with
  | some v => m.layout.failure? v
  | none => if m.required then some .missingField else none

theorem failureOfMembers_cons (m : Member κ (Layout ν)) (r : List (Member κ (Layout ν)))
    (field? : κ → Option (Leaf ν)) (entries : List (κ × ν)) :
    failureOfMembers (m :: r) field? entries =
      (failureOfMember m entries).or (failureOfMembers r field? (without m.key entries)) := rfl

/-- A mandatory member is missing of a map, and nothing is wrong with the members before it. -/
inductive Lacks : List (Member κ (Layout ν)) → List (κ × ν) → Prop
  | here {m : Member κ (Layout ν)} {r : List (Member κ (Layout ν))} {entries : List (κ × ν)}
      (hm : m.required = true) (h : get? m.key entries = none) : Lacks (m :: r) entries
  | past {m : Member κ (Layout ν)} {r : List (Member κ (Layout ν))} {entries : List (κ × ν)}
      (hm : failureOfMember m entries = none) (h : Lacks r (without m.key entries)) :
      Lacks (m :: r) entries

/-- Only the shape of a tree can be wrong. -/
def Shaped (l : Layout ν) : Prop := ∀ v kind, l.failure? v = some kind → kind = .malformed

theorem shaped_reading {α : Type} {read : ν → Result α} (h : ∀ v, (read v).FailsAs [.malformed])
    (hnull : (read TreeFormat.null).failure? ≠ none) : (reading read hnull).Shaped :=
  fun v _ hv => Result.eq_malformed_of_shape (h v) hv

theorem failureOfMember_eq_some {m : Member κ (Layout ν)} (hl : m.layout.Shaped)
    {entries : List (κ × ν)} {kind : ErrorKind} (h : failureOfMember m entries = some kind) :
    kind = .malformed ∨ kind = .missingField ∧ m.required = true ∧ get? m.key entries = none := by
  unfold failureOfMember at h
  cases hg : get? m.key entries with
  | some v =>
    rw [hg] at h
    exact .inl (hl v kind h)
  | none =>
    rw [hg] at h
    by_cases hm : m.required = true
    · rw [if_pos hm] at h
      exact .inr ⟨(Option.some.inj h).symm, hm, rfl⟩
    · rw [if_neg hm] at h
      cases h

/-- **What is not malformed about a map** is that a mandatory member is missing, if its members are
refused for their shape only. -/
theorem failureOfMembers_not_malformed {members : List (Member κ (Layout ν))}
    (hl : ∀ m ∈ members, m.layout.Shaped) {entries : List (κ × ν)} {kind : ErrorKind} :
    (failureOfMembers members (fun _ => none) entries = some kind ∧ kind ≠ .malformed) ↔
      kind = .missingField ∧ Lacks members entries := by
  constructor
  · rintro ⟨h, hkind⟩
    induction members generalizing entries with
    | nil => exact absurd (failureOfRest_malformed h) hkind
    | cons m r ih =>
      obtain ⟨hm, hr⟩ := List.forall_mem_cons.1 hl
      rw [failureOfMembers_cons] at h
      -- the first member that is refused decides, and only a missing one is not malformed
      cases hf : failureOfMember m entries with
      | some k =>
        rw [hf, Option.some_or] at h
        obtain rfl := Option.some.inj h
        rcases failureOfMember_eq_some hm hf with h | ⟨rfl, hrequired, hg⟩
        · exact absurd h hkind
        · exact ⟨rfl, .here hrequired hg⟩
      | none =>
        rw [hf, Option.none_or] at h
        obtain ⟨rfl, hlacks⟩ := ih hr h
        exact ⟨rfl, .past hf hlacks⟩
  · rintro ⟨rfl, h⟩
    refine ⟨?_, nofun⟩
    clear hl
    induction h with
    | here hm h =>
      rw [failureOfMembers_cons, failureOfMember, h]
      dsimp only
      rw [if_pos hm, Option.some_or]
    | past hm _ ih => rw [failureOfMembers_cons, hm, Option.none_or, ih]

end Layout

end Rim
