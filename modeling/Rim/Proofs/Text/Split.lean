import Rim.Text.Split

/-!
# Splitting what was joined

* `splitOn_joinWith`: pieces without the separator are split as they were joined.
* `joinWith_splitOn`: the pieces of any text are joined to that text.
* `cutAt?_append`, `cutAt?_eq_some`: a text is cut at its first separator.
* `mem_joinWith`: joining adds nothing but separators.
-/

namespace Rim.Text

variable {sep : Char}

/-- A text is cut at its first separator. -/
theorem cutAt?_append {text : List Char} (h : sep ∉ text) (rest : List Char) :
    cutAt? sep (text ++ sep :: rest) = some (text, rest) := by
  induction text with
  | nil => exact if_pos rfl
  | cons c r ih =>
    have hc : c ≠ sep := fun he => h (he ▸ List.mem_cons_self)
    rw [List.cons_append, cutAt?, if_neg hc, ih fun hr => h (List.mem_cons_of_mem _ hr)]
    rfl

theorem cutAt?_eq_some {text before after : List Char} :
    cutAt? sep text = some (before, after) ↔ sep ∉ before ∧ text = before ++ sep :: after := by
  refine ⟨fun h => ?_, fun ⟨hsep, htext⟩ => htext ▸ cutAt?_append hsep after⟩
  induction text generalizing before with
  | nil => cases h
  | cons c r ih =>
    rw [cutAt?] at h
    split at h
    · rename_i hc
      obtain ⟨rfl, rfl⟩ := Prod.mk.inj (Option.some.inj h)
      exact ⟨List.not_mem_nil, hc ▸ rfl⟩
    · rename_i hc
      obtain ⟨⟨front, _⟩, hfront, hp⟩ := Option.map_eq_some_iff.1 h
      obtain ⟨rfl, rfl⟩ := Prod.mk.inj hp
      obtain ⟨hsep, rfl⟩ := ih hfront
      exact ⟨List.not_mem_cons_of_ne_of_not_mem (Ne.symm hc) hsep, rfl⟩

theorem splitOn_of_not_mem {piece : List Char} (h : sep ∉ piece) : splitOn sep piece = [piece] := by
  induction piece with
  | nil => rfl
  | cons c r ih =>
    have hc : c ≠ sep := fun he => h (he ▸ List.mem_cons_self)
    rw [splitOn, if_neg hc, ih fun hr => h (List.mem_cons_of_mem _ hr)]

theorem splitOn_append {piece : List Char} (h : sep ∉ piece) (rest : List Char) :
    splitOn sep (piece ++ sep :: rest) = piece :: splitOn sep rest := by
  induction piece with
  | nil => exact if_pos rfl
  | cons c r ih =>
    have hc : c ≠ sep := fun he => h (he ▸ List.mem_cons_self)
    rw [List.cons_append, splitOn, if_neg hc, ih fun hr => h (List.mem_cons_of_mem _ hr)]

/-- **Pieces are split as they were joined**, if there is one and none holds the separator. -/
theorem splitOn_joinWith {pieces : List (List Char)} (hne : pieces ≠ [])
    (h : ∀ piece ∈ pieces, sep ∉ piece) : splitOn sep (joinWith sep pieces) = pieces := by
  induction pieces with
  | nil => exact absurd rfl hne
  | cons piece r ih =>
    obtain ⟨hp, hr⟩ := List.forall_mem_cons.1 h
    -- a separator stands between two pieces only
    cases r with
    | nil => exact splitOn_of_not_mem hp
    | cons next r =>
      rw [joinWith, splitOn_append hp, ih (List.cons_ne_nil _ _) hr]
      exact List.cons_ne_nil _ _

theorem splitOn_ne_nil (text : List Char) : splitOn sep text ≠ [] := by
  cases text with
  | nil => exact List.cons_ne_nil _ _
  | cons c r =>
    unfold splitOn
    split
    · exact List.cons_ne_nil _ _
    · split <;> exact List.cons_ne_nil _ _

/-- **The pieces of a text are joined to that text.** -/
@[simp] theorem joinWith_splitOn (text : List Char) : joinWith sep (splitOn sep text) = text := by
  induction text with
  | nil => rfl
  | cons c r ih =>
    unfold splitOn
    cases hs : splitOn sep r with
    | nil => exact absurd hs (splitOn_ne_nil r)
    | cons piece pieces =>
      rw [hs] at ih
      split
      · rename_i hc
        rw [joinWith, ih, hc]
        · rfl
        · exact List.cons_ne_nil _ _
      · -- the character goes in front of the first piece, whether others follow it or not
        rw [← ih]
        cases pieces <;> rfl

/-- Every character of joined pieces is the separator or one of a piece. -/
theorem mem_joinWith {pieces : List (List Char)} {c : Char} (h : c ∈ joinWith sep pieces) :
    c = sep ∨ ∃ piece ∈ pieces, c ∈ piece := by
  induction pieces with
  | nil => cases h
  | cons piece r ih =>
    cases r with
    | nil => exact .inr ⟨piece, List.mem_cons_self, h⟩
    | cons next r =>
      rcases List.mem_append.1 h with h | h
      · exact .inr ⟨piece, List.mem_cons_self, h⟩
      · rcases List.mem_cons.1 h with h | h
        · exact .inl h
        · rcases ih h with h | ⟨p, hp, h⟩
          · exact .inl h
          · exact .inr ⟨p, List.mem_cons_of_mem _ hp, h⟩

end Rim.Text
