import Mathlib.Data.List.TakeWhile
import Rim.Text.Blank

/-!
# Blanks in and around a text

Trimming takes off just the blanks around a text that neither starts nor ends with one, and dropping
blanks gives the text that they were put into.

* `after?_eq_some`, `before?_eq_some`: what a text starts and ends with.
* `trim_eq`, `trim_append`: a text is what trimming leaves of it, between blanks.
* `Spaced`, `spaced_iff`: a text into which blanks were put.
-/

namespace Rim.Text

/-! ### What a text starts and ends with -/

@[simp] theorem after?_eq_some {start s rest : List Char} :
    after? start s = some rest ↔ s = start ++ rest := by
  induction start generalizing s with
  | nil => exact Option.some_inj
  | cons c start ih =>
    cases s with
    | nil => exact ⟨nofun, nofun⟩
    | cons d s => rw [after?, Option.ite_none_right_eq_some, ih, List.cons_append, List.cons.injEq,
        eq_comm]

@[simp] theorem before?_eq_some {stop s rest : List Char} :
    before? stop s = some rest ↔ s = rest ++ stop := by
  rw [before?, Option.map_eq_some_iff]
  constructor
  · rintro ⟨front, hfront, rfl⟩
    rw [← List.reverse_inj, after?_eq_some.1 hfront, List.reverse_append, List.reverse_reverse]
  · rintro rfl
    exact ⟨rest.reverse, after?_eq_some.2 List.reverse_append, List.reverse_reverse rest⟩

/-! ### Blanks at the ends -/

/-- A text that holds nothing but blanks. -/
def Blanks (s : List Char) : Prop := ∀ c ∈ s, isBlank c = true

theorem Blanks.reverse {s : List Char} (h : Blanks s) : Blanks s.reverse :=
  fun c hc => h c (List.mem_reverse.1 hc)

/-- What is dropped from the front are blanks. -/
theorem dropWhile_isBlank (s : List Char) :
    ∃ blanks, Blanks blanks ∧ s = blanks ++ s.dropWhile isBlank :=
  ⟨s.takeWhile isBlank, fun _ => List.mem_takeWhile_imp, List.takeWhile_append_dropWhile.symm⟩

/-- **A text is what trimming leaves of it, between blanks.** -/
theorem trim_eq (s : List Char) :
    ∃ before after, Blanks before ∧ Blanks after ∧ s = before ++ trim s ++ after := by
  obtain ⟨before, hbefore, hs⟩ := dropWhile_isBlank s
  obtain ⟨after, hafter, hrest⟩ := dropWhile_isBlank (s.dropWhile isBlank).reverse
  refine ⟨before, after.reverse, hbefore, hafter.reverse, ?_⟩
  rw [List.append_assoc, trim, ← List.reverse_append, ← hrest, List.reverse_reverse, ← hs]

/-- Blanks are dropped from the front up to the first other character. -/
theorem dropWhile_append {blanks : List Char} (h : Blanks blanks) {c : Char} (hc : isBlank c = false)
    (r : List Char) : (blanks ++ c :: r).dropWhile isBlank = c :: r := by
  rw [List.dropWhile_append_of_pos h, List.dropWhile_cons_of_neg (by rw [hc]; decide)]

/-- **Nothing but blanks is trimmed** off a text that neither starts nor ends with one. -/
theorem trim_append {before after s : List Char} (hbefore : Blanks before) (hafter : Blanks after)
    (hfirst : ∃ c ∈ s.head?, isBlank c = false) (hlast : ∃ c ∈ s.getLast?, isBlank c = false) :
    trim (before ++ s ++ after) = s := by
  obtain ⟨c, hc, hblank⟩ := hfirst
  obtain ⟨d, hd, hblank'⟩ := hlast
  obtain ⟨r, rfl⟩ := List.head?_eq_some_iff.1 hc
  obtain ⟨q, hq⟩ := List.getLast?_eq_some_iff.1 hd
  rw [trim, List.append_assoc, List.cons_append, dropWhile_append hbefore hblank, ← List.cons_append,
    hq, List.reverse_append, List.reverse_concat, dropWhile_append hafter.reverse hblank',
    List.reverse_cons, List.reverse_reverse]

/-! ### Blanks anywhere -/

/-- A text with blanks put into it, anywhere. -/
inductive Spaced : List Char → List Char → Prop
  | nil : Spaced [] []
  | blank {s t : List Char} {c : Char} (hc : isBlank c = true) (h : Spaced s t) : Spaced s (c :: t)
  | keep {s t : List Char} {c : Char} (h : Spaced s t) : Spaced (c :: s) (c :: t)

/-- Dropping the blanks leaves a text into which they were put. -/
theorem spaced_dropBlanks (t : List Char) : Spaced (dropBlanks t) t := by
  induction t with
  | nil => exact .nil
  | cons c t ih =>
    rw [dropBlanks, List.filter_cons]
    split
    · exact .keep ih
    · rename_i hc
      exact .blank (by simpa using hc) ih

/-- **Blanks that were put into a text are dropped**, and it is what is left if it has none. -/
theorem spaced_iff {s t : List Char} (hs : ∀ c ∈ s, isBlank c = false) :
    Spaced s t ↔ dropBlanks t = s := by
  constructor
  · intro h
    induction h with
    | nil => rfl
    | blank hc _ ih =>
      rw [dropBlanks, List.filter_cons_of_neg (by rw [hc]; decide)]
      exact ih hs
    | keep _ ih =>
      obtain ⟨hc, hs⟩ := List.forall_mem_cons.1 hs
      rw [dropBlanks, List.filter_cons_of_pos (by rw [hc]; decide)]
      exact congrArg _ (ih hs)
  · rintro rfl
    exact spaced_dropBlanks t

end Rim.Text
