import Rim.Proofs.Choice.Ber

/-!
# Dotted notation and octets

A text is an object identifier if it is numerals with dots between them and their numbers are arcs
that fit the octets. The octets then have these arcs. Back from the octets there is one text only,
in which no numeral has a plus sign or a zero that it could do without, so nothing but these is lost
on the way.

* `Noted`, `Encodable`: texts that note arcs, and arcs that there are octets of.
* `arcs_berOfArcs`: the octets of arcs have these arcs.
* `parse_eq_ok`: which texts are read, and as what.
* `dotted_exact`: reading and writing the notation are inverse.
-/

namespace Rim.Oid

/-- A text that holds a numeral of each arc, with a dot between two of them. -/
def Noted (arcs : List Nat) (text : String) : Prop :=
  ∃ pieces, List.Forall₂ Text.Numeral.Writes arcs pieces ∧ text.toList = Text.joinWith '.' pieces

/-- Arcs that there are octets of: the two leading ones share a number, which has to tell them
apart, and all numbers have to fit 64 bits. -/
structure Encodable (a b : Nat) (rest : List Nat) : Prop where
  root : a ≤ 2
  second : a < 2 → b ≤ 39
  shared : 40 * a + b < 2 ^ 64
  fits : ∀ k ∈ a :: b :: rest, k < 2 ^ 64

/-! ### The notation -/

/-- No numeral holds a dot. -/
theorem dot_not_mem {n : Nat} {piece : List Char} (h : Text.Numeral.Writes n piece) : '.' ∉ piece := by
  obtain ⟨ds, hpiece, -, hd, -⟩ := h
  have hdot : '.' ∉ ds := fun hm => absurd (hd '.' hm) (by decide)
  rcases hpiece with rfl | rfl
  · exact hdot
  · rw [List.mem_cons, not_or]
    exact ⟨by decide, hdot⟩

/-- The numerals of a text are its pieces between the dots. -/
theorem noted_iff {arcs : List Nat} (hne : arcs ≠ []) {text : String} :
    Noted arcs text ↔ List.Forall₂ Text.Numeral.Writes arcs (Text.splitOn '.' text.toList) := by
  constructor
  · rintro ⟨pieces, hw, ht⟩
    have hpieces : pieces ≠ [] := by
      rintro rfl
      exact hne (List.forall₂_nil_right_iff.1 hw)
    have hdots : ∀ piece ∈ pieces, '.' ∉ piece :=
      ((List.forall₂_and_left _ _).1 (hw.flip.imp fun _ _ h => ⟨dot_not_mem h, h⟩)).1
    rwa [ht, Text.splitOn_joinWith hpieces hdots]
  · intro h
    exact ⟨_, h, (Text.joinWith_splitOn _).symm⟩

/-- Arcs are read off the numerals of a text, and all of them fit 64 bits. -/
theorem parseArcs_eq_ok {arcs : List Nat} (hne : arcs ≠ []) {text : String} :
    parseArcs text = .ok arcs ↔ Noted arcs text ∧ ∀ k ∈ arcs, k < 2 ^ 64 := by
  rw [noted_iff hne, and_comm, ← List.forall₂_and_left, parseArcs, mapM_eq_ok]
  constructor
  · refine fun h => h.imp fun k piece hread => ?_
    split at hread
    · rename_i w hw
      obtain rfl := Except.ok.inj hread
      exact ⟨w.toNat_lt, Text.Numeral.parse?_eq_some.1 hw⟩
    · cases hread
  · intro h
    refine h.imp fun k piece hk => ?_
    have hword := UInt64.toNat_ofNat_of_lt' hk.1
    rw [Text.Numeral.parse?_eq_some.2 (hword.symm ▸ hk.2)]
    exact congrArg Except.ok hword

/-! ### Octets of arcs -/

/-- The shared number stands for the two leading arcs. -/
theorem Encodable.leads {a b : Nat} {rest : List Nat} (h : Encodable a b rest) :
    Leads (a * 40 + b) a b := by
  have hroot := h.root
  have hsecond := h.second
  match a, hroot with
  | 0, _ =>
    rw [Nat.zero_mul, Nat.zero_add]
    exact .zero (by omega)
  | 1, _ => exact .one (by omega) (by omega)
  | 2, _ => exact .two (by omega)

/-- **The octets of arcs have these arcs.** -/
theorem arcs_berOfArcs {a b : Nat} {rest : List Nat} (h : Encodable a b rest) :
    (Oid.mk (berOfArcs a b rest)).arcs = .ok (a :: b :: rest) := by
  have hfits : ∀ k ∈ (a * 40 + b) :: rest, k < 2 ^ 64 := by
    refine List.forall_mem_cons.2 ⟨?_, fun k hk => ?_⟩
    · rw [Nat.mul_comm]
      exact h.shared
    · exact h.fits k (List.mem_cons_of_mem _ (List.mem_cons_of_mem _ hk))
  exact arcs_eq_ok.2 ⟨_, a, b, rest, hfits, (writes_iff hfits).2 rfl, h.leads, rfl⟩

/-! ### Both ways -/

/-- **Which texts are read**, and as what. -/
theorem parse_eq_ok {text : String} {o : Oid} : parse text = .ok o ↔
    ∃ a b rest, Noted (a :: b :: rest) text ∧ Encodable a b rest ∧ o.arcs = .ok (a :: b :: rest) := by
  unfold parse
  constructor
  · intro h
    obtain ⟨arcs, ha, h⟩ := Result.bind_eq_ok.1 h
    match arcs, ha, h with
    | [], _, h | [_], _, h => cases h
    | a :: b :: rest, ha, h =>
      obtain ⟨hlead, h⟩ := Result.refuse_eq_ok.1 h
      obtain ⟨hlt, h⟩ := Result.refuse_eq_ok.1 h
      obtain rfl := Except.ok.inj h
      obtain ⟨hnoted, hfits⟩ := (parseArcs_eq_ok (List.cons_ne_nil _ _)).1 ha
      have hcan : Encodable a b rest := ⟨by omega, by omega, by omega, hfits⟩
      exact ⟨a, b, rest, hnoted, hcan, arcs_berOfArcs hcan⟩
  · rintro ⟨a, b, rest, hnoted, hcan, ha⟩
    obtain rfl := eq_of_arcs ha (arcs_berOfArcs hcan)
    have hroot := hcan.root
    have hsecond := hcan.second
    have hshared := hcan.shared
    refine Result.bind_eq_ok.2 ⟨_, (parseArcs_eq_ok (List.cons_ne_nil _ _)).2 ⟨hnoted, hcan.fits⟩, ?_⟩
    exact Result.refuse_eq_ok.2 ⟨by omega, Result.refuse_eq_ok.2 ⟨by omega, rfl⟩⟩

/-- The notation of an object identifier that was read is the text without what its numerals could
do without. -/
theorem toText_of_parse {text : String} {o : Oid} (h : parse text = .ok o) :
    o.toText.toList = Text.joinWith '.' ((Text.splitOn '.' text.toList).map Text.Numeral.tidy) := by
  obtain ⟨a, b, rest, hnoted, -, ha⟩ := parse_eq_ok.1 h
  have hw := (noted_iff (List.cons_ne_nil _ _)).1 hnoted
  have hpieces : (a :: b :: rest).map Text.Numeral.ofNat =
      (Text.splitOn '.' text.toList).map Text.Numeral.tidy := by
    rw [← List.forall₂_eq_eq_eq, List.forall₂_map_left_iff, List.forall₂_map_right_iff]
    exact hw.imp fun _ _ => Text.Numeral.Writes.ofNat_eq
  rw [toText, ha]
  show (String.ofList (Text.joinWith '.' ((a :: b :: rest).map Text.Numeral.ofNat))).toList = _
  rw [String.toList_ofList, hpieces]

/-- **Reading and writing the notation are inverse.** A text is read just if it holds numerals of
arcs that there are octets of, and what is read has these arcs. Any octets that have arcs are read
back from their notation, so no two have the same one; and what was read has the notation that it
was read from, less a plus sign and zeros in front of an arc. -/
theorem dotted_exact (text : String) :
    (∀ o, parse text = .ok o ↔ ∃ a b rest, Noted (a :: b :: rest) text ∧ Encodable a b rest ∧
      o.arcs = .ok (a :: b :: rest)) ∧
    (∀ a b rest, Noted (a :: b :: rest) text → Encodable a b rest →
      ∃ o, parse text = .ok o ∧ o.arcs = .ok (a :: b :: rest)) ∧
    (∀ (o : Oid) arcs, o.arcs = .ok arcs → parse o.toText = .ok o) ∧
    (∀ (o o' : Oid) arcs arcs', o.arcs = .ok arcs → o'.arcs = .ok arcs' →
      o.toText = o'.toText → o = o') ∧
    ∀ o, parse text = .ok o →
      o.toText.toList = Text.joinWith '.' ((Text.splitOn '.' text.toList).map Text.Numeral.tidy) := by
  have hback {o : Oid} {arcs : List Nat} (h : o.arcs = .ok arcs) : parse o.toText = .ok o :=
    parse_toText (Result.bind_eq_ok.2 ⟨arcs, h, rfl⟩)
  refine ⟨fun _ => parse_eq_ok, fun a b rest hnoted hcan => ?_, fun _ _ => hback, ?_,
    fun _ => toText_of_parse⟩
  · have ha := arcs_berOfArcs hcan
    exact ⟨_, parse_eq_ok.2 ⟨a, b, rest, hnoted, hcan, ha⟩, ha⟩
  · intro o o' arcs arcs' h h' heq
    have hparse := hback h
    rw [heq, hback h'] at hparse
    exact (Except.ok.inj hparse).symm

/-- Under the root arc 2 the second arc may be as large as fits; a plus sign and zeros are lost. -/
theorem dotted_exact_untidy :
    Noted [2, 2 ^ 64 - 81, 0] "+2.018446744073709551535.00" ∧ Encodable 2 (2 ^ 64 - 81) [0] ∧
      ∃ o, parse "+2.018446744073709551535.00" = .ok o ∧ o.arcs = .ok [2, 2 ^ 64 - 81, 0] ∧
        o.toText.toList = "2.18446744073709551535.0".toList ∧ parse o.toText = .ok o := by
  have hnoted : Noted [2, 2 ^ 64 - 81, 0] "+2.018446744073709551535.00" := by
    refine ⟨["+2".toList, "018446744073709551535".toList, "00".toList], ?_, by decide +kernel⟩
    exact .cons ⟨['2'], .inr (by decide), by decide⟩ (.cons ⟨_, .inl rfl, by decide⟩
      (.cons ⟨_, .inl rfl, by decide⟩ .nil))
  have hcan : Encodable 2 (2 ^ 64 - 81) [0] := ⟨by decide, by decide, by decide, by decide⟩
  obtain ⟨-, hread, hback, -, htidy⟩ := dotted_exact "+2.018446744073709551535.00"
  obtain ⟨o, ho, harcs⟩ := hread _ _ _ hnoted hcan
  refine ⟨hnoted, hcan, o, ho, harcs, ?_, hback o _ harcs⟩
  rw [htidy o ho]
  decide +kernel

end Rim.Oid
