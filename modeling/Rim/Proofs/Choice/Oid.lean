import Rim.Profile.Id
import Rim.Proofs.Result
import Rim.Proofs.Text.Digits
import Rim.Proofs.Text.Split

/-!
# Object identifiers in dotted notation

The octets of a valid object identifier are the digits of its numbers and nothing else, since no
digit may be left out or put in front. So the arcs determine the octets, and the notation of the arcs
is read back.

* `numbersFrom_spec`: the numbers that octets write have these octets as their digits.
* `numbersFrom_flatMap`: the digits of numbers are read as these numbers.
* `parse_toText`: the dotted notation of a valid object identifier.
* `ProfileId.parse_toText`: the text of a valid profile identifier.
-/

namespace Rim

namespace Oid

/-! ### Base 128 -/

/-- A digit that others follow has the high bit set. -/
theorem toNat_marked (n : Nat) : (UInt8.ofNat (n % 128 + 128)).toNat = n % 128 + 128 := by
  rw [UInt8.toNat_ofNat']
  omega

/-- The last digit has it clear. -/
theorem toNat_last (n : Nat) : (UInt8.ofNat (n % 128)).toNat = n % 128 := by
  rw [UInt8.toNat_ofNat']
  omega

theorem marked_eq_zero {n : Nat} : UInt8.ofNat (n % 128 + 128) = 0x80 ↔ n % 128 = 0 := by
  rw [← UInt8.toNat_inj, toNat_marked]
  show _ = 128 ↔ _
  omega

theorem last_ne (n : Nat) : UInt8.ofNat (n % 128) ≠ 0x80 := by
  intro he
  have he := (toNat_last n).symm.trans (congrArg UInt8.toNat he)
  rw [show (0x80 : UInt8).toNat = 128 from rfl] at he
  omega

/-- More digits than are needed make no difference. -/
theorem leadingDigits_succ {fuel n : Nat} (h : n < 128 ^ fuel) :
    leadingDigits (fuel + 1) n = leadingDigits fuel n := by
  induction fuel generalizing n with
  | zero =>
    obtain rfl : n = 0 := Nat.lt_one_iff.1 h
    rfl
  | succ fuel ih =>
    have hlt : n / 128 < 128 ^ fuel := by
      rw [Nat.pow_succ] at h
      exact Nat.div_lt_of_lt_mul (by omega)
    rw [leadingDigits, ih hlt]
    rfl

/-- A digit that others follow is the last of the leading ones. -/
theorem leadingDigits_append {n : Nat} {x : UInt8} (hn : n * 128 < 2 ^ 64) (hx : 128 ≤ x.toNat)
    (h0 : ¬(n = 0 ∧ x = 0x80)) :
    leadingDigits 10 (n * 128 + x.toNat % 128) = leadingDigits 10 n ++ [x] := by
  have hlt := x.toNat_lt
  have hdiv : (n * 128 + x.toNat % 128) / 128 = n := by omega
  have hmod : (n * 128 + x.toNat % 128) % 128 + 128 = x.toNat := by omega
  have hne : n * 128 + x.toNat % 128 ≠ 0 := by
    intro hz
    refine h0 ⟨by omega, UInt8.toNat_inj.1 ?_⟩
    show x.toNat = 128
    omega
  -- the number before had room for one more digit
  have hten : leadingDigits 10 n = leadingDigits 9 n := leadingDigits_succ (by omega)
  rw [leadingDigits, if_neg hne, hdiv, hmod, UInt8.ofNat_toNat, hten]

/-- A digit that ends a number. -/
theorem base128_append {n : Nat} {x : UInt8} (hn : n * 128 < 2 ^ 64) (hx : x.toNat < 128) :
    base128 (n * 128 + x.toNat % 128) = leadingDigits 10 n ++ [x] := by
  have hdiv : (n * 128 + x.toNat % 128) / 128 = n := by omega
  have hmod : (n * 128 + x.toNat % 128) % 128 = x.toNat := by omega
  have hten : leadingDigits 10 n = leadingDigits 9 n := leadingDigits_succ (by omega)
  rw [base128, hdiv, hmod, UInt8.ofNat_toNat, hten]

/-- What is read so far and what is left are the digits of the numbers, each below `2^64`. -/
theorem numbersFrom_spec {b : Bytes} {i n : Nat} {unfinished : Bool} {ns : List Nat}
    (h : numbersFrom i n unfinished b = .ok ns) (hz : unfinished = false → n = 0) :
    ns.flatMap base128 = leadingDigits 10 n ++ b ∧ ∀ k ∈ ns, k < 2 ^ 64 := by
  induction b generalizing i n unfinished ns with
  | nil =>
    cases unfinished with
    | true => cases h
    | false =>
      obtain rfl := Except.ok.inj h
      rw [hz rfl]
      exact ⟨rfl, nofun⟩
  | cons x r ih =>
    rw [numbersFrom, Result.refuse_eq_ok, Result.refuse_eq_ok] at h
    obtain ⟨h0, hn, h⟩ := h
    by_cases hx : x.toNat < 128
    · -- the digit ends a number
      rw [if_pos hx] at h
      obtain ⟨rest, hr, h⟩ := Result.bind_eq_ok.1 h
      obtain rfl := Except.ok.inj h
      obtain ⟨hrest, hlt⟩ := ih hr fun _ => rfl
      have hrest : rest.flatMap base128 = r := hrest
      refine ⟨?_, List.forall_mem_cons.2 ⟨by omega, hlt⟩⟩
      rw [List.flatMap_cons, base128_append (by omega) hx, hrest, List.append_assoc]
      rfl
    · -- the number goes on, so it is not finished
      rw [if_neg hx] at h
      obtain ⟨hrest, hlt⟩ := ih h nofun
      refine ⟨?_, hlt⟩
      rw [hrest, leadingDigits_append (by omega) (by omega) h0, List.append_assoc]
      rfl

/-- The leading digits of a number are read as that number, whatever comes after them. -/
theorem numbersFrom_leadingDigits {fuel i n : Nat} {unfinished : Bool} {b : Bytes} {ns : List Nat}
    (hn : n < 128 ^ fuel) (hlt : n * 128 < 2 ^ 64)
    (h : ∀ j u, numbersFrom j n u b = .ok ns) :
    numbersFrom i 0 unfinished (leadingDigits fuel n ++ b) = .ok ns := by
  induction fuel generalizing n b with
  | zero =>
    obtain rfl : n = 0 := Nat.lt_one_iff.1 hn
    exact h i unfinished
  | succ fuel ih =>
    rw [leadingDigits]
    split
    · rename_i h0
      subst h0
      exact h i unfinished
    · rename_i h0
      have hdiv : n / 128 < 128 ^ fuel := by
        rw [Nat.pow_succ] at hn
        exact Nat.div_lt_of_lt_mul (by omega)
      rw [List.append_assoc]
      refine ih hdiv (by omega) fun j u => ?_
      -- the last of them goes on with the number of the others
      have hx := toNat_marked n
      have hzero : ¬(n / 128 = 0 ∧ UInt8.ofNat (n % 128 + 128) = 0x80) := by
        rw [marked_eq_zero]
        omega
      have hnext : n / 128 * 128 + (n % 128 + 128) % 128 = n := by omega
      rw [List.singleton_append, numbersFrom, if_neg hzero, if_neg (by omega), if_neg (by omega), hx,
        hnext]
      exact h _ _

/-- **The digits of numbers are read as these numbers.** -/
theorem numbersFrom_flatMap {ns : List Nat} (h : ∀ k ∈ ns, k < 2 ^ 64) (i : Nat) :
    numbersFrom i 0 false (ns.flatMap base128) = .ok ns := by
  induction ns generalizing i with
  | nil => rfl
  | cons n r ih =>
    obtain ⟨hn, hr⟩ := List.forall_mem_cons.1 h
    rw [List.flatMap_cons, base128, List.append_assoc]
    refine numbersFrom_leadingDigits (by omega) (by omega) fun j u => ?_
    -- the last digit ends the number
    have hx := toNat_last n
    have hzero : ¬(n / 128 = 0 ∧ UInt8.ofNat (n % 128) = 0x80) := fun h => last_ne n h.2
    have hnext : n / 128 * 128 + n % 128 % 128 = n := by omega
    rw [List.singleton_append, numbersFrom, if_neg hzero, if_neg (by omega), if_pos (by omega), hx,
      hnext, ih hr]
    rfl

/-! ### Arcs -/

/-- The two leading arcs determine the first number. -/
theorem leadingArcs_spec (n : Nat) : (leadingArcs n).1 * 40 + (leadingArcs n).2 = n ∧
    ¬(2 < (leadingArcs n).1 ∨ ((leadingArcs n).1 < 2 ∧ 39 < (leadingArcs n).2)) := by
  unfold leadingArcs
  split
  · dsimp only
    omega
  · split
    · dsimp only
      omega
    · dsimp only
      omega

/-- **Arcs determine the octets**, and all of them fit 64 bits. -/
theorem arcs_spec {o : Oid} {arcs : List Nat} (h : o.arcs = .ok arcs) : ∃ a b rest,
    arcs = a :: b :: rest ∧ ¬(2 < a ∨ (a < 2 ∧ 39 < b)) ∧ a * 40 + b < 2 ^ 64 ∧
      (∀ k ∈ rest, k < 2 ^ 64) ∧ berOfArcs a b rest = o.ber := by
  obtain ⟨ns, hns, h⟩ := Result.bind_eq_ok.1 h
  obtain ⟨hber, hlt⟩ := numbersFrom_spec hns fun _ => rfl
  cases ns with
  | nil => cases h
  | cons n rest =>
    obtain rfl := Except.ok.inj h
    obtain ⟨hn, hrest⟩ := List.forall_mem_cons.1 hlt
    obtain ⟨hsum, hlead⟩ := leadingArcs_spec n
    refine ⟨_, _, rest, rfl, hlead, by omega, hrest, ?_⟩
    rw [berOfArcs, hsum]
    exact hber

/-! ### Dotted notation -/

/-- Arcs are read back from their notation if there is one and all of them fit 64 bits. -/
theorem parseArcs_dotted {arcs : List Nat} (hne : arcs ≠ []) (h : ∀ k ∈ arcs, k < 2 ^ 64) :
    parseArcs (dotted arcs) = .ok arcs := by
  -- no digit is a dot
  have hsplit : Text.splitOn '.' (dotted arcs).toList = arcs.map Text.Numeral.ofNat := by
    rw [dotted, String.toList_ofList]
    refine Text.splitOn_joinWith (fun hnil => hne (List.map_eq_nil_iff.1 hnil)) ?_
    intro piece hp hdot
    obtain ⟨k, -, rfl⟩ := List.mem_map.1 hp
    exact absurd (Text.decimal_toDigits k '.' hdot) (by decide)
  rw [parseArcs, hsplit]
  refine mapM_map ?_
  intro k hk
  rw [Text.Numeral.parse?_ofNat (h k hk)]
  show Except.ok (UInt64.ofNat k).toNat = _
  rw [UInt64.toNat_ofNat_of_lt' (h k hk)]

/-- **A valid object identifier is read back from its notation.** -/
theorem parse_toText {o : Oid} (h : o.validate = .ok ()) : parse o.toText = .ok o := by
  obtain ⟨arcs, ha, -⟩ := Result.bind_eq_ok.1 h
  obtain ⟨a, b, rest, rfl, hlead, hsum, hrest, hber⟩ := arcs_spec ha
  -- the leading two arcs fit 64 bits because the number that they make does
  have hall : ∀ k ∈ a :: b :: rest, k < 2 ^ 64 :=
    List.forall_mem_cons.2 ⟨by omega, List.forall_mem_cons.2 ⟨by omega, hrest⟩⟩
  have hp := parseArcs_dotted (List.cons_ne_nil _ _) hall
  rw [toText, ha, parse, hp]
  show (if 2 < a ∨ (a < 2 ∧ 39 < b) then _ else if 2 ^ 64 ≤ a * 40 + b then _
    else .ok ⟨berOfArcs a b rest⟩ : Result Oid) = _
  rw [if_neg hlead, if_neg (by omega), hber]

end Oid

/-! ### Profile identifiers -/

namespace ProfileId

/-- The text of a valid object identifier is not empty and holds nothing but digits and dots. -/
theorem isDotted_toText {o : Oid} (h : o.validate = .ok ()) :
    o.toText ≠ "" ∧ isDotted o.toText = true := by
  obtain ⟨arcs, ha, -⟩ := Result.bind_eq_ok.1 h
  obtain ⟨a, b, rest, rfl, -⟩ := Oid.arcs_spec ha
  have ht : o.toText = Oid.dotted (a :: b :: rest) := by rw [Oid.toText, ha]
  have hdigits : ∀ piece ∈ (a :: b :: rest).map Text.Numeral.ofNat, Text.Decimal piece := by
    intro piece hp
    obtain ⟨k, -, rfl⟩ := List.mem_map.1 hp
    exact Text.decimal_toDigits k
  rw [ht]
  refine ⟨fun he => ?_, ?_⟩
  · -- there are two arcs at least, so there is a dot
    have hl := congrArg String.toList he
    rw [Oid.dotted, String.toList_ofList] at hl
    exact List.append_ne_nil_of_right_ne_nil _ (List.cons_ne_nil _ _) hl
  · rw [isDotted, Oid.dotted, String.toList_ofList, List.all_eq_true]
    intro c hc
    rcases Text.mem_joinWith hc with rfl | ⟨piece, hp, hc⟩
    · decide
    · have hd := hdigits piece hp c hc
      simp [hd.1, hd.2]

/-- **A valid profile identifier is read back from its text.** -/
theorem parse_toText {i : ProfileId} (h : i.validate = .ok ()) : parse i.toText = .ok i := by
  cases i with
  | uri text =>
    obtain ⟨hne, h⟩ := Result.refuse_eq_ok.1 h
    obtain ⟨hdotted, -⟩ := Result.refuse_eq_ok.1 h
    rw [toText, parse, if_neg hne, if_neg hdotted]
  | oid o =>
    obtain ⟨hne, hdotted⟩ := isDotted_toText h
    rw [toText, parse, if_neg hne, if_pos hdotted, Oid.parse_toText h]
    rfl

end ProfileId

end Rim
