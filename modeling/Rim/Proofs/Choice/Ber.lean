import Rim.Proofs.Choice.Failure
import Rim.Proofs.Choice.Oid

/-!
# The grammar of the octets of object identifiers

The octets are read by one loop that holds the number it is in the middle of. What it accepts is
said here without the loop: octets in which digits of numbers below 2^64 stand one after the other,
each number with as few digits as it takes. The loop is also run on 64-bit words, where its
arithmetic could fail to fit, and gives the same.

* `Digits`, `Writes`: the digits of a number in base 128, and of several numbers in a row.
* `digits_iff`: the digits that are written of a number are the only ones there are.
* `numbersFrom_eq_ok`: the loop accepts what the grammar does.
* `wordArcs?_eq`: no sum, product or difference fails to fit a word.
* `arcs_grammar`: which octets have arcs, and which arcs these are.
-/

namespace Rim.Oid

/-! ### Digits in base 128 -/

/-- The number that digits continue, `n` having been read before them. -/
def foldDigits (n : Nat) (ds : Bytes) : Nat := ds.foldl (fun n d => n * 128 + d.toNat % 128) n

/-- Digits that write a number, the most significant one first: the high bit is set on all of them
but the last, and the first one is no zero that more digits follow. -/
structure Digits (n : Nat) (ds : Bytes) : Prop where
  marked : ∃ leading last, ds = leading ++ [last] ∧ (∀ d ∈ leading, 128 ≤ d.toNat) ∧ last.toNat < 128
  minimal : ds.head? ≠ some 0x80
  value : foldDigits 0 ds = n

/-- Octets in which the digits of the numbers stand one after the other. -/
def Writes (ns : List Nat) (b : Bytes) : Prop :=
  ∃ pieces, List.Forall₂ Digits ns pieces ∧ pieces.flatten = b

theorem foldDigits_concat (n : Nat) (ds : Bytes) (d : UInt8) :
    foldDigits n (ds ++ [d]) = foldDigits n ds * 128 + d.toNat % 128 := by
  rw [foldDigits, List.foldl_append]
  rfl

theorem head?_concat_ne {ds : Bytes} {d x : UInt8} :
    (ds ++ [d]).head? ≠ some x ↔ ds.head? ≠ some x ∧ (ds = [] → d ≠ x) := by
  cases ds <;> simp

/-- The digits before the last one that are written of a number write it, and its first one is no
zero. -/
theorem leadingDigits_spec {fuel n : Nat} (h : n < 128 ^ fuel) :
    (∀ d ∈ leadingDigits fuel n, 128 ≤ d.toNat) ∧ (leadingDigits fuel n).head? ≠ some 0x80 ∧
      foldDigits 0 (leadingDigits fuel n) = n := by
  induction fuel generalizing n with
  | zero =>
    obtain rfl : n = 0 := Nat.lt_one_iff.1 h
    exact ⟨List.forall_mem_nil _, (Option.some_ne_none _).symm, rfl⟩
  | succ fuel ih =>
    rw [leadingDigits]
    split
    · rename_i h0
      exact ⟨List.forall_mem_nil _, (Option.some_ne_none _).symm, h0.symm⟩
    · rename_i h0
      have hdiv : n / 128 < 128 ^ fuel := by
        rw [Nat.pow_succ] at h
        exact Nat.div_lt_of_lt_mul (by omega)
      obtain ⟨hmarked, hfirst, hvalue⟩ := ih hdiv
      refine ⟨?_, head?_concat_ne.2 ⟨hfirst, fun hnil => ?_⟩, ?_⟩
      · refine List.forall_mem_append.2 ⟨hmarked, fun d hd => ?_⟩
        rw [List.mem_singleton.1 hd, toNat_marked]
        omega
      · -- it is the only digit, so all of the number is in it
        rw [hnil] at hvalue
        have hn : n / 128 = 0 := hvalue.symm
        rw [ne_eq, marked_eq_zero]
        omega
      · rw [foldDigits_concat, hvalue, toNat_marked]
        omega

/-- Digits that all have the high bit set, the first one no zero, are the leading ones of their
number. -/
theorem leadingDigits_foldDigits {ds : Bytes} (hmarked : ∀ d ∈ ds, 128 ≤ d.toNat)
    (hfirst : ds.head? ≠ some 0x80) (hlt : foldDigits 0 ds * 128 < 2 ^ 64) :
    leadingDigits 10 (foldDigits 0 ds) = ds := by
  induction ds using List.reverseRecOn with
  | nil => rfl
  | append_singleton ds d ih =>
    obtain ⟨hds, hd⟩ := List.forall_mem_append.1 hmarked
    rw [foldDigits_concat] at hlt ⊢
    obtain ⟨hhead, hnil⟩ := head?_concat_ne.1 hfirst
    have hprevious := ih hds hhead (by omega)
    have hzero : ¬(foldDigits 0 ds = 0 ∧ d = 0x80) := by
      rintro ⟨h0, hd⟩
      -- nothing is written of zero, so this digit is the first
      rw [h0] at hprevious
      exact hnil hprevious.symm hd
    rw [leadingDigits_append (by omega) (hd d (List.mem_singleton_self d)) hzero, hprevious]

/-- **The digits of a number** that fits 64 bits are the ones that are written of it. -/
theorem digits_iff {n : Nat} (hn : n < 2 ^ 64) {ds : Bytes} : Digits n ds ↔ ds = base128 n := by
  constructor
  · rintro ⟨⟨leading, last, rfl, hmarked, hlast⟩, hfirst, hvalue⟩
    rw [foldDigits_concat] at hvalue
    obtain ⟨hhead, -⟩ := head?_concat_ne.1 hfirst
    rw [← hvalue, base128_append (by omega) hlast, leadingDigits_foldDigits hmarked hhead (by omega)]
  · rintro rfl
    have hfuel : n / 128 < 128 ^ 9 := by omega
    obtain ⟨hmarked, hfirst, hvalue⟩ := leadingDigits_spec hfuel
    refine ⟨⟨_, _, rfl, hmarked, ?_⟩, head?_concat_ne.2 ⟨hfirst, fun _ => last_ne n⟩, ?_⟩
    · rw [toNat_last]
      omega
    · rw [base128, foldDigits_concat, hvalue, toNat_last]
      omega

/-- Numbers that fit 64 bits are written in one way. -/
theorem writes_iff {ns : List Nat} (h : ∀ n ∈ ns, n < 2 ^ 64) {b : Bytes} :
    Writes ns b ↔ ns.flatMap base128 = b := by
  have hpieces {pieces : List Bytes} : List.Forall₂ Digits ns pieces ↔ pieces = ns.map base128 := by
    induction ns generalizing pieces with
    | nil => exact List.forall₂_nil_left_iff
    | cons n r ih =>
      obtain ⟨hn, hr⟩ := List.forall_mem_cons.1 h
      rw [List.forall₂_cons_left_iff, List.map_cons]
      constructor
      · rintro ⟨ds, rest, hds, hrest, rfl⟩
        rw [(digits_iff hn).1 hds, (ih hr).1 hrest]
      · rintro rfl
        exact ⟨_, _, (digits_iff hn).2 rfl, (ih hr).2 rfl, rfl⟩
  rw [List.flatMap]
  constructor
  · rintro ⟨pieces, hp, rfl⟩
    rw [hpieces.1 hp]
  · intro hb
    exact ⟨_, hpieces.2 rfl, hb⟩

/-- **The loop accepts what the grammar does**, and its numbers fit 64 bits. -/
theorem numbersFrom_eq_ok {b : Bytes} {ns : List Nat} :
    numbersFrom 0 0 false b = .ok ns ↔ (∀ n ∈ ns, n < 2 ^ 64) ∧ Writes ns b := by
  constructor
  · intro h
    obtain ⟨hb, hlt⟩ := numbersFrom_spec h fun _ => rfl
    exact ⟨hlt, (writes_iff hlt).2 hb⟩
  · rintro ⟨hlt, hb⟩
    rw [← (writes_iff hlt).1 hb]
    exact numbersFrom_flatMap hlt 0

/-! ### Arcs -/

/-- The two leading arcs that a first number stands for. -/
inductive Leads (n : Nat) : (a b : Nat) → Prop
  | zero (h : n < 40) : Leads n 0 n
  | one {b : Nat} (h : n = 40 + b) (hb : b < 40) : Leads n 1 b
  | two {b : Nat} (h : n = 80 + b) : Leads n 2 b

theorem leads_iff {n a b : Nat} : Leads n a b ↔ leadingArcs n = (a, b) := by
  unfold leadingArcs
  constructor
  · rintro (h | ⟨h, hb⟩ | h)
    · rw [if_pos h]
    · rw [if_neg (by omega), if_pos (by omega), h, Nat.add_sub_cancel_left]
    · rw [if_neg (by omega), if_neg (by omega), h, Nat.add_sub_cancel_left]
  · intro h
    split at h
    · obtain ⟨rfl, rfl⟩ := Prod.mk.inj h
      exact .zero ‹_›
    · split at h
      · obtain ⟨rfl, rfl⟩ := Prod.mk.inj h
        exact .one (by omega) (by omega)
      · obtain ⟨rfl, rfl⟩ := Prod.mk.inj h
        exact .two (by omega)

/-- **Which octets have arcs**, and which ones. -/
theorem arcs_eq_ok {o : Oid} {arcs : List Nat} : o.arcs = .ok arcs ↔
    ∃ n a b rest, (∀ k ∈ n :: rest, k < 2 ^ 64) ∧ Writes (n :: rest) o.ber ∧ Leads n a b ∧
      arcs = a :: b :: rest := by
  unfold Oid.arcs
  constructor
  · intro h
    obtain ⟨ns, hns, h⟩ := Result.bind_eq_ok.1 h
    obtain ⟨hlt, hb⟩ := numbersFrom_eq_ok.1 hns
    cases ns with
    | nil => cases h
    | cons n rest =>
      obtain rfl := Except.ok.inj h
      exact ⟨n, _, _, rest, hlt, hb, leads_iff.2 rfl, rfl⟩
  · rintro ⟨n, a, b, rest, hlt, hb, hl, rfl⟩
    refine Result.bind_eq_ok.2 ⟨_, numbersFrom_eq_ok.2 ⟨hlt, hb⟩, ?_⟩
    show (Except.ok ((leadingArcs n).1 :: (leadingArcs n).2 :: rest) : Result (List Nat)) = _
    rw [leads_iff.1 hl]

/-- Arcs belong to one object identifier only. -/
theorem eq_of_arcs {o o' : Oid} {arcs : List Nat} (h : o.arcs = .ok arcs) (h' : o'.arcs = .ok arcs) :
    o = o' := by
  obtain ⟨a, b, rest, rfl, -, -, -, hber⟩ := arcs_spec h
  obtain ⟨a', b', rest', heq, -, -, -, hber'⟩ := arcs_spec h'
  simp only [List.cons.injEq] at heq
  obtain ⟨rfl, rfl, rfl⟩ := heq
  exact congrArg Oid.mk (hber.symm.trans hber')

/-! ### The same on words -/

/-- The product of two words, if it fits one. -/
def mul? (x y : UInt64) : Option UInt64 := if x.toNat * y.toNat < 2 ^ 64 then some (x * y) else none

/-- The difference of two words, if there is one. -/
def sub? (x y : UInt64) : Option UInt64 := if y ≤ x then some (x - y) else none

/-- The loop on words: a product that does not fit is an overflow, and a digit is put in place by
its bits. -/
def wordsFrom (i : Nat) (n : UInt64) (unfinished : Bool) : Bytes → Result (List UInt64)
  | [] => if unfinished then .error (.invalid "OID" "truncated final arc") else .ok []
  | b :: r =>
    if n = 0 ∧ b = 0x80 then
      .error (.invalid "OID" ("non-minimal encoding at offset " ++ toString i))
    else
      match mul? n 128 with
      | none => .error (.invalid "OID" "arc overflows 64 bits")
      | some p =>
        let n := p ||| (b &&& 0x7f).toUInt64
        if b &&& 0x80 = 0 then do
          let rest ← wordsFrom (i + 1) 0 false r
          return n :: rest
        else wordsFrom (i + 1) n true r

/-- The leading arcs of a word, unless a difference is missing. -/
def leadingWords? (n : UInt64) : Option (UInt64 × UInt64) :=
  if n < 40 then some (0, n)
  else if n < 80 then (sub? n 40).map fun b => (1, b)
  else (sub? n 80).map fun b => (2, b)

/-- The arcs in words, or `none` if arithmetic failed. -/
def wordArcs? (o : Oid) : Option (Result (List UInt64)) :=
  match wordsFrom 0 0 false o.ber with
  | .error e => some (.error e)
  | .ok [] => some (.error (.invalid "OID" "no arcs"))
  | .ok (n :: rest) => (leadingWords? n).map fun p => .ok (p.1 :: p.2 :: rest)

/-- A digit is put in place by its bits. -/
theorem toNat_or_digit {p : UInt64} {b : UInt8} {n : Nat} (hp : p.toNat = n * 128) :
    (p ||| (b &&& 0x7f).toUInt64).toNat = n * 128 + b.toNat % 128 := by
  have hmask : b.toNat &&& 127 = b.toNat % 128 := Nat.and_two_pow_sub_one_eq_mod b.toNat 7
  have hlt : b.toNat % 128 < 2 ^ 7 := Nat.mod_lt _ (by decide)
  rw [UInt64.toNat_or, UInt8.toNat_toUInt64, UInt8.toNat_and, hp]
  show n * 128 ||| (b.toNat &&& 127) = _
  rw [hmask, Nat.mul_comm n]
  exact (Nat.two_pow_add_eq_or_of_lt hlt n).symm

/-- The high bit tells whether a digit is the last one. -/
theorem and_mark {b : UInt8} : b &&& 0x80 = 0 ↔ b.toNat < 128 := by
  have hbit (n : Fin 256) : n.val &&& 128 = n.val / 128 * 128 := by
    revert n
    decide +kernel
  rw [← UInt8.toNat_inj, UInt8.toNat_and]
  show b.toNat &&& 128 = 0 ↔ _
  rw [hbit ⟨b.toNat, b.toNat_lt⟩]
  dsimp only
  omega

/-- **The loop holds the same numbers in words**: no product fails to fit that was not refused. -/
theorem numbersFrom_eq_words (i : Nat) (n : UInt64) (unfinished : Bool) (b : Bytes) :
    numbersFrom i n.toNat unfinished b = List.map UInt64.toNat <$> wordsFrom i n unfinished b := by
  induction b generalizing i n unfinished with
  | nil => cases unfinished <;> rfl
  | cons d r ih =>
    have hzero : (n = 0 ∧ d = 0x80) ↔ (n.toNat = 0 ∧ d = 0x80) := by
      rw [← UInt64.toNat_inj]
      rfl
    have hmul : mul? n 128 = if n.toNat * 128 < 2 ^ 64 then some (n * 128) else none := rfl
    rw [numbersFrom, wordsFrom, hmul]
    simp only [hzero]
    split
    · rfl
    · by_cases hfits : n.toNat * 128 < 2 ^ 64
      · rw [if_neg (by omega), if_pos hfits]
        have hp : (n * 128).toNat = n.toNat * 128 := by
          rw [UInt64.toNat_mul]
          exact Nat.mod_eq_of_lt hfits
        simp only [and_mark, ← toNat_or_digit (b := d) hp]
        split
        · -- the digit ends a number, and the next one starts at zero
          have hr := ih (i + 1) 0 false
          rw [UInt64.toNat_zero] at hr
          rw [hr]
          cases wordsFrom (i + 1) 0 false r <;> rfl
        · exact ih _ _ _
      · rw [if_pos (by omega), if_neg hfits]
        rfl

/-- The leading arcs of a word are words, and no difference is missing. -/
theorem leadingWords?_eq (n : UInt64) : ∃ a b, leadingWords? n = some (a, b) ∧
    leadingArcs n.toNat = (a.toNat, b.toNat) := by
  have hlt40 : n < 40 ↔ n.toNat < 40 := UInt64.lt_iff_toNat_lt
  have hlt80 : n < 80 ↔ n.toNat < 80 := UInt64.lt_iff_toNat_lt
  have hsub {m : UInt64} (h : ¬n < m) :
      sub? n m = some (n - m) ∧ (n - m).toNat = n.toNat - m.toNat := by
    have hle : m ≤ n := UInt64.not_lt.1 h
    exact ⟨if_pos hle, UInt64.toNat_sub_of_le _ _ hle⟩
  unfold leadingWords? leadingArcs
  by_cases h40 : n < 40
  · rw [if_pos h40, if_pos (hlt40.1 h40)]
    exact ⟨0, n, rfl, rfl⟩
  · rw [if_neg h40, if_neg fun h => h40 (hlt40.2 h)]
    by_cases h80 : n < 80
    · rw [if_pos h80, if_pos (hlt80.1 h80), (hsub h40).1]
      exact ⟨1, n - 40, rfl, congrArg (Prod.mk 1) (hsub h40).2.symm⟩
    · rw [if_neg h80, if_neg fun h => h80 (hlt80.2 h), (hsub h80).1]
      exact ⟨2, n - 80, rfl, congrArg (Prod.mk 2) (hsub h80).2.symm⟩

/-- **No arithmetic fails on words**, and the arcs are the same. -/
theorem wordArcs?_eq (o : Oid) : ∃ r, wordArcs? o = some r ∧ o.arcs = List.map UInt64.toNat <$> r := by
  have hloop := numbersFrom_eq_words 0 0 false o.ber
  rw [UInt64.toNat_zero] at hloop
  unfold wordArcs? Oid.arcs
  rw [hloop]
  cases wordsFrom 0 0 false o.ber with
  | error e => exact ⟨_, rfl, rfl⟩
  | ok ns =>
    cases ns with
    | nil => exact ⟨_, rfl, rfl⟩
    | cons n rest =>
      obtain ⟨a, b, hwords, hn⟩ := leadingWords?_eq n
      refine ⟨.ok (a :: b :: rest), ?_, ?_⟩
      · dsimp only
        rw [hwords]
        rfl
      · show (Except.ok ((leadingArcs n.toNat).1 :: (leadingArcs n.toNat).2 :: rest.map UInt64.toNat) :
          Result (List Nat)) = _
        rw [hn]
        rfl

/-- **The grammar of the octets.** They have arcs just if they are the digits of at least one
number, one after the other, each number being below 2^64 and in as few digits as it takes; the
first number stands for the two leading arcs and the others for themselves. Any other octets are
invalid, no two object identifiers have the same arcs, and on 64-bit words no arithmetic fails. -/
theorem arcs_grammar (o : Oid) :
    (∀ arcs, o.arcs = .ok arcs ↔ ∃ n a b rest, (∀ k ∈ n :: rest, k < 2 ^ 64) ∧
      Writes (n :: rest) o.ber ∧ Leads n a b ∧ arcs = a :: b :: rest) ∧
    (∀ e, o.arcs = .error e → e.kind = .invalid) ∧
    (∀ o' arcs, o.arcs = .ok arcs → o'.arcs = .ok arcs → o = o') ∧
    ∃ r, wordArcs? o = some r ∧ o.arcs = List.map UInt64.toNat <$> r := by
  refine ⟨fun _ => arcs_eq_ok, fun e he => ?_, fun _ _ => eq_of_arcs, wordArcs?_eq o⟩
  exact List.mem_singleton.1 ((arcs_failsAs o).of_error he)

/-- The octets of the greatest first number. -/
def widest : Oid := ⟨[0x81, 0xff, 0xff, 0xff, 0xff, 0xff, 0xff, 0xff, 0xff, 0x7f]⟩

/-- The greatest first number leaves the greatest second arc; without its last octet it is invalid,
and so it is with a zero in front. -/
theorem arcs_grammar_widest :
    widest.arcs = .ok [2, 2 ^ 64 - 81] ∧
      (∃ n a b rest, (∀ k ∈ n :: rest, k < 2 ^ 64) ∧ Writes (n :: rest) widest.ber ∧ Leads n a b ∧
        [2, 2 ^ 64 - 81] = a :: b :: rest) ∧
      (∀ o : Oid, o.arcs = .ok [2, 2 ^ 64 - 81] → widest = o) ∧
      (∃ e, (Oid.mk widest.ber.dropLast).arcs = .error e ∧ e.kind = .invalid) ∧
      ∃ e, (Oid.mk (0x80 :: widest.ber)).arcs = .error e ∧ e.kind = .invalid := by
  have harcs : widest.arcs = .ok [2, 2 ^ 64 - 81] := rfl
  obtain ⟨hgrammar, -, hone, -⟩ := arcs_grammar widest
  refine ⟨harcs, (hgrammar _).1 harcs, fun o => hone o _ harcs, ⟨_, rfl, ?_⟩, ⟨_, rfl, ?_⟩⟩
  · exact (arcs_grammar ⟨widest.ber.dropLast⟩).2.1 _ rfl
  · exact (arcs_grammar ⟨0x80 :: widest.ber⟩).2.1 _ rfl

end Rim.Oid
