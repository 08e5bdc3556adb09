import Rim.Text.Base64
import Rim.Text.Hex
import Mathlib.Logic.Basic
import Mathlib.Tactic.SplitIfs

/-!
# Octets as text

Both notations for octets, hexadecimal digits and padded base64, are read back. In base64 octets have
one form only, and no other text is read.

* `Hex.decode?_encode`: hexadecimal digits.
* `Base64.decode?_encode`: base64. Between octets and characters stand numbers of six bits, which
  are a list of their own here.
* `Base64.decode?_eq_some`: which texts are read.
-/

namespace Rim.Text

/-! ### Hexadecimal digits -/

namespace Hex

theorem value?_digit {n : Nat} (hn : n < 16) : value? (digit n) = some n := by
  have h : ∀ n < 16, value? (digit n) = some n := by decide
  exact h n hn

/-- The octet of its two halves. -/
theorem ofNat_halves (x : UInt8) : UInt8.ofNat (x.toNat / 16 * 16 + x.toNat % 16) = x := by
  rw [Nat.div_add_mod', UInt8.ofNat_toNat]

/-- **Octets are read back from their digits.** -/
theorem decode?_encode (b : Bytes) : decode? (encode b) = some b := by
  induction b with
  | nil => rfl
  | cons x r ih =>
    have hx := x.toNat_lt
    have hhigh : value? (digit (x.toNat / 16)) = some (x.toNat / 16) := value?_digit (by omega)
    have hlow : value? (digit (x.toNat % 16)) = some (x.toNat % 16) := value?_digit (by omega)
    show decode? (digit (x.toNat / 16) :: digit (x.toNat % 16) :: encode r) = _
    rw [decode?, hhigh, hlow, ih]
    show some (UInt8.ofNat (x.toNat / 16 * 16 + x.toNat % 16) :: r) = _
    rw [ofNat_halves]

theorem encode_length (b : Bytes) : (encode b).length = 2 * b.length := by
  induction b with
  | nil => rfl
  | cons x r ih =>
    show (digit (x.toNat / 16) :: digit (x.toNat % 16) :: encode r).length = _
    rw [List.length_cons, List.length_cons, ih, List.length_cons]
    omega

/-- Digits are written in one octet each. -/
theorem utf8Size_of_mem_encode {b : Bytes} {c : Char} (h : c ∈ encode b) : c.utf8Size = 1 := by
  have hd : ∀ n < 16, (digit n).utf8Size = 1 := by decide
  obtain ⟨x, -, hc⟩ := List.mem_flatMap.1 h
  have hx := x.toNat_lt
  rcases List.mem_cons.1 hc with rfl | hc
  · exact hd _ (by omega)
  · rw [List.mem_singleton.1 hc]
    exact hd _ (by omega)

end Hex

/-! ### Base64 -/

namespace Base64

/-- The six-bit numbers of octets; a short last group is filled with zero bits. -/
def sextets : Bytes → List Nat
  | [] => []
  | [x] => [x.toNat / 4, x.toNat % 4 * 16]
  | [x, y] => [x.toNat / 4, x.toNat % 4 * 16 + y.toNat / 16, y.toNat % 16 * 4]
  | x :: y :: z :: r =>
    x.toNat / 4 :: (x.toNat % 4 * 16 + y.toNat / 16) :: (y.toNat % 16 * 4 + z.toNat / 64) ::
      z.toNat % 64 :: sextets r

theorem sextets_lt (b : Bytes) : ∀ n ∈ sextets b, n < 64 := by
  induction b using sextets.induct with
  | case1 => exact nofun
  | case2 x =>
    have := x.toNat_lt
    simp [sextets]
    omega
  | case3 x y =>
    have := x.toNat_lt
    have := y.toNat_lt
    simp [sextets]
    omega
  | case4 x y z r ih =>
    have := x.toNat_lt
    have := y.toNat_lt
    have := z.toNat_lt
    simp only [sextets, List.forall_mem_cons]
    exact ⟨by omega, by omega, by omega, by omega, ih⟩

/-- Writing goes through the six-bit numbers, and what is missing fills the last group. -/
theorem groups_eq (a : Alphabet) (b : Bytes) : (groups a b).1 = (sextets b).map a.char ∧
    (groups a b).2 < 3 ∧ ((sextets b).length + (groups a b).2) % 4 = 0 := by
  induction b using sextets.induct with
  | case1 => exact ⟨rfl, Nat.zero_lt_succ 2, Nat.zero_mod 4⟩
  | case2 x => exact ⟨rfl, Nat.lt_succ_self 2, Nat.mod_self 4⟩
  | case3 x y => exact ⟨rfl, Nat.one_lt_succ_succ 1, Nat.mod_self 4⟩
  | case4 x y z r ih =>
    obtain ⟨ht, hm, hl⟩ := ih
    refine ⟨?_, hm, ?_⟩
    · show a.char _ :: a.char _ :: a.char _ :: a.char _ :: (groups a r).1 = _
      rw [ht]
      rfl
    · show ((sextets r).length + 4 + (groups a r).2) % 4 = 0
      omega

/-- **Octets are read back from their six-bit numbers.** -/
theorem ofSextets?_sextets (b : Bytes) : ofSextets? (sextets b) = some b := by
  have octet_eq {x : UInt8} {n : Nat} (h : n % 256 = x.toNat) : UInt8.ofNat n = x :=
    UInt8.toNat_inj.1 h
  induction b using sextets.induct with
  | case1 => rfl
  | case2 x =>
    have := x.toNat_lt
    rw [sextets, ofSextets?, if_pos (by omega)]
    exact congrArg (fun x => some [x]) (octet_eq (by omega))
  | case3 x y =>
    have := x.toNat_lt
    have := y.toNat_lt
    rw [sextets, ofSextets?, if_pos (by omega)]
    exact congrArg₂ (fun x y => some [x, y]) (octet_eq (by omega)) (octet_eq (by omega))
  | case4 x y z r ih =>
    have := x.toNat_lt
    have := y.toNat_lt
    have := z.toNat_lt
    -- each octet is put together from the parts of two numbers
    rw [sextets, ofSextets?, ih]
    refine congrArg some ?_
    exact congrArg₂ List.cons (octet_eq (by omega)) (congrArg₂ List.cons (octet_eq (by omega))
      (congrArg₂ List.cons (octet_eq (by omega)) rfl))

/-- The standard alphabet tells the six-bit numbers apart, and padding from all of them. -/
theorem standard_char {n : Nat} (hn : n < 64) :
    standard.value? (standard.char n) = some n ∧ standard.char n ≠ '=' := by
  have h : ∀ n < 64, standard.value? (standard.char n) = some n ∧ standard.char n ≠ '=' := by decide
  exact h n hn

theorem mapM_value? {ns : List Nat} (h : ∀ n ∈ ns, n < 64) :
    (ns.map standard.char).mapM standard.value? = some ns := by
  induction ns with
  | nil => rfl
  | cons n r ih =>
    obtain ⟨hn, hr⟩ := List.forall_mem_cons.1 h
    rw [List.map_cons, List.mapM_cons, (standard_char hn).1, ih hr]
    rfl

/-- Padding is told from a text that does not end with it. -/
theorem splitPadding_append {text : List Char} (h : ∀ c ∈ text, c ≠ '=') {n : Nat} (hn : n < 3) :
    splitPadding (text ++ List.replicate n '=') = (text, n) := by
  -- padding is looked for from the end, where the text has some other character
  have hrev : ∀ r, text.reverse ≠ '=' :: r := by
    intro r heq
    refine h '=' ?_ rfl
    rw [← List.mem_reverse, heq]
    exact List.mem_cons_self
  unfold splitPadding
  rw [List.reverse_append, List.reverse_replicate]
  -- none, one or two padding characters
  rcases n with _ | _ | _ | n
  · split
    · rename_i heq
      exact absurd heq (hrev _)
    · rename_i heq
      exact absurd heq (hrev _)
    · simp
  · rw [List.replicate_one, List.singleton_append]
    split
    · rename_i heq
      exact absurd (List.cons.inj heq).2 (hrev _)
    · rename_i heq
      rw [← (List.cons.inj heq).2, List.reverse_reverse]
    · rename_i h
      exact (h _ rfl).elim
  · show (text.reverse.reverse, 2) = _
    rw [List.reverse_reverse]
  · omega

/-- **Octets are read back from base64.** -/
theorem decode?_encode (b : Bytes) : decode? (encode b) = some b := by
  obtain ⟨ht, hm, hl⟩ := groups_eq standard b
  have hp : ∀ c ∈ (groups standard b).1, c ≠ '=' := by
    intro c hc
    rw [ht] at hc
    obtain ⟨n, hn, rfl⟩ := List.mem_map.1 hc
    exact (standard_char (sextets_lt b n hn)).2
  have hs : splitPadding (encode b) = groups standard b := splitPadding_append hp hm
  rw [decode?, hs]
  show (if ((groups standard b).1.length + (groups standard b).2) % 4 ≠ 0 then none
    else (groups standard b).1.mapM standard.value? >>= ofSextets?) = _
  rw [ht, List.length_map, if_neg (not_not.2 hl), mapM_value? (sextets_lt b)]
  exact ofSextets?_sextets b

/-- A character of the standard alphabet is the one of its number. -/
theorem char_of_value? {c : Char} {n : Nat} (h : standard.value? c = some n) :
    n < 64 ∧ standard.char n = c := by
  have hrange {first last : Char} (hc : first ≤ c ∧ c ≤ last) :
      first.toNat ≤ c.toNat ∧ c.toNat ≤ last.toNat := hc
  unfold Alphabet.value? at h
  split_ifs at h with hupper hlower hdigit hplus hslash
  all_goals obtain rfl := Option.some.inj h
  · obtain ⟨hfirst, hlast⟩ : 65 ≤ c.toNat ∧ c.toNat ≤ 90 := hrange hupper
    refine ⟨by omega, ?_⟩
    rw [Alphabet.char, if_pos (by omega), Nat.add_sub_cancel' hfirst, Char.ofNat_toNat]
  · obtain ⟨hfirst, hlast⟩ : 97 ≤ c.toNat ∧ c.toNat ≤ 122 := hrange hlower
    refine ⟨by omega, ?_⟩
    rw [Alphabet.char, if_neg (by omega), if_pos (by omega), Nat.add_sub_cancel' (by omega),
      Char.ofNat_toNat]
  · obtain ⟨hfirst, hlast⟩ : 48 ≤ c.toNat ∧ c.toNat ≤ 57 := hrange hdigit
    refine ⟨by omega, ?_⟩
    rw [Alphabet.char, if_neg (by omega), if_neg (by omega), if_pos (by omega), Nat.add_sub_cancel,
      Char.ofNat_toNat]
  · exact ⟨by decide, hplus.symm⟩
  · exact ⟨by decide, hslash.symm⟩

/-- A text is written by the numbers of its characters. -/
theorem map_of_mapM_value? {text : List Char} {ns : List Nat}
    (h : text.mapM standard.value? = some ns) :
    (∀ n ∈ ns, n < 64) ∧ ns.map standard.char = text := by
  induction text generalizing ns with
  | nil =>
    obtain rfl := Option.some.inj h
    exact ⟨nofun, rfl⟩
  | cons c r ih =>
    rw [List.mapM_cons] at h
    obtain ⟨n, hn, h⟩ := Option.bind_eq_some_iff.1 h
    obtain ⟨ms, hm, h⟩ := Option.bind_eq_some_iff.1 h
    obtain rfl := Option.some.inj h
    obtain ⟨hlt, hchar⟩ := char_of_value? hn
    obtain ⟨hlts, hchars⟩ := ih hm
    exact ⟨List.forall_mem_cons.2 ⟨hlt, hlts⟩, congrArg₂ List.cons hchar hchars⟩

/-- **Six-bit numbers are those of the octets** that are read from them: none of their bits is lost. -/
theorem sextets_of_ofSextets? {ns : List Nat} (hlt : ∀ n ∈ ns, n < 64) {b : Bytes}
    (h : ofSextets? ns = some b) : sextets b = ns := by
  induction ns using ofSextets?.induct generalizing b with
  | case1 =>
    obtain rfl := Option.some.inj h
    rfl
  | case2 => cases h
  | case3 p q hz =>
    simp only [List.forall_mem_cons] at hlt
    rw [ofSextets?, if_pos hz] at h
    obtain rfl : [UInt8.ofNat (p * 4 + q / 16)] = b := Option.some.inj h
    rw [sextets, UInt8.toNat_ofNat']
    exact congrArg₂ (fun p q => [p, q]) (by omega) (by omega)
  | case4 p q hz =>
    rw [ofSextets?, if_neg hz] at h
    cases h
  | case5 p q r hz =>
    simp only [List.forall_mem_cons] at hlt
    rw [ofSextets?, if_pos hz] at h
    obtain rfl : [UInt8.ofNat (p * 4 + q / 16), UInt8.ofNat (q % 16 * 16 + r / 4)] = b :=
      Option.some.inj h
    rw [sextets, UInt8.toNat_ofNat', UInt8.toNat_ofNat']
    exact congrArg₂ List.cons (by omega) (congrArg₂ (fun q r => [q, r]) (by omega) (by omega))
  | case6 p q r hz =>
    rw [ofSextets?, if_neg hz] at h
    cases h
  | case7 p q r s t ih =>
    simp only [List.forall_mem_cons] at hlt
    obtain ⟨hp, hq, hr, hs, ht⟩ := hlt
    obtain ⟨rest, hrest, h⟩ := Option.bind_eq_some_iff.1 h
    obtain rfl : UInt8.ofNat (p * 4 + q / 16) :: UInt8.ofNat (q % 16 * 16 + r / 4) ::
      UInt8.ofNat (r % 4 * 64 + s) :: rest = b := Option.some.inj h
    rw [sextets, ih ht hrest, UInt8.toNat_ofNat', UInt8.toNat_ofNat', UInt8.toNat_ofNat']
    exact congrArg₂ List.cons (by omega) (congrArg₂ List.cons (by omega)
      (congrArg₂ List.cons (by omega) (congrArg₂ List.cons (by omega) rfl)))

/-- Padding is taken off the end, and not more than two characters of it. -/
theorem splitPadding_eq {text body : List Char} {n : Nat} (h : splitPadding text = (body, n)) :
    n < 3 ∧ text = body ++ List.replicate n '=' := by
  unfold splitPadding at h
  split at h
  all_goals
    obtain ⟨rfl, rfl⟩ := Prod.mk.inj h
    exact ⟨by decide, List.reverse_inj.1 (by simp [*])⟩

/-- **Which texts are read**: the form of the octets that are read from them, and no other. -/
theorem decode?_eq_some {text : List Char} {b : Bytes} :
    decode? text = some b ↔ text = encode b := by
  constructor
  · intro h
    cases hs : splitPadding text with
    | mk body padding =>
      obtain ⟨hpadding, rfl⟩ := splitPadding_eq hs
      rw [decode?, hs] at h
      obtain ⟨hlength, hbody⟩ := Option.ite_none_left_eq_some.1 h
      obtain ⟨ns, hns, hread⟩ := Option.bind_eq_some_iff.1 hbody
      obtain ⟨hlt, rfl⟩ := map_of_mapM_value? hns
      obtain ⟨hchars, hm, hl⟩ := groups_eq standard b
      rw [sextets_of_ofSextets? hlt hread] at hchars hl
      rw [List.length_map] at hlength
      -- the last group lacks less than three characters, so its length leaves one number of them
      have hmissing : (groups standard b).2 = padding := by omega
      show _ = (groups standard b).1 ++ List.replicate (groups standard b).2 '='
      rw [hchars, hmissing]
  · rintro rfl
    exact decode?_encode b

end Base64

end Rim.Text
