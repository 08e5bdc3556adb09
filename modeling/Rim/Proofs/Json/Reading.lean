import Rim.Json.Access
import Rim.Proofs.Keyed
import Rim.Proofs.Text.Digits

/-!
# Reading what was printed

A value is canonical if its objects are in the order of names, it holds no float and it has a bounded
depth. It is read back from its printed form, whatever follows, as long as what follows could not
belong to a number.

* `Value.Canonical`: the values that are read back.
* `string_printString`, `number_print`, `enclosed_print`: the parts.
* `value_print`: reading undoes printing, up to the same levels.
* `decode_render`: the whole text.
-/

namespace Rim.Json

open Keyed Text

/-- Values of at most so many levels that hold no float and whose objects are in order. -/
inductive Value.Canonical : Nat → Value → Prop
  | null {levels : Nat} : Canonical levels null
  | bool {levels : Nat} (b : Bool) : Canonical levels (bool b)
  | integer {levels : Nat} {n : Int} (h : -2 ^ 63 ≤ n ∧ n < 2 ^ 64) :
      Canonical levels (number (.integer n))
  | string {levels : Nat} (s : String) : Canonical levels (string s)
  | array {levels : Nat} {items : List Value} (h : ∀ v ∈ items, Canonical levels v) :
      Canonical (levels + 1) (array items)
  | object {levels : Nat} {members : Members} (ordered : Sorted members)
      (values : ∀ m ∈ members, Canonical levels m.2) : Canonical (levels + 1) (object members)

namespace Value

/-- More levels do no harm. -/
theorem Canonical.mono {m n : Nat} {v : Value} (h : v.Canonical m) (hn : m ≤ n) :
    v.Canonical n := by
  induction h generalizing n with
  | null => exact .null
  | bool b => exact .bool b
  | integer h => exact .integer h
  | string s => exact .string s
  | array _ ih =>
    obtain ⟨n, rfl⟩ := Nat.exists_eq_add_of_lt hn
    exact .array fun v hv => ih v hv (by omega)
  | object ho _ ih =>
    obtain ⟨n, rfl⟩ := Nat.exists_eq_add_of_lt hn
    exact .object ho fun m hm => ih m hm (by omega)

theorem normalItems_of_forall {items : List Value} (h : ∀ v ∈ items, v.normal = v) :
    normalItems items = items := by
  induction items with
  | nil => rfl
  | cons v r ih =>
    rw [normalItems, h v List.mem_cons_self, ih fun w hw => h w (List.mem_cons_of_mem _ hw)]

theorem normalMembers_of_forall {members : Members} (h : ∀ m ∈ members, m.2.normal = m.2) :
    normalMembers members = members := by
  induction members with
  | nil => rfl
  | cons m r ih =>
    rw [normalMembers, h m List.mem_cons_self, ih fun n hn => h n (List.mem_cons_of_mem _ hn)]

/-- The objects of a canonical value are in order already. -/
theorem Canonical.normal_eq {levels : Nat} {v : Value} (h : v.Canonical levels) : v.normal = v := by
  induction h with
  | null | bool | integer | string => rw [normal] <;> simp
  | array _ ih => rw [normal, normalItems_of_forall ih]
  | object ho _ ih => rw [normal, normalMembers_of_forall ih, ofMembers, ofList_of_sorted ho]

end Value

/-! ### Strings -/

/-- A control character is read back from its code unit. -/
theorem codeUnit?_print {n : Nat} (hn : n < 0x20) :
    codeUnit? '0' '0' (Nat.digitChar (n / 16)) (Nat.digitChar (n % 16)) = some n := by
  have h : ∀ n < 0x20,
      codeUnit? '0' '0' (Nat.digitChar (n / 16)) (Nat.digitChar (n % 16)) = some n := by decide
  exact h n hn

/-- A character is read back from its printed form. -/
theorem stringBody_printChar (c : Char) (rest : List Char) : stringBody (printChar c ++ rest) =
    (stringBody rest).map fun p => (c :: p.1, p.2) := by
  unfold printChar
  split
  case h_8 =>
    -- every character but those that have a short escape
    rename_i hquote hbackslash _ _ _ _ _
    by_cases hc : c.toNat < 0x20
    · -- a control character is printed as its code unit, which is no surrogate
      rw [if_pos hc]
      simp only [List.cons_append, List.nil_append]
      rw [stringBody, codeUnit?_print hc]
      simp only [Option.bind_eq_bind, Option.bind_some]
      rw [if_neg (by omega), if_neg (by omega), Char.ofNat_toNat]
      cases stringBody rest <;> rfl
    · rw [if_neg hc, List.singleton_append, stringBody]
      · rw [if_neg (not_or.2 ⟨hc, hbackslash⟩)]
        cases stringBody rest <;> rfl
      · exact hquote
      · intro _ _ _ _ _ h
        exact (hbackslash h).elim
      · intro _ _ h
        exact (hbackslash h).elim
  -- the short escapes; none of their letters is the one that starts a code unit
  all_goals
    simp only [List.cons_append, List.nil_append]
    rw [stringBody]
    · show (stringBody rest).bind (fun p => some (_ :: p.1, p.2)) = _
      cases stringBody rest <;> rfl
    · intro _ _ _ _ _ h
      cases h

/-- The text between quotes is read back. -/
theorem stringBody_flatMap (s rest : List Char) :
    stringBody (s.flatMap printChar ++ '"' :: rest) = some (s, rest) := by
  induction s with
  | nil => rw [List.flatMap_nil, List.nil_append, stringBody]
  | cons c r ih => rw [List.flatMap_cons, List.append_assoc, stringBody_printChar, ih, Option.map_some]

/-- **A string is read back from its printed form.** -/
theorem string_printString (s : String) (rest : List Char) :
    string (printString s ++ rest) = some (s, rest) := by
  unfold printString
  rw [List.cons_append, List.cons_append, List.append_assoc, List.singleton_append, string,
    stringBody_flatMap]
  show some (String.ofList s.toList, rest) = _
  rw [String.ofList_toList]

/-! ### Numbers -/

/-- What may follow a value: nothing, a comma or a closing bracket. -/
def Follows (rest : List Char) : Prop :=
  ∀ c ∈ rest.head?, c = ',' ∨ c = ']' ∨ c = '\x7d'

theorem Follows.nil : Follows [] := nofun

theorem Follows.cons {c : Char} (h : c = ',' ∨ c = ']' ∨ c = '\x7d') (rest : List Char) :
    Follows (c :: rest) := by
  rintro d ⟨⟩
  exact h

theorem isDigit_iff {c : Char} : isDigit c = true ↔ '0' ≤ c ∧ c ≤ '9' := by
  unfold isDigit
  rw [Bool.and_eq_true, decide_eq_true_iff, decide_eq_true_iff]

/-- Digits are read up to what follows the value. -/
theorem digits_append {ds rest : List Char} (hne : ds ≠ []) (h : Decimal ds) (hr : Follows rest) :
    digits (ds ++ rest) = some (ds, rest) := by
  have hall : ∀ c ∈ ds, isDigit c = true := fun c hc => isDigit_iff.2 (h c hc)
  have hstop : rest.takeWhile isDigit = [] ∧ rest.dropWhile isDigit = rest := by
    cases rest with
    | nil => exact ⟨rfl, rfl⟩
    | cons c r =>
      have hc : isDigit c = false := by
        rcases hr c rfl with rfl | rfl | rfl <;> decide
      rw [List.takeWhile_cons, List.dropWhile_cons, hc]
      exact ⟨rfl, rfl⟩
  have htake : (ds ++ rest).takeWhile isDigit = ds := by
    rw [List.takeWhile_append_of_pos hall, hstop.1, List.append_nil]
  have hdrop : (ds ++ rest).dropWhile isDigit = rest := by
    rw [List.dropWhile_append_of_pos hall, hstop.2]
  rw [digits, htake, hdrop]
  cases ds with
  | nil => exact absurd rfl hne
  | cons c r => rfl

/-- The digits of a number stand as an integer part: only zero starts with a zero. -/
theorem integerDigits_toDigits (n : Nat) {rest : List Char} (hr : Follows rest) :
    integerDigits (Nat.toDigits 10 n ++ rest) = some (Nat.toDigits 10 n, rest) := by
  have hd := digits_append Nat.toDigits_ne_nil (decimal_toDigits n) hr
  rw [integerDigits, hd]
  by_cases hn : n = 0
  · -- a single zero is an integer part
    subst hn
    rfl
  · simp only [Option.bind_eq_bind, Option.bind_some]
    split
    · rename_i heq
      exact absurd (Prod.mk.inj heq).1 (toDigits_ne_zero_cons hn _)
    · rfl

theorem fractionDigits_follows {rest : List Char} (hr : Follows rest) :
    fractionDigits rest = some ([], rest) := by
  cases rest with
  | nil => rfl
  | cons c r => rcases hr c rfl with rfl | rfl | rfl <;> rfl

theorem exponentPart_follows {rest : List Char} (hr : Follows rest) :
    exponentPart rest = some (none, rest) := by
  cases rest with
  | nil => rfl
  | cons c r => rcases hr c rfl with rfl | rfl | rfl <;> rfl

theorem print_ofNat (n : Nat) : Number.print (.integer n) = Nat.toDigits 10 n := by
  show (toString (n : Int)).toList = _
  rw [Int.toString_eq_repr, Int.repr_eq_if, if_pos (Int.natCast_nonneg n), Int.toNat_natCast,
    Nat.toList_repr]

theorem print_neg {n : Nat} (hn : 0 < n) :
    Number.print (.integer (-n)) = '-' :: Nat.toDigits 10 n := by
  show (toString (-n : Int)).toList = _
  rw [Int.toString_eq_repr, Int.repr_eq_if, if_neg (by omega), Int.neg_neg, Int.toNat_natCast,
    String.toList_append, Nat.toList_repr]
  rfl

/-- No printed natural number starts with a minus sign. -/
theorem toDigits_ne_minus_cons (n : Nat) (r : List Char) : Nat.toDigits 10 n ≠ '-' :: r := by
  intro h
  have hd := decimal_toDigits n '-' (h ▸ List.mem_cons_self)
  exact absurd hd.1 (by decide)

/-- Reads a number whose sign was read. -/
def unsigned (negative : Bool) : Reading Number := fun s => do
  let (whole, s) ← integerDigits s
  let (fraction, s) ← fractionDigits s
  let (exponent, s) ← exponentPart s
  return (← numberOf negative whole fraction exponent, s)

theorem number_minus (s : List Char) : number ('-' :: s) = unsigned true s := rfl

theorem number_of_ne {s : List Char} (h : ∀ r, s ≠ '-' :: r) : number s = unsigned false s := by
  unfold number
  split
  rename_i heq
  split at heq
  · exact absurd rfl (h _)
  · obtain ⟨rfl, rfl⟩ := Prod.mk.inj heq
    rfl

/-- The digits of a number are read after its sign. -/
theorem unsigned_toDigits (negative : Bool) (n : Nat) {rest : List Char} (hr : Follows rest) :
    unsigned negative (Nat.toDigits 10 n ++ rest) =
      (numberOf negative (Nat.toDigits 10 n) [] none).map (·, rest) := by
  unfold unsigned
  rw [integerDigits_toDigits n hr]
  simp only [Option.bind_eq_bind, Option.bind_some]
  rw [fractionDigits_follows hr]
  simp only [Option.bind_some]
  rw [exponentPart_follows hr]
  simp only [Option.bind_some]
  cases numberOf negative (Nat.toDigits 10 n) [] none <;> rfl

/-- **An integer is read back from its printed form** if it fits 64 bits. -/
theorem number_print {n : Int} (h : -2 ^ 63 ≤ n ∧ n < 2 ^ 64) {rest : List Char}
    (hr : Follows rest) :
    number (Number.print (.integer n) ++ rest) = some (.integer n, rest) := by
  by_cases hn : 0 ≤ n
  · -- without a sign the first character is a digit
    obtain ⟨k, rfl⟩ := Int.eq_ofNat_of_zero_le hn
    have hof : numberOf false (Nat.toDigits 10 k) [] none = some (.integer k) := by
      show (if foldDigits 0 (Nat.toDigits 10 k) < 2 ^ 64 then
        some (Number.integer (foldDigits 0 (Nat.toDigits 10 k))) else _) = _
      rw [foldDigits_toDigits, if_pos (by omega)]
    have hsign : ∀ r, Nat.toDigits 10 k ++ rest ≠ '-' :: r := by
      cases hd : Nat.toDigits 10 k with
      | nil => exact absurd hd Nat.toDigits_ne_nil
      | cons c ds =>
        intro r h
        exact toDigits_ne_minus_cons k ds (hd.trans (by rw [(List.cons.inj h).1]))
    rw [print_ofNat, number_of_ne hsign, unsigned_toDigits false k hr, hof]
    rfl
  · obtain ⟨k, rfl⟩ : ∃ k : Nat, n = -k := ⟨n.natAbs, by omega⟩
    have hof : numberOf true (Nat.toDigits 10 k) [] none = some (.integer (-k)) := by
      show (if 0 < foldDigits 0 (Nat.toDigits 10 k) ∧ foldDigits 0 (Nat.toDigits 10 k) ≤ 2 ^ 63 then
        some (Number.integer (-foldDigits 0 (Nat.toDigits 10 k))) else _) = _
      rw [foldDigits_toDigits, if_pos (by omega)]
    rw [print_neg (by omega), List.cons_append, number_minus, unsigned_toDigits true k hr, hof]
    rfl

/-! ### Lists of parts -/

theorem skipBlanks_cons {c : Char} (h : ¬(c = ' ' ∨ c = '\t' ∨ c = '\n' ∨ c = '\r'))
    (rest : List Char) : skipBlanks (c :: rest) = c :: rest := by
  have hc : (c == ' ' || c == '\t' || c == '\n' || c == '\r') = false := by
    simpa [and_assoc] using h
  rw [skipBlanks, List.dropWhile_cons, hc]
  rfl

variable {α : Type} {p : Text.Reading α} {print : α → List Char} {close : Char}

/-- The printed forms of further parts, and the closing character. -/
def printRest (close : Char) (print : α → List Char) (xs : List α) : List Char :=
  xs.flatMap (fun x => ',' :: print x) ++ [close]

theorem printRest_cons (x : α) (xs : List α) :
    printRest close print (x :: xs) = ',' :: print x ++ printRest close print xs := by
  unfold printRest
  rw [List.flatMap_cons, List.append_assoc]

theorem length_lt_printRest (xs : List α) : xs.length < (printRest close print xs).length := by
  induction xs with
  | nil => exact Nat.zero_lt_one
  | cons x r ih =>
    rw [printRest_cons, List.length_append, List.length_cons, List.length_cons]
    omega

theorem follows_printRest (hc : close = ']' ∨ close = '\x7d') (xs : List α) (rest : List Char) :
    Follows (printRest close print xs ++ rest) := by
  cases xs with
  | nil => exact .cons (hc.elim (fun h => .inr (.inl h)) fun h => .inr (.inr h)) rest
  | cons x r => exact .cons (.inl rfl) _

/-- **Parts are read up to the closing character** if each part is read back. -/
theorem separated_print (hc : close = ']' ∨ close = '\x7d') {x : α} {xs : List α}
    (h : ∀ y ∈ x :: xs, ∀ rest, Follows rest → p (print y ++ rest) = some (y, rest)) {fuel : Nat}
    (hf : xs.length < fuel) (rest : List Char) :
    separated close p fuel (print x ++ printRest close print xs ++ rest) = some (x :: xs, rest) := by
  induction xs generalizing x fuel with
  | nil =>
    obtain ⟨fuel, rfl⟩ : ∃ n, fuel = n + 1 := ⟨fuel - 1, by omega⟩
    rw [List.append_assoc, separated, h x List.mem_cons_self _ (follows_printRest hc [] rest)]
    rcases hc with rfl | rfl <;> rfl
  | cons y r ih =>
    -- a comma follows, and the rest is read with one step less
    obtain ⟨fuel, rfl⟩ : ∃ n, fuel = n + 1 := ⟨fuel - 1, by omega⟩
    have hr := ih (fun z hz => h z (List.mem_cons_of_mem _ hz)) (Nat.lt_of_succ_lt_succ hf)
    rw [List.append_assoc, separated, h x List.mem_cons_self _ (follows_printRest hc _ rest),
      printRest_cons]
    simp only [Option.bind_eq_bind, Option.bind_some]
    rw [List.append_assoc, List.cons_append, skipBlanks_cons (by decide)]
    show (separated close p fuel (print y ++ (printRest close print r ++ rest))).bind
      (fun q => some (x :: q.1, q.2)) = _
    rw [← List.append_assoc, hr]
    rfl

/-- A character that may start a value or a member. -/
def Starts (c : Char) : Prop :=
  ¬(c = ' ' ∨ c = '\t' ∨ c = '\n' ∨ c = '\r') ∧ c ≠ ']' ∧ c ≠ '\x7d'

instance (c : Char) : Decidable (Starts c) := inferInstanceAs (Decidable (¬_ ∧ _ ∧ _))

/-- **Parts between brackets are read back** if there is one. -/
theorem enclosed_print (hc : close = ']' ∨ close = '\x7d') {x : α} {xs : List α}
    (hstart : ∃ c r, print x = c :: r ∧ Starts c)
    (h : ∀ y ∈ x :: xs, ∀ rest, Follows rest → p (print y ++ rest) = some (y, rest))
    (rest : List Char) :
    enclosed close p (print x ++ printRest close print xs ++ rest) = some (x :: xs, rest) := by
  obtain ⟨c, r, hx, hblank, hbracket, hbrace⟩ := hstart
  -- every part takes a character at least, so as many steps as there are characters suffice
  have hfuel : xs.length < (print x ++ printRest close print xs ++ rest).length := by
    have hlt : xs.length < (printRest close print xs).length := length_lt_printRest xs
    rw [List.length_append, List.length_append]
    omega
  have hread := separated_print hc h hfuel rest
  have hclose : c ≠ close := by
    rcases hc with rfl | rfl
    · exact hbracket
    · exact hbrace
  unfold enclosed
  rw [hx, List.cons_append, List.cons_append] at hread ⊢
  rw [skipBlanks_cons hblank]
  show (if c = close then _ else _) = _
  rw [if_neg hclose]
  exact hread

/-! ### Values -/

theorem printItems_eq (items : List Value) :
    Value.printItems items = printRest ']' Value.print items := by
  induction items with
  | nil => rfl
  | cons v r ih => rw [Value.printItems, ih, printRest_cons]

/-- The printed form of a member. -/
def printMember (m : String × Value) : List Char := printString m.1 ++ ':' :: m.2.print

theorem printMembers_eq (members : Members) :
    Value.printMembers members = printRest '\x7d' printMember members := by
  induction members with
  | nil => rfl
  | cons m r ih =>
    rw [Value.printMembers, ih, printRest_cons]
    rfl

theorem starts_of_digit {c : Char} (h : '0' ≤ c ∧ c ≤ '9') : Starts c := by
  refine ⟨?_, ?_, ?_⟩
  · rintro (rfl | rfl | rfl | rfl) <;> exact absurd h (by decide)
  · rintro rfl
    exact absurd h (by decide)
  · rintro rfl
    exact absurd h (by decide)

/-- An integer starts with a minus sign or a digit. -/
theorem print_integer_head (n : Int) : ∃ c r, Number.print (.integer n) = c :: r ∧
    (c = '-' ∨ ('0' ≤ c ∧ c ≤ '9')) := by
  by_cases hn : 0 ≤ n
  · obtain ⟨k, rfl⟩ := Int.eq_ofNat_of_zero_le hn
    cases hd : Nat.toDigits 10 k with
    | nil => exact absurd hd Nat.toDigits_ne_nil
    | cons c r =>
      refine ⟨c, r, (print_ofNat k).trans hd, .inr ?_⟩
      exact decimal_toDigits k c (hd ▸ List.mem_cons_self)
  · obtain ⟨k, rfl⟩ : ∃ k : Nat, n = -k := ⟨n.natAbs, by omega⟩
    exact ⟨'-', _, print_neg (by omega), .inl rfl⟩

/-- No blank and no closing bracket starts a value. -/
theorem Value.Canonical.starts {levels : Nat} {v : Value} (h : v.Canonical levels) :
    ∃ c r, v.print = c :: r ∧ Starts c := by
  have hopen {c : Char} (hc : c = '"' ∨ c = '[' ∨ c = '\x7b' ∨ c = '-' ∨ c = 'n' ∨ c = 't' ∨ c = 'f') :
      Starts c := by
    unfold Starts
    rcases hc with rfl | rfl | rfl | rfl | rfl | rfl | rfl <;> decide
  cases h with
  | null => exact ⟨_, _, rfl, hopen (by decide)⟩
  | bool b => cases b <;> exact ⟨_, _, rfl, hopen (by decide)⟩
  | string s => exact ⟨_, _, rfl, hopen (by decide)⟩
  | @array _ items => cases items <;> exact ⟨_, _, rfl, hopen (by decide)⟩
  | @object _ members => rcases members with _ | ⟨⟨name, v⟩, r⟩ <;> exact ⟨_, _, rfl, hopen (by decide)⟩
  | integer hn =>
    obtain ⟨c, r, hp, hc⟩ := print_integer_head _
    refine ⟨c, r, hp, ?_⟩
    rcases hc with rfl | hc
    · exact hopen (by decide)
    · exact starts_of_digit hc

/-- A value that starts like a number is read as one. -/
theorem valueOf_number (inner : Option (Reading Value)) {c : Char} (r : List Char)
    (hc : c = '-' ∨ ('0' ≤ c ∧ c ≤ '9')) :
    valueOf inner (c :: r) = (number (c :: r)).map fun p => (.number p.1, p.2) := by
  have hblank : ¬(c = ' ' ∨ c = '\t' ∨ c = '\n' ∨ c = '\r') := by
    rcases hc with rfl | hc
    · decide
    · exact (starts_of_digit hc).1
  have hne {d : Char} (hd : ¬(d = '-' ∨ ('0' ≤ d ∧ d ≤ '9'))) : c ≠ d := by
    rintro rfl
    exact hd hc
  -- the first character rules out every other form
  unfold valueOf
  rw [skipBlanks_cons hblank]
  split
  case h_7 =>
    rename_i heq
    cases number (c :: r) <;> rfl
  all_goals
    rename_i heq
    exact absurd (List.cons.inj heq).1 (hne (by decide))

/-- A reader of some levels is a reader of the parts of one more level. -/
theorem value_eq (levels : Nat) : ∃ inner, value levels = valueOf inner := by
  cases levels with
  | zero => exact ⟨none, rfl⟩
  | succ n => exact ⟨some (value n), rfl⟩

/-- A member is read back if its value is. -/
theorem member_print {p : Reading Value} {m : String × Value} {rest : List Char}
    (h : p (m.2.print ++ rest) = some (m.2, rest)) : member p (printMember m ++ rest) = some (m, rest) := by
  have hskip : skipBlanks (printMember m ++ rest) = printMember m ++ rest := rfl
  unfold member memberBy
  rw [hskip, printMember, List.append_assoc, string_printString]
  show (p (m.2.print ++ rest)).bind (fun q => some ((m.1, q.1), q.2)) = _
  rw [h]
  rfl

/-- **A canonical value is read back from its printed form**, whatever follows it. -/
theorem value_print {levels : Nat} {v : Value} (h : v.Canonical levels) {rest : List Char}
    (hr : Follows rest) : value levels (v.print ++ rest) = some (v, rest) := by
  induction h generalizing rest with
  | @null levels =>
    obtain ⟨inner, he⟩ := value_eq levels
    rw [he]
    rfl
  | @bool levels b =>
    obtain ⟨inner, he⟩ := value_eq levels
    rw [he]
    cases b <;> rfl
  | @integer levels n hn =>
    obtain ⟨inner, he⟩ := value_eq levels
    obtain ⟨c, r, hp, hc⟩ := print_integer_head n
    have hread := number_print hn hr
    rw [he, Value.print, hp, List.cons_append, valueOf_number inner _ hc]
    rw [hp, List.cons_append] at hread
    rw [hread]
    rfl
  | @string levels s =>
    obtain ⟨inner, he⟩ := value_eq levels
    rw [he]
    show (string (printString s ++ rest)).bind (fun q => some (Value.string q.1, q.2)) = _
    rw [string_printString]
    rfl
  | @array levels items hv ih =>
    cases items with
    | nil => rfl
    | cons v r =>
      have hread := enclosed_print (.inl rfl) (hv v List.mem_cons_self).starts
        (fun y hy rest hr => ih y hy hr) rest
      show (enclosed ']' (value levels) (v.print ++ Value.printItems r ++ rest)).bind
        (fun q => some (Value.array q.1, q.2)) = _
      rw [printItems_eq, hread]
      rfl
  | @object levels members ho hv ih =>
    rcases members with _ | ⟨m, r⟩
    · rfl
    · have hstart : ∃ c r, printMember m = c :: r ∧ Starts c := ⟨'"', _, rfl, by decide⟩
      have hpart : ∀ n ∈ m :: r, ∀ rest, Follows rest →
          member (value levels) (printMember n ++ rest) = some (n, rest) :=
        fun n hn rest hr => member_print (ih n hn hr)
      have hread := enclosed_print (.inr rfl) hstart hpart rest
      show (enclosed '\x7d' (member (value levels))
        (printMember m ++ Value.printMembers r ++ rest)).bind
        (fun q => some (Value.object q.1, q.2)) = _
      rw [printMembers_eq, hread]
      rfl

/-! ### Whole texts -/

/-- Reading a whole text undoes printing, members as they were. -/
theorem parse?_render {v : Value} (h : v.Canonical maxLevels) : parse? v.render = some v := by
  have hv := value_print h Follows.nil
  rw [List.append_nil] at hv
  rw [parse?, Value.render, String.toList_ofList, hv]
  rfl

/-- **Reading a printed value gives it back.** -/
theorem decode_render {v : Value} (h : v.Canonical maxLevels) : decode v.render = .ok v := by
  rw [decode, decode?, parse?_render h, Option.map_some, h.normal_eq]

end Rim.Json
