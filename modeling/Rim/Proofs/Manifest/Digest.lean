import Rim.Manifest.Digest
import Rim.Proofs.Json.Members
import Rim.Proofs.List
import Rim.Proofs.Text.Digits
import Rim.Proofs.Text.Split

/-!
# Digests as text

A digest is written as its algorithm and its octets, with a semicolon between them. The algorithm stands
there by its name or by a numeral of its number; no name is a numeral, and neither holds a semicolon.
So the first semicolon is the one that separates the halves, whatever the octets are.

* `HashAlgorithm.Denoted`, `HashAlgorithm.numberOf?_eq_some`: what stands for an algorithm.
* `Digest.Written`, `Digest.parse_eq_ok`: which texts are read, and as what.
* `Digest.text_exact`: reading undoes writing, and reads nothing else.
-/

namespace Rim

/-! ### Hash algorithms -/

namespace HashAlgorithm

variable {n : UInt64} {a : HashAlgorithm} {name : List Char}

/-- Algorithms are told apart by their numbers. -/
theorem ofNumber?_eq_some : ofNumber? n = some a ↔ a ∈ all ∧ a.number = n :=
  find?_eq_some_of_pairwise (List.pairwise_map.1 (show (all.map number).Nodup by decide))

theorem nameOf?_eq_some {s : String} :
    nameOf? n = some s ↔ ∃ a ∈ all, a.number = n ∧ a.name = s := by
  simp only [nameOf?, Option.map_eq_some_iff, ofNumber?_eq_some, and_assoc]

/-- A text that stands for an algorithm: its name, or a numeral of its number. -/
def Denoted (n : UInt64) (name : List Char) : Prop :=
  nameOf? n = some (String.ofList name) ∨ Text.Numeral.Writes n.toNat name

/-- A name has the letter s, which no numeral has, and no semicolon. -/
theorem mem_name : ∀ a ∈ all, 's' ∈ a.name.toList ∧ ';' ∉ a.name.toList := by decide

/-- A numeral holds digits and at most a plus sign. -/
theorem not_mem_numeral {k : Nat} (h : Text.Numeral.Writes k name) {c : Char} (hplus : c ≠ '+')
    (hdigit : ¬('0' ≤ c ∧ c ≤ '9')) : c ∉ name := by
  obtain ⟨ds, hname, -, hd, -⟩ := h
  have hds : c ∉ ds := fun hc => hdigit (hd c hc)
  rcases hname with rfl | rfl
  · exact hds
  · exact List.not_mem_cons_of_ne_of_not_mem hplus hds

/-- **What stands for an algorithm**: what is looked up as a name is none if it is a numeral. -/
theorem numberOf?_eq_some : numberOf? (String.ofList name) = some n ↔ Denoted n name := by
  have hnames : all.Pairwise fun a b => a.name ≠ b.name :=
    List.pairwise_map.1 (show (all.map HashAlgorithm.name).Nodup by decide)
  unfold numberOf? Denoted
  rw [nameOf?_eq_some]
  cases hfind : all.find? (·.name == String.ofList name) with
  | some a =>
    obtain ⟨ha, hname⟩ := (find?_eq_some_of_pairwise hnames).1 hfind
    have hnumeral (k : Nat) : ¬Text.Numeral.Writes k name := by
      intro h
      have hs := (mem_name a ha).1
      rw [hname, String.toList_ofList] at hs
      exact not_mem_numeral h (by decide) (by decide) hs
    rw [or_iff_left (hnumeral _), Option.some_inj]
    constructor
    · rintro rfl
      exact ⟨a, ha, rfl, hname⟩
    · rintro ⟨b, hb, rfl, hbname⟩
      rw [(find?_eq_some_of_pairwise hnames).2 ⟨hb, hbname⟩] at hfind
      rw [Option.some.inj hfind]
  | none =>
    have hname : ¬∃ a ∈ all, a.number = n ∧ a.name = String.ofList name := by
      rintro ⟨a, ha, -, hname⟩
      cases hfind.symm.trans ((find?_eq_some_of_pairwise hnames).2 ⟨ha, hname⟩)
    rw [or_iff_right hname, String.toList_ofList]
    exact Text.Numeral.parse?_eq_some

/-- Nothing that stands for an algorithm holds a semicolon. -/
theorem Denoted.not_mem (h : Denoted n name) : ';' ∉ name := by
  rcases h with h | h
  · obtain ⟨a, ha, -, hname⟩ := nameOf?_eq_some.1 h
    have hsep := (mem_name a ha).2
    rwa [hname, String.toList_ofList] at hsep
  · exact not_mem_numeral h (by decide) (by decide)

/-- The name or the digits of a number stand for its algorithm. -/
theorem denoted_text (n : UInt64) : Denoted n ((nameOf? n).getD (toString n.toNat)).toList := by
  unfold Denoted
  cases nameOf? n with
  | some s =>
    rw [Option.getD_some, String.ofList_toList]
    exact .inl rfl
  | none =>
    rw [Option.getD_none, Nat.toString_eq_repr, Nat.toList_repr]
    exact .inr ⟨_, .inl rfl, Nat.toDigits_ne_nil, Text.decimal_toDigits _, Text.foldDigits_toDigits _⟩

end HashAlgorithm

/-! ### Digests -/

namespace Digest

variable {d : Digest} {text : String}

/-- A text that writes a digest: what stands for its algorithm, and after the first semicolon the
base64 of its octets. -/
def Written (d : Digest) (text : String) : Prop :=
  ∃ name, ';' ∉ name ∧ HashAlgorithm.Denoted d.algorithm name ∧
    text.toList = name ++ ';' :: Text.Base64.encode d.value

/-- **Which texts are read**, and as what. -/
theorem parse_eq_ok : parse text = .ok d ↔ d.Written text := by
  have hread {n : UInt64} {value : List Char} :
      (Json.octetsOf "digest" (String.ofList value) >>= fun b => .ok ⟨n, b⟩ : Result Digest) = .ok d ↔
        n = d.algorithm ∧ value = Text.Base64.encode d.value := by
    obtain ⟨k, b⟩ := d
    rw [Result.bind_eq_ok]
    simp [Json.Value.octetsOf_eq_ok, and_comm]
  unfold parse
  constructor
  · intro h
    cases hcut : Text.cutAt? ';' text.toList with
    | none =>
      rw [hcut] at h
      cases h
    | some p =>
      obtain ⟨name, value⟩ := p
      obtain ⟨hsep, htext⟩ := Text.cutAt?_eq_some.1 hcut
      rw [hcut] at h
      cases hn : HashAlgorithm.numberOf? (String.ofList name) with
      | none =>
        simp only [hn] at h
        cases h
      | some n =>
        simp only [hn] at h
        obtain ⟨rfl, rfl⟩ := hread.1 h
        exact ⟨name, hsep, HashAlgorithm.numberOf?_eq_some.1 hn, htext⟩
  · rintro ⟨name, hsep, hname, htext⟩
    rw [Text.cutAt?_eq_some.2 ⟨hsep, htext⟩]
    dsimp only
    rw [HashAlgorithm.numberOf?_eq_some.2 hname]
    exact hread.2 ⟨rfl, rfl⟩

theorem written_toText (d : Digest) : d.Written d.toText := by
  have hname := HashAlgorithm.denoted_text d.algorithm
  refine ⟨_, hname.not_mem, hname, ?_⟩
  rw [toText, String.toList_append, String.toList_append,
    String.toList_ofList (l := Text.Base64.encode d.value), List.append_assoc]
  rfl

/-- **A digest is read back from its text.** -/
theorem parse_toText (d : Digest) : parse d.toText = .ok d := parse_eq_ok.2 d.written_toText

/-- **The text form loses nothing.** Every digest is read back from its text, be it valid or not. A text
is read just if it writes a digest, by the name or by a numeral of the algorithm; and what was read is
read again from its own text. -/
theorem text_exact :
    (∀ d : Digest, parse d.toText = .ok d) ∧
    (∀ (text : String) (d : Digest), parse text = .ok d ↔ d.Written text) ∧
    ∀ text : String, (parse text >>= fun d => parse d.toText) = parse text := by
  refine ⟨parse_toText, fun _ _ => parse_eq_ok, fun text => ?_⟩
  simp only [parse_toText]
  exact bind_pure _

end Digest

end Rim
