import Rim.Choice.PublicKey
import Rim.Proofs.Result
import Rim.Proofs.Text.Blank
import Rim.Proofs.Text.Octets

/-!
# The layout of PEM text

The octets of a public key stand in base64 between an opening and a closing line. Blanks may stand
around the block, and anywhere between the two lines; wherever they stand, the same octets are read. No
other text is read.

* `Carries`: a block that carries octets, laid out in any way.
* `body?_eq_some`: what stands between the two lines.
* `der_exact`: which octets are read from a text, and which keys are valid.
-/

namespace Rim.PublicKey

/-- A text that is a block of octets: their base64 between the opening and the closing line, blanks
put into it anywhere, and blanks around the block. -/
def Carries (text : String) (octets : Bytes) : Prop :=
  ∃ before body after, Text.Blanks before ∧ Text.Blanks after ∧
    Text.Spaced (Text.Base64.encode octets) body ∧
    text.toList = before ++ (opening.toList ++ body ++ closing.toList) ++ after

/-- **What stands between the two lines**, whatever blanks stand around them. -/
theorem body?_eq_some {text : String} {body : List Char} : body? text = some body ↔
    ∃ before after, Text.Blanks before ∧ Text.Blanks after ∧
      text.toList = before ++ (opening.toList ++ body ++ closing.toList) ++ after := by
  have htrim : body? text = some body ↔
      Text.trim text.toList = opening.toList ++ body ++ closing.toList := by
    show ((Text.after? _ _).bind fun rest => Text.before? _ rest) = _ ↔ _
    simp [Option.bind_eq_some_iff, List.append_assoc]
  rw [htrim]
  constructor
  · intro h
    rw [← h]
    exact Text.trim_eq text.toList
  · rintro ⟨before, after, hbefore, hafter, ht⟩
    -- neither line starts or ends with a blank
    rw [ht]
    refine Text.trim_append hbefore hafter ⟨'-', ?_, by decide⟩ ⟨'-', ?_, by decide⟩
    · rfl
    · rw [List.getLast?_append]
      rfl

/-- No character of base64 is a blank. -/
theorem not_isBlank_of_mem_encode {octets : Bytes} {c : Char}
    (hc : c ∈ Text.Base64.encode octets) : Text.isBlank c = false := by
  have hchar : ∀ n < 64, Text.isBlank (Text.Base64.standard.char n) = false := by decide
  rcases List.mem_append.1 hc with hc | hc
  · rw [(Text.Base64.groups_eq _ octets).1] at hc
    obtain ⟨n, hn, rfl⟩ := List.mem_map.1 hc
    exact hchar n (Text.Base64.sextets_lt octets n hn)
  · rw [List.eq_of_mem_replicate hc]
    decide

/-- A block carries octets if they are what is read from it without blanks. -/
theorem carries_iff {text : String} {octets : Bytes} : Carries text octets ↔
    ∃ body, body? text = some body ∧ Text.Base64.decode? (Text.dropBlanks body) = some octets := by
  simp only [Text.Base64.decode?_eq_some, ← Text.spaced_iff fun _ => not_isBlank_of_mem_encode,
    body?_eq_some]
  constructor
  · rintro ⟨before, body, after, hbefore, hafter, hspaced, ht⟩
    exact ⟨body, ⟨before, after, hbefore, hafter, ht⟩, hspaced⟩
  · rintro ⟨body, ⟨before, after, hbefore, hafter, ht⟩, hspaced⟩
    exact ⟨before, body, after, hbefore, hafter, hspaced, ht⟩

/-- **Which octets are read from a text.** -/
theorem der_eq_ok {text : String} {octets : Bytes} :
    (mk text).der = .ok octets ↔ Carries text octets ∧ octets ≠ [] := by
  rw [carries_iff]
  unfold der
  cases body? text with
  | none => simp
  | some body =>
    cases hread : Text.Base64.decode? (Text.dropBlanks body) with
    | none => simp [hread]
    | some read =>
      -- octets that are read are refused if there are none of them
      cases read with
      | nil => simp [hread]
      | cons x r =>
        simp only [Option.some.injEq, exists_eq_left', hread, Except.ok.injEq]
        exact ⟨fun h => ⟨h, h ▸ List.cons_ne_nil x r⟩, And.left⟩

/-- **The layout of a block makes no difference.** A text has octets just if it is a block that carries
them and there are any, however blanks are put into it and around it; and a key is valid just if its
text is such a block. -/
theorem der_exact (text : String) :
    (∀ octets, (mk text).der = .ok octets ↔ Carries text octets ∧ octets ≠ []) ∧
    ((mk text).validate = .ok () ↔ ∃ octets, Carries text octets ∧ octets ≠ []) := by
  refine ⟨fun _ => der_eq_ok, ?_⟩
  rw [validate, Result.bind_eq_ok]
  exact exists_congr fun _ => (and_iff_left rfl).trans der_eq_ok

end Rim.PublicKey
