import Rim.Profile.Bundled
import Rim.Proofs.Choice.Dotted
import Rim.Proofs.Manifest.PartsCbor
import Rim.Proofs.Manifest.PartsJson
import Rim.Proofs.Profile.Registered

/-!
# Profile identifiers and their texts

The text of an identifier does not say of which kind it is: digits and dots alone are the notation of
an object identifier, and all else is a URI. Validity leaves out just the identifiers whose text would
be read as something else, or as nothing. So a text stands for one valid identifier at most, and for
the one that it is read as.

* `validate_of_parse`: what is read is valid.
* `validate_iff_parse`: the valid identifiers are those that their own text is read as.
* `told_apart_by_text`: the forms of identifiers, and look-ups by them.
-/

namespace Rim

/-- An object identifier that was read from its notation has arcs. -/
theorem Oid.validate_of_parse {text : String} {o : Oid} (h : parse text = .ok o) :
    o.validate = .ok () := by
  obtain ⟨a, b, rest, -, -, ha⟩ := parse_eq_ok.1 h
  exact Result.bind_eq_ok.2 ⟨_, ha, rfl⟩

namespace ProfileId

variable {text : String} {i j : ProfileId}

/-- **What is read from a text is valid**, of whichever kind it was taken to be. -/
theorem validate_of_parse (h : parse text = .ok i) : i.validate = .ok () := by
  obtain ⟨hne, h⟩ := Result.refuse_eq_ok.1 h
  by_cases hdotted : isDotted text = true
  · rw [if_pos hdotted] at h
    obtain ⟨o, ho, rfl⟩ := Result.map_eq_ok.1 h
    exact Oid.validate_of_parse ho
  · rw [if_neg hdotted] at h
    obtain rfl := Except.ok.inj h
    exact Result.refuse_eq_ok.2 ⟨hne, Result.refuse_eq_ok.2 ⟨hdotted, rfl⟩⟩

/-- **Validity is exact**: a valid identifier is what its text is read as, and no other one is. -/
theorem validate_iff_parse : i.validate = .ok () ↔ parse i.toText = .ok i :=
  ⟨parse_toText, validate_of_parse⟩

/-- Valid identifiers with one text are equal. -/
theorem eq_of_toText (hi : i.validate = .ok ()) (hj : j.validate = .ok ())
    (h : i.toText = j.toText) : i = j :=
  Result.eq_of_read (parse_toText hi) (parse_toText hj) h

/-- **Identifiers are told apart by their texts.** What is read from a text is valid, and the valid
identifiers are those that are read from their own text; they are read back from both forms, no two
of them have the same text, and looking one up by its text finds what looking it up by itself does. -/
theorem told_apart_by_text {κ χ : Type} (c : Catalogue κ χ) :
    (∀ text i, parse text = .ok i → i.validate = .ok ()) ∧
    (∀ i : ProfileId, i.validate = .ok () ↔ parse i.toText = .ok i) ∧
    (∀ i : ProfileId, i.validate = .ok () → ofJson i.toJson = .ok i ∧ ofCbor i.toCbor = .ok i) ∧
    (∀ i j : ProfileId, i.validate = .ok () → j.validate = .ok () → i.toText = j.toText → i = j) ∧
    ∀ i : ProfileId, i.validate = .ok () → c.profileOfText? i.toText = c.profile? i :=
  ⟨fun _ _ => validate_of_parse, fun _ => validate_iff_parse,
    fun i h => ⟨ofJson_toJson h, ofCbor_toCbor i⟩, fun _ _ => eq_of_toText,
    fun _ => Catalogue.profileOfText?_toText⟩

/-- Zeros in front of an arc, two dots in a row, and a URI under which a profile is registered. -/
theorem told_apart_by_text_dotted :
    (∃ o, parse "2.016.840" = .ok (.oid o) ∧ (oid o).validate = .ok () ∧
      ofJson (oid o).toJson = .ok (.oid o) ∧ ofCbor (oid o).toCbor = .ok (.oid o)) ∧
    (uri "1..2").validate ≠ .ok () ∧ Tdx.profileId.validate = .ok () ∧
    Catalogue.bundled.profileOfText? "http://intel.com/tdx-profile" =
      Catalogue.bundled.profile? Tdx.profileId := by
  obtain ⟨hread, hown, hforms, -, hfind⟩ := told_apart_by_text Catalogue.bundled
  have hdotted : parse "2.016.840" = .ok (.oid ⟨[0x60, 0x86, 0x48]⟩) := by decide +kernel
  have htdx : Tdx.profileId.validate = .ok () := hread "http://intel.com/tdx-profile" _ rfl
  have hvalid := hread _ _ hdotted
  refine ⟨⟨_, hdotted, hvalid, hforms _ hvalid⟩, ?_, htdx, hfind Tdx.profileId htdx⟩
  rw [ne_eq, hown]
  decide +kernel

end ProfileId

end Rim
