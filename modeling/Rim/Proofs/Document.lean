import Rim.Document
import Rim.Proofs.Cbor.Reading
import Rim.Proofs.Json.Reading
import Rim.Proofs.Result

/-!
# Documents that are written and read

A document that is valid is written, and its written form is read back as soon as the reading of the
values undoes the writing; the binary form is read with and without its tag.

* `Document.encodeCbor_eq_ok`: what is written, and when.
* `Document.decodeCbor_eq_ok`: what it takes to read a document.
* `Document.decodeCbor_of_ofCbor`, `Document.decodeJson_of_ofJson`: reading what was written.
-/

namespace Rim.Document

open Cbor

variable {δ : Type} [Document δ] {c : Catalogue} {d : δ}

theorem check_eq_ok : check d = .ok () ↔ validate d = .ok () := Result.context_eq_ok

/-- A document is written if and only if it is valid. -/
theorem encodeCbor_eq_ok {b : Bytes} :
    encodeCbor d = .ok b ↔ validate d = .ok () ∧ (tagged d).encode = b := by
  unfold encodeCbor
  rw [Result.check_eq_ok, check_eq_ok, Result.pure_eq_ok]

/-- A map loses no tag, having none. -/
theorem untagged_map (entries : Entries) : untagged δ (.map entries) = .ok (.map entries) := by
  unfold untagged
  cases tag δ <;> rfl

/-- The document's tag is taken off. -/
theorem untagged_tagged {entries : Entries} (h : toCbor d = .map entries) :
    untagged δ (tagged d) = .ok (toCbor d) := by
  unfold untagged tagged
  cases tag δ with
  | none => rw [h]
  | some t => exact if_pos rfl

/-- **What it takes to read a document**: one value, its own tag or none, and its rules. -/
theorem decodeCbor_eq_ok {b : Bytes} : decodeCbor c b = .ok d ↔
    ∃ v w, decode b = .ok v ∧ untagged δ v = .ok w ∧ ofCbor c w = .ok d ∧ validate d = .ok () := by
  unfold decodeCbor
  constructor
  · intro h
    obtain ⟨v, hb, h⟩ := Result.bind_eq_ok.1 h
    obtain ⟨w, hu, h⟩ := Result.bind_eq_ok.1 h
    obtain ⟨e, he, h⟩ := Result.bind_eq_ok.1 h
    obtain ⟨hc, h⟩ := Result.check_eq_ok.1 h
    obtain rfl := Result.pure_eq_ok.1 h
    exact ⟨v, w, Result.context_eq_ok.1 hb, hu, Result.context_eq_ok.1 he, check_eq_ok.1 hc⟩
  · rintro ⟨v, w, hb, hu, he, hc⟩
    refine Result.bind_eq_ok.2 ⟨v, Result.context_eq_ok.2 hb, Result.bind_eq_ok.2 ⟨w, hu, ?_⟩⟩
    refine Result.bind_eq_ok.2 ⟨d, Result.context_eq_ok.2 he, ?_⟩
    exact Result.check_eq_ok.2 ⟨check_eq_ok.2 hc, rfl⟩

/-- What is read is valid. -/
theorem validate_of_decodeCbor {b : Bytes} (h : decodeCbor c b = .ok d) : validate d = .ok () := by
  obtain ⟨_, _, -, -, -, hd⟩ := decodeCbor_eq_ok.1 h
  exact hd

/-- A value is read as a document if, without its tag, it is one that is valid. -/
theorem decodeCbor_of_ofCbor {v w : Value} (hv : validate d = .ok ())
    (hc : v.Canonical documents.levels) (hsize : v.encode.length < 2 ^ 64)
    (hu : untagged δ v = .ok w) (h : ofCbor c w = .ok d) : decodeCbor c v.encode = .ok d :=
  decodeCbor_eq_ok.2 ⟨v, w, decode_encode hc hsize, hu, h, hv⟩

/-- What is read of a document's own form is read of the form without its tag. -/
theorem ofCbor_of_decodeCbor {e : δ} {entries : Entries} (hm : toCbor d = .map entries)
    (hc : (tagged d).Canonical documents.levels) (hsize : (tagged d).encode.length < 2 ^ 64)
    (h : decodeCbor c (tagged d).encode = .ok e) : ofCbor c (toCbor d) = .ok e := by
  obtain ⟨v, w, hb, hu, he, -⟩ := decodeCbor_eq_ok.1 h
  rw [decode_encode hc hsize] at hb
  obtain rfl := Except.ok.inj hb
  rw [untagged_tagged hm] at hu
  obtain rfl := Except.ok.inj hu
  exact he

variable {c' : Catalogue}

/-- Two catalogues read a document in one way if they do so with its value. -/
theorem decodeCbor_congr {b : Bytes} (h : ∀ v w, decode b = .ok v → untagged δ v = .ok w →
    (ofCbor c' w : Result δ) = ofCbor c w) : (decodeCbor c' b : Result δ) = decodeCbor c b := by
  unfold decodeCbor
  cases hb : decode b with
  | error e => rfl
  | ok v =>
    show (untagged δ v >>= _) = (untagged δ v >>= _)
    cases hu : untagged δ v with
    | error e => rfl
    | ok w =>
      show ((ofCbor c' w : Result δ).context _ >>= _) = ((ofCbor c w : Result δ).context _ >>= _)
      rw [h v w hb hu]

/-! ### The text format -/

/-- A document is printed if and only if it is valid. -/
theorem encodeJson_eq_ok {s : String} :
    encodeJson d = .ok s ↔ validate d = .ok () ∧ (toJson d).render = s := by
  unfold encodeJson
  rw [Result.check_eq_ok, check_eq_ok, Result.pure_eq_ok]

/-- A printed value is read as a document if it is one that is valid. -/
theorem decodeJson_of_ofJson {v : Json.Value} (hv : validate d = .ok ())
    (hc : v.Canonical Json.maxLevels) (h : ofJson c v = .ok d) : decodeJson c v.render = .ok d := by
  refine Result.bind_eq_ok.2 ⟨v, Json.decode_render hc, ?_⟩
  refine Result.bind_eq_ok.2 ⟨d, Result.context_eq_ok.2 h, ?_⟩
  exact Result.check_eq_ok.2 ⟨check_eq_ok.2 hv, rfl⟩

/-- What is read of a printed value is read of that value. -/
theorem ofJson_of_decodeJson {v : Json.Value} (hc : v.Canonical Json.maxLevels)
    (h : decodeJson c v.render = .ok d) : ofJson c v = .ok d := by
  obtain ⟨w, hw, h⟩ := Result.bind_eq_ok.1 h
  rw [Json.decode_render hc] at hw
  obtain rfl := Except.ok.inj hw
  obtain ⟨e, he, h⟩ := Result.bind_eq_ok.1 h
  obtain ⟨-, h⟩ := Result.check_eq_ok.1 h
  obtain rfl := Except.ok.inj h
  exact Result.context_eq_ok.1 he

theorem decodeJson_congr {s : String} (h : ∀ v, Json.decode s = .ok v →
    (ofJson c' v : Result δ) = ofJson c v) : (decodeJson c' s : Result δ) = decodeJson c s := by
  unfold decodeJson
  cases hs : Json.decode s with
  | error e => rfl
  | ok v =>
    show ((ofJson c' v : Result δ).context _ >>= _) = ((ofJson c v : Result δ).context _ >>= _)
    rw [h v hs]

end Rim.Document
