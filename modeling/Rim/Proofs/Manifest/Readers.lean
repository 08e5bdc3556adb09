import Rim.Proofs.Cbor.Heads
import Rim.Proofs.Manifest.Cbor

/-!
# The readers of module tags agree

A module tag is read as a document, with the fields of a scope, and as embedded octets. Each reader
sees in its own way to the tag number, which the first two do without, to the body and to the rules,
and each has contexts of its own for what goes wrong. For all that they take the same input for the
same tag, and what one of them refuses the others refuse for the same reason.

* `Result.Alike`: results that differ at most in the contexts of an error.
* `Comid.decodeCbor_alike`, `Comid.decodeJson_alike`: documents, and tags with the fields of the
  core.
* `EmbeddedTag.decodeValid_alike`: embedded octets under the head of a module tag.
* `Comid.readers_agree`: all three.
-/

namespace Rim

open Cbor (Value)

namespace Result

variable {α β : Type} {r r' : Result α}

/-- The same value, or failures of which the innermost error is the same. -/
inductive Alike : Result α → Result α → Prop
  | ok (a : α) : Alike (.ok a) (.ok a)
  | error {e e' : Error} (h : e.root = e'.root) : Alike (.error e) (.error e')

namespace Alike

theorem refl (r : Result α) : Alike r r := by
  cases r with
  | ok a => exact .ok a
  | error e => exact .error rfl

/-- A context makes no difference. -/
theorem context (doing : String) (h : Alike r r') : Alike (r.context doing) r' := by
  cases h with
  | ok a => exact .ok a
  | error h => exact .error h

/-- Steps that are alike one by one are alike together. -/
theorem bind {f f' : α → Result β} (h : Alike r r') (hf : ∀ a, Alike (f a) (f' a)) :
    Alike (r >>= f) (r' >>= f') := by
  cases h with
  | ok a => exact hf a
  | error h => exact .error h

/-- The one gives a value just if the other does. -/
theorem eq_ok (h : Alike r r') {a : α} : r = .ok a ↔ r' = .ok a := by
  cases h with
  | ok b => exact .rfl
  | error h => exact ⟨nofun, nofun⟩

/-- Otherwise both fail, with errors of one kind. -/
theorem kind_eq (h : Alike r r') {e : Error} (he : r = .error e) :
    ∃ e', r' = .error e' ∧ e'.kind = e.kind := by
  cases h with
  | ok a => cases he
  | @error d d' h =>
    obtain rfl := Except.error.inj he
    exact ⟨d', rfl, by rw [← d'.kind_root, ← h, d.kind_root]⟩

end Alike

end Result

open Result (Alike)

namespace Comid

/-- A module tag is read as a document as it is with the fields of the core. -/
theorem decodeCbor_alike (c : Catalogue) (b : Bytes) :
    Alike (Document.decodeCbor c b) (Comid.decodeCbor c.core b) :=
  .bind ((Alike.refl _).context _) fun _ => .refl _

/-- A printed module tag is read as a document as it is with the fields of the core. -/
theorem decodeJson_alike (c : Catalogue) (t : String) :
    Alike (Document.decodeJson c t) (Comid.decodeJson c.core t) := .refl _

end Comid

namespace EmbeddedTag

/-- Reads embedded octets with the fields of a scope, and checks what they hold. -/
def decodeValid (s : Scope) (b : Bytes) : Result EmbeddedTag := do
  let t ← EmbeddedTag.ofCbor s (.bytes b)
  t.validate
  return t

/-- Octets under the head of a module tag are read as a value under that tag, or not at all. -/
theorem tag_of_comidHead {b : Bytes} {v : Value} (hp : comidHead <+: b) (h : Cbor.decode b = .ok v) :
    ∃ body, v = .tag Comid.tag body :=
  Cbor.tag_of_decode (comidHead_eq ▸ hp) h

/-- **Embedded octets under the head of a module tag** are read as the tag that stands alone is. -/
theorem decodeValid_alike (s : Scope) {b : Bytes} (hp : comidHead <+: b) :
    Alike (decodeValid s b) (comid <$> Comid.decodeCbor s b) := by
  have hhead : comidHead.isPrefixOf b = true := List.isPrefixOf_iff_prefix.2 hp
  show Alike (ofOctets s b >>= fun t => t.validate >>= fun _ => pure t) _
  unfold ofOctets Comid.decodeCbor
  rw [if_pos hhead]
  cases hb : Cbor.decode b with
  | error e => exact .error rfl
  | ok v =>
    -- the number in the head is the tag's own, so both readers go on with the body
    obtain ⟨body, rfl⟩ := tag_of_comidHead hp hb
    show Alike ((Comid.ofCbor s body >>= fun d => pure (comid d)) >>= fun t =>
        t.validate >>= fun _ => pure t)
      (comid <$> ((Comid.ofCbor s body).context _ >>= fun d => Document.check d >>= fun _ => pure d))
    cases Comid.ofCbor s body with
    | error e => exact .error rfl
    | ok d =>
      show Alike (d.validate >>= fun _ => pure (comid d))
        (comid <$> (d.validate.context _ >>= fun _ => pure d))
      cases d.validate with
      | error e => exact .error rfl
      | ok _ => exact .ok (comid d)

end EmbeddedTag

/-- **The readers of module tags agree.** Octets and texts are read as a document as they are with
the fields of the core, and octets under the head of a module tag are read, and then checked, as
embedded in a manifest as they are standing alone, whatever the fields. They give the same tag, or
fail with the same innermost error. -/
theorem Comid.readers_agree (c : Catalogue) (s : Scope) :
    (∀ b, Alike (Document.decodeCbor c b) (Comid.decodeCbor c.core b)) ∧
    (∀ t, Alike (Document.decodeJson c t) (Comid.decodeJson c.core t)) ∧
    ∀ b, EmbeddedTag.comidHead <+: b →
      Alike (EmbeddedTag.decodeValid s b) (EmbeddedTag.comid <$> Comid.decodeCbor s b) :=
  ⟨decodeCbor_alike c, decodeJson_alike c, fun _ => EmbeddedTag.decodeValid_alike s⟩

/-- The octets of a module tag are read as that tag as a document, with the fields of the core and
as embedded, and the bare head of one is refused in all three ways as malformed. -/
theorem Comid.readers_agree_plain :
    EmbeddedTag.comidHead <+: (Value.tag Comid.tag Comid.plain.toCbor).encode ∧
      Document.decodeCbor Catalogue.bundled (Value.tag Comid.tag Comid.plain.toCbor).encode =
        .ok Comid.plain ∧
      (EmbeddedTag.comid <$> Comid.decodeCbor Catalogue.bundled.core
        (Value.tag Comid.tag Comid.plain.toCbor).encode) = .ok (.comid .plain) ∧
      ∃ e, (EmbeddedTag.comid <$> Comid.decodeCbor Catalogue.bundled.core EmbeddedTag.comidHead) =
        .error e ∧ e.kind = .malformed := by
  obtain ⟨hdocument, -, hembedded⟩ := readers_agree Catalogue.bundled Catalogue.bundled.core
  have hp : EmbeddedTag.comidHead <+: (Value.tag Comid.tag Comid.plain.toCbor).encode := by
    decide +kernel
  refine ⟨hp, (hdocument _).eq_ok.2 rfl, (hembedded _ hp).eq_ok.1 rfl, ?_⟩
  exact (hembedded _ (List.prefix_refl _)).kind_eq rfl

end Rim
