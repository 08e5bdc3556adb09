import Rim.Proofs.Cbor.Equality
import Rim.Proofs.Choice.Cbor

/-!
# Equality of type choices

Values are compared by the names of their kinds and by their bodies, and written under the tags of
their kinds. A registry that holds two kinds tells them apart by either key, and the reading of a kind
tells its values apart by their bodies; so the comparison, the written form and the value itself say
the same, as far as the lengths in a body can be written. Numbers, octet strings and texts of any
length are told apart in any case, and so are values with masks of their length.

* `Registry.eq_of_name`, `Registry.eq_of_tag`: what tells kinds apart.
* `Choice.toCbor_inj`: what is written determines the value.
* `Choice.beq_iff_eq`, `Choice.beq_iff_eq_of_leaf`, `Choice.beq_iff_eq_of_masked`: so does the
  comparison.
-/

namespace Rim

/-! ### Kinds -/

namespace Registry

variable {κ χ : Type} [DecidableEq κ] [KindFamily κ χ] {r : Registry κ χ} {k l : κ}

/-- **Kinds that are held have names of their own.** -/
theorem eq_of_name (h : r.Consistent) (hk : r.holds k) (hl : r.holds l)
    (hn : KindFamily.name k = KindFamily.name l) : k = l := by
  obtain ⟨d, -, hd, hownk⟩ := (holds_iff h).1 hk
  obtain ⟨e, -, he, hownl⟩ := (holds_iff h).1 hl
  rw [hn, he] at hd
  obtain rfl := Option.some.inj hd
  exact Option.some.inj (hownk.symm.trans hownl)

/-- **Kinds that are held have tags of their own.** -/
theorem eq_of_tag (h : r.Consistent) (hk : r.holds k) (hl : r.holds l)
    (ht : KindFamily.tag k = KindFamily.tag l) : k = l := by
  obtain ⟨d, hd, -, hownk⟩ := (holds_iff h).1 hk
  obtain ⟨e, he, -, hownl⟩ := (holds_iff h).1 hl
  rw [ht, he] at hd
  obtain rfl := Option.some.inj hd
  exact Option.some.inj (hownk.symm.trans hownl)

end Registry

namespace Kind

/-- With the bundled profiles all kinds are held. -/
theorem held (k : Kind) : Catalogue.bundled.registry.holds k := by
  cases k <;> decide +kernel

theorem eq_of_name {k l : Kind} (h : k.name = l.name) : k = l :=
  Registry.eq_of_name (Catalogue.consistent_of_reachable Catalogue.bundled_reachable).registry k.held
    l.held h

theorem eq_of_tag {k l : Kind} (h : k.tag = l.tag) : k = l :=
  Registry.eq_of_tag (Catalogue.consistent_of_reachable Catalogue.bundled_reachable).registry k.held
    l.held h

end Kind

/-! ### Values -/

namespace Choice

open Cbor

variable {a b : Choice}

/-- A value is determined by its kind and its body, since it is read from these. -/
theorem eq_of_body (hk : a.kind = b.kind) (hb : a.body = b.body) : a = b := by
  have hread := a.ofCbor_body
  rw [hk] at hread
  exact Result.eq_of_read hread b.ofCbor_body hb

/-- **What is written determines the value.** -/
theorem toCbor_inj : a.toCbor = b.toCbor ↔ a = b := by
  refine ⟨fun h => ?_, congrArg toCbor⟩
  obtain ⟨htag, hbody⟩ := Value.tag.inj h
  exact eq_of_body (Kind.eq_of_tag htag) hbody

/-- Values are compared by their kinds and their bodies. -/
theorem beq_iff : (a == b) = true ↔ a.kind = b.kind ∧ Ord.compare a.body b.body = .eq := by
  show (a.kind.name == b.kind.name && a.body.compare b.body == .eq) = true ↔ _
  rw [Bool.and_eq_true_iff, beq_iff_eq, beq_iff_eq]
  exact and_congr_left fun _ => ⟨Kind.eq_of_name, congrArg Kind.name⟩

/-- **Values are equal if they compare so**, as long as this can be said of their bodies. -/
theorem beq_iff_eq_of_body
    (h : a.kind = b.kind → Ord.compare a.body b.body = .eq → a.body = b.body) :
    (a == b) = true ↔ a = b := by
  rw [beq_iff]
  constructor
  · rintro ⟨hk, hb⟩
    exact eq_of_body hk (h hk hb)
  · rintro rfl
    exact ⟨rfl, Std.ReflCmp.compare_self⟩

/-- It can be said of bodies whose written form is of a length that can be written. -/
theorem beq_iff_eq (hsize : a.body.encode.length < 2 ^ 64) : (a == b) = true ↔ a = b := by
  have hcanonical (x : Choice) : x.body.Canonical documents.levels :=
    x.canonical_body.mono (by decide)
  exact beq_iff_eq_of_body fun _ => Value.eq_of_compare (hcanonical a) (hcanonical b) hsize

/-- It can be said of numbers, octet strings and texts. -/
theorem beq_iff_eq_of_leaf (ha : a.body.major < 4) : (a == b) = true ↔ a = b :=
  beq_iff_eq_of_body fun _ => Value.eq_of_compare_leaf ha

/-- It can be said of values with masks of their length. -/
theorem beq_iff_eq_of_masked {x : MaskedValue} (hx : x.value.length = x.mask.length)
    (hb : ∀ y, b = masked y → y.value.length = y.mask.length) :
    (masked x == b) = true ↔ masked x = b := by
  refine beq_iff_eq_of_body fun hk h => ?_
  cases b with
  | masked y =>
    obtain ⟨hvalue, hmask⟩ := Value.eq_of_compare_pair hx (hb y rfl) h
    show Value.array [.bytes x.value, .bytes x.mask] = .array [.bytes y.value, .bytes y.mask]
    rw [hvalue, hmask]
  | _ => cases hk

end Choice

end Rim
