import Rim.Proofs.Cbor.Extent
import Rim.Proofs.Cose.Header

/-!
# Layers of further signatures

A header may carry further signatures, each with headers of its own that may do the same. Whatever is
inside a header is smaller than it, so no header has more layers than octets, and reading an object
with as many layers as it has octets accepts every header that is accepted at all.

* `Header.Accepted`: the values that hold a header, with however many layers.
* `Header.ofValue?_of_extent_le`, `Header.ofOctets?_of_length_le`: layers enough for the size.
* `Sign1.parse?_of_accepted`: what it takes to read an object, without its length.
-/

namespace Rim.Cose

open Cbor (Value Entries)

namespace Header

variable {read read' : Value → Option Header} {f g : Header} {label : Label} {v : Value} {m n : Nat}

/-- A value that holds a header, with however many layers of further signatures. -/
def Accepted (v : Value) : Prop := ∃ layers, (ofValue? layers v).isSome

/-- What one reader accepts of the values up to a size the other one accepts too. -/
def AcceptsWithin (m : Nat) (read read' : Value → Option Header) : Prop :=
  ∀ v, v.extent ≤ m → (read v).isSome → (read' v).isSome

theorem AcceptsWithin.inOctets (hr : AcceptsWithin m read read') {b : Bytes} (hb : b.length ≤ m)
    (h : (inOctets? read b).isSome) : (inOctets? read' b).isSome := by
  unfold inOctets? at h ⊢
  split
  · rfl
  · rename_i hne
    rw [if_neg hne] at h
    obtain ⟨g, hg⟩ := Option.isSome_iff_exists.1 h
    obtain ⟨v, hv, hg⟩ := Option.bind_eq_some_iff.1 hg
    have hsize : v.extent ≤ m := Nat.le_trans (Cbor.extent_le_of_parse? hv) hb
    rw [hv, Option.bind_some]
    exact hr v hsize (Option.isSome_of_eq_some hg)

theorem AcceptsWithin.isSignature (hr : AcceptsWithin m read read') (hv : v.extent ≤ m)
    (h : isSignature read v = true) : isSignature read' v = true := by
  unfold Header.isSignature at h
  split at h
  · rename_i p u s
    obtain ⟨hp, hu⟩ := Bool.and_eq_true_iff.1 h
    -- both headers are parts of the signature
    have hlen : (Value.bytes p).extent < m :=
      Nat.lt_of_lt_of_le (Value.extent_lt_array List.mem_cons_self) hv
    have hsize : u.extent < m :=
      Nat.lt_of_lt_of_le (Value.extent_lt_array (List.mem_cons_of_mem _ List.mem_cons_self)) hv
    rw [Value.extent] at hlen
    show (_ && _) = true
    rw [hr.inOctets (by omega) hp, hr u (by omega) hu]
    rfl
  · cases h

theorem AcceptsWithin.areSignatures (hr : AcceptsWithin m read read') (hv : v.extent ≤ m)
    (h : areSignatures read v = true) : areSignatures read' v = true := by
  unfold Header.areSignatures at h
  split at h
  · exact hr.isSignature hv h
  · rename_i b r
    refine List.all_eq_true.2 ?_
    intro w hw
    have hsize : w.extent < m := Nat.lt_of_lt_of_le (Value.extent_lt_array hw) hv
    exact hr.isSignature (by omega) (List.all_eq_true.1 h w hw)
  · cases h

theorem AcceptsWithin.set (hr : AcceptsWithin m read read') (hv : v.extent ≤ m)
    (h : Header.set read g label v = some f) : Header.set read' g label v = some f := by
  by_cases hl : label = .number 7
  · subst hl
    obtain ⟨hsignatures, hf⟩ := Option.ite_none_right_eq_some.1 h
    exact Option.ite_none_right_eq_some.2 ⟨hr.areSignatures hv hsignatures, hf⟩
  · rw [← set_eq_of_ne hl]
    exact h

theorem AcceptsWithin.setAll (hr : AcceptsWithin m read read') {es : List (Label × Value)}
    (hes : ∀ e ∈ es, e.2.extent ≤ m) (h : setAll read g es = some f) :
    setAll read' g es = some f := by
  induction es generalizing g with
  | nil => exact h
  | cons e r ih =>
    obtain ⟨he, hr'⟩ := List.forall_mem_cons.1 hes
    obtain ⟨g', hg, h⟩ := setAll_cons.1 h
    exact setAll_cons.2 ⟨g', hr.set he hg, ih hr' h⟩

theorem AcceptsWithin.ofEntries (hr : AcceptsWithin m read read') {entries : Entries}
    (hentries : ∀ e ∈ entries, e.2.extent ≤ m) (h : ofEntries? read entries = some f) :
    ofEntries? read' entries = some f := by
  obtain ⟨labels, hl, hd, hs, hi⟩ := ofEntries?_eq_some.1 h
  refine ofEntries?_eq_some.2 ⟨labels, hl, hd, hr.setAll ?_ hs, hi⟩
  intro e he
  obtain ⟨a, ha, heq⟩ := List.mem_map.1 (List.of_mem_zip he).2
  rw [← heq]
  exact hentries a ha

/-- **A header has no more layers than octets.** -/
theorem ofValue?_of_extent_le (h : ofValue? n v = some f) (hv : v.extent ≤ m) :
    ofValue? m v = some f := by
  induction m generalizing n v f with
  | zero => exact absurd v.extent_pos (by omega)
  | succ m ih =>
    obtain ⟨entries, rfl⟩ := map_of_ofValue? h
    have hentries : ∀ e ∈ entries, e.2.extent ≤ m := by
      intro e he
      have := Value.extent_lt_map he
      omega
    -- what is inside is read with one layer less, and that is enough for its size
    have hwithin (k : Nat) : AcceptsWithin m (ofValue? k) (ofValue? m) := by
      intro w hw hk
      obtain ⟨g, hg⟩ := Option.isSome_iff_exists.1 hk
      exact Option.isSome_of_eq_some (ih hg hw)
    cases n with
    | zero => exact AcceptsWithin.ofEntries (fun _ _ hk => by cases hk) hentries h
    | succ k => exact (hwithin k).ofEntries hentries h

theorem ofOctets?_of_length_le {b : Bytes} (h : ofOctets? n b = some f) (hb : b.length ≤ m) :
    ofOctets? m b = some f := by
  unfold ofOctets? inOctets? at h ⊢
  split
  · rename_i he
    rwa [if_pos he] at h
  · rename_i he
    rw [if_neg he] at h
    obtain ⟨v, hv, h⟩ := Option.bind_eq_some_iff.1 h
    rw [hv, Option.bind_some]
    exact ofValue?_of_extent_le h (Nat.le_trans (Cbor.extent_le_of_parse? hv) hb)

end Header

/-- **What it takes to read an object**: its parts, of which both headers are accepted with some number
of layers. -/
theorem Sign1.parse?_of_accepted {b p s : Bytes} {u l : Value} {payload : Option Bytes} {f : Header}
    {layers : Nat} (h : Cbor.parse? envelopes b = some (.tag tag (.array [.bytes p, u, l, .bytes s])))
    (hp : Header.ofOctets? layers p = some f) (hu : Header.Accepted u)
    (hl : payload? l = some payload) : Sign1.parse? b = some ⟨p, f, payload, s⟩ := by
  obtain ⟨n, hu⟩ := hu
  obtain ⟨g, hg⟩ := Option.isSome_iff_exists.1 hu
  -- every part is smaller than the object
  have hsize := Cbor.extent_le_of_parse? h
  have hparts : ∀ w ∈ [Value.bytes p, u, l, .bytes s], w.extent ≤ b.length := by
    intro w hw
    have := Value.extent_lt_array hw
    rw [Value.extent] at hsize
    omega
  have hheader : p.length ≤ b.length := by
    have := hparts (.bytes p) List.mem_cons_self
    rw [Value.extent] at this
    omega
  have hother : u.extent ≤ b.length := hparts u (List.mem_cons_of_mem _ List.mem_cons_self)
  refine Sign1.parse?_eq_some.2 ⟨u, l, h, Header.ofOctets?_of_length_le hp hheader, ?_, hl⟩
  exact Option.isSome_of_eq_some (Header.ofValue?_of_extent_le hg hother)

end Rim.Cose
