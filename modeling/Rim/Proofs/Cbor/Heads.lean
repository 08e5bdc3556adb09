import Rim.Proofs.Cbor.Ordered
import Rim.Proofs.Cbor.Reading

/-!
# The forms of a head

The number in the head of an item may stand in the initial octet, if it is small, or in one, two, four
or eight octets after it. Every form is read; the shortest one is written.

* `forms`: the forms of a head.
* `initial_forms`: what is read as a head is one of its forms.
* `decode_tag_forms`: an item under a tag starts with one of the forms of that tag's head.
* `tag_of_decode`: an item that starts with the shortest of them is a value under that tag.
-/

namespace Rim.Cbor

/-- The forms of a head, shortest first. -/
def forms (major n : Nat) : List Bytes :=
  (if n < 24 then [[UInt8.ofNat (major * 32 + n)]] else []) ++
    ((List.range 4).filter fun i => n < 256 ^ 2 ^ i).map fun i =>
      UInt8.ofNat (major * 32 + (24 + i)) :: Bytes.ofNatBE (2 ^ i) n

theorem mem_forms {major n : Nat} {h : Bytes} : h ∈ forms major n ↔
    (n < 24 ∧ h = [UInt8.ofNat (major * 32 + n)]) ∨
      ∃ i < 4, n < 256 ^ 2 ^ i ∧
        h = UInt8.ofNat (major * 32 + (24 + i)) :: Bytes.ofNatBE (2 ^ i) n := by
  unfold forms
  rw [List.mem_append, List.mem_map]
  refine or_congr ?_ (exists_congr fun i => ?_)
  · split <;> simp_all
  · rw [List.mem_filter, List.mem_range, decide_eq_true_eq, and_assoc, eq_comm (b := h)]

theorem lt_of_mem_forms {major n : Nat} {h : Bytes} (hm : h ∈ forms major n) : n < 2 ^ 64 := by
  rcases mem_forms.1 hm with ⟨hn, -⟩ | ⟨i, hi, hn, -⟩
  · omega
  · have hle : (256 : Nat) ^ 2 ^ i ≤ 256 ^ 2 ^ 3 :=
      Nat.pow_le_pow_right (by omega) (Nat.pow_le_pow_right (by omega) (by omega))
    omega

/-- **What is read as a head is one of its forms.** -/
theorem initial_forms {b rest : Bytes} {major info n : Nat}
    (h : initial b = some ((major, info, some n), rest)) : ∃ f ∈ forms major n, b = f ++ rest := by
  cases b with
  | nil => cases h
  | cons x r =>
    obtain ⟨⟨arg, r'⟩, ha, h⟩ := Option.bind_eq_some_iff.1 h
    obtain ⟨hhead, rfl⟩ := Prod.mk.inj (Option.some.inj h)
    obtain ⟨hmajor, hhead⟩ := Prod.mk.inj hhead
    obtain ⟨-, rfl⟩ := Prod.mk.inj hhead
    subst hmajor
    have hx : UInt8.ofNat (x.toNat / 32 * 32 + x.toNat % 32) = x := by
      rw [Nat.div_add_mod', UInt8.ofNat_toNat]
    unfold argument at ha
    split at ha
    · -- the number stands in the initial octet
      obtain ⟨hn, rfl⟩ := Prod.mk.inj (Option.some.inj ha)
      obtain rfl := Option.some.inj hn
      exact ⟨[x], mem_forms.2 (.inl ⟨‹_›, by rw [hx]⟩), rfl⟩
    · split at ha
      · -- it is written by the octets after it
        obtain ⟨⟨digits, r''⟩, hs, ha⟩ := Option.bind_eq_some_iff.1 ha
        obtain ⟨hn, rfl⟩ := Prod.mk.inj (Option.some.inj ha)
        obtain rfl := Option.some.inj hn
        obtain ⟨hlen, rfl⟩ := Bytes.splitAt?_eq_some.1 hs
        have hinfo : 24 + (x.toNat % 32 - 24) = x.toNat % 32 := by omega
        refine ⟨x :: digits, mem_forms.2 (.inr ⟨x.toNat % 32 - 24, by omega, ?_, ?_⟩), rfl⟩
        · rw [← hlen]
          exact digits.toNatBE_lt
        · rw [hinfo, hx, ← hlen, Bytes.ofNatBE_toNatBE]
      · split at ha
        · cases ha
        · cases ha

theorem simple?_ne_tag {number : Nat} {n : UInt64} {body : Value} :
    simple? number ≠ some (.tag n body) := by
  unfold simple?
  split <;> nofun

theorem simpleOrFloat?_ne_tag {d : Dialect} {info arg : Nat} {n : UInt64} {body : Value} :
    simpleOrFloat? d info arg ≠ some (.tag n body) := by
  unfold simpleOrFloat?
  split
  · split
    · exact simple?_ne_tag
    · nofun
  · nofun
  · nofun
  · nofun
  · exact simple?_ne_tag

/-- The head before what is read as a value under a tag is one of that tag. -/
theorem itemOf_tag_forms {d : Dialect} {inner : Option (Reading Value)} {b rest : Bytes}
    {n : UInt64} {body : Value} (h : itemOf d inner b = some (.tag n body, rest)) :
    ∃ f ∈ forms 6 n.toNat, f <+: b := by
  obtain ⟨head, hi, h⟩ := Option.bind_eq_some_iff.1 h
  -- only a head of the tags' major type comes before a value under a tag
  split at h
  case h_7 info k r =>
    obtain ⟨p, -, h⟩ := Option.bind_eq_some_iff.1 h
    obtain ⟨x, -, h⟩ := Option.bind_eq_some_iff.1 h
    obtain ⟨htag, -⟩ := Prod.mk.inj (Option.some.inj h)
    obtain ⟨rfl, -⟩ := Value.tag.inj htag
    obtain ⟨f, hf, rfl⟩ := initial_forms hi
    rw [UInt64.toNat_ofNat_of_lt' (lt_of_mem_forms hf)]
    exact ⟨f, hf, List.prefix_append _ _⟩
  case h_8 info k r =>
    obtain ⟨v, hv, h⟩ := Option.bind_eq_some_iff.1 h
    obtain ⟨rfl, -⟩ := Prod.mk.inj (Option.some.inj h)
    exact absurd hv simpleOrFloat?_ne_tag
  all_goals simp [Option.bind_eq_some_iff] at h

/-- **An item under a tag starts with one of the forms of that tag's head.** -/
theorem decode_tag_forms {b : Bytes} {n : UInt64} {body : Value} (h : decode b = .ok (.tag n body)) :
    ∃ f ∈ forms 6 n.toNat, f <+: b := by
  obtain ⟨v, hv, htag⟩ := Option.map_eq_some_iff.1 (decode_eq_ok.1 h)
  unfold parse? at hv
  split at hv
  · rename_i w hitem
    obtain rfl := Option.some.inj hv
    obtain ⟨inner, he⟩ := item_eq documents documents.levels
    rw [he] at hitem
    -- a value under a tag is one before its maps are put in order
    cases w with
    | tag m v =>
      rw [Value.normal] at htag
      obtain ⟨rfl, -⟩ := Value.tag.inj htag
      exact itemOf_tag_forms hitem
    | _ => simp [Value.normal] at htag
  · cases hv

/-- **An item after the shortest head of a tag** is a value under that tag. -/
theorem tag_of_decode {b : Bytes} {n : UInt64} {v : Value} (hp : head 6 n.toNat <+: b)
    (h : decode b = .ok v) : ∃ body, v = .tag n body := by
  obtain ⟨w, hw, rfl⟩ := Option.map_eq_some_iff.1 (decode_eq_ok.1 h)
  unfold parse? at hw
  split at hw
  · rename_i u hitem
    obtain rfl := Option.some.inj hw
    obtain ⟨inner, he⟩ := item_eq documents documents.levels
    obtain ⟨rest, rfl⟩ := hp
    obtain ⟨info, hi⟩ := initial_head 6 (by decide) n.toNat_lt rest
    rw [he, itemOf, hi] at hitem
    obtain ⟨_, hhead, hitem⟩ := Option.bind_eq_some_iff.1 hitem
    obtain rfl := Option.some.inj hhead
    obtain ⟨p, -, hitem⟩ := Option.bind_eq_some_iff.1 hitem
    obtain ⟨x, -, hitem⟩ := Option.bind_eq_some_iff.1 hitem
    obtain ⟨rfl, -⟩ := Prod.mk.inj (Option.some.inj hitem)
    exact ⟨x.1.normal, by rw [Value.normal, UInt64.ofNat_toNat]⟩
  · cases hw

end Rim.Cbor
