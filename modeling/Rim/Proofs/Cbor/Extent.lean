import Mathlib.Algebra.Order.BigOperators.Group.List
import Mathlib.Algebra.Order.Group.Nat
import Rim.Cbor.Parser
import Rim.Proofs.Bytes

/-!
# How much of the input a value takes

Every value takes an octet at least, a byte string also its own octets, and what holds other values
also theirs. So the parts of what was read are smaller than the input, whatever heads it is written
with.

* `Value.extent`: octets that a value takes at least.
* `Reading.Covers`: a reading that takes as many octets as a size of its result says.
* `item_covers`, `extent_le_of_parse?`: the readings of one value and of a whole input.
-/

namespace Rim.Cbor

/-- The sizes of all members together. -/
def total {α : Type} (size : α → Nat) (xs : List α) : Nat := (xs.map size).sum

section

variable {α : Type} {size : α → Nat}

@[simp] theorem total_nil : total size [] = 0 := rfl

@[simp] theorem total_cons (x : α) (xs : List α) : total size (x :: xs) = size x + total size xs := by
  rw [total, List.map_cons, List.sum_cons, total]

theorem le_total {x : α} {xs : List α} (h : x ∈ xs) : size x ≤ total size xs :=
  List.le_sum_of_mem (List.mem_map_of_mem h)

end

namespace Value

mutual

/-- Octets that a value takes at least, whatever it is written like. -/
def extent : Value → Nat
  | bytes b => b.length + 1
  | array items => extentItems items + 1
  | map entries => extentEntries entries + 1
  | tag _ body => extent body + 1
  | _ => 1

/-- The octets that items take at least. -/
def extentItems : List Value → Nat
  | [] => 0
  | v :: r => extent v + extentItems r

/-- The octets that entries take at least. -/
def extentEntries : List (Value × Value) → Nat
  | [] => 0
  | (k, v) :: r => extent k + extent v + extentEntries r

end

theorem extentItems_eq (items : List Value) : extentItems items = total extent items := by
  induction items with
  | nil => rfl
  | cons v r ih => rw [extentItems, ih, total_cons]

theorem extentEntries_eq (entries : Entries) :
    extentEntries entries = total (fun e => e.1.extent + e.2.extent) entries := by
  induction entries with
  | nil => rfl
  | cons e r ih => rw [extentEntries, ih, total_cons]

theorem extent_pos (v : Value) : 0 < v.extent := by
  cases v <;> simp [extent]

/-- An item is smaller than its array. -/
theorem extent_lt_array {v : Value} {items : List Value} (h : v ∈ items) :
    v.extent < (array items).extent := by
  have hle : v.extent ≤ total extent items := le_total h
  rw [extent, extentItems_eq]
  omega

/-- The value of an entry is smaller than the map. -/
theorem extent_lt_map {e : Value × Value} {entries : Entries} (h : e ∈ entries) :
    e.2.extent < (map entries).extent := by
  have hle : e.1.extent + e.2.extent ≤ total (fun e => e.1.extent + e.2.extent) entries :=
    @le_total _ (fun e : Value × Value => e.1.extent + e.2.extent) _ _ h
  rw [extent, extentEntries_eq]
  omega

end Value

/-! ### Readings -/

namespace Reading

variable {α β : Type} {p : Reading α} {q : Reading β} {size : α → Nat} {size' : β → Nat}

/-- What is read takes as many octets as its size at least. -/
def Covers (p : Reading α) (size : α → Nat) : Prop :=
  ∀ r x rest, p r = some (x, rest) → size x + rest.length ≤ r.length

theorem Covers.pair (hp : Covers p size) (hq : Covers q size') :
    Covers (p.pair q) fun x => size x.1 + size' x.2 := by
  intro r x rest h
  obtain ⟨⟨y, r'⟩, hy, h⟩ := Option.bind_eq_some_iff.1 h
  obtain ⟨⟨z, r''⟩, hz, h⟩ := Option.bind_eq_some_iff.1 h
  obtain ⟨rfl, rfl⟩ := Prod.mk.inj (Option.some.inj h)
  have hleft := hp r y r' hy
  have hright := hq r' z r'' hz
  dsimp only
  omega

theorem Covers.times (hp : Covers p size) (n : Nat) : Covers (times p n) (total size) := by
  intro r xs rest h
  induction n generalizing r xs with
  | zero =>
    obtain ⟨rfl, rfl⟩ := Prod.mk.inj (Option.some.inj h)
    rw [total_nil, Nat.zero_add]
  | succ n ih =>
    obtain ⟨⟨x, r'⟩, hx, h⟩ := Option.bind_eq_some_iff.1 h
    obtain ⟨⟨ys, r''⟩, hys, h⟩ := Option.bind_eq_some_iff.1 h
    obtain ⟨rfl, rfl⟩ := Prod.mk.inj (Option.some.inj h)
    have hfirst := hp r x r' hx
    have hrest := ih r' ys hys
    rw [total_cons]
    omega

theorem Covers.untilBreak (hp : Covers p size) (fuel : Nat) :
    Covers (untilBreak p fuel) (total size) := by
  intro r xs rest h
  fun_induction Reading.untilBreak p fuel r generalizing xs with
  | case1 => cases h
  | case2 fuel r =>
    -- the break octet
    obtain ⟨rfl, rfl⟩ := Prod.mk.inj (Option.some.inj h)
    rw [total_nil, List.length_cons]
    omega
  | case3 fuel r _ ih =>
    obtain ⟨⟨x, r'⟩, hx, h⟩ := Option.bind_eq_some_iff.1 h
    obtain ⟨⟨ys, r''⟩, hys, h⟩ := Option.bind_eq_some_iff.1 h
    obtain ⟨rfl, rfl⟩ := Prod.mk.inj (Option.some.inj h)
    have hfirst := hp r x r' hx
    have hrest := ih r' _ hys
    rw [total_cons]
    omega

theorem Covers.repeated (hp : Covers p size) (count : Option Nat) :
    Covers (p.repeated count) (total size) := by
  cases count with
  | some n => exact hp.times n
  | none => exact fun r => hp.untilBreak r.length r

end Reading

/-! ### Strings -/

theorem length_of_splitAt? {n : Nat} {r b rest : Bytes} (h : Bytes.splitAt? n r = some (b, rest)) :
    b.length + rest.length = r.length := by
  obtain ⟨-, rfl⟩ := Bytes.splitAt?_eq_some.1 h
  exact List.length_append.symm

/-- A head takes an octet at least. -/
theorem length_lt_of_initial {r rest : Bytes} {h : Nat × Nat × Option Nat}
    (hi : initial r = some (h, rest)) : rest.length < r.length := by
  cases r with
  | nil => cases hi
  | cons b r =>
    obtain ⟨⟨arg, r'⟩, ha, hi⟩ := Option.bind_eq_some_iff.1 hi
    obtain ⟨-, rfl⟩ := Prod.mk.inj (Option.some.inj hi)
    have hle : r'.length ≤ r.length := by
      unfold argument at ha
      split at ha
      · obtain ⟨-, rfl⟩ := Prod.mk.inj (Option.some.inj ha)
        exact Nat.le_refl _
      · split at ha
        · obtain ⟨⟨digits, r''⟩, hs, ha⟩ := Option.bind_eq_some_iff.1 ha
          obtain ⟨-, rfl⟩ := Prod.mk.inj (Option.some.inj ha)
          have := length_of_splitAt? hs
          omega
        · obtain ⟨-, ha⟩ := Option.ite_none_right_eq_some.1 ha
          obtain ⟨-, rfl⟩ := Prod.mk.inj (Option.some.inj ha)
          exact Nat.le_refl _
    rw [List.length_cons]
    omega

theorem chunks_covers (d : Dialect) (major fuel depth : Nat) :
    Reading.Covers (chunks d major fuel depth) fun bs => bs.flatten.length := by
  intro r bs rest h
  dsimp only
  fun_induction chunks d major fuel depth r generalizing bs with
  | case1 => cases h
  | case2 fuel r =>
    obtain ⟨rfl, rfl⟩ := Prod.mk.inj (Option.some.inj h)
    rw [List.flatten_nil, List.length_nil, List.length_cons]
    omega
  | case3 fuel depth r ih =>
    have hrest := ih _ h
    rw [List.length_cons]
    omega
  | case4 fuel depth r _ _ ih ihOpened =>
    obtain ⟨⟨⟨m, info, n⟩, r'⟩, hi, h⟩ := Option.bind_eq_some_iff.1 h
    have hhead := length_lt_of_initial hi
    cases n with
    | some n =>
      -- a chunk of a definite length
      obtain ⟨-, h⟩ := Option.ite_none_right_eq_some.1 h
      obtain ⟨⟨b, r''⟩, hb, h⟩ := Option.bind_eq_some_iff.1 h
      obtain ⟨⟨cs, r'''⟩, hcs, h⟩ := Option.bind_eq_some_iff.1 h
      obtain ⟨rfl, rfl⟩ := Prod.mk.inj (Option.some.inj h)
      have hchunk := length_of_splitAt? hb
      have hrest := ih r'' _ hcs
      rw [List.flatten_cons, List.length_append]
      omega
    | none =>
      -- a string inside the string is opened
      obtain ⟨-, h⟩ := Option.ite_none_right_eq_some.1 h
      have hrest := ihOpened r' _ h
      omega

theorem content_covers (d : Dialect) (major : Nat) (count : Option Nat) :
    Reading.Covers (content d major count) fun bs => bs.flatten.length := by
  cases count with
  | none => exact fun r => chunks_covers d major r.length 0 r
  | some n =>
    intro r bs rest h
    obtain ⟨⟨b, r'⟩, hb, h⟩ := Option.bind_eq_some_iff.1 h
    obtain ⟨rfl, rfl⟩ := Prod.mk.inj (Option.some.inj h)
    have hlen := length_of_splitAt? hb
    dsimp only
    rw [List.flatten_singleton]
    omega

/-! ### Values -/

theorem extent_of_simple? {number : Nat} {v : Value} (h : simple? number = some v) :
    v.extent = 1 := by
  unfold simple? at h
  split at h
  · exact Option.some.inj h ▸ rfl
  · exact Option.some.inj h ▸ rfl
  · exact Option.some.inj h ▸ rfl
  · exact Option.some.inj h ▸ rfl
  · cases h

theorem extent_of_simpleOrFloat? {d : Dialect} {info arg : Nat} {v : Value}
    (h : simpleOrFloat? d info arg = some v) : v.extent = 1 := by
  unfold simpleOrFloat? at h
  split at h
  · exact extent_of_simple? (Option.ite_none_right_eq_some.1 h).2
  · exact Option.some.inj h ▸ rfl
  · exact Option.some.inj h ▸ rfl
  · exact Option.some.inj h ▸ rfl
  · exact extent_of_simple? h

/-- A value takes as many octets as its extent at least, if its parts do. -/
theorem itemOf_covers {d : Dialect} {inner : Option (Reading Value)}
    (hinner : ∀ p ∈ inner, Reading.Covers p Value.extent) :
    Reading.Covers (itemOf d inner) Value.extent := by
  intro r v rest h
  obtain ⟨head, hi, h⟩ := Option.bind_eq_some_iff.1 h
  -- the head takes the octet that a value has beyond its parts
  have hhead := length_lt_of_initial hi
  split at h
  any_goals dsimp only at hhead
  · -- integers
    obtain ⟨rfl, rfl⟩ := Prod.mk.inj (Option.some.inj h)
    exact Nat.add_comm _ _ ▸ hhead
  · obtain ⟨rfl, rfl⟩ := Prod.mk.inj (Option.some.inj h)
    exact Nat.add_comm _ _ ▸ hhead
  · -- strings
    obtain ⟨⟨bs, r'⟩, hbs, h⟩ := Option.bind_eq_some_iff.1 h
    obtain ⟨rfl, rfl⟩ := Prod.mk.inj (Option.some.inj h)
    have hcontent := content_covers d 2 _ _ _ _ hbs
    dsimp only at hcontent
    rw [Value.extent]
    omega
  · obtain ⟨⟨bs, r'⟩, hbs, h⟩ := Option.bind_eq_some_iff.1 h
    obtain ⟨s, -, h⟩ := Option.bind_eq_some_iff.1 h
    obtain ⟨rfl, rfl⟩ := Prod.mk.inj (Option.some.inj h)
    have hcontent := content_covers d 3 _ _ _ _ hbs
    simp only [Value.extent]
    omega
  · -- arrays and maps
    obtain ⟨p, hp, h⟩ := Option.bind_eq_some_iff.1 h
    obtain ⟨⟨items, r'⟩, hitems, h⟩ := Option.bind_eq_some_iff.1 h
    obtain ⟨rfl, rfl⟩ := Prod.mk.inj (Option.some.inj h)
    have hparts := (hinner p hp).repeated _ _ _ _ hitems
    rw [Value.extent, Value.extentItems_eq]
    omega
  · obtain ⟨p, hp, h⟩ := Option.bind_eq_some_iff.1 h
    obtain ⟨⟨entries, r'⟩, hentries, h⟩ := Option.bind_eq_some_iff.1 h
    obtain ⟨rfl, rfl⟩ := Prod.mk.inj (Option.some.inj h)
    have hparts := ((hinner p hp).pair (hinner p hp)).repeated _ _ _ _ hentries
    rw [Value.extent, Value.extentEntries_eq]
    omega
  · -- tags
    obtain ⟨p, hp, h⟩ := Option.bind_eq_some_iff.1 h
    obtain ⟨⟨body, r'⟩, hbody, h⟩ := Option.bind_eq_some_iff.1 h
    obtain ⟨rfl, rfl⟩ := Prod.mk.inj (Option.some.inj h)
    have hpart := hinner p hp _ _ _ hbody
    rw [Value.extent]
    omega
  · -- simple values and floats
    obtain ⟨w, hw, h⟩ := Option.bind_eq_some_iff.1 h
    obtain ⟨rfl, rfl⟩ := Prod.mk.inj (Option.some.inj h)
    have hone := extent_of_simpleOrFloat? hw
    omega
  · cases h

/-- **A value takes as many octets as its extent**, at every depth. -/
theorem item_covers (d : Dialect) (levels : Nat) : Reading.Covers (item d levels) Value.extent := by
  induction levels with
  | zero => exact itemOf_covers nofun
  | succ levels ih =>
    refine itemOf_covers ?_
    rintro p ⟨⟩
    exact ih

/-- What a whole input is read as is not larger than the input. -/
theorem extent_le_of_parse? {d : Dialect} {b : Bytes} {v : Value} (h : parse? d b = some v) :
    v.extent ≤ b.length := by
  unfold parse? at h
  split at h
  · rename_i w hitem
    obtain rfl := Option.some.inj h
    have hcovers := item_covers d d.levels b w [] hitem
    rwa [List.length_nil, Nat.add_zero] at hcovers
  · cases h

end Rim.Cbor
