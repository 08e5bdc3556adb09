import Rim.Cbor.Access
import Rim.Proofs.Bytes
import Rim.Proofs.Cbor.Order

/-!
# Reading what was written

A value is canonical if its maps are in key order, it holds no float and it has a bounded depth.
Every dialect reads the written form of a canonical value back, whatever follows it.

* `Value.Canonical`: the values that are read back.
* `item_encode`: reading undoes writing, up to the same levels.
* `decode_encode`, `parse?_encode`: the whole input.
-/

namespace Rim.Cbor

open Keyed

/-- Values of at most so many levels that hold no float and whose maps are in key order. -/
inductive Value.Canonical : Nat → Value → Prop
  | natural {levels : Nat} (n : UInt64) : Canonical levels (natural n)
  | negative {levels : Nat} (n : UInt64) : Canonical levels (negative n)
  | bytes {levels : Nat} (b : Bytes) : Canonical levels (bytes b)
  | text {levels : Nat} (s : String) : Canonical levels (text s)
  | bool {levels : Nat} (b : Bool) : Canonical levels (bool b)
  | null {levels : Nat} : Canonical levels null
  | array {levels : Nat} {items : List Value} (h : ∀ v ∈ items, Canonical levels v) :
      Canonical (levels + 1) (array items)
  | map {levels : Nat} {entries : Entries} (ordered : Sorted entries)
      (keys : ∀ e ∈ entries, Canonical levels e.1)
      (values : ∀ e ∈ entries, Canonical levels e.2) : Canonical (levels + 1) (map entries)
  | tag {levels : Nat} (number : UInt64) {body : Value} (h : Canonical levels body) :
      Canonical (levels + 1) (tag number body)

namespace Value

/-- More levels do no harm. -/
theorem Canonical.mono {m n : Nat} {v : Value} (h : v.Canonical m) (hn : m ≤ n) :
    v.Canonical n := by
  induction h generalizing n with
  | natural k => exact .natural k
  | negative k => exact .negative k
  | bytes b => exact .bytes b
  | text s => exact .text s
  | bool b => exact .bool b
  | null => exact .null
  | array _ ih =>
    obtain ⟨n, rfl⟩ := Nat.exists_eq_add_of_lt hn
    exact .array fun v hv => ih v hv (by omega)
  | map ho _ _ ihk ihv =>
    obtain ⟨n, rfl⟩ := Nat.exists_eq_add_of_lt hn
    exact .map ho (fun e he => ihk e he (by omega)) fun e he => ihv e he (by omega)
  | tag t _ ih =>
    obtain ⟨n, rfl⟩ := Nat.exists_eq_add_of_lt hn
    exact .tag t (ih (by omega))

theorem normalItems_of_forall {items : List Value} (h : ∀ v ∈ items, v.normal = v) :
    normalItems items = items := by
  induction items with
  | nil => rfl
  | cons v r ih =>
    rw [normalItems, h v List.mem_cons_self, ih fun w hw => h w (List.mem_cons_of_mem _ hw)]

theorem normalEntries_of_forall {entries : Entries} (hk : ∀ e ∈ entries, e.1.normal = e.1)
    (hv : ∀ e ∈ entries, e.2.normal = e.2) : normalEntries entries = entries := by
  induction entries with
  | nil => rfl
  | cons e r ih =>
    rw [normalEntries, hk e List.mem_cons_self, hv e List.mem_cons_self,
      ih (fun a ha => hk a (List.mem_cons_of_mem _ ha)) fun a ha => hv a (List.mem_cons_of_mem _ ha)]

/-- The maps of a canonical value are in key order already. -/
theorem Canonical.normal_eq {levels : Nat} {v : Value} (h : v.Canonical levels) : v.normal = v := by
  induction h with
  | natural | negative | bytes | text | bool | null => rw [normal] <;> simp
  | array _ ih => rw [normal, normalItems_of_forall ih]
  | map ho _ _ ihk ihv =>
    rw [normal, normalEntries_of_forall ihk ihv, ofEntries, ofList_of_sorted ho]
  | tag _ _ ih => rw [normal, ih]

end Value

/-! ### Heads -/

theorem initial_wide {major i n : Nat} (hm : major < 8) (hi : i < 4) (hn : n < 256 ^ 2 ^ i)
    (rest : Bytes) :
    initial (UInt8.ofNat (major * 32 + (24 + i)) :: Bytes.ofNatBE (2 ^ i) n ++ rest) =
      some ((major, 24 + i, some n), rest) := by
  have hx : (UInt8.ofNat (major * 32 + (24 + i))).toNat = major * 32 + (24 + i) :=
    UInt8.toNat_ofNat_of_lt' (by simp only [UInt8.size]; omega)
  have harg : argument (24 + i) (Bytes.ofNatBE (2 ^ i) n ++ rest) = some (some n, rest) := by
    unfold argument
    rw [if_neg (by omega), if_pos (by omega), Nat.add_sub_cancel_left]
    have hs := Bytes.splitAt?_append (Bytes.ofNatBE (2 ^ i) n) rest
    rw [Bytes.ofNatBE_length] at hs
    rw [hs]
    show some (some (Bytes.toNatBE _), rest) = _
    rw [Bytes.toNatBE_ofNatBE, Nat.mod_eq_of_lt hn]
  have hmod : (major * 32 + (24 + i)) % 32 = 24 + i := by omega
  have hdiv : (major * 32 + (24 + i)) / 32 = major := by omega
  rw [List.cons_append, initial, hx, hmod, hdiv, harg]
  rfl

/-- **A head is read back**, whatever follows it. -/
theorem initial_head (major : Nat) {n : Nat} (hm : major < 8) (hn : n < 2 ^ 64) (rest : Bytes) :
    ∃ info, initial (head major n ++ rest) = some ((major, info, some n), rest) := by
  unfold head
  split
  · -- the number stands in the initial octet itself
    have hx : (UInt8.ofNat (major * 32 + n)).toNat = major * 32 + n :=
      UInt8.toNat_ofNat_of_lt' (by simp only [UInt8.size]; omega)
    have hmod : (major * 32 + n) % 32 = n := by omega
    have hdiv : (major * 32 + n) / 32 = major := by omega
    refine ⟨n, ?_⟩
    rw [List.cons_append, initial, hx, hmod, hdiv, argument, if_pos (by omega)]
    rfl
  · -- it follows in one, two, four or eight octets
    split
    · exact ⟨24, initial_wide (i := 0) hm (by omega) (by omega) rest⟩
    · split
      · exact ⟨25, initial_wide (i := 1) hm (by omega) (by omega) rest⟩
      · split
        · exact ⟨26, initial_wide (i := 2) hm (by omega) (by omega) rest⟩
        · exact ⟨27, initial_wide (i := 3) hm (by omega) (by omega) rest⟩

theorem head_length_pos (major n : Nat) : 0 < (head major n).length := by
  unfold head
  split_ifs <;> simp

theorem encodeFloat_length_pos (bits : UInt64) : 0 < (encodeFloat bits).length := by
  unfold encodeFloat
  split
  · decide
  · exact Nat.succ_pos _
  · split
    · exact Nat.succ_pos _
    · split
      · exact Nat.succ_pos _
      · exact Nat.succ_pos _

/-! ### Parts -/

theorem times_encodeItems {p : Reading Value} {items : List Value}
    (h : ∀ v ∈ items, ∀ rest, p (v.encode ++ rest) = some (v, rest)) (rest : Bytes) :
    Reading.times p items.length (Value.encodeItems items ++ rest) = some (items, rest) := by
  induction items with
  | nil => rfl
  | cons v r ih =>
    have hv := h v List.mem_cons_self (Value.encodeItems r ++ rest)
    have hr := ih fun w hw => h w (List.mem_cons_of_mem _ hw)
    rw [Value.encodeItems, List.append_assoc, List.length_cons, Reading.times, hv]
    simp only [Option.bind_eq_bind, Option.bind_some]
    rw [hr]
    rfl

theorem times_encodeEntries {p : Reading Value} {entries : Entries}
    (hk : ∀ e ∈ entries, ∀ rest, p (e.1.encode ++ rest) = some (e.1, rest))
    (hv : ∀ e ∈ entries, ∀ rest, p (e.2.encode ++ rest) = some (e.2, rest)) (rest : Bytes) :
    Reading.times (p.pair p) entries.length (Value.encodeEntries entries ++ rest) =
      some (entries, rest) := by
  induction entries with
  | nil => rfl
  | cons e r ih =>
    obtain ⟨k, v⟩ := e
    have hpair : p.pair p (k.encode ++ (v.encode ++ (Value.encodeEntries r ++ rest))) =
        some ((k, v), Value.encodeEntries r ++ rest) := by
      unfold Reading.pair
      rw [hk (k, v) List.mem_cons_self]
      simp only [Option.bind_eq_bind, Option.bind_some]
      rw [hv (k, v) List.mem_cons_self]
      rfl
    have hr := ih (fun a ha => hk a (List.mem_cons_of_mem _ ha))
      fun a ha => hv a (List.mem_cons_of_mem _ ha)
    rw [Value.encodeEntries, List.append_assoc, List.append_assoc, List.length_cons,
      Reading.times, hpair]
    simp only [Option.bind_eq_bind, Option.bind_some]
    rw [hr]
    rfl

theorem content_append (d : Dialect) (major : Nat) (b rest : Bytes) :
    content d major (some b.length) (b ++ rest) = some ([b], rest) := by
  rw [content, Bytes.splitAt?_append]
  rfl

theorem textOfChunks_singleton (d : Dialect) (s : String) :
    textOfChunks d [Bytes.ofText s] = some s := by
  unfold textOfChunks
  rw [if_neg (by simp [Bytes.toText?_ofText])]
  rw [List.flatten_singleton, Bytes.toText?_ofText]

namespace Value

theorem encode_length_pos (v : Value) : 0 < v.encode.length := by
  have hb (major n : Nat) (b : Bytes) : 0 < (head major n ++ b).length := by
    rw [List.length_append]
    exact Nat.add_pos_left (head_length_pos major n) _
  unfold encode
  split
  · exact head_length_pos _ _
  · exact head_length_pos _ _
  · exact hb _ _ _
  · exact hb _ _ _
  · exact hb _ _ _
  · exact hb _ _ _
  · exact hb _ _ _
  · exact encodeFloat_length_pos _
  · decide
  · decide
  · decide

theorem length_le_encodeItems (items : List Value) : items.length ≤ (encodeItems items).length := by
  induction items with
  | nil => exact Nat.le_refl _
  | cons v r ih =>
    have := v.encode_length_pos
    rw [encodeItems, List.length_append, List.length_cons]
    omega

theorem length_le_encodeEntries (entries : Entries) :
    entries.length ≤ (encodeEntries entries).length := by
  induction entries with
  | nil => exact Nat.le_refl _
  | cons e r ih =>
    have := e.1.encode_length_pos
    rw [encodeEntries, List.length_append, List.length_append, List.length_cons]
    omega

theorem encode_le_encodeItems {v : Value} {items : List Value} (h : v ∈ items) :
    v.encode.length ≤ (encodeItems items).length := by
  induction items with
  | nil => cases h
  | cons w r ih =>
    rw [encodeItems, List.length_append]
    rcases List.mem_cons.1 h with rfl | h
    · omega
    · exact Nat.le_trans (ih h) (Nat.le_add_left _ _)

theorem encode_le_encodeEntries {e : Value × Value} {entries : Entries} (h : e ∈ entries) :
    e.1.encode.length + e.2.encode.length ≤ (encodeEntries entries).length := by
  induction entries with
  | nil => cases h
  | cons a r ih =>
    rw [encodeEntries, List.length_append, List.length_append]
    rcases List.mem_cons.1 h with rfl | h
    · omega
    · exact Nat.le_trans (ih h) (Nat.le_add_left _ _)

end Value

/-! ### Items -/

/-- A reader of some levels is a reader of the parts of one more level. -/
theorem item_eq (d : Dialect) (levels : Nat) : ∃ inner, item d levels = itemOf d inner := by
  cases levels with
  | zero => exact ⟨none, rfl⟩
  | succ n => exact ⟨some (item d n), rfl⟩

/-- **Every dialect reads a canonical value back**, whatever follows it. -/
theorem item_encode (d : Dialect) {levels : Nat} {v : Value} (h : v.Canonical levels)
    (hsize : v.encode.length < 2 ^ 64) (rest : Bytes) :
    item d levels (v.encode ++ rest) = some (v, rest) := by
  induction h generalizing rest with
  | @natural levels n =>
    obtain ⟨inner, he⟩ := item_eq d levels
    obtain ⟨info, hi⟩ := initial_head 0 (by omega) n.toNat_lt rest
    rw [he, itemOf, Value.encode, hi]
    show some (Value.natural (UInt64.ofNat n.toNat), rest) = _
    rw [UInt64.ofNat_toNat]
  | @negative levels n =>
    obtain ⟨inner, he⟩ := item_eq d levels
    obtain ⟨info, hi⟩ := initial_head 1 (by omega) n.toNat_lt rest
    rw [he, itemOf, Value.encode, hi]
    show some (Value.negative (UInt64.ofNat n.toNat), rest) = _
    rw [UInt64.ofNat_toNat]
  | @bytes levels b =>
    obtain ⟨inner, he⟩ := item_eq d levels
    rw [Value.encode, List.length_append] at hsize
    obtain ⟨info, hi⟩ := initial_head 2 (n := b.length) (by omega) (by omega) (b ++ rest)
    rw [he, itemOf, Value.encode, List.append_assoc, hi]
    simp only [Option.bind_eq_bind, Option.bind_some]
    rw [content_append]
    show some (Value.bytes [b].flatten, rest) = _
    rw [List.flatten_singleton]
  | @text levels s =>
    obtain ⟨inner, he⟩ := item_eq d levels
    rw [Value.encode, List.length_append, Bytes.ofText_length] at hsize
    obtain ⟨info, hi⟩ := initial_head 3 (n := s.utf8ByteSize) (by omega) (by omega)
      (Bytes.ofText s ++ rest)
    rw [he, itemOf, Value.encode, List.append_assoc, hi]
    simp only [Option.bind_eq_bind, Option.bind_some]
    rw [← Bytes.ofText_length, content_append]
    simp only [Option.bind_some]
    rw [textOfChunks_singleton]
    rfl
  | @bool levels b =>
    obtain ⟨inner, he⟩ := item_eq d levels
    rw [he]
    cases b <;> rfl
  | @null levels =>
    obtain ⟨inner, he⟩ := item_eq d levels
    rw [he]
    rfl
  | @array levels items _ ih =>
    rw [Value.encode, List.length_append] at hsize
    -- every item takes an octet at least, so the number of items has a head
    have hlen := Value.length_le_encodeItems items
    have hitems := times_encodeItems (p := item d levels) (fun v hv rest =>
      ih v hv (by have := Value.encode_le_encodeItems hv; omega) rest) rest
    obtain ⟨info, hi⟩ := initial_head 4 (n := items.length) (by omega) (by omega)
      (Value.encodeItems items ++ rest)
    rw [item, itemOf, Value.encode, List.append_assoc, hi]
    simp only [Option.bind_eq_bind, Option.bind_some]
    rw [Reading.repeated, hitems]
    rfl
  | @map levels entries _ _ _ ihk ihv =>
    rw [Value.encode, List.length_append] at hsize
    have hlen := Value.length_le_encodeEntries entries
    have hentries := times_encodeEntries (p := item d levels)
      (fun e he rest => ihk e he (by have := Value.encode_le_encodeEntries he; omega) rest)
      (fun e he rest => ihv e he (by have := Value.encode_le_encodeEntries he; omega) rest) rest
    obtain ⟨info, hi⟩ := initial_head 5 (n := entries.length) (by omega) (by omega)
      (Value.encodeEntries entries ++ rest)
    rw [item, itemOf, Value.encode, List.append_assoc, hi]
    simp only [Option.bind_eq_bind, Option.bind_some]
    rw [Reading.repeated, hentries]
    rfl
  | @tag levels number body _ ih =>
    rw [Value.encode, List.length_append] at hsize
    obtain ⟨info, hi⟩ := initial_head 6 (by omega) number.toNat_lt (body.encode ++ rest)
    rw [item, itemOf, Value.encode, List.append_assoc, hi]
    simp only [Option.bind_eq_bind, Option.bind_some]
    rw [ih (by omega), UInt64.ofNat_toNat]
    rfl

/-! ### Whole inputs -/

/-- Reading a whole input undoes writing, entries as they were. -/
theorem parse?_encode {d : Dialect} {v : Value} (h : v.Canonical d.levels)
    (hsize : v.encode.length < 2 ^ 64) : parse? d v.encode = some v := by
  have hi := item_encode d h hsize []
  rw [List.append_nil] at hi
  rw [parse?, hi]

/-- **Reading a document undoes writing it.** -/
theorem decode_encode {v : Value} (h : v.Canonical documents.levels)
    (hsize : v.encode.length < 2 ^ 64) : decode v.encode = .ok v := by
  rw [decode, decode?, parse?_encode h hsize, Option.map_some, h.normal_eq]

end Rim.Cbor
