import Rim.Proofs.Cbor.Order
import Rim.Proofs.Staged
import Rim.Proofs.Unread

/-!
# Maps written and read call by call

A map is written by calls that set its keys, one or several at a time, and read by calls that each ask
for an integer key. Whatever the calls are, of each key the last value set stands in the map that is
written; and of a map that is read each call takes the entry of its key, so that an entry is found once
and the others stay. What is left at the end are the entries that no call could ask for or none did.

* `Entries.Change`: the calls that write, and `written_eq`: all that they set, in key order.
* `written_holds`: what the map that is written holds, and `written_perm`: the order of the calls.
* `Fields.Request`: the calls that read, `Request.run_eq`: what a single one does.
* `left_leaves`, `run_left`: what calls leave of a map, and what the next one answers.
* `finish_left`, `finish_left_error`: whether nothing is left, and what is refused otherwise.
* `written_and_read_exactly`: both sides.
-/

namespace Rim

open Std Keyed

/-- What the last entry of a key sets it to, where entries are set one after the other. -/
def Keyed.lastValue {κ ν : Type} [Ord κ] (key : κ) (entries : List (κ × ν)) : Option ν :=
  Staged.last (fun e => if compare e.1 key = .eq then some e.2 else none) entries

/-- **Of equal keys the last one's value stands.** -/
theorem Keyed.get?_ofList_eq_lastValue {κ ν : Type} [Ord κ] [TransOrd κ] (key : κ)
    (entries : List (κ × ν)) : get? key (ofList entries) = lastValue key entries := by
  show get? key (Staged.made (fun e sorted => insert e.1 e.2 sorted) [] entries) = Staged.last _ entries
  refine Staged.made_last_of_none (get? key) _ rfl ?_ entries
  intro e sorted
  rw [get?_insert]
  split <;> rfl

namespace Cbor

/-! ### Maps that are written -/

namespace Entries

/-- A call that sets keys of a map that is being written. -/
inductive Change
  | set (key : Int64) (value : Value)
  | setOptional (key : Int64) (value : Option Value)
  | setAll (entries : Entries)

namespace Change

/-- The map after a call; an absent value changes nothing. -/
def apply : Change → Entries → Entries
  | set key value, es => es.set key value
  | setOptional key (some value), es => es.set key value
  | setOptional _ none, es => es
  | setAll others, es => es.merge others

/-- The entries that a call sets. -/
def entries : Change → Entries
  | set key value => [(.ofInt64 key, value)]
  | setOptional key value => present [(.ofInt64 key, value)]
  | setAll others => others

/-- The value that a call sets a key to, if it sets it. -/
def value? (key : Value) (c : Change) : Option Value := lastValue key c.entries

theorem apply_eq (c : Change) (es : Entries) : c.apply es = es.merge c.entries := by
  cases c with
  | set | setAll => rfl
  | setOptional key value => cases value <;> rfl

end Change

/-- The map that calls write, from the first to the last one. -/
def written (changes : List Change) : Entries := Staged.made Change.apply [] changes

/-- The map holds what the last calls set: it is in key order, its keys are among those that were set,
and each has the value of the last call that set it. -/
structure Holds (changes : List Change) (es : Entries) : Prop where
  ordered : Sorted es
  keys : ∀ e ∈ es, ∃ c ∈ changes, ∃ v, (e.1, v) ∈ c.entries
  values : ∀ key, get? key es = Staged.last (Change.value? key) changes

variable {changes others : List Change}

/-- **What is written** is all that the calls set, in key order. -/
theorem written_eq (changes : List Change) :
    written changes = ofList (changes.flatMap Change.entries) := by
  unfold written
  induction changes using List.reverseRecOn with
  | nil => rfl
  | append_singleton changes c ih =>
    rw [Staged.made_concat, ih, Change.apply_eq, List.flatMap_append, List.flatMap_singleton]
    exact (List.foldl_append ..).symm

theorem written_holds (changes : List Change) : Holds changes (written changes) := by
  rw [written_eq]
  refine ⟨ofList_sorted _, fun e he => ?_, fun key => ?_⟩
  · obtain ⟨v, hv⟩ := exists_of_mem_ofList he
    obtain ⟨c, hc, hmem⟩ := List.mem_flatMap.1 hv
    exact ⟨c, hc, v, hmem⟩
  · rw [get?_ofList_eq_lastValue]
    exact Staged.last_flatMap changes

/-- **The order of the calls does not matter** if no two of the keys set are equal. -/
theorem written_perm (hd : Distinct (changes.flatMap Change.entries)) (hp : others.Perm changes) :
    written others = written changes := by
  rw [written_eq, written_eq]
  exact (ofList_eq_of_perm hd (hp.symm.flatMap_right _)).symm

/-- Fields are written by a call for each of them. -/
theorem ofFields_eq_written (fields : List (Int64 × Option Value)) :
    ofFields fields = written (fields.map fun f => .setOptional f.1 f.2) := by
  rw [written_eq, ofFields, Keyed.ofFields, List.flatMap_map]
  congr 1
  induction fields with
  | nil => rfl
  | cons f r ih =>
    rw [List.map_cons, List.flatMap_cons, ← ih]
    exact present_append [_] _

end Entries

/-! ### Maps that are read -/

namespace Value

/-- Only the item of a number stands for it. -/
theorem compare_ofInt64_eq {v : Value} {n : Int64} :
    Ord.compare v (ofInt64 n) = .eq ↔ v.toInt? = some n.toInt := by
  constructor
  · intro h
    rw [eq_of_compare_ofInt64 h, toInt?_ofInt64]
  · intro h
    rw [eq_ofInt64 h]
    exact ReflCmp.compare_self

end Value

namespace Fields

/-- A call that asks a map that is being read for an integer key. -/
inductive Request
  | take (key : Int64)
  | require (key : Int64) (field : String)

namespace Request

/-- The key that a call asks for. -/
def key : Request → Int64
  | take key => key
  | require key _ => key

/-- What a call answers, and what it leaves of the map. One that fails has found nothing to take. -/
def run : Request → Fields → Result (Option Value) × Fields
  | take key, u =>
    match Fields.take key u with
    | .ok (o, rest) => (.ok o, rest)
    | .error e => (.error e, u)
  | require key field, u =>
    match Fields.require key field u with
    | .ok (v, rest) => (.ok (some v), rest)
    | .error e => (.error e, u)

/-- The answer to what was found in a map: a key that has to be there and is not is missed. -/
def answer (what : String) : Request → Option Value → Result (Option Value)
  | require _ field, none => .error (.missingField (what ++ " " ++ field))
  | _, o => .ok o

end Request

/-- The map after calls, from the first to the last one. -/
def left (u : Fields) (requests : List Request) : Fields :=
  Staged.made (fun r u => (r.run u).2) u requests

/-- A key is an integer that one of the calls asks for. -/
def Asked (requests : List Request) (key : Value) : Prop :=
  ∃ r ∈ requests, key.toInt? = some r.key.toInt

/-- What calls leave of a map: its entries, in their order, but for those that were asked for. -/
structure Leaves (u : Fields) (requests : List Request) (rest : Fields) : Prop where
  what : rest.what = u.what
  entries : rest.entries.Sublist u.entries
  mem : ∀ e, e ∈ rest.entries ↔ e ∈ u.entries ∧ ¬Asked requests e.1

variable {u rest : Fields} {requests : List Request} {r : Request} {n : Int64} {v : Value}

theorem get?_eq_some (hd : Distinct u.entries) :
    get? (.ofInt64 n) u.entries = some v ↔ (.ofInt64 n, v) ∈ u.entries := by
  refine ⟨fun h => ?_, get?_of_mem hd⟩
  obtain ⟨k, hk, hmem⟩ := mem_of_get? h
  rwa [Value.eq_of_compare_ofInt64 hk] at hmem

/-- **A single call** answers what is found under its key, and takes the entry away. -/
theorem Request.run_eq (r : Request) (u : Fields) : r.run u =
    (r.answer u.what (get? (.ofInt64 r.key) u.entries), u.dropping (.ofInt64 r.key)) := by
  cases r with
  | take key => rfl
  | require key field =>
    rcases take_cases (Value.ofInt64 key) u.entries with ⟨hg, hw⟩ | ⟨k, v, -, hg, -⟩
    · -- the call fails, and there was nothing to take
      have hsame : u.dropping (.ofInt64 key) = u := by rw [Unread.dropping, hw]
      simp only [run, Request.key, hg, answer, Fields.require, Unread.require_of_none hg, hsame]
    · simp only [run, Request.key, hg, answer, Fields.require, Unread.require_of_some hg]

/-- One more call leaves the entries that it does not ask for. -/
theorem Leaves.concat (h : Leaves u requests rest) (hd : Distinct u.entries) (r : Request) :
    Leaves u (requests ++ [r]) (r.run rest).2 := by
  rw [Request.run_eq]
  refine ⟨h.what, (without_sublist _ _).trans h.entries, fun e => ?_⟩
  have hasked : Asked (requests ++ [r]) e.1 ↔ Asked requests e.1 ∨ e.1.toInt? = some r.key.toInt := by
    simp only [Asked, List.mem_append, List.mem_singleton, or_and_right, exists_or, exists_eq_left]
  show e ∈ without _ rest.entries ↔ _
  rw [mem_without (hd.sublist h.entries), h.mem, hasked, not_or, ne_eq,
    Value.compare_ofInt64_eq, and_assoc]

/-- **What calls leave** are the entries that none of them asks for. -/
theorem left_leaves (hd : Distinct u.entries) (requests : List Request) :
    Leaves u requests (u.left requests) := by
  unfold left
  induction requests using List.reverseRecOn with
  | nil => exact ⟨rfl, .refl _, fun e => (and_iff_left fun ⟨_, hr, _⟩ => List.not_mem_nil hr).symm⟩
  | append_singleton requests r ih =>
    rw [Staged.made_concat]
    exact ih.concat hd r

theorem asked_ofInt64 : Asked requests (.ofInt64 n) ↔ n ∈ requests.map Request.key := by
  rw [Asked, Value.toInt?_ofInt64, List.mem_map]
  refine exists_congr fun r => and_congr_right fun _ => ?_
  rw [Option.some_inj, Int64.toInt_inj, eq_comm]

/-- A key is found if the map has it and no call has asked for it. -/
theorem Leaves.get? (h : Leaves u requests rest) (hd : Distinct u.entries) (n : Int64) :
    get? (.ofInt64 n) rest.entries =
      if n ∈ requests.map Request.key then none else get? (.ofInt64 n) u.entries := by
  refine Option.ext fun v => ?_
  rw [get?_eq_some (hd.sublist h.entries), h.mem, asked_ofInt64]
  split
  · rename_i hn
    exact iff_of_false (fun hv => hv.2 hn) nofun
  · rename_i hn
    rw [get?_eq_some hd, and_iff_left hn]

/-- **The next call** answers what the map has under its key, the first time, and then nothing. -/
theorem run_left (hd : Distinct u.entries) (requests : List Request) (r : Request) :
    (r.run (u.left requests)).1 = r.answer u.what
      (if r.key ∈ requests.map Request.key then none else get? (.ofInt64 r.key) u.entries) := by
  have h := left_leaves hd requests
  rw [Request.run_eq, h.what, h.get? hd]

theorem finish_eq_ok : (∃ x, finish u = .ok x) ↔ u.entries = [] := by
  unfold finish Unread.finish
  cases u.entries with
  | nil => exact iff_of_true ⟨_, rfl⟩ rfl
  | cons e r => exact iff_of_false nofun nofun

theorem finish_eq_error {e : Error} (h : finish u = .error e) : ∃ k v r,
    u.entries = (k, v) :: r ∧ e = .malformed u.what ("unexpected key " ++ k.describeKey) := by
  unfold finish Unread.finish at h
  split at h
  · cases h
  · rename_i k v r hu
    refine ⟨k, v, r, hu, ?_⟩
    rw [← Except.error.inj h, unexpected, ← String.append_assoc]
    rfl

/-- **Nothing is left** if every key of the map is an integer that was asked for. -/
theorem finish_left (hd : Distinct u.entries) (requests : List Request) :
    (∃ x, finish (u.left requests) = .ok x) ↔ ∀ e ∈ u.entries, Asked requests e.1 := by
  have h := left_leaves hd requests
  rw [finish_eq_ok, List.eq_nil_iff_forall_not_mem]
  refine forall_congr' fun e => ?_
  rw [h.mem, not_and, not_not]

/-- **What is refused** is the first entry, in key order, that was not asked for. -/
theorem finish_left_error (hs : Sorted u.entries) {e : Error}
    (he : finish (u.left requests) = .error e) : ∃ k v, (k, v) ∈ u.entries ∧ ¬Asked requests k ∧
      (∀ d ∈ u.entries, ¬Asked requests d.1 → d = (k, v) ∨ compare k d.1 = .lt) ∧
      e = .malformed u.what ("unexpected key " ++ k.describeKey) := by
  have h := left_leaves hs.distinct requests
  obtain ⟨k, v, r, hleft, he⟩ := finish_eq_error he
  have hmem (d : Value × Value) : d ∈ (k, v) :: r ↔ d ∈ u.entries ∧ ¬Asked requests d.1 := by
    rw [← hleft, h.mem]
  obtain ⟨hk, hasked⟩ := (hmem _).1 List.mem_cons_self
  have hsorted : Sorted ((k, v) :: r) := hleft ▸ hs.sublist h.entries
  refine ⟨k, v, hk, hasked, fun d hd hnot => ?_, h.what ▸ he⟩
  refine (List.mem_cons.1 ((hmem d).2 ⟨hd, hnot⟩)).imp_right fun hr => ?_
  exact (List.pairwise_cons.1 hsorted).1 d hr

end Fields

/-! ### Both sides -/

open Entries Fields

/-- **Maps are written and read exactly.** Whatever calls write a map, it has each key with the value of
the last call that set it, and no other; if no two of the keys are equal, the order of the calls makes no
difference to what is written of it. Whatever calls have read of a map in key order, the next one answers
what the map has under its key the first time that it is asked for, and then nothing, and all other
entries stay. No entry is left just if every key is an integer that was asked for; otherwise the least
key that is left is refused. -/
theorem written_and_read_exactly :
    (∀ changes : List Change, Holds changes (written changes) ∧
      (Distinct (changes.flatMap Change.entries) → ∀ others : List Change, others.Perm changes →
        (Value.map (written others)).encode = (Value.map (written changes)).encode)) ∧
    (∀ fields, Entries.ofFields fields = written (fields.map fun f => .setOptional f.1 f.2)) ∧
    ∀ (u : Fields) (requests : List Request), Sorted u.entries →
      Leaves u requests (u.left requests) ∧
      (∀ r : Request, (r.run (u.left requests)).1 = r.answer u.what
        (if r.key ∈ requests.map Request.key then none else get? (.ofInt64 r.key) u.entries)) ∧
      ((∃ x, finish (u.left requests) = .ok x) ↔ ∀ e ∈ u.entries, Asked requests e.1) ∧
      ∀ e, finish (u.left requests) = .error e →
        ∃ k v, (k, v) ∈ u.entries ∧ ¬Asked requests k ∧
          (∀ d ∈ u.entries, ¬Asked requests d.1 → d = (k, v) ∨ compare k d.1 = .lt) ∧
          e = .malformed u.what ("unexpected key " ++ k.describeKey) := by
  refine ⟨fun changes => ⟨written_holds changes, fun hd others hp => ?_⟩, ofFields_eq_written,
    fun u requests hs => ⟨left_leaves hs.distinct requests, run_left hs.distinct requests,
      finish_left hs.distinct requests, fun e he => finish_left_error hs he⟩⟩
  rw [written_perm hd hp]

/-- Calls in either order, and a map with an integer that no call can ask for. -/
theorem written_and_read_exactly_sample :
    let changes : List Change := [.set 4 (.natural 1), .setOptional 9 none,
      .setAll [(.natural 0, .natural 2), (.text "x", .null)], .setOptional (-1) (some (.natural 3))]
    let u : Fields := ⟨"thing", [(.natural 0, .natural 1), (.natural 9, .natural 2),
      (.natural 0x8000000000000000, .null), (.text "x", .null)]⟩
    let requests : List Request := [.take 0, .require 5 "digest", .take 9]
    Distinct (changes.flatMap Change.entries) ∧
      (Value.map (written changes.reverse)).encode = (Value.map (written changes)).encode ∧
      Sorted u.entries ∧
      ((Request.require 9 "size").run (u.left requests)).1 = .error (.missingField "thing size") ∧
      finish (u.left requests) = .error (.malformed "thing" "unexpected key 9223372036854775808") ∧
      ∃ k v, (k, v) ∈ u.entries ∧ ¬Asked requests k ∧
        ∀ d ∈ u.entries, ¬Asked requests d.1 → d = (k, v) ∨ compare k d.1 = .lt := by
  intro changes u requests
  obtain ⟨hwritten, -, hread⟩ := written_and_read_exactly
  have hd : Distinct (changes.flatMap Change.entries) := by
    unfold Distinct
    decide
  have hs : Sorted u.entries := by
    unfold Sorted
    decide
  have hrefused : finish (u.left requests) =
      .error (.malformed "thing" "unexpected key 9223372036854775808") := rfl
  obtain ⟨-, hnext, -, herror⟩ := hread u requests hs
  obtain ⟨k, v, hk, hasked, hleast, -⟩ := herror _ hrefused
  exact ⟨hd, (hwritten changes).2 hd _ changes.reverse_perm, hs, hnext (.require 9 "size"), hrefused,
    k, v, hk, hasked, hleast⟩

end Cbor

end Rim
