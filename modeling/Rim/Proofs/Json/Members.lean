import Rim.Json.Members
import Rim.Proofs.Json.Reading
import Rim.Proofs.Result
import Rim.Proofs.Text.Octets
import Rim.Proofs.Unread
import Mathlib.Data.List.Nodup

/-!
# Reading objects that were written

An object is written as a list of members. It is canonical if its members' values are, and it is read
back by steps that take each of its members and no other.

* `Value.readObject_ofMemberList`: reading undoes writing, member by member.
* `LeftOf`, `LeftOf.requireWith`: what is taken of a written object was read of a member's value.
* `Value.Canonical.ofMemberList`: what is written is canonical.
* `Value.toBytes_ofBytes`, `Value.untyped_typed`: octets and typed values.
-/

namespace Rim.Json

open Std Keyed Unread

variable {α : Type} {levels : Nat} {fields : List (String × Option Value)}

/-- Members are distinct if their names are. -/
theorem distinct_iff {ν : Type} {members : List (String × ν)} :
    Distinct members ↔ (members.map Prod.fst).Nodup := by
  unfold Distinct List.Nodup
  rw [List.pairwise_map]
  exact List.Pairwise.iff fun a b => not_congr LawfulEqOrd.compare_eq_iff_eq

/-- **An object is read back** by steps that take each of its members. -/
theorem Value.readObject_ofMemberList {what : String} {body : Taking α} {a : α}
    (names : List String) (hn : fields.map Prod.fst = names) (hd : names.Nodup)
    (h : Reads body fields a []) : (Value.ofMemberList fields).readObject what body = .ok a :=
  h.readAll (distinct_iff.2 (hn ▸ hd))

/-! ### What is taken of an object that was written -/

/-- What is left of an object that was written. -/
def LeftOf (fields : List (String × Option Value)) (u : Remaining) : Prop :=
  ∀ e ∈ u.entries, (e.1, some e.2) ∈ fields

/-- What is read of a whole written object is taken from its members. -/
theorem LeftOf.start {what : String} {body : Taking α} {a : α} (names : List String)
    (hn : fields.map Prod.fst = names) (hd : names.Nodup)
    (h : (Value.ofMemberList fields).readObject what body = .ok a) :
    ∃ u rest, LeftOf fields u ∧ body u = .ok (a, rest) := by
  obtain ⟨u, hu, h⟩ := Result.bind_eq_ok.1 h
  obtain ⟨rest, hbody, -⟩ := readAll_eq_ok.1 h
  obtain rfl := Except.ok.inj hu
  refine ⟨_, rest, ?_, hbody⟩
  have hdistinct : Distinct fields := distinct_iff.2 (hn ▸ hd)
  intro e he
  exact mem_present.1 ((ofList_perm hdistinct.present).mem_iff.1 he)

section

variable {u u' : Remaining} {name : String} {read : Value → Result α} {a : α}

theorem LeftOf.dropping (h : LeftOf fields u) : LeftOf fields (u.dropping name) := by
  intro e he
  exact h e ((without_sublist _ _).mem he)

theorem LeftOf.mem_of_get? (h : LeftOf fields u) {v : Value} (hg : get? name u.entries = some v) :
    (name, some v) ∈ fields := by
  obtain ⟨k, hk, hmem⟩ := Keyed.mem_of_get? hg
  obtain rfl := LawfulEqOrd.compare_eq_iff_eq.1 hk
  exact h _ hmem

/-- A member that is taken, if it is there, was read of its value. -/
theorem LeftOf.takeWith {o : Option α} (h : LeftOf fields u)
    (ht : Remaining.takeWith name read u = .ok (o, u')) :
    LeftOf fields u' ∧ ∀ a ∈ o, ∃ v, (name, some v) ∈ fields ∧ read v = .ok a := by
  obtain ⟨rfl, ⟨rfl, -⟩ | ⟨v, a, rfl, hg, ha⟩⟩ := takeWith_eq_ok ht
  · exact ⟨h.dropping, nofun⟩
  · refine ⟨h.dropping, ?_⟩
    rintro b ⟨⟩
    exact ⟨v, h.mem_of_get? hg, ha⟩

/-- A member that has to be there was read of its value. -/
theorem LeftOf.requireWith (h : LeftOf fields u)
    (ht : Remaining.requireWith name read u = .ok (a, u')) :
    LeftOf fields u' ∧ ∃ v, (name, some v) ∈ fields ∧ read v = .ok a := by
  obtain ⟨rfl, v, hg, ha⟩ := requireWith_eq_ok ht
  exact ⟨h.dropping, v, h.mem_of_get? hg, ha⟩

end

/-! ### What is written is canonical -/

namespace Value.Canonical

theorem ofUInt64 (n : UInt64) : (Value.ofUInt64 n).Canonical levels := by
  have hn := n.toNat_lt
  exact .integer (by omega)

theorem ofInt64 (n : Int64) : (Value.ofInt64 n).Canonical levels := by
  have hle := n.le_toInt
  have hlt := n.toInt_lt
  exact .integer (by omega)

theorem ofBytes (b : Bytes) : (Value.ofBytes b).Canonical levels := .string _

theorem array_map {write : α → Value} (h : ∀ a, (write a).Canonical levels) (xs : List α) :
    (Value.array (xs.map write)).Canonical (levels + 1) := by
  refine .array ?_
  intro v hv
  obtain ⟨x, -, rfl⟩ := List.mem_map.1 hv
  exact h x

end Value.Canonical

/-- Members whose values are canonical. -/
abbrev CanonicalMembers (levels : Nat) (fields : List (String × Option Value)) : Prop :=
  Holding (Value.Canonical levels) fields

namespace Value.Canonical

theorem members (h : CanonicalMembers levels fields) :
    ∀ m ∈ Members.ofList fields, True ∧ m.2.Canonical levels :=
  ofList_forall (p := fun _ => True) fun e he => ⟨trivial, Holding.present h e he⟩

/-- An object of canonical values is canonical. -/
theorem ofMemberList (h : CanonicalMembers levels fields) :
    (Value.ofMemberList fields).Canonical (levels + 1) :=
  .object (ofList_sorted _) fun m hm => (members h m hm).2

end Value.Canonical

/-! ### Parts of values -/

namespace Value

variable (what : String)

theorem toUInt64_ofUInt64 (n : UInt64) : (ofUInt64 n).toUInt64 what = .ok n := by
  have hn := n.toNat_lt
  unfold toUInt64 ofUInt64
  dsimp only
  rw [if_pos (by omega), Int.toNat_natCast, UInt64.ofNat_toNat]

theorem toInt64_ofInt64 (n : Int64) : (ofInt64 n).toInt64 what = .ok n := by
  unfold toInt64 ofInt64
  dsimp only
  rw [if_pos ⟨n.le_toInt, n.toInt_lt⟩, Int64.ofInt_toInt]

theorem octetsOf_eq_ok {s : String} {b : Bytes} :
    octetsOf what s = .ok b ↔ s.toList = Text.Base64.encode b := by
  rw [← Text.Base64.decode?_eq_some, octetsOf]
  cases Text.Base64.decode? s.toList with
  | none => exact ⟨nofun, nofun⟩
  | some c => rw [Except.ok.injEq, Option.some_inj]

theorem octetsOf_encode (b : Bytes) :
    octetsOf what (String.ofList (Text.Base64.encode b)) = .ok b :=
  (octetsOf_eq_ok what).2 String.toList_ofList

theorem toBytes_ofBytes (b : Bytes) : (ofBytes b).toBytes what = .ok b := octetsOf_encode what b

/-- A typed value is an object of its type and what stands beside it. -/
theorem typed_eq (type : String) (v : Value) :
    typed type v = ofMemberList [("type", some (string type)), ("value", some v)] := by
  have hlt : compare "type" "value" = .lt := by decide
  have hs : Sorted [("type", string type), ("value", v)] := List.pairwise_pair.2 hlt
  show object [("type", string type), ("value", v)] = object (ofList _)
  rw [← ofList_of_sorted hs]
  rfl

/-- **A typed value is taken apart** into its type and what stands beside it. -/
theorem untyped_typed (type : String) (v : Value) : (typed type v).untyped = .ok (type, v) := by
  rw [typed_eq]
  refine readObject_ofMemberList ["type", "value"] rfl (by decide) ?_
  refine .bind (.requireWith rfl) ?_
  exact .bind (.require _ _ _ _) (.pure _ _)

theorem Canonical.typed {type : String} {v : Value} (h : v.Canonical levels) :
    (Value.typed type v).Canonical (levels + 1) := by
  rw [typed_eq]
  exact .ofMemberList (Holding.some (.string type) (.some h .nil))

end Value

end Rim.Json
