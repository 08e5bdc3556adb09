import Rim.Proofs.Cbor.Fields
import Rim.Proofs.Cbor.Ordered

/-!
# Readings that lose nothing

A reading restores a value if writing what was read gives the value back, up to a rewriting that looks
at nothing but the place where a part of the value stands. A map is restored field by field: each step
accounts for the entry that it takes, and no entry may be left.

* `Value.rewrite`, `Value.mapItems`: rewrite the values under some keys of a map, or the items of an
  array.
* `Restores`: writing what was read gives back what it was read from, rewritten.
* `Lossless`: the same without any rewriting.
* `Accounts`: what a sequence of steps takes of a map, rewritten, are the fields of what it gives.
* `Accounts.readMap`: from the steps to the map.
-/

namespace Rim.Cbor

open Keyed Unread

variable {α β : Type}

/-! ### Rewriting by place -/

/-- What becomes of the values under some keys; one of which nothing becomes is left out. -/
abbrev Rules := List (Int64 × (Value → Option Value))

/-- What becomes of a value under a key; without a rule it stays as it is. -/
def Rules.apply (rules : Rules) (key : Value) : Value → Option Value :=
  match rules.find? fun r => key.toInt? == some r.1.toInt with
  | some r => r.2
  | none => some

/-- Each value rewritten by the rule of its key. -/
def Entries.rewrite (rules : Rules) (entries : Entries) : Entries :=
  entries.filterMap fun e => (rules.apply e.1 e.2).map (e.1, ·)

namespace Value

/-- A map with its values rewritten. -/
def rewrite (rules : Rules) : Value → Value
  | map entries => map (Entries.rewrite rules entries)
  | v => v

/-- An array with its items rewritten. -/
def mapItems (f : Value → Value) : Value → Value
  | array items => array (items.map f)
  | v => v

/-- An array of two with the second item rewritten. -/
def mapSecond (f : Value → Value) : Value → Value
  | array [a, b] => array [a, f b]
  | v => v

/-- An array with its items rewritten, and nothing of an empty one. -/
def itemsIfAny (f : Value → Value) : Value → Option Value
  | array [] => none
  | v => some (mapItems f v)

/-- An array as it is, and nothing of an empty one. -/
abbrev ifAny : Value → Option Value := itemsIfAny id

theorem mapItems_id : mapItems id = id := by
  funext v
  cases v with
  | array items => exact congrArg array (List.map_id items)
  | _ => rfl

theorem mapSecond_id : mapSecond id = id := by
  funext v
  unfold mapSecond
  split <;> rfl

theorem rewrite_nil : rewrite [] = id := by
  funext v
  cases v with
  | map entries => exact congrArg map List.filterMap_some
  | _ => rfl

end Value

/-- A value under a key without a rule stays as it is. -/
theorem Rules.apply_of_forall_ne {rules : Rules} {key : Int64} (h : ∀ r ∈ rules, key ≠ r.1) :
    rules.apply (.ofInt64 key) = some := by
  have hnone : rules.find? (fun r => (Value.ofInt64 key).toInt? == some r.1.toInt) = none := by
    refine List.find?_eq_none.2 fun r hr heq => h r hr ?_
    rw [Value.toInt?_ofInt64, beq_iff_eq] at heq
    exact Int64.toInt_inj.1 (Option.some.inj heq)
  rw [apply, hnone]

/-- Entries under keys without a rule stay as they are. -/
theorem Entries.rewrite_of_forall {rules : Rules} {entries : Entries}
    (h : ∀ e ∈ entries, rules.apply e.1 = some) : Entries.rewrite rules entries = entries := by
  unfold Entries.rewrite
  rw [List.filterMap_congr (g := some) fun e he => by rw [h e he]; rfl]
  exact List.filterMap_some

/-- Rewriting leaves keys where they are. -/
theorem Entries.rewrite_sorted {entries : Entries} (rules : Rules) (h : Sorted entries) :
    Sorted (Entries.rewrite rules entries) := by
  refine List.Pairwise.filterMap _ (fun a b hab x hx y hy => ?_) h
  obtain ⟨v, -, rfl⟩ := Option.map_eq_some_iff.1 hx
  obtain ⟨w, -, rfl⟩ := Option.map_eq_some_iff.1 hy
  exact hab

/-! ### Values that are restored -/

/-- Writing what was read gives back what it was read from, rewritten. -/
def Restores (write : α → Value) (norm : Value → Value) (read : Value → Result α) : Prop :=
  ∀ v a, v.InOrder → read v = .ok a → write a = norm v

/-- Writing what was read gives back what it was read from, as it was. -/
abbrev Lossless (write : α → Value) (read : Value → Result α) : Prop := Restores write id read

namespace Restores

variable {write : α → Value} {norm : Value → Value} {read : Value → Result α}

theorem context (h : Restores write norm read) (doing : String) :
    Restores write norm fun v => (read v).context doing := by
  intro v a hv hr
  exact h v a hv (Result.context_eq_ok.1 hr)

/-- A value that another one is made of. -/
theorem map {f : α → β} {write' : β → Value} (h : Restores write norm read)
    (hf : ∀ a, write' (f a) = write a) : Restores write' norm fun v => f <$> read v := by
  intro v b hv hr
  obtain ⟨a, ha, rfl⟩ := Result.map_eq_ok.1 hr
  rw [hf a, h v a hv ha]

/-- The items of an array. -/
theorem array (h : Restores write norm read) (what : String) :
    Restores (fun xs : List α => .array (xs.map write)) (Value.mapItems norm)
      (fun v => do (← v.toArray what).mapM read) := by
  intro v xs hv hr
  obtain ⟨items, hi, hr⟩ := Result.bind_eq_ok.1 hr
  obtain rfl := Value.toArray_eq_ok.1 hi
  exact congrArg Value.array (map_of_mapM (fun v hm x => h v x (hv.items v hm)) hr)

/-- The items of an array, a failure saying at which index it arose. -/
theorem arrayEach (h : Restores write norm read) (what member : String) :
    Restores (fun xs : List α => .array (xs.map write)) (Value.mapItems norm)
      (fun v => do readEach member read (← v.toArray what)) := by
  intro v xs hv hr
  obtain ⟨items, hi, hr⟩ := Result.bind_eq_ok.1 hr
  exact h.array what v xs hv (Result.bind_eq_ok.2 ⟨items, hi, readEach_eq_ok.1 hr⟩)

end Restores

/-- The items of an array, as they were. -/
theorem Lossless.array {write : α → Value} {read : Value → Result α} (h : Lossless write read)
    (what : String) : Lossless (fun xs : List α => .array (xs.map write))
      (fun v => do (← v.toArray what).mapM read) := by
  unfold Lossless
  rw [← Value.mapItems_id]
  exact Restores.array h what

/-! ### Steps that account for what they take -/

/-- The entries of fields with integer keys, in the order of the fields. -/
def entriesOf (fields : List (Int64 × Option Value)) : Entries :=
  present (fields.map fun f => (Value.ofInt64 f.1, f.2))

theorem entriesOf_append (fields others : List (Int64 × Option Value)) :
    entriesOf (fields ++ others) = entriesOf fields ++ entriesOf others := by
  rw [entriesOf, List.map_append, present_append]
  rfl

theorem entriesOf_singleton (key : Int64) (o : Option Value) :
    entriesOf [(key, o)] = (o.map (Value.ofInt64 key, ·)).toList := by
  cases o <;> rfl

/-- Entries of a map in order: no two keys are equal, and the values are in order. -/
structure Orderly (entries : Entries) : Prop where
  distinct : Distinct entries
  values : ∀ e ∈ entries, e.2.InOrder

theorem Orderly.without {entries : Entries} (h : Orderly entries) (key : Value) :
    Orderly (without key entries) :=
  ⟨h.distinct.sublist (without_sublist _ _),
    fun e he => h.values e ((without_sublist _ _).mem he)⟩

/-- If nothing is left, what was found before and what is taken, rewritten, are the fields of what is
given. -/
def Accounts (rules : Rules) (found : List (Int64 × Option Value)) (p : Taking α)
    (fields : α → List (Int64 × Option Value)) : Prop :=
  ∀ u a rest, Orderly u.entries → p u = .ok (a, rest) → rest.entries = [] →
    (entriesOf found ++ Entries.rewrite rules u.entries).Perm (entriesOf (fields a))

namespace Accounts

variable {rules : Rules} {found : List (Int64 × Option Value)} {key : Int64}
variable {fields : α → List (Int64 × Option Value)}

/-- All fields were found. -/
theorem pure {a : α} (h : found.Perm (fields a)) : Accounts rules found (Pure.pure a) fields := by
  intro u b rest _ hp hn
  obtain ⟨rfl, rfl⟩ := Prod.mk.inj (Except.ok.inj hp)
  rw [hn, Entries.rewrite, List.filterMap_nil, List.append_nil]
  exact (h.map _).filterMap _

/-- **A step takes a field**, and `field` says how it is written. -/
theorem take {read : Value → Result β} {q : Option β → Taking α} (field : Option β → Option Value)
    (hnone : field none = none)
    (hsome : ∀ v b, v.InOrder → read v = .ok b → field (some b) = rules.apply (.ofInt64 key) v)
    (hq : ∀ o, Accounts rules (found ++ [(key, field o)]) (q o) fields) :
    Accounts rules found (Fields.takeWith key read >>= q) fields := by
  intro u a rest hu hp hn
  obtain ⟨⟨o, u'⟩, ht, hp⟩ := Result.bind_eq_ok.1 hp
  have hd : Orderly (u.dropping (Value.ofInt64 key)).entries := hu.without _
  rcases take_cases (Value.ofInt64 key) u.entries with ⟨hg, hw⟩ | ⟨k, v, hk, hg, hw⟩
  · -- the field is not there
    rw [Fields.takeWith, takeWith_of_none hg] at ht
    obtain ⟨rfl, rfl⟩ := Prod.mk.inj (Except.ok.inj ht)
    have h := hq none _ a rest hd hp hn
    rwa [dropping, hw, hnone, entriesOf_append, entriesOf_singleton, Option.map_none,
      Option.toList_none, List.append_nil] at h
  · -- its entry is one of those that are there, and the others are left
    obtain rfl := Value.eq_of_compare_ofInt64 hk
    have hv : v.InOrder := hu.values _ (hw.mem_iff.1 List.mem_cons_self)
    rw [Fields.takeWith, takeWith_of_some hg] at ht
    obtain ⟨b, hb, ht⟩ := Result.map_eq_ok.1 ht
    obtain ⟨rfl, rfl⟩ := Prod.mk.inj ht
    have h := hq (some b) _ a rest hd hp hn
    rw [entriesOf_append, entriesOf_singleton, hsome v b hv hb, List.append_assoc] at h
    refine (List.Perm.append_left _ ?_).trans h
    refine (hw.symm.filterMap _).trans ?_
    rw [List.filterMap_cons]
    cases rules.apply (.ofInt64 key) v <;> exact .refl _

/-- A step takes all that is left. -/
theorem takeRest {readRest : Entries → Result β} {q : β → Taking α}
    (more : β → List (Int64 × Option Value))
    (h : ∀ rest b, Orderly rest → readRest rest = .ok b →
      (Entries.rewrite rules rest).Perm (entriesOf (more b)))
    (hq : ∀ b, Accounts rules (found ++ more b) (q b) fields) :
    Accounts rules found (do q (← readRest (← Fields.takeRest))) fields := by
  intro u a rest hu hp hn
  obtain ⟨⟨b, u'⟩, hb, hp⟩ := Result.bind_eq_ok.1 hp
  obtain ⟨c, hc, hb⟩ := Result.bind_eq_ok.1 hb
  obtain ⟨rfl, rfl⟩ := Prod.mk.inj (Except.ok.inj hb)
  have hnil : Orderly [] := ⟨List.Pairwise.nil, fun _ he => (List.not_mem_nil he).elim⟩
  have h' := hq c ⟨u.what, []⟩ a rest hnil hp hn
  rw [entriesOf_append, List.append_assoc] at h'
  refine (List.Perm.append_left _ ?_).trans h'
  rw [show Entries.rewrite rules [] = [] from rfl, List.append_nil]
  exact h u.entries c hu hc

variable {write : β → Value} {norm : Value → Value} {read : Value → Result β}

/-- A step takes a field that is there or not. -/
theorem takeWith {q : Option β → Taking α} (h : Restores write norm read)
    (hr : rules.apply (.ofInt64 key) = some ∘ norm)
    (hq : ∀ o, Accounts rules (found ++ [(key, o.map write)]) (q o) fields) :
    Accounts rules found (Fields.takeWith key read >>= q) fields := by
  refine take (Option.map write) rfl (fun v b hv hb => ?_) hq
  rw [hr, Option.map_some, h v b hv hb]
  rfl

/-- A step takes a field that has to be there. -/
theorem requireWith {name : String} {q : β → Taking α} (h : Restores write norm read)
    (hr : rules.apply (.ofInt64 key) = some ∘ norm)
    (hq : ∀ b, Accounts rules (found ++ [(key, some (write b))]) (q b) fields) :
    Accounts rules found (Fields.requireWith key name read >>= q) fields := by
  rw [Fields.requireWith, requireWith_bind]
  refine takeWith h hr fun o => ?_
  cases o with
  | some b => exact hq b
  | none => exact fun _ _ _ _ hp _ => by cases hp

/-- A step takes a list that is left out where it is empty. -/
theorem takeList {what : String} {readItems : List Value → Result (List β)}
    {q : Option (List β) → Taking α}
    (h : Restores (fun xs => .array (xs.map write)) (Value.mapItems norm)
      fun v => do readItems (← v.toArray what))
    (hr : rules.apply (.ofInt64 key) = Value.itemsIfAny norm)
    (hq : ∀ o, Accounts rules (found ++ [(key, arrayIfAny write (o.getD []))]) (q o) fields) :
    Accounts rules found
      ((Fields.takeWith key fun v => do readItems (← v.toArray what)) >>= q) fields := by
  refine take (fun o => arrayIfAny write (o.getD [])) rfl (fun v xs hv hb => ?_) hq
  have he := h v xs hv hb
  rw [hr, Option.getD_some]
  cases v with
  | array items =>
    have hmap : xs.map write = items.map norm := Value.array.inj he
    cases items with
    | nil =>
      rw [List.map_eq_nil_iff.1 hmap]
      rfl
    | cons w r =>
      cases xs with
      | nil => cases hmap
      | cons x ys => exact congrArg some he
  | _ => cases hb

/-- **A map is restored** by steps that account for all of it. -/
theorem readMap {what : String} {p : Taking α} (fields : α → List (Int64 × Option Value))
    (h : Accounts rules [] p fields) :
    Restores (fun a => .ofFields (fields a)) (Value.rewrite rules) fun v => v.readMap what p := by
  intro v a hv hr
  cases v with
  | map entries =>
    obtain ⟨rest, hp, hn⟩ := readAll_eq_ok.1 hr
    -- both sides hold the same entries in key order
    have hperm : (Entries.rewrite rules entries).Perm (entriesOf (fields a)) :=
      h _ a rest ⟨hv.sorted.distinct, hv.values⟩ hp hn
    have hs : Sorted (Entries.rewrite rules entries) := Entries.rewrite_sorted rules hv.sorted
    have hd : Distinct (entriesOf (fields a)) := hs.distinct.of_perm hperm
    have he : Entries.ofFields (fields a) = Entries.rewrite rules entries :=
      (ofList_sorted _).eq_of_perm hs ((ofList_perm hd).trans hperm.symm)
    exact congrArg Value.map he
  | _ => cases hr

/-- A map is restored as it was by steps that follow no rules. -/
theorem readMap_lossless {what : String} {p : Taking α} (h : Accounts [] [] p fields) :
    Lossless (fun a => .ofFields (fields a)) fun v => v.readMap what p := by
  unfold Lossless
  rw [← Value.rewrite_nil]
  exact readMap fields h

end Accounts

/-! ### Parts of values -/

namespace Value

variable (what : String)

theorem lossless_toText : Lossless text (·.toText what) := by
  intro v s _ h
  cases v with
  | text t => exact congrArg text (Except.ok.inj h).symm
  | _ => cases h

theorem lossless_toBytes : Lossless bytes (·.toBytes what) := by
  intro v b _ h
  exact (toBytes_eq_ok.1 h).symm

theorem lossless_toUInt64 : Lossless natural (·.toUInt64 what) := by
  intro v n _ h
  cases v with
  | natural m => exact congrArg natural (Except.ok.inj h).symm
  | _ => cases h

theorem lossless_toInt64 : Lossless ofInt64 (·.toInt64 what) := by
  intro v n _ h
  change v.toInt64 what = .ok n at h
  unfold toInt64 at h
  cases hv : v.toInt? with
  | none =>
    rw [hv] at h
    cases h
  | some m =>
    rw [hv] at h
    obtain ⟨hm, h⟩ := Result.demand_eq_ok.1 h
    obtain rfl := Except.ok.inj h
    have hn : (Int64.ofInt m).toInt = m := Int64.toInt_ofInt_of_le (by omega) (by omega)
    rw [← hn] at hv
    exact (eq_ofInt64 hv).symm

/-- What stands under a tag. -/
theorem lossless_untag {α : Type} {write : α → Value} {read : Value → Result α}
    (h : Lossless write read) (number : UInt64) :
    Lossless (fun a => tag number (write a)) (fun v => do read (← v.untag what number)) := by
  intro v a hv hr
  cases v with
  | tag n body =>
    obtain ⟨w, hw, hread⟩ := Result.bind_eq_ok.1 hr
    obtain ⟨hn, hbody⟩ := Result.demand_eq_ok.1 hw
    obtain rfl := Except.ok.inj hbody
    obtain rfl := hn
    exact congrArg (tag n) (h _ a hv.body hread)
  | _ => cases hr

theorem lossless_toUri : Lossless uri (·.toUri what) :=
  lossless_untag what (lossless_toText what) uriTag

theorem lossless_toEpoch : Lossless epoch (·.toEpoch what) :=
  lossless_untag what (lossless_toInt64 what) epochTag

/-- An array of two is restored if its items are. -/
theorem restores_pair {α : Type} {write : α → Value} {norm : Value → Value}
    {read : Value × Value → Result α}
    (h : ∀ a b x, a.InOrder → b.InOrder → read (a, b) = .ok x → write x = array [a, norm b]) :
    Restores write (mapSecond norm) (fun v => do read (← v.toPair what)) := by
  intro v x hv hr
  obtain ⟨⟨a, b⟩, hp, hr⟩ := Result.bind_eq_ok.1 hr
  obtain ⟨items, hi, hp⟩ := Result.bind_eq_ok.1 hp
  obtain ⟨ys, hy, hi⟩ := Result.bind_eq_ok.1 hi
  obtain ⟨-, hi⟩ := Result.demand_eq_ok.1 hi
  obtain rfl := Except.ok.inj hi
  cases v with
  | array xs =>
    obtain rfl := Except.ok.inj hy
    split at hp
    · obtain ⟨rfl, rfl⟩ := Prod.mk.inj (Except.ok.inj hp)
      obtain ⟨ha, hb⟩ := List.forall_mem_cons.1 hv.items
      exact h _ _ x ha (List.forall_mem_singleton.1 hb) hr
    · cases hp
  | _ => cases hy

/-- An array of two is restored as it was if its items are. -/
theorem lossless_pair {α : Type} {write : α → Value} {read : Value × Value → Result α}
    (h : ∀ a b x, a.InOrder → b.InOrder → read (a, b) = .ok x → write x = array [a, b]) :
    Lossless write (fun v => do read (← v.toPair what)) := by
  unfold Lossless
  rw [← mapSecond_id]
  exact restores_pair what h

end Value

end Rim.Cbor
