import Rim.Keyed
import Mathlib.Data.List.Pairwise

/-!
# Maps in key order

Setting keys one by one keeps the order, and entries with distinct keys are in key order in one way
only. So the entries of a map are a function of its fields, in whatever order these are set.

* `insert_sorted`, `ofList_sorted`: what is written is in key order.
* `ofList_perm`, `merge_ofFields_perm_iff`: no entry is lost if no two keys are equal.
* `ofList_eq_of_perm`, `ofList_of_sorted`: the order of setting does not matter.
* `get?_insert`: setting a key changes what is found under it.
* `get?_ofList`, `without_ofList`: taking a field gives its value and leaves the other fields.
* `mem_without`: taking a key leaves the entries that do not have it.
-/

namespace Rim.Keyed

open Std

variable {κ ν : Type}

/-! ### Fields that are there -/

@[simp] theorem present_none (key : κ) (fields : List (κ × Option ν)) :
    present ((key, none) :: fields) = present fields := rfl

@[simp] theorem present_some (key : κ) (value : ν) (fields : List (κ × Option ν)) :
    present ((key, some value) :: fields) = (key, value) :: present fields := rfl

theorem mem_present {key : κ} {value : ν} {fields : List (κ × Option ν)} :
    (key, value) ∈ present fields ↔ (key, some value) ∈ fields := by
  unfold present
  rw [List.mem_filterMap]
  constructor
  · rintro ⟨⟨k, o⟩, hf, he⟩
    obtain ⟨v, rfl, hv⟩ := Option.map_eq_some_iff.1 he
    cases hv
    exact hf
  · intro hf
    exact ⟨_, hf, rfl⟩

theorem present_map_some (entries : List (κ × ν)) :
    present (entries.map fun e => (e.1, some e.2)) = entries := by
  induction entries with
  | nil => rfl
  | cons e r ih => rw [List.map_cons, present_some, ih]

theorem present_append (fields others : List (κ × Option ν)) :
    present (fields ++ others) = present fields ++ present others :=
  List.filterMap_append

/-- The keys of the fields that have a value are among the keys of all fields, in their order. -/
theorem present_keys_sublist (fields : List (κ × Option ν)) :
    ((present fields).map Prod.fst).Sublist (fields.map Prod.fst) := by
  induction fields with
  | nil => exact .slnil
  | cons f r ih =>
    obtain ⟨key, value⟩ := f
    cases value with
    | none => exact ih.cons key
    | some v => exact ih.cons_cons key

/-- Another name for the keys changes nothing about which fields have values. -/
theorem present_map_key {κ' : Type} (f : κ → κ') (fields : List (κ × Option ν)) :
    present (fields.map fun e => (f e.1, e.2)) = (present fields).map fun e => (f e.1, e.2) := by
  induction fields with
  | nil => rfl
  | cons e r ih =>
    obtain ⟨key, value⟩ := e
    cases value with
    | none => exact ih
    | some v => exact congrArg ((f key, v) :: ·) ih

theorem present_map {α : Type} {key : α → κ} {write : α → ν} (xs : List α) :
    present (xs.map fun x => (key x, some (write x))) = xs.map fun x => (key x, write x) := by
  have h := present_map_some (xs.map fun x => (key x, write x))
  rwa [List.map_map] at h

/-- The keys of some fields and of entries that all have values. -/
theorem keys_present_append {α : Type} {key : α → κ} {write : α → ν} (fields : List (κ × Option ν))
    (xs : List α) :
    (present (fields ++ xs.map fun x => (key x, some (write x)))).map Prod.fst =
      (present fields).map Prod.fst ++ xs.map key := by
  rw [present_append, present_map, List.map_append, List.map_map]
  rfl

/-- Fields whose values, where they have one, all have a property. -/
def Holding (p : ν → Prop) (fields : List (κ × Option ν)) : Prop := ∀ f ∈ fields, ∀ v ∈ f.2, p v

namespace Holding

variable {α : Type} {p : ν → Prop} {key : κ} {fields : List (κ × Option ν)}

theorem nil : Holding p ([] : List (κ × Option ν)) := fun _ h => (List.not_mem_nil h).elim

theorem some {v : ν} (hv : p v) (h : Holding p fields) : Holding p ((key, some v) :: fields) :=
  List.forall_mem_cons.2 ⟨fun _ hw => Option.mem_some.1 hw ▸ hv, h⟩

theorem map {write : α → ν} {o : Option α} (hv : ∀ a, p (write a)) (h : Holding p fields) :
    Holding p ((key, o.map write) :: fields) := by
  refine List.forall_mem_cons.2 ⟨fun w hw => ?_, h⟩
  obtain ⟨a, -, rfl⟩ := Option.map_eq_some_iff.1 hw
  exact hv a

/-- A list that is left out where it is empty. -/
theorem list {array : List ν → ν} {write : α → ν} {xs : List α} (hv : p (array (xs.map write)))
    (h : Holding p fields) :
    Holding p ((key, if xs.isEmpty then none else .some (array (xs.map write))) :: fields) := by
  split
  · exact List.forall_mem_cons.2 ⟨nofun, h⟩
  · exact some hv h

theorem imp {q : ν → Prop} (hpq : ∀ v, p v → q v) (h : Holding p fields) : Holding q fields := by
  intro f hf v hv
  exact hpq v (h f hf v hv)

/-- Fields that all have values. -/
theorem entries {keyOf : α → κ} {write : α → ν} (hv : ∀ a, p (write a)) (xs : List α) :
    Holding p (xs.map fun a => (keyOf a, Option.some (write a))) := by
  intro f hf v hw
  obtain ⟨a, -, rfl⟩ := List.mem_map.1 hf
  obtain rfl := Option.some.inj hw
  exact hv a

theorem present (h : Holding p fields) : ∀ e ∈ present fields, p e.2 := by
  rintro ⟨k, v⟩ he
  exact h _ (mem_present.1 he) v rfl

end Holding

/-! ### Order and distinctness -/

variable [Ord κ]

/-- Entries whose keys strictly ascend. -/
def Sorted (entries : List (κ × ν)) : Prop :=
  entries.Pairwise fun a b => compare a.1 b.1 = .lt

/-- Entries or fields of which no two have equal keys. -/
def Distinct (entries : List (κ × ν)) : Prop :=
  entries.Pairwise fun a b => compare a.1 b.1 ≠ .eq

/-- A key that none of the entries has. -/
def Fresh (key : κ) (entries : List (κ × ν)) : Prop := ∀ e ∈ entries, compare e.1 key ≠ .eq

theorem Sorted.distinct {entries : List (κ × ν)} (h : Sorted entries) : Distinct entries := by
  refine List.Pairwise.imp (fun hlt heq => ?_) h
  rw [hlt] at heq
  cases heq

theorem Fresh.present {key : κ} {fields : List (κ × Option ν)} (h : Fresh key fields) :
    Fresh key (present fields) := by
  rintro ⟨k, v⟩ he
  exact h _ (mem_present.1 he)

theorem Distinct.present {fields : List (κ × Option ν)} (h : Distinct fields) :
    Distinct (present fields) := by
  refine List.Pairwise.filterMap _ (fun f g hfg a ha b hb => ?_) h
  obtain ⟨v, -, rfl⟩ := Option.map_eq_some_iff.1 ha
  obtain ⟨w, -, rfl⟩ := Option.map_eq_some_iff.1 hb
  exact hfg

theorem get?_of_fresh {key : κ} {entries : List (κ × ν)} (h : Fresh key entries) :
    get? key entries = none := by
  induction entries with
  | nil => rfl
  | cons e r ih =>
    rw [get?, if_neg (h e List.mem_cons_self)]
    exact ih fun a ha => h a (List.mem_cons_of_mem _ ha)

theorem without_of_fresh {key : κ} {entries : List (κ × ν)} (h : Fresh key entries) :
    without key entries = entries := by
  induction entries with
  | nil => rfl
  | cons e r ih =>
    rw [without, if_neg (h e List.mem_cons_self)]
    rw [ih fun a ha => h a (List.mem_cons_of_mem _ ha)]

theorem without_sublist (key : κ) (entries : List (κ × ν)) :
    (without key entries).Sublist entries := by
  induction entries with
  | nil => exact .slnil
  | cons e r ih =>
    rw [without]
    split
    · exact List.sublist_cons_self _ _
    · exact ih.cons_cons _

/-- Taking a key takes one entry of that key, or there is none. -/
theorem take_cases (key : κ) (entries : List (κ × ν)) :
    (get? key entries = none ∧ without key entries = entries) ∨
      ∃ k v, compare k key = .eq ∧ get? key entries = some v ∧
        ((k, v) :: without key entries).Perm entries := by
  induction entries with
  | nil => exact .inl ⟨rfl, rfl⟩
  | cons e r ih =>
    obtain ⟨k, v⟩ := e
    by_cases hk : compare k key = .eq
    · refine .inr ⟨k, v, hk, ?_, ?_⟩
      · rw [get?, if_pos hk]
      · rw [without, if_pos hk]
    · rw [get?, without, if_neg hk, if_neg hk]
      rcases ih with ⟨hg, hw⟩ | ⟨l, w, hl, hg, hw⟩
      · exact .inl ⟨hg, by rw [hw]⟩
      · exact .inr ⟨l, w, hl, hg, (List.Perm.swap _ _ _).trans (hw.cons _)⟩

/-- What is found under a key stands there. -/
theorem mem_of_get? {key : κ} {value : ν} {entries : List (κ × ν)}
    (h : get? key entries = some value) : ∃ k, compare k key = .eq ∧ (k, value) ∈ entries := by
  rcases take_cases key entries with ⟨hn, -⟩ | ⟨k, v, hk, hv, hperm⟩
  · rw [hn] at h
    cases h
  · obtain rfl := Option.some.inj (hv.symm.trans h)
    exact ⟨k, hk, hperm.mem_iff.1 List.mem_cons_self⟩

/-- What holds of the keys and of the values set holds of those of the entries. -/
theorem insert_forall {p : κ → Prop} {q : ν → Prop} {key : κ} {value : ν}
    {entries : List (κ × ν)} (hk : p key) (hv : q value) (h : ∀ e ∈ entries, p e.1 ∧ q e.2) :
    ∀ e ∈ insert key value entries, p e.1 ∧ q e.2 := by
  induction entries with
  | nil => exact List.forall_mem_singleton.2 ⟨hk, hv⟩
  | cons e r ih =>
    obtain ⟨he, hr⟩ := List.forall_mem_cons.1 h
    unfold insert
    cases compare key e.1 with
    | lt => exact List.forall_mem_cons.2 ⟨⟨hk, hv⟩, h⟩
    | eq => exact List.forall_mem_cons.2 ⟨⟨he.1, hv⟩, hr⟩
    | gt => exact List.forall_mem_cons.2 ⟨he, ih hr⟩

theorem merge_forall {p : κ → Prop} {q : ν → Prop} {entries others : List (κ × ν)}
    (h : ∀ e ∈ entries, p e.1 ∧ q e.2) (ho : ∀ e ∈ others, p e.1 ∧ q e.2) :
    ∀ e ∈ merge entries others, p e.1 ∧ q e.2 := by
  unfold merge
  induction others generalizing entries with
  | nil => exact h
  | cons e r ih =>
    obtain ⟨he, hr⟩ := List.forall_mem_cons.1 ho
    exact ih (insert_forall he.1 he.2 h) hr

theorem ofList_forall {p : κ → Prop} {q : ν → Prop} {entries : List (κ × ν)}
    (h : ∀ e ∈ entries, p e.1 ∧ q e.2) : ∀ e ∈ ofList entries, p e.1 ∧ q e.2 :=
  merge_forall (fun _ h => (List.not_mem_nil h).elim) h

/-- The keys of what was put in order are among those that were set. -/
theorem exists_of_mem_ofList {entries : List (κ × ν)} {e : κ × ν} (h : e ∈ ofList entries) :
    ∃ v, (e.1, v) ∈ entries := by
  have hset : ∀ d ∈ entries, (∃ v, (d.1, v) ∈ entries) ∧ True := fun d hd => ⟨⟨d.2, hd⟩, trivial⟩
  exact (ofList_forall (p := fun k => ∃ v, (k, v) ∈ entries) (q := fun _ => True) hset e h).1

/-! ### Entries in key order -/

variable [TransOrd κ]

theorem Distinct.of_perm {entries others : List (κ × ν)} (h : Distinct entries)
    (hp : entries.Perm others) : Distinct others :=
  hp.pairwise h fun hab hba => hab (OrientedCmp.eq_comm.1 hba)

theorem Distinct.cons_iff {e : κ × ν} {entries : List (κ × ν)} :
    Distinct (e :: entries) ↔ Fresh e.1 entries ∧ Distinct entries := by
  unfold Distinct Fresh
  rw [List.pairwise_cons]
  refine and_congr_left fun _ => forall₂_congr fun a _ => not_congr ?_
  exact OrientedCmp.eq_comm

theorem insert_sorted {entries : List (κ × ν)} (h : Sorted entries) (key : κ) (value : ν) :
    Sorted (insert key value entries) ∧
      ∀ e ∈ insert key value entries, e ∈ entries ∨ compare e.1 key = .eq := by
  induction entries with
  | nil =>
    refine ⟨List.pairwise_singleton _ _, fun e he => .inr ?_⟩
    rw [insert, List.mem_singleton] at he
    rw [he]
    exact ReflCmp.compare_self
  | cons e r ih =>
    obtain ⟨k, v⟩ := e
    obtain ⟨hk, hr⟩ := List.pairwise_cons.1 h
    obtain ⟨hs, hm⟩ := ih hr
    -- the new key comes before the first one, takes its place or goes further on
    unfold insert
    cases hc : compare key k with
    | lt =>
      refine ⟨List.pairwise_cons.2 ⟨fun e he => ?_, h⟩, fun e he => ?_⟩
      · rcases List.mem_cons.1 he with rfl | he
        · exact hc
        · exact TransCmp.lt_trans hc (hk e he)
      · rcases List.mem_cons.1 he with rfl | he
        · exact .inr ReflCmp.compare_self
        · exact .inl he
    | eq =>
      refine ⟨List.pairwise_cons.2 ⟨hk, hr⟩, ?_⟩
      intro e he
      rcases List.mem_cons.1 he with rfl | he
      · exact .inr (OrientedCmp.eq_symm hc)
      · exact .inl (List.mem_cons_of_mem _ he)
    | gt =>
      have hlt : compare k key = .lt := OrientedCmp.lt_of_gt hc
      refine ⟨List.pairwise_cons.2 ⟨fun e he => ?_, hs⟩, fun e he => ?_⟩
      · rcases hm e he with he | he
        · exact hk e he
        · exact TransCmp.lt_of_lt_of_eq hlt (OrientedCmp.eq_symm he)
      · rcases List.mem_cons.1 he with rfl | he
        · exact .inl List.mem_cons_self
        · exact (hm e he).imp_left (List.mem_cons_of_mem _)

/-- **Setting a key** changes what is found under it, and nothing else. -/
theorem get?_insert (key other : κ) (value : ν) (entries : List (κ × ν)) :
    get? other (insert key value entries) =
      if compare key other = .eq then some value else get? other entries := by
  induction entries with
  | nil => rfl
  | cons e r ih =>
    obtain ⟨k, v⟩ := e
    unfold insert
    cases hc : compare key k with
    | lt => rfl
    | eq =>
      have hother : compare k other = compare key other := (TransCmp.congr_left hc).symm
      simp only [get?, hother]
      split <;> rfl
    | gt =>
      simp only [get?, ih]
      by_cases ho : compare key other = .eq
      · have hk : compare k other ≠ .eq := by
          intro hk
          have heq := TransCmp.eq_trans ho (OrientedCmp.eq_symm hk)
          rw [hc] at heq
          cases heq
        rw [if_neg hk, if_pos ho, if_pos ho]
      · rw [if_neg ho, if_neg ho]

theorem insert_perm {key : κ} {entries : List (κ × ν)} (h : Fresh key entries) (value : ν) :
    (insert key value entries).Perm ((key, value) :: entries) := by
  induction entries with
  | nil => exact .refl _
  | cons e r ih =>
    obtain ⟨k, v⟩ := e
    unfold insert
    cases hc : compare key k with
    | lt => exact .refl _
    | eq => exact absurd (OrientedCmp.eq_symm hc) (h _ List.mem_cons_self)
    | gt => exact ((ih fun e he => h e (List.mem_cons_of_mem _ he)).cons _).trans (.swap _ _ _)

theorem merge_sorted {entries : List (κ × ν)} (h : Sorted entries) (others : List (κ × ν)) :
    Sorted (merge entries others) := by
  unfold merge
  induction others generalizing entries with
  | nil => exact h
  | cons e r ih => exact ih (insert_sorted h e.1 e.2).1

theorem merge_perm {entries others : List (κ × ν)} (h : Distinct (others ++ entries)) :
    (merge entries others).Perm (others ++ entries) := by
  unfold merge
  induction others generalizing entries with
  | nil => exact .refl _
  | cons e r ih =>
    obtain ⟨hf, -⟩ := Distinct.cons_iff.1 h
    -- the key set now is none of those set before or after it
    have hp : (insert e.1 e.2 entries).Perm (e :: entries) :=
      insert_perm (fun a ha => hf a (List.mem_append_right _ ha)) e.2
    have hq : (r ++ insert e.1 e.2 entries).Perm (e :: (r ++ entries)) :=
      (hp.append_left r).trans List.perm_middle
    exact (ih (h.of_perm hq.symm)).trans hq

/-- What is written is in key order. -/
theorem ofList_sorted (entries : List (κ × ν)) : Sorted (ofList entries) :=
  merge_sorted List.Pairwise.nil entries

/-- **No entry is lost** if no two keys are equal. -/
theorem ofList_perm {entries : List (κ × ν)} (h : Distinct entries) :
    (ofList entries).Perm entries := by
  have hp : (merge [] entries).Perm (entries ++ []) := merge_perm (by rwa [List.append_nil])
  rwa [List.append_nil] at hp

/-- A field that is there is an entry, if no two fields have equal keys. -/
theorem mem_ofFields {fields : List (κ × Option ν)} (hd : Distinct fields) {key : κ} {value : ν}
    (h : (key, some value) ∈ fields) : (key, value) ∈ ofFields fields :=
  (ofList_perm hd.present).mem_iff.2 (mem_present.2 h)

/-- Fields that all have values are the entries. -/
theorem ofFields_map_perm {α : Type} {write : α → κ × ν} {xs : List α}
    (hd : Distinct (xs.map write)) :
    (ofFields (xs.map fun x => ((write x).1, some (write x).2))).Perm (xs.map write) := by
  rw [ofFields, present_map]
  exact ofList_perm hd

/-- Entries are in key order in one way only. -/
theorem Sorted.eq_of_perm {entries others : List (κ × ν)} (h : Sorted entries)
    (h' : Sorted others) (hp : entries.Perm others) : entries = others := by
  refine hp.eq_of_pairwise (fun a b _ _ hab hba => ?_) h h'
  rw [OrientedCmp.gt_of_lt hab] at hba
  cases hba

/-- **The order of setting does not matter** if no two keys are equal. -/
theorem ofList_eq_of_perm {entries others : List (κ × ν)} (h : Distinct entries)
    (hp : entries.Perm others) : ofList entries = ofList others := by
  refine (ofList_sorted _).eq_of_perm (ofList_sorted _) ?_
  exact (ofList_perm h).trans (hp.trans (ofList_perm (h.of_perm hp)).symm)

theorem ofList_of_sorted {entries : List (κ × ν)} (h : Sorted entries) : ofList entries = entries :=
  (ofList_sorted _).eq_of_perm h (ofList_perm h.distinct)

/-- Setting entries over others is setting all of them. -/
theorem merge_ofList {entries others : List (κ × ν)} (h : Distinct (entries ++ others)) :
    merge (ofList entries) (ofList others) = ofList (entries ++ others) := by
  obtain ⟨he, ho, -⟩ := List.pairwise_append.1 h
  have hp : (ofList others ++ ofList entries).Perm (entries ++ others) :=
    ((ofList_perm ho).append (ofList_perm he)).trans List.perm_append_comm
  refine (merge_sorted (ofList_sorted _) _).eq_of_perm (ofList_sorted _) ?_
  exact (merge_perm (h.of_perm hp.symm)).trans (hp.trans (ofList_perm h).symm)

/-- **Fields set over others are all kept** just if no two of all that are there have equal keys. -/
theorem merge_ofFields_perm_iff {fields others : List (κ × Option ν)} :
    (merge (ofFields fields) (ofFields others)).Perm (present (fields ++ others)) ↔
      Distinct (present (fields ++ others)) := by
  constructor
  · intro h
    have hsorted := merge_sorted (ofList_sorted (present fields)) (ofFields others)
    exact hsorted.distinct.of_perm h
  · rw [present_append]
    intro h
    rw [ofFields, ofFields, merge_ofList h]
    exact ofList_perm h

/-! ### Taking keys -/

theorem get?_of_mem {key : κ} {value : ν} {entries : List (κ × ν)} (h : Distinct entries)
    (hm : (key, value) ∈ entries) : get? key entries = some value := by
  induction entries with
  | nil => cases hm
  | cons e r ih =>
    obtain ⟨hf, hr⟩ := Distinct.cons_iff.1 h
    rcases List.mem_cons.1 hm with rfl | hm
    · rw [get?, if_pos ReflCmp.compare_self]
    · rw [get?, if_neg fun he => hf _ hm (OrientedCmp.eq_symm he)]
      exact ih hr hm

theorem without_perm {key : κ} {value : ν} {entries : List (κ × ν)} (h : Distinct entries)
    (hm : (key, value) ∈ entries) : ((key, value) :: without key entries).Perm entries := by
  induction entries with
  | nil => cases hm
  | cons e r ih =>
    obtain ⟨hf, hr⟩ := Distinct.cons_iff.1 h
    rcases List.mem_cons.1 hm with rfl | hm
    · rw [without, if_pos ReflCmp.compare_self]
    · rw [without, if_neg fun he => hf _ hm (OrientedCmp.eq_symm he)]
      exact (List.Perm.swap _ _ _).trans ((ih hr hm).cons _)

/-- **Taking a key** leaves the entries that do not have it. -/
theorem mem_without {key : κ} {entries : List (κ × ν)} (h : Distinct entries) {e : κ × ν} :
    e ∈ without key entries ↔ e ∈ entries ∧ compare e.1 key ≠ .eq := by
  induction entries with
  | nil => exact iff_of_false List.not_mem_nil fun he => List.not_mem_nil he.1
  | cons d r ih =>
    obtain ⟨hf, hr⟩ := Distinct.cons_iff.1 h
    by_cases hd : compare d.1 key = .eq
    · -- no other entry has the key
      rw [without, if_pos hd]
      constructor
      · intro he
        refine ⟨List.mem_cons_of_mem _ he, fun hk => hf e he ?_⟩
        exact TransCmp.eq_trans hk (OrientedCmp.eq_symm hd)
      · rintro ⟨he, hk⟩
        rcases List.mem_cons.1 he with rfl | he
        · exact absurd hd hk
        · exact he
    · rw [without, if_neg hd, List.mem_cons, List.mem_cons, ih hr, or_and_right]
      refine or_congr_left ⟨?_, And.left⟩
      rintro rfl
      exact ⟨rfl, hd⟩

/-- Taking a key gives its value. -/
theorem get?_ofList {key : κ} {value : ν} {entries : List (κ × ν)}
    (h : Distinct ((key, value) :: entries)) :
    get? key (ofList ((key, value) :: entries)) = some value :=
  get?_of_mem (ofList_sorted _).distinct ((ofList_perm h).mem_iff.2 List.mem_cons_self)

/-- Taking a key leaves the other entries. -/
theorem without_ofList {key : κ} {value : ν} {entries : List (κ × ν)}
    (h : Distinct ((key, value) :: entries)) :
    without key (ofList ((key, value) :: entries)) = ofList entries := by
  have hm : (key, value) ∈ ofList ((key, value) :: entries) :=
    (ofList_perm h).mem_iff.2 List.mem_cons_self
  -- both sides are in order, so it is enough that they have the same entries
  have hp := (without_perm (ofList_sorted _).distinct hm).trans (ofList_perm h)
  have hs : Sorted (without key (ofList ((key, value) :: entries))) :=
    (ofList_sorted ((key, value) :: entries)).sublist (without_sublist _ _)
  refine hs.eq_of_perm (ofList_sorted _) ?_
  exact (hp.cons_inv).trans (ofList_perm (Distinct.cons_iff.1 h).2).symm

end Rim.Keyed
