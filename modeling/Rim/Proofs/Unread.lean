import Rim.Proofs.Keyed
import Rim.Proofs.Result

/-!
# Reading maps field by field

A step of reading is described by the fields that it finds, the value that it gives and the fields
that it leaves. Descriptions of steps compose as the steps do, so that a reading of a whole map is
described field by field.

* `readAll_eq_ok`: what it takes to read a whole map.
* `Gives`: a property of whatever a step gives.
* `Reads`: what a step finds, gives and leaves.
* `Reads.bind`, `Reads.takeWith`, `Reads.requireWith`: the descriptions of the steps.
* `Reads.takeList`: the description of a step that takes a list which may be left out.
* `Reads.readAll`: a reading that leaves no field reads the whole map.
-/

namespace Rim.Unread

open Std Keyed

variable {κ ν α β : Type}

/-! ### What a step gives -/

section

variable {p : Taking κ ν α} {q : α → Taking κ ν β} {a : α} {P : α → Prop} {Q : β → Prop}

/-- A whole map is read by steps that leave nothing of it. -/
theorem readAll_eq_ok {unexpected : κ → String} {u : Unread κ ν} :
    readAll unexpected p u = .ok a ↔ ∃ rest, p u = .ok (a, rest) ∧ rest.entries = [] := by
  constructor
  · intro h
    obtain ⟨⟨b, v⟩, hb, h⟩ := Result.bind_eq_ok.1 h
    obtain ⟨⟨c, rest⟩, hp, hb⟩ := Result.bind_eq_ok.1 hb
    obtain ⟨⟨_, w⟩, hf, hb⟩ := Result.bind_eq_ok.1 hb
    obtain ⟨rfl, rfl⟩ := Prod.mk.inj (Except.ok.inj hb)
    obtain rfl := Except.ok.inj h
    refine ⟨rest, hp, ?_⟩
    unfold finish at hf
    split at hf
    · assumption
    · cases hf
  · rintro ⟨rest, hp, hn⟩
    have hf : finish unexpected rest = .ok ((), rest) := by
      unfold finish
      rw [hn]
    unfold readAll
    show (p u >>= _) >>= _ = _
    rw [hp]
    show (finish unexpected rest >>= _) >>= _ = _
    rw [hf]
    rfl

/-- Whatever a step gives of a map has a property. -/
def Gives (p : Taking κ ν α) (P : α → Prop) : Prop := ∀ u a rest, p u = .ok (a, rest) → P a

theorem Gives.pure (h : P a) : Gives (Pure.pure a : Taking κ ν α) P := by
  intro u b rest hp
  obtain ⟨rfl, -⟩ := Prod.mk.inj (Except.ok.inj hp)
  exact h

theorem Gives.ofResult {r : Result α} (h : ∀ a, r = .ok a → P a) : Gives (r : Taking κ ν α) P := by
  intro u a rest hp
  obtain ⟨b, hb, hp⟩ := Result.bind_eq_ok.1 hp
  obtain ⟨rfl, -⟩ := Prod.mk.inj (Except.ok.inj hp)
  exact h b hb

theorem Gives.bind (hp : Gives p P) (hq : ∀ a, P a → Gives (q a) Q) : Gives (p >>= q) Q := by
  intro u b rest h
  obtain ⟨⟨a, u'⟩, ha, h⟩ := Result.bind_eq_ok.1 h
  exact hq a (hp u a u' ha) u' b rest h

/-- What an earlier step gives may not matter. -/
theorem Gives.skip (hq : ∀ a, Gives (q a) Q) : Gives (p >>= q) Q :=
  .bind (P := fun _ => True) (fun _ _ _ _ => trivial) fun a _ => hq a

theorem Gives.readAll (hp : Gives p P) {unexpected : κ → String} {u : Unread κ ν}
    (h : readAll unexpected p u = .ok a) : P a := by
  obtain ⟨rest, h, -⟩ := readAll_eq_ok.1 h
  exact hp u a rest h

end

/-! ### What a step finds, gives and leaves -/

variable [Ord κ]

/-- Reading by `p` finds `fields`, gives `a` and leaves `rest`, whatever the map is. -/
def Reads (p : Taking κ ν α) (fields : List (κ × Option ν)) (a : α) (rest : List (κ × Option ν)) :
    Prop :=
  Distinct fields → Distinct rest ∧
    ∀ what, p ⟨what, ofFields fields⟩ = .ok (a, ⟨what, ofFields rest⟩)

variable {p : Taking κ ν α} {q : α → Taking κ ν β}
variable {fields others rest : List (κ × Option ν)} {key : κ} {value : ν} {a : α} {b : β}

theorem Reads.pure (a : α) (fields : List (κ × Option ν)) :
    Reads (Pure.pure a) fields a fields := fun h => ⟨h, fun _ => rfl⟩

/-- **Steps compose.** -/
theorem Reads.bind (hp : Reads p fields a others) (hq : Reads (q a) others b rest) :
    Reads (p >>= q) fields b rest := by
  intro h
  obtain ⟨ho, hp⟩ := hp h
  obtain ⟨hr, hq⟩ := hq ho
  refine ⟨hr, ?_⟩
  intro what
  show (p ⟨what, ofFields fields⟩ >>= fun s => q s.1 s.2) = _
  rw [hp]
  exact hq what

/-- A step whose result a function is applied to. -/
theorem Reads.map (f : α → β) (hp : Reads p fields a rest) :
    Reads (f <$> p) fields (f a) rest := by
  intro h
  obtain ⟨hr, hp⟩ := hp h
  refine ⟨hr, ?_⟩
  intro what
  show (p ⟨what, ofFields fields⟩ >>= fun s => Pure.pure (f s.1, s.2)) = _
  rw [hp]
  rfl

/-- A reading of what was taken that does not fail. -/
theorem Reads.ofResult {r : Result α} (hr : r = .ok a) (fields : List (κ × Option ν)) :
    Reads (r : Taking κ ν α) fields a fields := by
  rw [hr]
  exact fun h => ⟨h, fun _ => rfl⟩

/-- A step takes the whole rest. -/
theorem Reads.takeRest (fields : List (κ × Option ν)) :
    Reads (takeRest : Taking κ ν _) fields (ofFields fields) [] := fun _ =>
  ⟨List.Pairwise.nil, fun _ => rfl⟩

/-- A reading that leaves no field reads the whole map. -/
theorem Reads.readAll {unexpected : κ → String} {what : String} (hp : Reads p fields a [])
    (h : Distinct fields) : readAll unexpected p ⟨what, ofFields fields⟩ = .ok a := by
  unfold Unread.readAll
  show (p ⟨what, ofFields fields⟩ >>= _) >>= _ = _
  rw [(hp h).2 what]
  rfl

/-! ### Taking a field of any map -/

/-- The map without the entry of a key. -/
def dropping (u : Unread κ ν) (key : κ) : Unread κ ν := { u with entries := without key u.entries }

section

variable {u : Unread κ ν} {read : ν → Result α} {field : String}

theorem takeWith_of_none (h : get? key u.entries = none) :
    Unread.takeWith key read u = .ok (none, u.dropping key) := by
  simp only [Unread.takeWith, Unread.take, bind, StateT.bind, Except.bind, h]
  rfl

theorem takeWith_of_some (h : get? key u.entries = some value) :
    Unread.takeWith key read u = (fun a => (some a, u.dropping key)) <$> read value := by
  simp only [Unread.takeWith, Unread.take, bind, StateT.bind, Except.bind, h]
  show (some <$> liftM (read value) : Taking κ ν (Option α)) (u.dropping key) = _
  cases read value <;> rfl

theorem require_of_none (h : get? key u.entries = none) :
    Unread.require key field u = .error (.missingField (u.what ++ " " ++ field)) := by
  simp only [Unread.require, Unread.take, bind, StateT.bind, Except.bind, h]
  rfl

theorem require_of_some (h : get? key u.entries = some value) :
    Unread.require key field u = .ok (value, u.dropping key) := by
  simp only [Unread.require, Unread.take, bind, StateT.bind, Except.bind, h]
  rfl

/-- Taking a field reads its value, if it has one, and drops its entry. -/
theorem takeWith_eq_ok {o : Option α} {u' : Unread κ ν}
    (h : Unread.takeWith key read u = .ok (o, u')) :
    u' = u.dropping key ∧
      ((o = none ∧ get? key u.entries = none) ∨
        ∃ v a, o = some a ∧ get? key u.entries = some v ∧ read v = .ok a) := by
  cases hg : get? key u.entries with
  | none =>
    rw [takeWith_of_none hg] at h
    obtain ⟨rfl, rfl⟩ := Prod.mk.inj (Except.ok.inj h)
    exact ⟨rfl, .inl ⟨rfl, rfl⟩⟩
  | some v =>
    rw [takeWith_of_some hg] at h
    obtain ⟨a, ha, h⟩ := Result.map_eq_ok.1 h
    obtain ⟨rfl, rfl⟩ := Prod.mk.inj h
    exact ⟨rfl, .inr ⟨v, a, rfl, rfl, ha⟩⟩

/-- A field that has to be there is taken like one that need not be, and is there or missed. -/
theorem requireWith_bind (key : κ) (field : String) (read : ν → Result α) (q : α → Taking κ ν β) :
    Unread.requireWith key field read >>= q = Unread.takeWith key read >>= fun o =>
      match o with
      | some a => q a
      | none => fun u => .error (.missingField (u.what ++ " " ++ field)) := by
  funext u
  show _ = (Unread.takeWith key read u >>= _)
  cases h : get? key u.entries with
  | none =>
    rw [takeWith_of_none h]
    simp only [Unread.requireWith, Unread.require, Unread.take, bind, StateT.bind, Except.bind, h]
    rfl
  | some v =>
    rw [takeWith_of_some h]
    simp only [Unread.requireWith, Unread.require, Unread.take, bind, StateT.bind, Except.bind, h]
    show ((liftM (read v) : Taking κ ν α) (u.dropping key) >>= fun s => q s.1 s.2) = _
    cases read v <;> rfl

/-- A field that has to be there is there, and taking it drops its entry. -/
theorem requireWith_eq_ok {u' : Unread κ ν}
    (h : Unread.requireWith key field read u = .ok (a, u')) :
    u' = u.dropping key ∧ ∃ v, get? key u.entries = some v ∧ read v = .ok a := by
  rw [← bind_pure (Unread.requireWith key field read), requireWith_bind] at h
  obtain ⟨⟨o, w⟩, ho, h⟩ := Result.bind_eq_ok.1 h
  obtain ⟨rfl, ⟨rfl, -⟩ | ⟨v, b, rfl, hg, hb⟩⟩ := takeWith_eq_ok ho
  · cases h
  · obtain ⟨rfl, rfl⟩ := Prod.mk.inj (Except.ok.inj h)
    exact ⟨rfl, v, hg, hb⟩

theorem require_eq_ok {u' : Unread κ ν} (h : Unread.require key field u = .ok (value, u')) :
    u' = u.dropping key ∧ get? key u.entries = some value := by
  cases hg : get? key u.entries with
  | none =>
    rw [require_of_none hg] at h
    cases h
  | some v =>
    rw [require_of_some hg] at h
    obtain ⟨rfl, rfl⟩ := Prod.mk.inj (Except.ok.inj h)
    exact ⟨rfl, rfl⟩

end

variable [TransOrd κ]

/-- The fields may be found in any order. -/
theorem Reads.of_perm (hf : fields.Perm others) (hp : Reads p others a rest) :
    Reads p fields a rest := by
  intro h
  obtain ⟨hr, hp⟩ := hp (h.of_perm hf)
  refine ⟨hr, ?_⟩
  intro what
  rw [← hp what, ofFields, ofList_eq_of_perm h.present (hf.filterMap _)]
  rfl

/-- A field behind others may be taken first. -/
theorem Reads.front (before : List (κ × Option ν)) {f : κ × Option ν}
    {after : List (κ × Option ν)} (hp : Reads p (f :: (before ++ after)) a rest) :
    Reads p (before ++ f :: after) a rest := hp.of_perm List.perm_middle

/-- Taking a field gives its value, if it has one, and leaves the others. -/
theorem Reads.take (key : κ) (o : Option ν) (fields : List (κ × Option ν)) :
    Reads (take key) ((key, o) :: fields) o fields := by
  intro h
  obtain ⟨hf, hr⟩ := Distinct.cons_iff.1 h
  refine ⟨hr, ?_⟩
  intro what
  unfold Unread.take ofFields
  cases o with
  | none =>
    -- a field without a value is no entry, and no other field has its key
    have hfresh : Fresh key (ofList (present fields)) := by
      intro e he
      have hmem : e ∈ present fields := (ofList_perm hr.present).mem_iff.1 he
      exact Fresh.present hf e hmem
    rw [present_none, get?_of_fresh hfresh, without_of_fresh hfresh]
  | some value =>
    have hd : Distinct ((key, value) :: present fields) := h.present
    rw [present_some, get?_ofList hd, without_ofList hd]

/-- A field that has to be there and is. -/
theorem Reads.require (key : κ) (field : String) (value : ν) (fields : List (κ × Option ν)) :
    Reads (require key field) ((key, some value) :: fields) value fields :=
  (Reads.take key (some value) fields).bind (.pure _ _)

/-- A field that has to be there, is and can be read. -/
theorem Reads.requireWith {field : String} {read : ν → Result α} (hr : read value = .ok a) :
    Reads (requireWith key field read) ((key, some value) :: fields) a fields :=
  (Reads.require key field value fields).bind (.ofResult hr fields)

/-- A field that is there or not, and can be read where it is. -/
theorem Reads.takeWith {write : α → ν} {read : ν → Result α} {o : Option α}
    (hr : ∀ a ∈ o, read (write a) = .ok a) :
    Reads (takeWith key read) ((key, o.map write) :: fields) o fields := by
  refine (Reads.take key (o.map write) fields).bind ?_
  cases o with
  | none => exact .pure _ _
  | some a => exact (Reads.ofResult (hr a rfl) fields).map some

/-! ### Lists that are left out where they are empty -/

/-- A list, unless it is empty. -/
def nonempty? (xs : List α) : Option (List α) := if xs.isEmpty then none else some xs

@[simp] theorem nonempty?_getD (xs : List α) : (nonempty? xs).getD [] = xs := by
  cases xs <;> rfl

/-- A list that may be left out is read back if its members are. -/
theorem Reads.takeList {array : List ν → ν} {items : ν → Result (List ν)}
    (hi : ∀ vs, items (array vs) = .ok vs) {write : α → ν} {read : List ν → Result (List α)}
    {xs : List α} (h : read (xs.map write) = .ok xs) :
    Reads (Unread.takeWith key fun v => do read (← items v))
      ((key, if xs.isEmpty then none else some (array (xs.map write))) :: fields)
      (nonempty? xs) fields := by
  -- an empty list is an optional value that is not there
  have ho : (if xs.isEmpty then none else some (array (xs.map write))) =
      (nonempty? xs).map fun ys => array (ys.map write) := by
    cases xs <;> rfl
  rw [ho]
  refine .takeWith ?_
  intro ys hy
  cases xs with
  | nil => cases hy
  | cons x r =>
    obtain rfl := Option.some.inj hy
    rw [hi]
    exact h

end Rim.Unread
