import Rim.Error
import Rim.Proofs.Put

/-!
# Layouts of documents

A layout says how a part of a document is built in a format, from the maps, lists and texts that the
format has: which members a map may have and which it has to have, and what is read of each. It is
data, so that the places of a document can be talked about: what stands under which members, at which
index, in which tag. A layout also says with which kind of error a tree that does not follow it is
refused.

* `Layout.failure?`: why a tree is refused, if it is.
* `Layout.Inside`: a change of one place of a tree, wherever the layout says that there is one.
* `Inside.failure?`: a tree that was not refused is refused, after a change of one place, for what is
  wrong at that place, and not refused if nothing is.
* `failure?_added`: a map with one more entry.
* `failure?_of_null`: no member of a map may be null.
-/

namespace Rim

open Std Keyed

/-- The kind of the failure, if there is one. -/
def Result.failure? {α : Type} : Result α → Option ErrorKind
  | .ok _ => none
  | .error e => some e.kind

/-- The maps and lists of a format, and its value for nothing. -/
class TreeFormat (κ : outParam Type) (ν : Type) where
  map : List (κ × ν) → ν
  list : List ν → ν
  null : ν
  entries? : ν → Option (List (κ × ν))
  items? : ν → Option (List ν)
  entries?_map (entries : List (κ × ν)) : entries? (map entries) = some entries
  items?_list (items : List ν) : items? (list items) = some items
  entries?_null : entries? null = none
  items?_null : items? null = none

open TreeFormat

/-- A part that is read as a whole, and that is not nothing. -/
structure Leaf (ν : Type) {κ : Type} [TreeFormat κ ν] where
  failure? : ν → Option ErrorKind
  null : failure? null ≠ none

/-- How a part under the name of its type is taken out, and that nothing is none. -/
structure Wrapping (ν : Type) {κ : Type} [TreeFormat κ ν] where
  read : ν → Result (String × ν)
  null : (read null).failure? ≠ none

/-- A member of a map. -/
structure Member (κ : Type) (ℓ : Type) where
  key : κ
  required : Bool
  layout : ℓ

/-- How a part of a document is built: as a whole, as a map of members and perhaps of fields that
depend on the key, as a list, as a pair, or under the name of its type. -/
inductive Layout (ν : Type) {κ : Type} [TreeFormat κ ν]
  | leaf (l : Leaf ν)
  | map (members : List (Member κ (Layout ν))) (field? : κ → Option (Leaf ν))
  | list (item : Layout ν)
  | pair (first second : Layout ν)
  | wrapped (w : Wrapping ν) (body : String → Layout ν)

variable {κ ν : Type} [TreeFormat κ ν]

namespace Layout

/-- A map of members only. -/
def object (members : List (Member κ (Layout ν))) : Layout ν := .map members fun _ => none

/-- Why an entry that no member takes is refused, if it is: there is no field for it, or its field
refuses it. -/
def failureOfField (field? : κ → Option (Leaf ν)) (key : κ) (value : ν) : Option ErrorKind :=
  match field? key with
  | some l => l.failure? value
  | none => some .malformed

/-- Why one of the entries that no member takes is refused, if one is. -/
def failureOfRest (field? : κ → Option (Leaf ν)) : List (κ × ν) → Option ErrorKind
  | [] => none
  | (key, value) :: r => (failureOfField field? key value).or (failureOfRest field? r)

section

variable {field? : κ → Option (Leaf ν)}

theorem failureOfField_null (key : κ) : failureOfField field? key null ≠ none := by
  unfold failureOfField
  split
  · exact Leaf.null _
  · exact nofun

theorem failureOfRest_of_null {entries : List (κ × ν)} {key : κ} (h : (key, null) ∈ entries) :
    failureOfRest field? entries ≠ none := by
  induction entries with
  | nil => cases h
  | cons e r ih =>
    rw [failureOfRest, ne_eq, Option.or_eq_none_iff]
    rintro ⟨he, hr⟩
    rcases List.mem_cons.1 h with rfl | h
    · exact failureOfField_null key he
    · exact ih h hr

end

variable [Ord κ]

mutual

/-- Why a tree does not follow a layout, if it does not. -/
def failure? : Layout ν → ν → Option ErrorKind
  | leaf l, v => l.failure? v
  | map members field?, v =>
    match entries? v with
    | some entries => failureOfMembers members field? entries
    | none => some .malformed
  | list item, v =>
    match items? v with
    | some items => items.findSome? item.failure?
    | none => some .malformed
  | pair first second, v =>
    match items? v with
    | some [a, b] => (first.failure? a).or (second.failure? b)
    | _ => some .malformed
  | wrapped w body, v =>
    match w.read v with
    | .ok (type, v) => (body type).failure? v
    | .error e => some e.kind

/-- Why the entries of a map do not follow the layouts of its members, if they do not. -/
def failureOfMembers : List (Member κ (Layout ν)) → (κ → Option (Leaf ν)) → List (κ × ν) →
    Option ErrorKind
  | [], field?, entries => failureOfRest field? entries
  | ⟨key, required, layout⟩ :: r, field?, entries =>
    (match get? key entries with
      | some v => layout.failure? v
      | none => if required then some .missingField else none).or
    (failureOfMembers r field? (without key entries))

end

variable {members : List (Member κ (Layout ν))} {field? : κ → Option (Leaf ν)}

@[simp] theorem failure?_map (entries : List (κ × ν)) :
    (Layout.map members field?).failure? (TreeFormat.map entries) =
      failureOfMembers members field? entries := by
  rw [failure?, entries?_map]

@[simp] theorem failure?_list (item : Layout ν) (items : List ν) :
    (Layout.list item).failure? (TreeFormat.list items) = items.findSome? item.failure? := by
  rw [failure?, items?_list]

@[simp] theorem failure?_pair (first second : Layout ν) (a b : ν) :
    (Layout.pair first second).failure? (TreeFormat.list [a, b]) =
      (first.failure? a).or (second.failure? b) := by
  rw [failure?, items?_list]

theorem failure?_wrapped {w : Wrapping ν} {body : String → Layout ν} {v x : ν} {type : String}
    (h : w.read v = .ok (type, x)) :
    (Layout.wrapped w body).failure? v = (body type).failure? x := by
  rw [failure?, h]

theorem failure?_wrapped_of_some {w : Wrapping ν} {body : String → Layout ν} {v : ν}
    {kind : ErrorKind} (h : (w.read v).failure? = some kind) :
    (Layout.wrapped w body).failure? v = some kind := by
  rw [failure?]
  cases hv : w.read v with
  | ok p =>
    rw [hv] at h
    cases h
  | error e =>
    rw [hv] at h
    exact h

theorem failure?_read_of_wrapped {w : Wrapping ν} {body : String → Layout ν} {v : ν}
    (h : (Layout.wrapped w body).failure? v = none) : (w.read v).failure? = none := by
  cases hv : (w.read v).failure? with
  | none => rfl
  | some kind =>
    rw [failure?_wrapped_of_some hv] at h
    cases h

/-! ### Nothing -/

/-- **No part is nothing.** -/
theorem failure?_null (l : Layout ν) : l.failure? null ≠ none := by
  cases l with
  | leaf l => exact l.null
  | map members field? =>
    rw [failure?, entries?_null]
    exact nofun
  | list item =>
    rw [failure?, items?_null]
    exact nofun
  | pair first second =>
    rw [failure?, items?_null]
    exact nofun
  | wrapped w body =>
    rw [failure?]
    cases h : w.read null with
    | ok p => exact absurd (congrArg Result.failure? h) w.null
    | error e => exact nofun

/-- **No member of a map is nothing**, whatever stands beside it. -/
theorem failureOfMembers_of_null {entries : List (κ × ν)} {key : κ} (h : (key, null) ∈ entries) :
    failureOfMembers members field? entries ≠ none := by
  induction members generalizing entries with
  | nil => exact failureOfRest_of_null h
  | cons m r ih =>
    rw [failureOfMembers, ne_eq, Option.or_eq_none_iff]
    rintro ⟨hm, hr⟩
    -- it is what the first member takes, or is left to the others
    rcases take_cases m.key entries with ⟨-, hw⟩ | ⟨k, v, -, hg, hp⟩
    · rw [hw] at hr
      exact ih h hr
    · rcases List.mem_cons.1 (hp.mem_iff.2 h) with he | he
      · rw [hg, ← (Prod.mk.inj he).2] at hm
        exact m.layout.failure?_null hm
      · exact ih he hr

/-! ### One more entry -/

/-- A key that no member has. -/
def Foreign (members : List (Member κ (Layout ν))) (key : κ) : Prop :=
  ∀ m ∈ members, compare key m.key ≠ .eq

theorem Foreign.of_keys {keys : List κ} {key : κ} (hk : members.map Member.key = keys)
    (h : ∀ k ∈ keys, compare key k ≠ .eq) : Foreign members key := by
  subst hk
  exact fun m hm => h m.key (List.mem_map_of_mem hm)

variable {key : κ} {value : ν} {entries entries' : List (κ × ν)}

theorem failureOfRest_added (h : Put key value none entries entries')
    (hv : failureOfRest field? entries = none) :
    failureOfRest field? entries' = failureOfField field? key value := by
  generalize ho : (none : Option ν) = o at h
  induction h with
  | replaced => cases ho
  | added => rw [failureOfRest, hv, Option.or_none]
  | skip _ _ ih =>
    rw [failureOfRest] at hv ⊢
    obtain ⟨he, hr⟩ := Option.or_eq_none_iff.1 hv
    rw [he, Option.none_or]
    exact ih hr ho

variable [TransOrd κ]

/-- **A map with one more entry** that no member takes is refused if there is no field for it or if
its field refuses it. -/
theorem failureOfMembers_added (h : Put key value none entries entries')
    (hf : Foreign members key) (hv : failureOfMembers members field? entries = none) :
    failureOfMembers members field? entries' = failureOfField field? key value := by
  induction members generalizing entries entries' with
  | nil => exact failureOfRest_added h hv
  | cons m r ih =>
    obtain ⟨hm, hf⟩ := List.forall_mem_cons.1 hf
    rw [failureOfMembers] at hv ⊢
    obtain ⟨hm', hr⟩ := Option.or_eq_none_iff.1 hv
    rw [h.get?_of_ne hm, hm', Option.none_or]
    exact ih (h.without_of_ne hm) hf hr

/-! ### One member changed -/

/-- The member of a key, if there is one. -/
def member? (members : List (Member κ (Layout ν))) (key : κ) : Option (Member κ (Layout ν)) :=
  members.find? fun m => compare key m.key == .eq

/-- **A map with another value of one member** is refused if the new value is. -/
theorem failureOfMembers_changed {m : Member κ (Layout ν)} {old : ν}
    (h : Put key value (some old) entries entries') (hm : member? members key = some m)
    (hv : failureOfMembers members field? entries = none) :
    m.layout.failure? old = none ∧
      failureOfMembers members field? entries' = m.layout.failure? value := by
  induction members generalizing entries entries' with
  | nil => cases hm
  | cons d r ih =>
    rw [failureOfMembers] at hv ⊢
    obtain ⟨hd, hr⟩ := Option.or_eq_none_iff.1 hv
    rw [member?, List.find?_cons] at hm
    split at hm
    · rename_i hk
      obtain rfl := Option.some.inj hm
      have hp := h.of_eq (beq_iff_eq.1 hk)
      rw [hp.get?_before] at hd
      rw [hp.without] at *
      rw [hp.get?, hr, Option.or_none]
      exact ⟨hd, rfl⟩
    · rename_i hk
      have hk : compare key d.key ≠ .eq := by simpa using hk
      rw [h.get?_of_ne hk, hd, Option.none_or]
      exact ih (h.without_of_ne hk) hm hr

/-! ### One place changed -/

/-- The second tree is the first with a change of `R` at one place that the layout has. -/
inductive Inside (R : Layout ν → ν → ν → Prop) : Layout ν → ν → ν → Prop
  | here {l : Layout ν} {v v' : ν} (h : R l v v') : Inside R l v v'
  | member {members : List (Member κ (Layout ν))} {field? : κ → Option (Leaf ν)}
      {m : Member κ (Layout ν)} {entries entries' : List (κ × ν)} {v v' : ν}
      (hm : member? members m.key = some m) (hp : Put m.key v' (some v) entries entries')
      (h : Inside R m.layout v v') :
      Inside R (.map members field?) (TreeFormat.map entries) (TreeFormat.map entries')
  | item {item : Layout ν} {before after : List ν} {v v' : ν} (h : Inside R item v v') :
      Inside R (.list item) (TreeFormat.list (before ++ v :: after))
        (TreeFormat.list (before ++ v' :: after))
  | first {first second : Layout ν} {v v' w : ν} (h : Inside R first v v') :
      Inside R (.pair first second) (TreeFormat.list [v, w]) (TreeFormat.list [v', w])
  | second {first second : Layout ν} {v v' w : ν} (h : Inside R second v v') :
      Inside R (.pair first second) (TreeFormat.list [w, v]) (TreeFormat.list [w, v'])
  | body {w : Wrapping ν} {body : String → Layout ν} {type : String} {t t' v v' : ν}
      (ht : w.read t = .ok (type, v)) (ht' : w.read t' = .ok (type, v'))
      (h : Inside R (body type) v v') : Inside R (.wrapped w body) t t'

namespace Inside

variable {R : Layout ν → ν → ν → Prop} {l : Layout ν} {v v' : ν} {out : Option ErrorKind}

/-- **A change of one place decides.** A tree that follows a layout is refused, after a change of one
place, for what is wrong at that place, and not refused if nothing is. -/
protected theorem failure?
    (hR : ∀ l v v', R l v v' → l.failure? v = none → l.failure? v' = out)
    (h : Inside R l v v') (hv : l.failure? v = none) : l.failure? v' = out := by
  induction h with
  | here h => exact hR _ _ _ h hv
  | member hm hp _ ih =>
    rw [failure?_map] at hv ⊢
    obtain ⟨hold, hnew⟩ := failureOfMembers_changed hp hm hv
    rw [hnew, ih hold]
  | item _ ih =>
    rw [failure?_list, List.findSome?_append, List.findSome?_cons] at hv ⊢
    obtain ⟨hb, hv⟩ := Option.or_eq_none_iff.1 hv
    split at hv
    · cases hv
    · rename_i hold
      rw [hb, Option.none_or, ih hold, hv]
      cases out <;> rfl
  | first _ ih =>
    rw [failure?_pair] at hv ⊢
    obtain ⟨hold, hw⟩ := Option.or_eq_none_iff.1 hv
    rw [ih hold, hw, Option.or_none]
  | second _ ih =>
    rw [failure?_pair] at hv ⊢
    obtain ⟨hw, hold⟩ := Option.or_eq_none_iff.1 hv
    rw [hw, Option.none_or, ih hold]
  | body ht ht' _ ih =>
    rw [failure?_wrapped ht] at hv
    rw [failure?_wrapped ht', ih hv]

omit [TransOrd κ] in
/-- Which failure a change leads to is said by the place, if it leads to one. -/
theorem of_failure (hR : ∀ l v v', R l v v' → l.failure? v' ≠ none) (h : Inside R l v v') :
    ∃ kind, Inside (fun l v v' => R l v v' ∧ l.failure? v' = some kind) l v v' := by
  induction h with
  | here h =>
    obtain ⟨kind, hk⟩ := Option.ne_none_iff_exists'.1 (hR _ _ _ h)
    exact ⟨kind, .here ⟨h, hk⟩⟩
  | member hm hp _ ih => exact ih.imp fun _ => .member hm hp
  | item _ ih => exact ih.imp fun _ => .item
  | first _ ih => exact ih.imp fun _ => .first
  | second _ ih => exact ih.imp fun _ => .second
  | body ht ht' _ ih => exact ih.imp fun _ => .body ht ht'

omit [TransOrd κ] in
/-- A change of the first item. -/
theorem head {after : List ν} (h : Inside R l v v') :
    Inside R (.list l) (TreeFormat.list (v :: after)) (TreeFormat.list (v' :: after)) :=
  @Inside.item _ _ _ _ R l [] after v v' h

omit [TransOrd κ] in
theorem of_leaf {l : Leaf ν} (h : Inside R (.leaf l) v v') : R (.leaf l) v v' := by
  cases h with
  | here h => exact h

omit [TransOrd κ] in
theorem of_map {members : List (Member κ (Layout ν))} {field? : κ → Option (Leaf ν)}
    (h : Inside R (.map members field?) v v') : R (.map members field?) v v' ∨
      ∃ m old value entries entries', member? members m.key = some m ∧
        Put m.key value (some old) entries entries' ∧ Inside R m.layout old value ∧
        v = TreeFormat.map entries ∧ v' = TreeFormat.map entries' := by
  cases h with
  | here h => exact .inl h
  | member hm hp h => exact .inr ⟨_, _, _, _, _, hm, hp, h, rfl, rfl⟩

end Inside

end Layout

end Rim
