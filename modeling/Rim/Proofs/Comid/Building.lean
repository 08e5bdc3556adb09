import Rim.Comid.Build
import Rim.Proofs.Document
import Rim.Proofs.Manifest.Rules
import Rim.Proofs.Profile.Extension
import Rim.Proofs.Staged

/-!
# What measurements and module tags are built of

Whatever valid parts are put in, the measurement or tag stays sound: all that is set in it is valid.
The check at the end then asks only for what is missing.

* `Measurement.Holds`, `Comid.Holds`: what holds parts, and nothing but these.
* `MeasurementValues.Sound`, `Comid.Sound`: the invariants; `sound_setValues`, `sound_set`: the
  steps.
* `Measurement.builds`, `Comid.builds`: when there is something built, and what it holds.
-/

namespace Rim

open Staged (Obeys Builds made made_concat made_last_of_none made_some made_list made_fixed made_achieves
  last last_concat forall_mem_none forall_mem_some forall_mem_concat)
open Staged.Setter (ofResult_of_ok ofResult_of_error checked_of_ok checked_of_error thenCheck_of_ok
  thenCheck_of_error)

/-! ### Measurements -/

namespace MeasurementPart

/-- Parts that are values; a key is none. -/
def IsValue : MeasurementPart → Prop
  | key _ => False
  | _ => True

def key? : MeasurementPart → Option Choice
  | key c => some c
  | _ => none

def version? : MeasurementPart → Option Version
  | version v => some v
  | _ => none

/-- An exact and a least security version number go into one slot. -/
def svn? : MeasurementPart → Option Choice
  | svn n => some (.svn n)
  | minSvn n => some (.minSvn n)
  | _ => none

def digest? : MeasurementPart → Option Digest
  | digest d => some d
  | _ => none

/-- A plain and a masked raw value go into one slot. -/
def rawValue? : MeasurementPart → Option Choice
  | rawValue b => some (.bytes b)
  | maskedRawValue v => some (.masked v)
  | _ => none

def serialNumber? : MeasurementPart → Option String
  | serialNumber s => some s
  | _ => none

def ueid? : MeasurementPart → Option Ueid
  | ueid u => some u
  | _ => none

def uuid? : MeasurementPart → Option Uuid
  | uuid u => some u
  | _ => none

def name? : MeasurementPart → Option String
  | name s => some s
  | _ => none

/-- The extension value of a part, if it stands under a key. -/
def entryAt? (key : Int64) : MeasurementPart → Option Extension.Entry
  | extension f v => if f.key = key then some ⟨f, v⟩ else none
  | _ => none

end MeasurementPart

open MeasurementPart in
/-- A measurement that holds parts and nothing else: of each sort the last one, but all digests in
order, and of extension values the last one under each key. -/
structure Measurement.Holds (parts : List MeasurementPart) (m : Measurement) : Prop where
  key : m.key = last key? parts
  version : m.values.version = last version? parts
  svn : m.values.svn = last svn? parts
  digests : m.values.digests =
    if parts.filterMap digest? = [] then none else some (parts.filterMap digest?)
  rawValue : m.values.rawValue = last rawValue? parts
  rawValueMask : m.values.rawValueMask = none
  serialNumber : m.values.serialNumber = last serialNumber? parts
  ueid : m.values.ueid = last ueid? parts
  uuid : m.values.uuid = last uuid? parts
  name : m.values.name = last name? parts
  extensions : ∀ e, e ∈ m.values.extensions.entries ↔ last (entryAt? e.field.key) parts = some e

/-- All that is set is valid, whether anything is set or not. -/
structure MeasurementValues.Sound (v : MeasurementValues) : Prop where
  version : ∀ x ∈ v.version, x.validate = .ok ()
  svn : ∀ x ∈ v.svn, checkSvn x = .ok ()
  digests : ∀ ds ∈ v.digests, Digest.validateAll ds = .ok ()
  rawValue : ∀ x ∈ v.rawValue, checkRawValue x = .ok ()
  rawValueMask : v.rawValueMask = none
  serialNumber : v.serialNumber ≠ some ""
  ueid : ∀ u ∈ v.ueid, u.validate = .ok ()
  uuid : ∀ u ∈ v.uuid, u.validate = .ok ()
  name : v.name ≠ some ""
  extensions : ∀ e ∈ v.extensions.entries, e.field.check e.value = .ok ()

namespace MeasurementValues

theorem sound_empty : empty.Sound where
  version := forall_mem_none
  svn := forall_mem_none
  digests := forall_mem_none
  rawValue := forall_mem_none
  rawValueMask := rfl
  serialNumber := nofun
  ueid := forall_mem_none
  uuid := forall_mem_none
  name := nofun
  extensions := List.forall_mem_nil _

/-- Sound values are valid just if something is set. -/
theorem Sound.validate_eq_ok {v : MeasurementValues} (h : v.Sound) :
    v.validate = .ok () ↔ ¬v.isEmpty := by
  simp only [validate, Result.error_bind, Result.refuse_eq_ok, Result.check_eq_ok,
    Result.context_eq_ok, checkOptional_eq_ok, checkText_eq_ok, Extensions.validate_eq_ok]
  refine ⟨fun hv => hv.1, fun hset => ⟨hset, h.version, h.svn, h.digests, h.rawValue, ?_,
    h.serialNumber, h.ueid, h.uuid, h.name, h.extensions⟩⟩
  rw [h.rawValueMask]
  exact forall_mem_none

end MeasurementValues

/-- The key is valid and so is all else that is set. -/
structure Measurement.Sound (m : Measurement) : Prop where
  key : ∀ x ∈ m.key, x.validate = .ok ()
  values : m.values.Sound

theorem Measurement.sound_empty : empty.Sound where
  key := forall_mem_none
  values := MeasurementValues.sound_empty

namespace MeasurementPart

/-- **A valid part keeps values sound.** -/
theorem sound_setValues {p : MeasurementPart} {v : MeasurementValues} (h : v.Sound)
    (hp : p.check = .ok ()) : (p.setValues v).Sound := by
  cases p with
  | key c => exact h
  | version x => exact { h with version := forall_mem_some hp }
  | svn n => exact { h with svn := forall_mem_some rfl }
  | minSvn n => exact { h with svn := forall_mem_some rfl }
  | digest d =>
    refine { h with digests := forall_mem_some (Digest.validateAll_eq_ok.2 ⟨by simp, ?_⟩) }
    refine List.forall_mem_append.2 ⟨fun x hx => ?_, List.forall_mem_singleton.2 hp⟩
    cases hd : v.digests with
    | none =>
      rw [hd] at hx
      cases hx
    | some ds =>
      rw [hd] at hx
      exact (Digest.validateAll_eq_ok.1 (h.digests ds hd)).2 x hx
  | rawValue b =>
    -- the same rule is asked under another context
    have hb := Result.context_eq_ok.1 hp
    exact { h with rawValue := forall_mem_some (Result.context_eq_ok.2 hb) }
  | maskedRawValue x =>
    have hx := Result.context_eq_ok.1 hp
    exact { h with rawValue := forall_mem_some (Result.context_eq_ok.2 hx) }
  | serialNumber s => exact { h with serialNumber := MeasurementValues.checkText_eq_ok.1 hp }
  | ueid u => exact { h with ueid := forall_mem_some hp }
  | uuid u => exact { h with uuid := forall_mem_some hp }
  | name s => exact { h with name := MeasurementValues.checkText_eq_ok.1 hp }
  | extension f x =>
    refine { h with extensions := fun e he => ?_ }
    rcases Extensions.mem_place he with rfl | he
    · exact hp
    · exact h.extensions e he

/-- A value is set. -/
theorem isEmpty_setValues {p : MeasurementPart} {v : MeasurementValues} (h : p.IsValue) :
    ¬(p.setValues v).isEmpty := by
  cases p with
  | key c => exact h.elim
  | extension f x =>
    have hmem := Extensions.mem_place_self ⟨f, x⟩ v.extensions.entries
    simp [setValues, MeasurementValues.isEmpty, Extensions.insert, List.ne_nil_of_mem hmem]
  | _ => simp [setValues, MeasurementValues.isEmpty]

theorem obeys : Obeys put check set Measurement.Sound where
  passes p m _ hp := by
    cases p with
    | serialNumber s | name s =>
      rw [put]
      exact thenCheck_of_ok hp
    | extension f x =>
      rw [put, ofResult_of_ok]
      rw [Extensions.set, show f.check x = .ok () from hp]
      rfl
    | _ => exact checked_of_ok hp
  refuses p m e _ hp := by
    cases p with
    | serialNumber s | name s =>
      rw [put, thenCheck_of_error]
      exact hp
    | extension f x =>
      rw [put, ofResult_of_error]
      rw [Extensions.set, show f.check x = .error e from hp]
      rfl
    | _ => exact congrArg Prod.snd (checked_of_error hp)
  keeps p m h hp := by
    cases p with
    | key c => exact ⟨forall_mem_some (Result.context_eq_ok.1 hp), h.values⟩
    | _ => exact ⟨h.key, sound_setValues h.values hp⟩

/-- All digests are held, in a list that is there if one of them is. -/
theorem digests_made (parts : List MeasurementPart) : (made set .empty parts).values.digests =
    if parts.filterMap digest? = [] then none else some (parts.filterMap digest?) := by
  induction parts using List.reverseRecOn with
  | nil => rfl
  | append_singleton parts p ih =>
    rw [made_concat, List.filterMap_append]
    cases p with
    | digest d =>
      show some ((made set .empty parts).values.digests.getD [] ++ [d]) =
        if parts.filterMap digest? ++ [d] = [] then none else some (parts.filterMap digest? ++ [d])
      rw [ih, if_neg (List.append_ne_nil_of_right_ne_nil _ (List.cons_ne_nil d []))]
      split
      · rename_i hnil
        rw [hnil]
        rfl
      · rfl
    | _ =>
      rw [List.filterMap_cons_none rfl, List.filterMap_nil, List.append_nil]
      exact ih

theorem entryAt?_eq_some {key : Int64} {p : MeasurementPart} {e : Extension.Entry}
    (h : entryAt? key p = some e) : p = .extension e.field e.value := by
  cases p with
  | extension f x =>
    obtain ⟨-, h⟩ := Option.ite_none_right_eq_some.1 h
    obtain rfl := Option.some.inj h
    rfl
  | _ => cases h

/-- Extension values are held under their keys, each in place of the one before. -/
theorem mem_extensions_made (parts : List MeasurementPart) (e : Extension.Entry) :
    e ∈ (made set .empty parts).values.extensions.entries ↔
      last (entryAt? e.field.key) parts = some e := by
  induction parts using List.reverseRecOn with
  | nil => exact iff_of_false (List.not_mem_nil) nofun
  | append_singleton parts p ih =>
    rw [made_concat, last_concat]
    cases p with
    | extension f x =>
      show e ∈ ((made set .empty parts).values.extensions.insert ⟨f, x⟩).entries ↔
        (if f.key = e.field.key then some (⟨f, x⟩ : Extension.Entry) else none).or _ = _
      rw [Extensions.mem_insert, ih]
      by_cases hkey : f.key = e.field.key
      · rw [if_pos hkey, Option.some_or, Option.some.injEq]
        constructor
        · rintro (rfl | h)
          · rfl
          · exact absurd hkey.symm h.2
        · rintro rfl
          exact .inl rfl
      · rw [if_neg hkey, Option.none_or]
        constructor
        · rintro (rfl | h)
          · exact absurd rfl hkey
          · exact h.1
        · exact fun h => .inr ⟨h, fun he => hkey he.symm⟩
    | _ => exact ih

/-- There are values if one is put in. -/
theorem isEmpty_made (parts : List MeasurementPart) :
    ¬(made set .empty parts).values.isEmpty ↔ ∃ p ∈ parts, p.IsValue := by
  refine made_achieves (fun m : Measurement => ¬m.values.isEmpty) IsValue (by decide) ?_ ?_
  · intro p m hp
    cases p with
    | key c => exact .rfl
    | _ => exact absurd trivial hp
  · intro p _ hp m
    cases p with
    | key c => exact hp.elim
    | _ => exact isEmpty_setValues hp

end MeasurementPart

namespace Measurement

open MeasurementPart

theorem holds_made (parts : List MeasurementPart) : Holds parts (made set .empty parts) where
  key := made_last_of_none (fun m : Measurement => m.key) key? rfl
    (fun p _ => by cases p <;> rfl) parts
  version := made_last_of_none (fun m : Measurement => m.values.version) version? rfl
    (fun p _ => by cases p <;> rfl) parts
  svn := made_last_of_none (fun m : Measurement => m.values.svn) svn? rfl
    (fun p _ => by cases p <;> rfl) parts
  digests := digests_made parts
  rawValue := made_last_of_none (fun m : Measurement => m.values.rawValue) rawValue? rfl
    (fun p _ => by cases p <;> rfl) parts
  rawValueMask := made_fixed (fun m : Measurement => m.values.rawValueMask)
    (fun p _ => by cases p <;> rfl) parts
  serialNumber := made_last_of_none (fun m : Measurement => m.values.serialNumber) serialNumber? rfl
    (fun p _ => by cases p <;> rfl) parts
  ueid := made_last_of_none (fun m : Measurement => m.values.ueid) ueid? rfl
    (fun p _ => by cases p <;> rfl) parts
  uuid := made_last_of_none (fun m : Measurement => m.values.uuid) uuid? rfl
    (fun p _ => by cases p <;> rfl) parts
  name := made_last_of_none (fun m : Measurement => m.values.name) name? rfl
    (fun p _ => by cases p <;> rfl) parts
  extensions := mem_extensions_made parts

/-- **Building a measurement**: there is one of valid parts just if one of them is a value. -/
theorem builds : Builds label check (fun parts => ∃ p ∈ parts, p.IsValue) validate Holds build := by
  refine obeys.builds sound_empty validate (fun _ => rfl) ?_ (fun _ _ h => h)
    fun parts _ => holds_made parts
  intro parts _ hsound
  rw [validate_eq_ok, hsound.values.validate_eq_ok, isEmpty_made]
  exact and_iff_right hsound.key

end Measurement

/-! ### Module tags -/

namespace ComidPart

/-- Parts that are triples. -/
def IsTriple : ComidPart → Prop
  | referenceValue _ _ | endorsedValue _ _ | identityKey _ _ | attestKey _ _ => True
  | _ => False

def language? : ComidPart → Option String
  | language s => some s
  | _ => none

def id? : ComidPart → Option Identifier
  | id i => some i
  | _ => none

def version? : ComidPart → Option UInt64
  | version n => some n
  | _ => none

def entity? : ComidPart → Option (Entity TagRole)
  | entity e => some e
  | _ => none

def referenceValue? : ComidPart → Option ValueTriple
  | referenceValue e m => some ⟨e, [m]⟩
  | _ => none

def endorsedValue? : ComidPart → Option ValueTriple
  | endorsedValue e m => some ⟨e, [m]⟩
  | _ => none

def identityKey? : ComidPart → Option KeyTriple
  | identityKey e keys => some ⟨e, keys⟩
  | _ => none

def attestKey? : ComidPart → Option KeyTriple
  | attestKey e keys => some ⟨e, keys⟩
  | _ => none

end ComidPart

open ComidPart in
/-- A tag that holds parts and nothing else: of language, identifier and version the last one, and
all entities and triples in order. -/
structure Comid.Holds (parts : List ComidPart) (c : Comid) : Prop where
  language : c.language = last language? parts
  id : some c.identity.id = last id? parts
  version : c.identity.version = last version? parts
  entities : c.entities = parts.filterMap entity?
  referenceValues : c.triples.referenceValues = parts.filterMap referenceValue?
  endorsedValues : c.triples.endorsedValues = parts.filterMap endorsedValue?
  identityKeys : c.triples.identityKeys = parts.filterMap identityKey?
  attestKeys : c.triples.attestKeys = parts.filterMap attestKey?

/-- All triples are valid, whether there are any or not. -/
structure Triples.Sound (t : Triples) : Prop where
  referenceValues : ∀ v ∈ t.referenceValues, v.validate = .ok ()
  endorsedValues : ∀ v ∈ t.endorsedValues, v.validate = .ok ()
  identityKeys : ∀ k ∈ t.identityKeys, k.validate = .ok ()
  attestKeys : ∀ k ∈ t.attestKeys, k.validate = .ok ()

/-- All that is set is valid, but for the identifier, which need not be set. -/
structure Comid.Sound (c : Comid) : Prop where
  language : c.language ≠ some ""
  entities : ∀ e ∈ c.entities, e.validate = .ok ()
  triples : c.triples.Sound

theorem Triples.sound_empty : empty.Sound where
  referenceValues := List.forall_mem_nil _
  endorsedValues := List.forall_mem_nil _
  identityKeys := List.forall_mem_nil _
  attestKeys := List.forall_mem_nil _

theorem Comid.sound_blank : blank.Sound where
  language := nofun
  entities := List.forall_mem_nil _
  triples := Triples.sound_empty

namespace ComidPart

/-- **A valid part keeps triples sound.** -/
theorem sound_setTriples {p : ComidPart} {t : Triples} (h : t.Sound) (hp : p.check = .ok ()) :
    (p.setTriples t).Sound := by
  cases p with
  | referenceValue e m => exact { h with referenceValues := forall_mem_concat h.referenceValues hp }
  | endorsedValue e m => exact { h with endorsedValues := forall_mem_concat h.endorsedValues hp }
  | identityKey e keys => exact { h with identityKeys := forall_mem_concat h.identityKeys hp }
  | attestKey e keys => exact { h with attestKeys := forall_mem_concat h.attestKeys hp }
  | _ => exact h

theorem obeys : Obeys put check set Comid.Sound where
  passes p c _ hp := checked_of_ok hp
  refuses p c e _ hp := congrArg Prod.snd (checked_of_error hp)
  keeps p c h hp := by
    cases p with
    | language s =>
      have hs := (Result.refuse_eq_ok.1 hp).1
      exact { h with language := fun he => hs (Option.some.inj he) }
    | id i => exact { h with }
    | version n => exact { h with }
    | entity e => exact { h with entities := forall_mem_concat h.entities hp }
    | _ => exact { h with triples := sound_setTriples h.triples hp }

/-- The identifier is valid if one is put in. -/
theorem id_made {parts : List ComidPart} (hparts : ∀ p ∈ parts, p.check = .ok ()) :
    (made set .blank parts).identity.id.validate = .ok () ↔ ∃ p ∈ parts, p.id?.isSome := by
  refine made_achieves (fun c : Comid => c.identity.id.validate = .ok ())
    (fun p : ComidPart => p.id?.isSome) (by decide) ?_ ?_
  · intro p c hp
    cases p with
    | id i => exact absurd rfl hp
    | _ => exact .rfl
  · intro p hmem hp c
    cases p with
    | id i => exact hparts _ hmem
    | _ => cases hp

/-- There are triples if one is put in. -/
theorem isEmpty_made (parts : List ComidPart) :
    ¬(made set .blank parts).triples.isEmpty ↔ ∃ p ∈ parts, p.IsTriple := by
  refine made_achieves (fun c : Comid => ¬c.triples.isEmpty) IsTriple (by decide) ?_ ?_
  · intro p c hp
    cases p with
    | referenceValue | endorsedValue | identityKey | attestKey => exact absurd trivial hp
    | _ => exact .rfl
  · intro p _ hp c
    cases p with
    | referenceValue | endorsedValue | identityKey | attestKey =>
      simp [set, setTriples, Triples.isEmpty]
    | _ => exact hp.elim

end ComidPart

namespace Comid

open ComidPart

theorem holds_made {parts : List ComidPart} (hid : ∃ p ∈ parts, p.id?.isSome) :
    Holds parts (made set .blank parts) where
  language := made_last_of_none (fun c : Comid => c.language) language? rfl
    (fun p _ => by cases p <;> rfl) parts
  id := made_some (fun c : Comid => c.identity.id) id? (fun p _ => by cases p <;> rfl) hid
  version := made_last_of_none (fun c : Comid => c.identity.version) version? rfl
    (fun p _ => by cases p <;> rfl) parts
  entities := made_list (fun c : Comid => c.entities) entity? rfl
    (fun p _ => by cases p <;> rfl) parts
  referenceValues := made_list (fun c : Comid => c.triples.referenceValues) referenceValue? rfl
    (fun p _ => by cases p <;> rfl) parts
  endorsedValues := made_list (fun c : Comid => c.triples.endorsedValues) endorsedValue? rfl
    (fun p _ => by cases p <;> rfl) parts
  identityKeys := made_list (fun c : Comid => c.triples.identityKeys) identityKey? rfl
    (fun p _ => by cases p <;> rfl) parts
  attestKeys := made_list (fun c : Comid => c.triples.attestKeys) attestKey? rfl
    (fun p _ => by cases p <;> rfl) parts

/-- **Building a module tag**: there is one of valid parts just if an identifier and a triple are
among them. -/
theorem builds : Builds label check
    (fun parts => (∃ p ∈ parts, p.id?.isSome) ∧ ∃ p ∈ parts, p.IsTriple) validate Holds build := by
  refine obeys.builds sound_blank Document.check (fun _ => rfl) ?_
    (fun _ _ h => Document.check_eq_ok.1 h) fun parts hparts => holds_made hparts.1
  intro parts hparts hsound
  rw [Document.check_eq_ok]
  show Comid.validate _ = _ ↔ _
  rw [validate_eq_ok, Triples.validate_eq_ok, id_made hparts, isEmpty_made]
  obtain ⟨hlanguage, hentities, htriples⟩ := hsound
  exact ⟨fun h => ⟨h.2.1, h.2.2.2.1⟩, fun h => ⟨hlanguage, h.1, hentities, h.2,
    htriples.referenceValues, htriples.endorsedValues, htriples.identityKeys, htriples.attestKeys⟩⟩

end Comid

end Rim
