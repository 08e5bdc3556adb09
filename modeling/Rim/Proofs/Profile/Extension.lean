import Rim.Proofs.Catalogue
import Rim.Proofs.Cbor.Fields
import Rim.Proofs.Json.Members
import Rim.Proofs.List

/-!
# Extension values

Entries with distinct keys can be put in place in any order: the values are the same. So the entries
that values add to a map are read back by every schema that has their fields, whatever else it has.

* `Extensions.eq_of_perm`: values are determined by their entries, not by their order.
* `Extensions.mem_insert`: an entry takes the place of the one under its key, and of no other.
* `Extensions.foldl_insert_eq`: entries can be put in place in any order.
* `Field.ofCbor_toCbor`, `Field.ofJson_toJson`: a field reads the values that it allows.
* `Extensions.ofCbor_toCbor`, `Extensions.ofJson_toJson`: a schema reads the values of its fields.
-/

namespace Rim

open Extension (Field Value)
open Std Keyed

namespace Extensions

/-- Values are determined by their entries in any order. -/
theorem eq_of_perm {x y : Extensions} (h : x.entries.Perm y.entries) : x = y := by
  obtain ⟨xs, hx⟩ := x
  obtain ⟨ys, hy⟩ := y
  obtain rfl : xs = ys := by
    refine h.eq_of_pairwise (fun a b _ _ hab hba => ?_) hx hy
    rw [Int64.lt_iff_toInt_lt] at hab hba
    omega
  -- the proofs that the entries are in order are equal once the entries are
  rfl

theorem mem_place_self (e : Extension.Entry) (entries : List Extension.Entry) :
    e ∈ place e entries := by
  induction entries with
  | nil => exact List.mem_cons_self
  | cons c r ih =>
    rw [place]
    split
    · exact List.mem_cons_self
    · split
      · exact List.mem_cons_self
      · exact List.mem_cons_of_mem _ ih

/-- **An entry takes the place of the one under its key**, and of no other. -/
theorem mem_insert {d e : Extension.Entry} {x : Extensions} :
    d ∈ (x.insert e).entries ↔ d = e ∨ d ∈ x.entries ∧ d.field.key ≠ e.field.key := by
  obtain ⟨entries, ordered⟩ := x
  show d ∈ place e entries ↔ d = e ∨ d ∈ entries ∧ _
  induction entries with
  | nil => simp [place]
  | cons c r ih =>
    obtain ⟨hc, hr⟩ := List.pairwise_cons.1 ordered
    rw [place]
    split
    · rename_i hlt
      -- the entry stands in front, under a lesser key than all others
      have hne : ∀ d ∈ c :: r, d.field.key ≠ e.field.key := by
        refine List.forall_mem_cons.2 ⟨(Int64.ne_of_lt hlt).symm, fun d hd => ?_⟩
        exact (Int64.ne_of_lt (Int64.lt_trans hlt (hc d hd))).symm
      rw [List.mem_cons]
      exact or_congr_right ⟨fun hd => ⟨hd, hne d hd⟩, fun hd => hd.1⟩
    · split
      · rename_i heq
        -- it replaces the first one, and all others stand under greater keys
        rw [heq]
        have hne : ∀ d ∈ r, d.field.key ≠ c.field.key := fun d hd => (Int64.ne_of_lt (hc d hd)).symm
        simp only [List.mem_cons]
        refine or_congr_right ⟨fun hd => ⟨.inr hd, hne d hd⟩, ?_⟩
        rintro ⟨rfl | hd, hkey⟩
        · exact absurd rfl hkey
        · exact hd
      · rename_i hneq
        rw [List.mem_cons, List.mem_cons, ih hr]
        constructor
        · rintro (rfl | rfl | ⟨hd, hkey⟩)
          · exact .inr ⟨.inl rfl, fun he => hneq he.symm⟩
          · exact .inl rfl
          · exact .inr ⟨.inr hd, hkey⟩
        · rintro (rfl | ⟨rfl | hd, hkey⟩)
          · exact .inr (.inl rfl)
          · exact .inl rfl
          · exact .inr (.inr ⟨hd, hkey⟩)

/-- An entry of a new key is put in its place without any other being lost. -/
theorem place_perm {e : Extension.Entry} {entries : List Extension.Entry}
    (h : ∀ d ∈ entries, e.field.key ≠ d.field.key) : (place e entries).Perm (e :: entries) := by
  induction entries with
  | nil => exact .refl _
  | cons d r ih =>
    obtain ⟨hd, hr⟩ := List.forall_mem_cons.1 h
    rw [place, if_neg hd]
    split
    · exact .refl _
    · exact ((ih hr).cons d).trans (.swap _ _ _)

theorem foldl_insert_perm {es : List Extension.Entry} {x : Extensions}
    (h : (es ++ x.entries).Pairwise fun d e => d.field.key ≠ e.field.key) :
    (es.foldl insert x).entries.Perm (es ++ x.entries) := by
  induction es generalizing x with
  | nil => exact .refl _
  | cons e r ih =>
    obtain ⟨he, hr⟩ := List.pairwise_cons.1 h
    -- the entry put in place now has a key of its own among all that are there or still to come
    have hp : (x.insert e).entries.Perm (e :: x.entries) :=
      place_perm fun d hd => he d (List.mem_append_right _ hd)
    have hq : (r ++ (x.insert e).entries).Perm (e :: (r ++ x.entries)) :=
      (hp.append_left r).trans List.perm_middle
    exact (ih (hq.symm.pairwise h fun hab hba => hab hba.symm)).trans hq

/-- **Entries can be put in place in any order.** -/
theorem foldl_insert_eq {es : List Extension.Entry} {x : Extensions} (h : es.Perm x.entries) :
    es.foldl insert empty = x := by
  refine eq_of_perm ?_
  have hx : x.entries.Pairwise fun d e => d.field.key ≠ e.field.key :=
    x.ordered.imp fun hlt => Int64.ne_of_lt hlt
  have hes : (es ++ empty.entries).Pairwise fun d e => d.field.key ≠ e.field.key := by
    rw [show es ++ empty.entries = es from List.append_nil es]
    exact h.symm.pairwise hx fun hab hba => hab hba.symm
  refine (foldl_insert_perm hes).trans ?_
  rw [show es ++ empty.entries = es from List.append_nil es]
  exact h

theorem foldlM_insert {τ : Type} (read : τ → Result Extension.Entry) {write : Extension.Entry → τ}
    {es : List Extension.Entry} (h : ∀ e ∈ es, read (write e) = .ok e) (x : Extensions) :
    (es.map write).foldlM (fun x t => do return x.insert (← read t)) x =
      .ok (es.foldl insert x) := by
  induction es generalizing x with
  | nil => rfl
  | cons e r ih =>
    obtain ⟨he, hr⟩ := List.forall_mem_cons.1 h
    rw [List.map_cons, List.foldlM_cons, he]
    exact ih hr (x.insert e)

/-- **Values are read back from their fields** if each entry is read from its own. -/
theorem foldlM_ofFields {κ ν : Type} [Ord κ] [TransOrd κ] (read : κ × ν → Result Extension.Entry)
    {write : Extension.Entry → κ × ν} {x : Extensions} (hd : Distinct (x.entries.map write))
    (h : ∀ e ∈ x.entries, read (write e) = .ok e) :
    (ofFields (x.entries.map fun e => ((write e).1, some (write e).2))).foldlM
      (fun x t => do return x.insert (← read t)) empty = .ok x := by
  -- the fields come in the order of the map's keys, which need not be that of the values
  obtain ⟨es, hes, hp⟩ := exists_map_of_perm (ofFields_map_perm hd)
  rw [hes, foldlM_insert read fun e he => h e (hp.mem_iff.1 he), foldl_insert_eq hp]

end Extensions

/-! ### The binary format -/

/-- A value that a field allows has the field's shape. -/
theorem Extension.Field.fits_of_check {f : Field} {v : Value} (h : f.check v = .ok ()) :
    v.fits f.shape = true := by
  have hfit := (Result.refuse_eq_ok.1 h).1
  simpa using hfit

/-- A field reads the values that it allows. -/
theorem Extension.Field.ofCbor_toCbor {f : Field} {v : Value} (h : f.check v = .ok ()) :
    f.ofCbor v.toCbor = .ok v := by
  have hfit := fits_of_check h
  -- one case for each shape that the value fits
  unfold Field.ofCbor
  generalize f.shape = shape at hfit ⊢
  cases v <;> cases shape <;> first | exact absurd hfit Bool.false_ne_true | skip
  case int.int n =>
    show Value.int <$> (Cbor.Value.ofInt64 n).toInt64 f.name = _
    rw [Cbor.Value.toInt64_ofInt64]
    rfl
  case textSet.textSet items =>
    have hitems : (items.map Cbor.Value.text).mapM (·.toText f.name) = .ok items :=
      mapM_map fun _ _ => rfl
    show Value.textSet <$> (items.map Cbor.Value.text).mapM (·.toText f.name) = _
    rw [hitems]
    rfl
  all_goals rfl

theorem Extension.Value.canonical_toCbor (v : Value) : v.toCbor.Canonical 1 := by
  cases v with
  | uint n => exact .natural n
  | int n => exact .ofInt64 n
  | text s => exact .text s
  | bytes b => exact .bytes b
  | textSet items => exact .array_map .text items

namespace Extensions

variable {schema : List Field}

/-- The fields of values in the binary format. -/
def cborFields (x : Extensions) : List (Int64 × Option Cbor.Value) :=
  x.entries.map fun e => (e.field.key, some e.value.toCbor)

theorem canonical_cborFields (x : Extensions) : Cbor.CanonicalFields 1 x.cborFields :=
  .entries (fun e => e.value.canonical_toCbor) x.entries

/-- A schema finds a field of its own by the key. -/
theorem fieldOfKey?_of_mem (hs : schema.Pairwise Profile.Apart) {f : Field} (hf : f ∈ schema) :
    fieldOfKey? schema (.ofInt64 f.key) = some f := by
  rw [fieldOfKey?, Cbor.Value.toInt?_ofInt64]
  refine find?_of_pairwise (hs.imp fun h he => ?_) hf
  exact h.1 (Int64.toInt_inj.1 he)

/-- The entry of a value in the binary format. -/
def cborEntry (e : Extension.Entry) : Cbor.Value × Cbor.Value :=
  (.ofInt64 e.field.key, e.value.toCbor)

theorem readEntry_of_mem (hs : schema.Pairwise Profile.Apart) {e : Extension.Entry}
    (hf : e.field ∈ schema) (hv : e.field.check e.value = .ok ()) :
    readEntry schema (cborEntry e).1 (cborEntry e).2 = .ok e := by
  rw [readEntry, cborEntry, fieldOfKey?_of_mem hs hf]
  show (do return ⟨e.field, ← e.field.ofCbor e.value.toCbor⟩ : Result Extension.Entry) = _
  rw [Extension.Field.ofCbor_toCbor hv]
  rfl

/-- **A schema reads the values of its fields back.** -/
theorem ofCbor_toCbor (hs : schema.Pairwise Profile.Apart) {x : Extensions}
    (hf : ∀ e ∈ x.entries, e.field ∈ schema)
    (hv : ∀ e ∈ x.entries, e.field.check e.value = .ok ()) :
    ofCbor schema x.toCbor = .ok x := by
  have hd : Distinct (x.entries.map cborEntry) := by
    refine List.pairwise_map.2 (x.ordered.imp ?_)
    intro d e hlt heq
    exact Int64.ne_of_lt hlt (Cbor.Value.compare_ofInt64.1 heq)
  have h := foldlM_ofFields (fun t => readEntry schema t.1 t.2) hd
    fun e he => readEntry_of_mem hs (hf e he) (hv e he)
  rw [ofCbor, toCbor, Cbor.Entries.ofFields, List.map_map]
  exact h

end Extensions

/-! ### The text format -/

/-- A field reads the values that it allows. -/
theorem Extension.Field.ofJson_toJson {f : Field} {v : Value} (h : f.check v = .ok ()) :
    f.ofJson v.toJson = .ok v := by
  have hfit := fits_of_check h
  -- one case for each shape that the value fits
  unfold Field.ofJson
  generalize f.shape = shape at hfit ⊢
  cases v <;> cases shape <;> first | exact absurd hfit Bool.false_ne_true | skip
  case uint.uint n | uint.uintOrBytes n =>
    show Value.uint <$> (Json.Value.ofUInt64 n).toUInt64 f.name = _
    rw [Json.Value.toUInt64_ofUInt64]
    rfl
  case int.int n =>
    show Value.int <$> (Json.Value.ofInt64 n).toInt64 f.name = _
    rw [Json.Value.toInt64_ofInt64]
    rfl
  case bytes.bytes b =>
    show Value.bytes <$> (Json.Value.ofBytes b).toBytes f.name = _
    rw [Json.Value.toBytes_ofBytes]
    rfl
  case bytes.uintOrBytes b =>
    show Value.bytes <$> Json.octetsOf f.name (String.ofList (Text.Base64.encode b)) = _
    rw [Json.Value.octetsOf_encode]
    rfl
  case textSet.textSet items =>
    have hitems : (items.map Json.Value.string).mapM (·.toText f.name) = .ok items :=
      mapM_map fun _ _ => rfl
    show Value.textSet <$> (items.map Json.Value.string).mapM (·.toText f.name) = _
    rw [hitems]
    rfl
  all_goals rfl

theorem Extension.Value.canonical_toJson (v : Value) : v.toJson.Canonical 1 := by
  cases v with
  | uint n => exact .ofUInt64 n
  | int n => exact .ofInt64 n
  | text s => exact .string s
  | bytes b => exact .ofBytes b
  | textSet items => exact .array_map .string items

namespace Extensions

variable {schema : List Field}

/-- The members of values in the text format. -/
def jsonMembers (x : Extensions) : List (String × Option Json.Value) :=
  x.entries.map fun e => (e.field.name, some e.value.toJson)

theorem canonical_jsonMembers (x : Extensions) : Json.CanonicalMembers 1 x.jsonMembers :=
  .entries (fun e => e.value.canonical_toJson) x.entries

/-- Values of fields of one schema have names of their own, as they have keys of their own. -/
theorem names_distinct (hs : schema.Pairwise Profile.Apart) {x : Extensions}
    (hf : ∀ e ∈ x.entries, e.field ∈ schema) :
    x.entries.Pairwise fun d e => d.field.name ≠ e.field.name := by
  refine x.ordered.imp_of_mem ?_
  intro d e hd he hlt
  -- two fields of the schema that differ in their keys differ in their names
  have hne : d.field ≠ e.field := by
    intro heq
    exact Int64.ne_of_lt hlt (congrArg Field.key heq)
  exact (hs.forall (hf d hd) (hf e he) hne).2

theorem readMember_of_mem (hs : schema.Pairwise Profile.Apart) {e : Extension.Entry}
    (hf : e.field ∈ schema) (hv : e.field.check e.value = .ok ()) :
    readMember schema e.field.name e.value.toJson = .ok e := by
  have hfind : schema.find? (·.name == e.field.name) = some e.field :=
    find?_of_pairwise (hs.imp And.right) hf
  rw [readMember, hfind]
  show (do return ⟨e.field, ← e.field.ofJson e.value.toJson⟩ : Result Extension.Entry) = _
  rw [Extension.Field.ofJson_toJson hv]
  rfl

/-- **A schema reads the values of its fields back.** -/
theorem ofJson_toJson (hs : schema.Pairwise Profile.Apart) {x : Extensions}
    (hf : ∀ e ∈ x.entries, e.field ∈ schema)
    (hv : ∀ e ∈ x.entries, e.field.check e.value = .ok ()) :
    ofJson schema x.toJson = .ok x := by
  have hd : Distinct (x.entries.map fun e => (e.field.name, e.value.toJson)) := by
    refine List.pairwise_map.2 ((names_distinct hs hf).imp ?_)
    intro d e hne heq
    exact hne (LawfulEqOrd.eq_of_compare heq)
  exact foldlM_ofFields (fun t => readMember schema t.1 t.2) hd
    fun e he => readMember_of_mem hs (hf e he) (hv e he)

end Extensions

end Rim
