import Rim.Cose.Sign1
import Mathlib.Data.List.Nodup

/-!
# What a header says

A header is read parameter by parameter. A parameter with a rule of its own says one thing of the
header whatever stands beside it, and the layers of further signatures say nothing.

* `Header.Sets`: what setting one parameter does.
* `Header.parameter?`: the value of a label.
* `Header.Describes`: what a map says of the header that it holds.
* `Header.ofOctets?_unique`: the layers of further signatures say nothing.
* `Sign1.parse?_eq_some`: what octets say of the object that they write.
-/

namespace Rim.Cose

open Cbor (Value Entries)

namespace Header

/-! ### One parameter -/

/-- The labels of the parameters that have rules of their own. -/
def common : List Label := [1, 2, 3, 4, 5, 6, 7].map .number

/-- What setting a parameter does to a header. -/
inductive Sets (h : Header) (v : Value) : Label → Header → Prop
  | algorithm {a : AlgorithmLabel} (ha : algorithm? v = some a) :
      Sets h v (.number 1) { h with algorithm := some a }
  | critical : Sets h v (.number 2) h
  | contentType {t : ContentType} (ht : contentType? v = some t) :
      Sets h v (.number 3) { h with contentType := some t }
  | keyId {b : Bytes} (hb : octets? v = some b) : Sets h v (.number 4) { h with keyId := b }
  | iv {b : Bytes} (hb : octets? v = some b) : Sets h v (.number 5) { h with iv := b }
  | partialIv {b : Bytes} (hb : octets? v = some b) :
      Sets h v (.number 6) { h with partialIv := b }
  | signatures : Sets h v (.number 7) h
  | further {label : Label} (hl : label ∉ common) :
      Sets h v label { h with rest := h.rest ++ [(label, v)] }

variable {read : Value → Option Header} {g h : Header} {label : Label} {v : Value}

theorem sets_of_set (hs : Header.set read g label v = some h) : Sets g v label h := by
  unfold Header.set at hs
  split at hs
  · obtain ⟨a, ha, hh⟩ := Option.bind_eq_some_iff.1 hs
    exact Option.some.inj hh ▸ .algorithm ha
  · exact Option.some.inj (Option.ite_none_right_eq_some.1 hs).2 ▸ .critical
  · obtain ⟨t, ht, hh⟩ := Option.bind_eq_some_iff.1 hs
    exact Option.some.inj hh ▸ .contentType ht
  · obtain ⟨b, hb, hh⟩ := Option.bind_eq_some_iff.1 hs
    exact Option.some.inj hh ▸ .keyId hb
  · obtain ⟨b, hb, hh⟩ := Option.bind_eq_some_iff.1 hs
    exact Option.some.inj hh ▸ .iv hb
  · obtain ⟨b, hb, hh⟩ := Option.bind_eq_some_iff.1 hs
    exact Option.some.inj hh ▸ .partialIv hb
  · exact Option.some.inj (Option.ite_none_right_eq_some.1 hs).2 ▸ .signatures
  · -- a label that has come this far is none of the seven
    refine Option.some.inj hs ▸ .further ?_
    simp only [common, List.map_cons, List.map_nil, List.mem_cons, List.not_mem_nil, or_false]
    rintro (rfl | rfl | rfl | rfl | rfl | rfl | rfl) <;> simp_all

/-- Only further signatures are read by a reader of headers. -/
theorem set_eq_of_ne {read' : Value → Option Header} (hl : label ≠ .number 7) :
    Header.set read g label v = Header.set read' g label v := by
  unfold Header.set
  split <;> first | rfl | exact absurd rfl hl

/-- Further signatures say nothing, however they are read. -/
theorem set_unique {read' : Value → Option Header} {h' : Header}
    (hs : Header.set read g label v = some h) (hs' : Header.set read' g label v = some h') :
    h = h' := by
  by_cases hl : label = .number 7
  · subst hl
    have hg := Option.some.inj (Option.ite_none_right_eq_some.1 hs).2
    have hg' := Option.some.inj (Option.ite_none_right_eq_some.1 hs').2
    rw [← hg, ← hg']
  · exact Option.some.inj (hs.symm.trans ((set_eq_of_ne hl).trans hs'))

/-! ### One label of a header -/

/-- The value of a label among labelled values. -/
def lookup? (es : List (Label × Value)) (label : Label) : Option Value :=
  (es.find? fun e => e.1 == label).map (·.2)

theorem lookup?_cons (l : Label) (v : Value) (es : List (Label × Value)) (label : Label) :
    lookup? ((l, v) :: es) label = if l = label then some v else lookup? es label := by
  unfold lookup?
  rw [List.find?_cons]
  by_cases h : l = label
  · rw [if_pos h, h, beq_self_eq_true]
    rfl
  · rw [if_neg h, beq_false_of_ne h]

/-- The parameters of a header, set one after the other. -/
def setAll (read : Value → Option Header) (h : Header) (es : List (Label × Value)) :
    Option Header := es.foldlM (fun h e => Header.set read h e.1 e.2) h

theorem setAll_cons {e : Label × Value} {es : List (Label × Value)} :
    setAll read g (e :: es) = some h ↔
      ∃ f, Header.set read g e.1 e.2 = some f ∧ setAll read f es = some h := by
  unfold setAll
  rw [List.foldlM_cons]
  exact Option.bind_eq_some_iff

theorem setAll_unique {read' : Value → Option Header} {h' : Header} {es : List (Label × Value)}
    (hs : setAll read g es = some h) (hs' : setAll read' g es = some h') : h = h' := by
  induction es generalizing g with
  | nil => exact Option.some.inj (hs.symm.trans hs')
  | cons e r ih =>
    obtain ⟨f, hf, hr⟩ := setAll_cons.1 hs
    obtain ⟨f', hf', hr'⟩ := setAll_cons.1 hs'
    obtain rfl := set_unique hf hf'
    exact ih hr hr'

/-- **What a label says does not depend on the other parameters**: `part` of a header is what
`rule` makes of the label's value, and stays as it was where the label is absent. -/
theorem setAll_part {α : Type} (part : Header → α) (rule : Value → Option α) (label : Label)
    (hrule : ∀ g h v, Sets g v label h → rule v = some (part h))
    (hkeep : ∀ g h v l, Sets g v l h → l ≠ label → part h = part g)
    {es : List (Label × Value)} (hd : (es.map (·.1)).Nodup) (hs : setAll read g es = some h) :
    part h = ((lookup? es label).bind rule).getD (part g) := by
  induction es generalizing g with
  | nil => exact congrArg part (Option.some.inj hs).symm
  | cons e r ih =>
    obtain ⟨l, v⟩ := e
    obtain ⟨f, hf, hr⟩ := setAll_cons.1 hs
    obtain ⟨hl, hd⟩ := List.nodup_cons.1 hd
    rw [ih hd hr, lookup?_cons]
    split
    · rename_i he
      subst he
      -- the label does not come again, so what it said stays
      have hn : lookup? r l = none := by
        unfold lookup?
        rw [Option.map_eq_none_iff, List.find?_eq_none]
        intro d hm hdl
        exact hl (List.mem_map.2 ⟨d, hm, beq_iff_eq.1 hdl⟩)
      rw [hn, Option.bind_some, hrule g f v (sets_of_set hf)]
      rfl
    · rename_i he
      -- another label leaves this part as it was
      rw [hkeep g f v l (sets_of_set hf) he]

theorem find?_eq_lookup? (es : List (Label × Value)) (label : Label) :
    es.find? (·.1 == label) = (lookup? es label).map (label, ·) := by
  unfold lookup?
  cases he : es.find? (·.1 == label) with
  | none => rfl
  | some e =>
    have hl := List.find?_some he
    rw [Option.map_some, Option.map_some, ← beq_iff_eq.1 hl]

/-- The further parameters are kept as they are. -/
theorem setAll_rest {es : List (Label × Value)} (hs : setAll read g es = some h) :
    h.rest = g.rest ++ es.filter fun e => e.1 ∉ common := by
  induction es generalizing g with
  | nil => rw [← Option.some.inj hs, List.filter_nil, List.append_nil]
  | cons e r ih =>
    obtain ⟨f, hf, hr⟩ := setAll_cons.1 hs
    obtain ⟨l, v⟩ := e
    rw [ih hr, List.filter_cons]
    cases sets_of_set hf with
    | further hl => simp [hl]
    | _ => rfl

/-! ### A whole map -/

/-- The value of a label in a map, if it is there. -/
def parameter? (entries : Entries) (label : Label) : Option Value :=
  (entries.find? fun e => label? e.1 == some label).map (·.2)

/-- The labels of entries, each with its entry's value. -/
theorem lookup?_zip {entries : Entries} {labels : List Label} (h : labels? entries = some labels)
    (label : Label) : lookup? (labels.zip (entries.map (·.2))) label = parameter? entries label := by
  unfold labels? at h
  induction entries generalizing labels with
  | nil => cases h; rfl
  | cons e r ih =>
    rw [List.mapM_cons] at h
    obtain ⟨l, hl, h⟩ := Option.bind_eq_some_iff.1 h
    obtain ⟨ls, hls, h⟩ := Option.bind_eq_some_iff.1 h
    obtain rfl := Option.some.inj h
    rw [List.map_cons, List.zip_cons_cons, lookup?_cons, ih hls]
    unfold parameter?
    rw [List.find?_cons, hl, show (some l == some label) = (l == label) from rfl]
    by_cases he : l = label
    · rw [if_pos he, beq_iff_eq.2 he]
      rfl
    · rw [if_neg he, beq_false_of_ne he]

theorem labels?_length {entries : Entries} {labels : List Label}
    (h : labels? entries = some labels) : labels.length = entries.length := by
  unfold labels? at h
  induction entries generalizing labels with
  | nil => cases h; rfl
  | cons e r ih =>
    rw [List.mapM_cons] at h
    obtain ⟨l, -, h⟩ := Option.bind_eq_some_iff.1 h
    obtain ⟨ls, hls, h⟩ := Option.bind_eq_some_iff.1 h
    obtain rfl := Option.some.inj h
    rw [List.length_cons, List.length_cons, ih hls]

/-- What a map says of the header that it holds. -/
structure Describes (entries : Entries) (h : Header) : Prop where
  distinct : ∃ labels, labels? entries = some labels ∧ labels.Nodup
  algorithm : h.algorithm = (parameter? entries (.number 1)).bind algorithm?
  contentType : h.contentType = (parameter? entries (.number 3)).bind contentType?
  keyId : h.keyId = ((parameter? entries (.number 4)).bind octets?).getD []
  further : ∀ label ∉ common,
    h.rest.find? (·.1 == label) = (parameter? entries label).map (label, ·)

theorem ofEntries?_eq_some {entries : Entries} : ofEntries? read entries = some h ↔
    ∃ labels, labels? entries = some labels ∧ labels.Nodup ∧
      setAll read empty (labels.zip (entries.map (·.2))) = some h ∧
      ¬(h.iv ≠ [] ∧ h.partialIv ≠ []) := by
  unfold ofEntries?
  constructor
  · intro he
    obtain ⟨labels, hl, he⟩ := Option.bind_eq_some_iff.1 he
    split at he
    · cases he
    · rename_i hd
      obtain ⟨f, hf, he⟩ := Option.bind_eq_some_iff.1 he
      split at he
      · cases he
      · rename_i hi
        obtain rfl := Option.some.inj he
        exact ⟨labels, hl, not_not.1 hd, hf, hi⟩
  · rintro ⟨labels, hl, hd, hf, hi⟩
    rw [hl]
    show (if ¬labels.Nodup then none else _ : Option Header) = _
    rw [if_neg (not_not.2 hd)]
    show (setAll read empty _).bind _ = _
    rw [hf]
    exact if_neg hi

/-- **A map says all of the header that it holds.** -/
theorem describes_of_ofEntries? {entries : Entries} (he : ofEntries? read entries = some h) :
    Describes entries h := by
  obtain ⟨labels, hl, hd, hs, -⟩ := ofEntries?_eq_some.1 he
  have hlen : labels.length ≤ (entries.map (·.2)).length := by
    have := labels?_length hl
    rw [List.length_map]
    omega
  have hnodup : ((labels.zip (entries.map (·.2))).map (·.1)).Nodup := by
    rw [List.map_fst_zip hlen]
    exact hd
  -- a part that may be absent is absent where its label is
  have hsome {α : Type} (o : Option Value) (rule : Value → Option α) :
      (o.bind fun v => (rule v).map some).getD none = o.bind rule := by
    cases o with
    | none => rfl
    | some v => cases hr : rule v <;> simp [hr]
  refine ⟨⟨labels, hl, hd⟩, ?_, ?_, ?_, fun label hc => ?_⟩
  · rw [← lookup?_zip hl, ← hsome]
    refine setAll_part Header.algorithm _ _ (fun g f v hv => ?_) (fun g f v l hv hne => ?_) hnodup hs
    · cases hv with
      | algorithm ha => rw [ha]; rfl
      | further hc => exact absurd (by decide) hc
    · cases hv with
      | algorithm => exact absurd rfl hne
      | _ => rfl
  · rw [← lookup?_zip hl, ← hsome]
    refine setAll_part Header.contentType _ _ (fun g f v hv => ?_) (fun g f v l hv hne => ?_) hnodup hs
    · cases hv with
      | contentType ht => rw [ht]; rfl
      | further hc => exact absurd (by decide) hc
    · cases hv with
      | contentType => exact absurd rfl hne
      | _ => rfl
  · rw [← lookup?_zip hl]
    refine setAll_part Header.keyId _ _ (fun g f v hv => ?_) (fun g f v l hv hne => ?_) hnodup hs
    · cases hv with
      | keyId hb => exact hb
      | further hc => exact absurd (by decide) hc
    · cases hv with
      | keyId => exact absurd rfl hne
      | _ => rfl
  · have hr : h.rest = [] ++ (labels.zip (entries.map (·.2))).filter fun e => e.1 ∉ common :=
      setAll_rest hs
    -- a label without a rule of its own is not filtered out
    rw [hr, List.nil_append, List.find?_filter, ← lookup?_zip hl, ← find?_eq_lookup?]
    refine congrArg (fun p => List.find? p _) (funext fun e => Bool.eq_iff_iff.2 ?_)
    simp only [decide_eq_true_iff, beq_iff_eq, and_iff_right_iff_imp]
    rintro rfl
    exact hc

/-! ### Whole headers -/

theorem ofValue?_map (layers : Nat) (entries : Entries) :
    ∃ read, ofValue? layers (.map entries) = ofEntries? read entries := by
  cases layers with
  | zero => exact ⟨_, rfl⟩
  | succ n => exact ⟨_, rfl⟩

/-- A header is held by a map only. -/
theorem map_of_ofValue? {layers : Nat} (hv : ofValue? layers v = some h) :
    ∃ entries, v = .map entries := by
  cases layers <;> cases v <;> first | exact ⟨_, rfl⟩ | cases hv

/-- A value holds one header, whatever the layers of further signatures. -/
theorem ofValue?_unique {m n : Nat} {h' : Header} (hv : ofValue? m v = some h)
    (hv' : ofValue? n v = some h') : h = h' := by
  obtain ⟨entries, rfl⟩ := map_of_ofValue? hv
  obtain ⟨read, hread⟩ := ofValue?_map m entries
  obtain ⟨read', hread'⟩ := ofValue?_map n entries
  obtain ⟨labels, hl, -, hs, -⟩ := ofEntries?_eq_some.1 (hread ▸ hv)
  obtain ⟨labels', hl', -, hs', -⟩ := ofEntries?_eq_some.1 (hread' ▸ hv')
  obtain rfl := Option.some.inj (hl.symm.trans hl')
  exact setAll_unique hs hs'

/-- Octets hold one header, whatever the layers of further signatures. -/
theorem ofOctets?_unique {m n : Nat} {b : Bytes} {h' : Header} (hb : ofOctets? m b = some h)
    (hb' : ofOctets? n b = some h') : h = h' := by
  unfold ofOctets? inOctets? at hb hb'
  split at hb
  · rename_i he
    rw [if_pos he] at hb'
    exact Option.some.inj (hb.symm.trans hb')
  · rename_i he
    rw [if_neg he] at hb'
    obtain ⟨v, hp, hv⟩ := Option.bind_eq_some_iff.1 hb
    obtain ⟨v', hp', hv'⟩ := Option.bind_eq_some_iff.1 hb'
    obtain rfl := Option.some.inj (hp.symm.trans hp')
    exact ofValue?_unique hv hv'

/-- **Octets say all of the header that they hold**, unless there are none. -/
theorem describes_of_ofOctets? {layers : Nat} {b : Bytes} (hb : b ≠ [])
    (ho : ofOctets? layers b = some h) :
    ∃ entries, Cbor.parse? envelopes b = some (.map entries) ∧ Describes entries h := by
  unfold ofOctets? inOctets? at ho
  rw [if_neg hb] at ho
  obtain ⟨v, hp, hv⟩ := Option.bind_eq_some_iff.1 ho
  obtain ⟨entries, rfl⟩ := map_of_ofValue? hv
  obtain ⟨read, hread⟩ := ofValue?_map layers entries
  exact ⟨entries, hp, describes_of_ofEntries? (hread ▸ hv)⟩

end Header

/-! ### Objects -/

/-- What octets say of the object that they write. -/
theorem Sign1.parse?_eq_some {b : Bytes} {s : Sign1} : Sign1.parse? b = some s ↔
    ∃ u l, Cbor.parse? envelopes b =
        some (.tag Sign1.tag (.array [.bytes s.headerOctets, u, l, .bytes s.signature])) ∧
      Header.ofOctets? b.length s.headerOctets = some s.header ∧
      (Header.ofValue? b.length u).isSome ∧ Sign1.payload? l = some s.payload := by
  unfold Sign1.parse?
  rw [Option.bind_eq_some_iff]
  constructor
  · rintro ⟨v, hp, hv⟩
    unfold Sign1.ofValue? at hv
    split at hv
    · split at hv
      · cases hv
      · rename_i ht
        obtain ⟨h, hh, hv⟩ := Option.bind_eq_some_iff.1 hv
        obtain ⟨h', hu, hv⟩ := Option.bind_eq_some_iff.1 hv
        obtain ⟨o, ho, hv⟩ := Option.bind_eq_some_iff.1 hv
        obtain rfl := Option.some.inj hv
        obtain rfl := not_not.1 ht
        exact ⟨_, _, hp, hh, Option.isSome_of_eq_some hu, ho⟩
    · cases hv
  · rintro ⟨u, l, hp, hh, hu, ho⟩
    obtain ⟨h', hu⟩ := Option.isSome_iff_exists.1 hu
    refine ⟨_, hp, ?_⟩
    show (if Sign1.tag ≠ Sign1.tag then none else _ : Option Sign1) = _
    rw [if_neg (not_not.2 rfl), hh, hu, ho]
    rfl

end Rim.Cose
