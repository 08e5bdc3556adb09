import Mathlib.Data.List.Nodup
import Rim.Policy
import Rim.Proofs.Staged

/-!
# Overrides of a policy

Each part of a policy has a variable that overrides it, so a policy is a look-up of settings by the
names of variables. A variable that is applied changes what is found under its own name, and nothing
else. So whatever stands in a row of variables, a part is what the last variable of its name says, or
what it was; and where the names are distinct the order has no say.

* `setting?`: a policy as a look-up, and `setting?_set`: a setting stands under its own name.
* `settingOf_cases`: all that a variable can stand for.
* `override_eq_some`: where a row that fails stops, and `stopped_override`: what it leaves behind.
* `Leaves`: what a row that is applied to its end leaves of a policy.
* `override_in_any_order`: rows with distinct names in any order.
-/

namespace Rim.Policy

/-! ### Policies as look-ups -/

/-- The names of the variables that override parts of a policy. -/
def variableNames : List String :=
  ["CORIM_ALLOWED_ALGORITHMS", "CORIM_REQUIRE_META", "CORIM_CHECK_VALIDITY"]

/-- The variable that overrides the part that a setting changes. -/
def Setting.name : Setting → String
  | .algorithms _ => "CORIM_ALLOWED_ALGORITHMS"
  | .requireMeta _ => "CORIM_REQUIRE_META"
  | .checkValidity _ => "CORIM_CHECK_VALIDITY"

/-- The setting that a policy has in the part that a variable overrides. -/
def setting? (p : Policy) (name : String) : Option Setting :=
  if name = "CORIM_ALLOWED_ALGORITHMS" then some (.algorithms p.algorithms)
  else if name = "CORIM_REQUIRE_META" then some (.requireMeta p.requireMeta)
  else if name = "CORIM_CHECK_VALIDITY" then some (.checkValidity p.checkValidity)
  else none

variable {p q : Policy} {name value : String} {s : Setting} {e : Error}
  {vars vars' before after : List (String × String)}

/-- **A setting stands under its own name** and leaves the other parts as they are. -/
theorem setting?_set : (p.set s).setting? name = if name = s.name then some s else p.setting? name := by
  cases s <;> simp only [setting?, set, Setting.name] <;> split_ifs <;> simp_all

@[simp] theorem setting?_algorithms :
    p.setting? "CORIM_ALLOWED_ALGORITHMS" = some (.algorithms p.algorithms) := by
  simp [setting?]

@[simp] theorem setting?_requireMeta :
    p.setting? "CORIM_REQUIRE_META" = some (.requireMeta p.requireMeta) := by
  simp [setting?]

@[simp] theorem setting?_checkValidity :
    p.setting? "CORIM_CHECK_VALIDITY" = some (.checkValidity p.checkValidity) := by
  simp [setting?]

/-- A name overrides no part if it is none of the three. -/
theorem not_mem_variableNames : name ∉ variableNames ↔ name ≠ "CORIM_ALLOWED_ALGORITHMS" ∧
    name ≠ "CORIM_REQUIRE_META" ∧ name ≠ "CORIM_CHECK_VALIDITY" := by
  simp [variableNames]

theorem setting?_of_not_mem (h : name ∉ variableNames) : p.setting? name = none := by
  obtain ⟨ha, hm, hv⟩ := not_mem_variableNames.1 h
  rw [setting?, if_neg ha, if_neg hm, if_neg hv]

/-- A policy is determined by its settings. -/
theorem eq_of_setting? (h : ∀ name, p.setting? name = q.setting? name) : p = q := by
  have ha := h "CORIM_ALLOWED_ALGORITHMS"
  have hm := h "CORIM_REQUIRE_META"
  have hv := h "CORIM_CHECK_VALIDITY"
  simp only [setting?_algorithms, setting?_requireMeta, setting?_checkValidity, Option.some.injEq,
    Setting.algorithms.injEq, Setting.requireMeta.injEq, Setting.checkValidity.injEq] at ha hm hv
  cases p
  cases q
  simp only [mk.injEq]
  exact ⟨ha, hm, hv⟩

/-! ### Single variables -/

/-- The setting that is made of a flag is there if the flag can be read. -/
theorem flag_cases (part : Bool → Setting) (h : ∀ b, (part b).name = name) (value : String) :
    (∃ s : Setting, s.name = name ∧ (some ∘ part) <$> flagOf name value = .ok (some s)) ∨
    ∃ e : Error, e.kind = .config ∧ (some ∘ part) <$> flagOf name value = .error e := by
  unfold flagOf
  dsimp only
  split
  · exact .inl ⟨part true, h true, rfl⟩
  · split
    · exact .inl ⟨part false, h false, rfl⟩
    · exact .inr ⟨_, rfl, rfl⟩

/-- **What a variable can stand for**: nothing under a name that overrides no part, and else a setting
of its part or a failure. -/
theorem settingOf_cases (name value : String) :
    (name ∉ variableNames ∧ settingOf name value = .ok none) ∨
    (∃ s : Setting, s.name = name ∧ settingOf name value = .ok (some s)) ∨
    ∃ e : Error, e.kind = .config ∧ settingOf name value = .error e := by
  unfold settingOf
  by_cases ha : name = "CORIM_ALLOWED_ALGORITHMS"
  · rw [if_pos ha]
    exact .inr (.inl ⟨.algorithms _, ha.symm, rfl⟩)
  by_cases hm : name = "CORIM_REQUIRE_META"
  · rw [if_neg ha, if_pos hm]
    exact .inr (flag_cases .requireMeta (fun _ => hm.symm) value)
  by_cases hv : name = "CORIM_CHECK_VALIDITY"
  · rw [if_neg ha, if_neg hm, if_pos hv]
    exact .inr (flag_cases .checkValidity (fun _ => hv.symm) value)
  · rw [if_neg ha, if_neg hm, if_neg hv]
    exact .inl ⟨not_mem_variableNames.2 ⟨ha, hm, hv⟩, rfl⟩

theorem settingOf_of_not_mem (h : name ∉ variableNames) : settingOf name value = .ok none := by
  obtain ⟨ha, hm, hv⟩ := not_mem_variableNames.1 h
  rw [settingOf, if_neg ha, if_neg hm, if_neg hv]

theorem kind_of_settingOf (h : settingOf name value = .error e) : e.kind = .config := by
  rcases settingOf_cases name value with ⟨-, hs⟩ | ⟨s, -, hs⟩ | ⟨e', hk, hs⟩
  · cases hs.symm.trans h
  · cases hs.symm.trans h
  · cases hs.symm.trans h
    exact hk

/-! ### Rows of variables -/

/-- A variable that can be read is applied, and the others after it. -/
theorem override_cons_of_ok {o : Option Setting} (h : settingOf name value = .ok o) (p : Policy)
    (r : List (String × String)) :
    p.override ((name, value) :: r) = (o.elim p p.set).override r := by
  rw [override, h]
  cases o <;> rfl

/-- One that cannot be read ends the row. -/
theorem override_cons_of_error (h : settingOf name value = .error e) (p : Policy)
    (r : List (String × String)) : p.override ((name, value) :: r) = (p, some e) := by
  rw [override, h]

/-- A row is applied one part after the other. -/
theorem override_append (p : Policy) (before after : List (String × String)) :
    p.override (before ++ after) =
      match p.override before with
      | (q, none) => q.override after
      | (q, some e) => (q, some e) := by
  induction before generalizing p with
  | nil => rfl
  | cons v r ih =>
    obtain ⟨name, value⟩ := v
    rw [List.cons_append]
    cases hs : settingOf name value with
    | error e => rw [override_cons_of_error hs, override_cons_of_error hs]
    | ok o =>
      rw [override_cons_of_ok hs, override_cons_of_ok hs]
      exact ih _

/-- **What one variable does**: its own part becomes what it says, and the others stay. -/
theorem setting?_of_override_single (h : p.override [(name, value)] = (q, none)) :
    settingOf name value = .ok (q.setting? name) ∧
      ∀ other, other ≠ name → q.setting? other = p.setting? other := by
  rcases settingOf_cases name value with ⟨hname, hs⟩ | ⟨s, rfl, hs⟩ | ⟨e, -, hs⟩
  · rw [override_cons_of_ok hs] at h
    obtain rfl : p = q := (Prod.mk.inj h).1
    refine ⟨?_, fun _ _ => rfl⟩
    rw [hs, setting?_of_not_mem hname]
  · rw [override_cons_of_ok hs] at h
    obtain rfl : p.set s = q := (Prod.mk.inj h).1
    refine ⟨?_, fun other hne => ?_⟩
    · rw [hs, setting?_set, if_pos rfl]
    · rw [setting?_set, if_neg hne]
  · rw [override_cons_of_error hs] at h
    cases h

/-- **A row that fails** stops at the first variable that cannot be read. -/
theorem override_eq_some : p.override vars = (q, some e) ↔ ∃ before name value after,
    vars = before ++ (name, value) :: after ∧ p.override before = (q, none) ∧
      settingOf name value = .error e := by
  constructor
  · intro h
    induction vars generalizing p with
    | nil => cases h
    | cons v r ih =>
      obtain ⟨name, value⟩ := v
      cases hs : settingOf name value with
      | error e' =>
        rw [override_cons_of_error hs] at h
        obtain ⟨rfl, he⟩ := Prod.mk.inj h
        obtain rfl := Option.some.inj he
        exact ⟨[], name, value, r, rfl, rfl, hs⟩
      | ok o =>
        -- the row stops further on, and this variable is one of those before that
        rw [override_cons_of_ok hs] at h
        obtain ⟨before, name', value', after, rfl, hbefore, he⟩ := ih h
        refine ⟨(name, value) :: before, name', value', after, rfl, ?_, he⟩
        rw [override_cons_of_ok hs, hbefore]
  · rintro ⟨before, name, value, after, rfl, hbefore, he⟩
    rw [override_append, hbefore]
    exact override_cons_of_error he q after

/-- A row fails with one kind of error, whatever it is that cannot be read. -/
theorem kind_of_override (h : p.override vars = (q, some e)) : e.kind = .config := by
  obtain ⟨_, name, value, _, -, -, he⟩ := override_eq_some.1 h
  exact kind_of_settingOf he

/-- **A row is applied to its end** if each of its variables can be read. -/
theorem override_eq_none : (p.override vars).2 = none ↔
    ∀ v ∈ vars, ∃ o, settingOf v.1 v.2 = .ok o := by
  induction vars generalizing p with
  | nil => exact iff_of_true rfl nofun
  | cons v r ih =>
    obtain ⟨name, value⟩ := v
    rw [List.forall_mem_cons]
    cases hs : settingOf name value with
    | error e =>
      rw [override_cons_of_error hs]
      refine iff_of_false nofun fun hread => ?_
      obtain ⟨o, ho⟩ := hread.1
      cases ho
    | ok o =>
      rw [override_cons_of_ok hs, ih]
      exact (and_iff_right ⟨o, rfl⟩).symm

/-! ### What is left of a policy -/

/-- What the last variable of a name says. -/
def lastValue (name : String) (vars : List (String × String)) : Option String :=
  Staged.last (fun v => if v.1 = name then some v.2 else none) vars

theorem lastValue_concat (n : String) (vars : List (String × String)) (name value : String) :
    lastValue n (vars ++ [(name, value)]) = if name = n then some value else lastValue n vars := by
  rw [lastValue, Staged.last_concat, ← lastValue]
  by_cases hn : name = n
  · rw [if_pos hn, if_pos hn, Option.some_or]
  · rw [if_neg hn, if_neg hn, Option.none_or]

/-- **What a row leaves of a policy**: under each name what the last variable of that name says, or
what was there if there is none. -/
structure Leaves (p : Policy) (vars : List (String × String)) (q : Policy) : Prop where
  named : ∀ name value, lastValue name vars = some value →
    settingOf name value = .ok (q.setting? name)
  unnamed : ∀ name, lastValue name vars = none → q.setting? name = p.setting? name

theorem leaves_of_override (h : p.override vars = (q, none)) : Leaves p vars q := by
  induction vars using List.reverseRecOn generalizing q with
  | nil =>
    obtain ⟨rfl, -⟩ := Prod.mk.inj h
    exact ⟨nofun, fun _ _ => rfl⟩
  | append_singleton r v ih =>
    obtain ⟨name, value⟩ := v
    rw [override_append] at h
    cases hr : p.override r with
    | mk q' o =>
      rw [hr] at h
      cases o with
      | some e => cases h
      | none =>
        have hbefore := ih hr
        obtain ⟨hname, hother⟩ := setting?_of_override_single h
        -- the last variable decides under its own name, and those before it under the others
        constructor
        · intro n text ht
          rw [lastValue_concat] at ht
          by_cases hn : name = n
          · rw [if_pos hn] at ht
            obtain rfl := Option.some.inj ht
            rw [← hn]
            exact hname
          · rw [if_neg hn] at ht
            rw [hother n (Ne.symm hn)]
            exact hbefore.named n text ht
        · intro n ht
          rw [lastValue_concat] at ht
          by_cases hn : name = n
          · rw [if_pos hn] at ht
            cases ht
          · rw [if_neg hn] at ht
            rw [hother n (Ne.symm hn)]
            exact hbefore.unnamed n ht

/-- Rows that say the same last leave the same. -/
theorem Leaves.unique {q' : Policy} (h : Leaves p vars q) (h' : Leaves p vars' q')
    (hlast : ∀ name, lastValue name vars = lastValue name vars') : q = q' := by
  refine eq_of_setting? fun name => ?_
  cases hv : lastValue name vars with
  | none => rw [h.unnamed name hv, h'.unnamed name (hlast name ▸ hv)]
  | some value =>
    have hs := (h.named name value hv).symm.trans (h'.named name value (hlast name ▸ hv))
    exact Except.ok.inj hs

/-- A row leaves a policy as it is if it says what the policy has. -/
theorem Leaves.eq_iff (h : Leaves p vars q) : q = p ↔
    ∀ name value, lastValue name vars = some value → settingOf name value = .ok (p.setting? name) := by
  constructor
  · rintro rfl
    exact h.named
  · intro hp
    refine eq_of_setting? fun name => ?_
    cases hv : lastValue name vars with
    | none => exact h.unnamed name hv
    | some value => exact Except.ok.inj ((h.named name value hv).symm.trans (hp name value hv))

/-- **What a row that fails leaves behind.** It stops at the first variable that cannot be read, and
the policy is then what the variables before that one made of it: unchanged just if these say what
the policy has. -/
theorem stopped_override (h : p.override vars = (q, some e)) : e.kind = .config ∧
    ∃ before name value after, vars = before ++ (name, value) :: after ∧
      settingOf name value = .error e ∧ p.override before = (q, none) ∧
      (q = p ↔ ∀ n text, lastValue n before = some text →
        settingOf n text = .ok (p.setting? n)) := by
  refine ⟨kind_of_override h, ?_⟩
  obtain ⟨before, name, value, after, hvars, hbefore, he⟩ := override_eq_some.1 h
  exact ⟨before, name, value, after, hvars, he, hbefore, (leaves_of_override hbefore).eq_iff⟩

/-- A row that fails at its second variable, and sets what the policy has before that. -/
theorem stopped_override_strict :
    let p : Policy := ⟨["ES256"], true, false⟩
    let vars := [("CORIM_REQUIRE_META", " YES "), ("CORIM_CHECK_VALIDITY", "2"), ("HOME", "/root")]
    ∃ e, p.override vars = (p, some e) ∧ e.kind = .config ∧
      ∃ before name value after, vars = before ++ (name, value) :: after ∧
        settingOf name value = .error e ∧ ∀ n text, lastValue n before = some text →
          settingOf n text = .ok (p.setting? n) := by
  intro p vars
  have h : p.override vars = (p, some (.config
      "CORIM_CHECK_VALIDITY: expecting a boolean, got \"2\"")) := by decide +kernel
  obtain ⟨hkind, before, name, value, after, hvars, he, -, hsame⟩ := stopped_override h
  exact ⟨_, h, hkind, before, name, value, after, hvars, he, hsame.1 rfl⟩

/-- **A failure can leave a weaker policy**: one that no longer asks for metadata. -/
theorem override_half_applied :
    let p : Policy := ⟨["ES256"], true, true⟩
    let vars := [("CORIM_REQUIRE_META", "no"), ("CORIM_CHECK_VALIDITY", "maybe")]
    p.override vars = (⟨["ES256"], false, true⟩, some (.config
      "CORIM_CHECK_VALIDITY: expecting a boolean, got \"maybe\"")) ∧
    (p.override vars).1 ≠ p := by
  decide +kernel

/-! ### Rows in any order -/

theorem lastValue_eq_none : lastValue name vars = none ↔ name ∉ vars.map Prod.fst := by
  rw [lastValue, Staged.last, List.getLast?_eq_none_iff, List.filterMap_eq_nil_iff, List.mem_map]
  constructor
  · rintro h ⟨v, hv, rfl⟩
    have hnone := h v hv
    rw [if_pos rfl] at hnone
    cases hnone
  · intro h v hv
    exact if_neg fun hname => h ⟨v, hv, hname⟩

/-- Where names are distinct, a variable is the last of its name. -/
theorem lastValue_eq_some (hn : (vars.map Prod.fst).Nodup) :
    lastValue name vars = some value ↔ (name, value) ∈ vars := by
  have hmem {text : String} (h : lastValue name vars = some text) : (name, text) ∈ vars := by
    obtain ⟨v, hv, hpick⟩ := Staged.last_eq_some h
    obtain ⟨rfl, htext⟩ := Option.ite_none_right_eq_some.1 hpick
    obtain rfl := Option.some.inj htext
    exact hv
  refine ⟨hmem, fun h => ?_⟩
  cases hv : lastValue name vars with
  | none => exact absurd (List.mem_map_of_mem h) (lastValue_eq_none.1 hv)
  | some text =>
    have heq := List.inj_on_of_nodup_map hn (hmem hv) h rfl
    rw [(Prod.mk.inj heq).2]

theorem lastValue_perm (hn : (vars.map Prod.fst).Nodup) (hp : vars.Perm vars') (name : String) :
    lastValue name vars = lastValue name vars' := by
  have hn' : (vars'.map Prod.fst).Nodup := (hp.map Prod.fst).nodup_iff.1 hn
  refine Option.ext fun value => ?_
  rw [lastValue_eq_some hn, lastValue_eq_some hn', hp.mem_iff]

/-- What no variable of a row names stays, whether or not the row fails. -/
theorem setting?_override (h : name ∉ vars.map Prod.fst) :
    (p.override vars).1.setting? name = p.setting? name := by
  cases ho : p.override vars with
  | mk q o =>
    cases o with
    | none => exact (leaves_of_override ho).unnamed name (lastValue_eq_none.2 h)
    | some e =>
      obtain ⟨before, n, text, after, rfl, hbefore, -⟩ := override_eq_some.1 ho
      rw [List.map_append, List.mem_append, not_or] at h
      exact (leaves_of_override hbefore).unnamed name (lastValue_eq_none.2 h.1)

/-- The second policy has the parts of the first one that a row of variables does not name. -/
structure Keeps (vars : List (String × String)) (p q : Policy) : Prop where
  algorithms : "CORIM_ALLOWED_ALGORITHMS" ∉ vars.map Prod.fst → q.algorithms = p.algorithms
  requireMeta : "CORIM_REQUIRE_META" ∉ vars.map Prod.fst → q.requireMeta = p.requireMeta
  checkValidity : "CORIM_CHECK_VALIDITY" ∉ vars.map Prod.fst → q.checkValidity = p.checkValidity

theorem keeps_override (p : Policy) (vars : List (String × String)) :
    Keeps vars p (p.override vars).1 where
  algorithms h := by simpa using setting?_override (p := p) h
  requireMeta h := by simpa using setting?_override (p := p) h
  checkValidity h := by simpa using setting?_override (p := p) h

/-- A variable that overrides no part may be there or not. -/
theorem override_foreign (h : name ∉ variableNames) (p : Policy) (value : String)
    (before after : List (String × String)) :
    p.override (before ++ (name, value) :: after) = p.override (before ++ after) := by
  have hskip (q : Policy) : q.override ((name, value) :: after) = q.override after :=
    override_cons_of_ok (settingOf_of_not_mem h) q after
  rw [override_append, override_append]
  simp only [hskip]

/-- A row that is applied to its end leaves the same in any order. -/
theorem override_perm (hn : (vars.map Prod.fst).Nodup) (hp : vars.Perm vars')
    (h : p.override vars = (q, none)) : p.override vars' = (q, none) := by
  have hread : ∀ v ∈ vars', ∃ o, settingOf v.1 v.2 = .ok o := by
    intro v hv
    exact override_eq_none.1 (congrArg Prod.snd h) v (hp.mem_iff.2 hv)
  obtain ⟨q', hq'⟩ : ∃ q', p.override vars' = (q', none) :=
    ⟨_, Prod.ext rfl (override_eq_none.2 hread)⟩
  rw [hq', (leaves_of_override h).unique (leaves_of_override hq') (lastValue_perm hn hp)]

/-- A row that fails does so in any order. -/
theorem override_perm_error (hp : vars.Perm vars') (h : p.override vars = (q, some e)) :
    ∃ q' e', p.override vars' = (q', some e') := by
  obtain ⟨before, name, value, after, rfl, -, he⟩ := override_eq_some.1 h
  cases ho : p.override vars' with
  | mk q' o =>
    cases o with
    | some e' => exact ⟨q', e', rfl⟩
    | none =>
      have hmem : (name, value) ∈ vars' := hp.mem_iff.1 (by simp)
      obtain ⟨o, hs⟩ := override_eq_none.1 (congrArg Prod.snd ho) _ hmem
      cases hs.symm.trans he

/-- **The order of variables does not matter** where their names are distinct: a row that can be
applied leaves the same policy in any order, and one that fails does so in any order with the same
kind of error. Variables of other names change nothing, and neither do parts that are not named. -/
theorem override_in_any_order (p : Policy) (hn : (vars.map Prod.fst).Nodup) :
    (∀ vars' q, vars.Perm vars' → p.override vars = (q, none) → p.override vars' = (q, none)) ∧
    (∀ vars' q e, vars.Perm vars' → p.override vars = (q, some e) →
      ∃ q' e', p.override vars' = (q', some e') ∧ e'.kind = .config) ∧
    (∀ before after name value, name ∉ variableNames →
      p.override (before ++ (name, value) :: after) = p.override (before ++ after)) ∧
    Keeps vars p (p.override vars).1 := by
  refine ⟨fun _ _ hp h => override_perm hn hp h, fun vars' q e hp h => ?_,
    fun before after name value h => override_foreign h p value before after, keeps_override p vars⟩
  obtain ⟨q', e', h'⟩ := override_perm_error hp h
  exact ⟨q', e', h', kind_of_override h'⟩

/-- Three variables back to front, one of which overrides nothing. -/
theorem override_in_any_order_reversed :
    let vars := [("CORIM_ALLOWED_ALGORITHMS", "EdDSA, "), ("HOME", "/root"),
      ("CORIM_CHECK_VALIDITY", "yes")]
    (vars.map Prod.fst).Nodup ∧ standard.override vars = (⟨["EdDSA"], false, true⟩, none) ∧
      standard.override vars.reverse = (⟨["EdDSA"], false, true⟩, none) ∧
      (standard.override vars).1.requireMeta = standard.requireMeta := by
  intro vars
  have hn : (vars.map Prod.fst).Nodup := by decide +kernel
  have h : standard.override vars = (⟨["EdDSA"], false, true⟩, none) := by decide +kernel
  obtain ⟨hperm, -, -, hkeeps⟩ := override_in_any_order standard hn
  exact ⟨hn, h, hperm _ _ vars.reverse_perm.symm h, hkeeps.requireMeta (by decide +kernel)⟩

end Rim.Policy
