import Rim.Manifest.Build
import Rim.Proofs.Comid.Building

/-!
# What manifests and signer metadata are built of

A manifest is built as a module tag is. Metadata is not checked at the end: it is valid as soon as
the signer has a name, and every part keeps it so.

* `Manifest.Holds`, `Meta.Holds`: what holds parts, and nothing but these.
* `Manifest.Sound`: the invariant of a manifest; that of metadata is to be valid.
* `Manifest.builds`, `Meta.builds`: when there is something built, and what it holds.
* `builders_exact`: all builders succeed exactly when they should.
-/

namespace Rim

open Staged (Obeys Builds made made_last_of_none made_some made_list made_fixed made_achieves last
  forall_mem_none forall_mem_some forall_mem_concat)
open Staged.Setter (checked_of_ok checked_of_error thenCheck_of_ok thenCheck_of_error)

/-! ### Manifests -/

namespace ManifestPart

def id? : ManifestPart → Option Identifier
  | id i => some i
  | _ => none

def tag? : ManifestPart → Option EmbeddedTag
  | comid c => some (.comid c)
  | opaqueTag b => some (.opaqueOctets b)
  | _ => none

def dependent? : ManifestPart → Option Locator
  | dependent l => some l
  | _ => none

def profile? : ManifestPart → Option ProfileId
  | profile i => some i
  | _ => none

def validity? : ManifestPart → Option Validity
  | validity v => some v
  | _ => none

def entity? : ManifestPart → Option (Entity ManifestRole)
  | entity e => some e
  | _ => none

end ManifestPart

open ManifestPart in
/-- A manifest that holds parts and nothing else: of identifier, profile and window the last one,
and all tags, locators and entities in order. -/
structure Manifest.Holds (parts : List ManifestPart) (m : Manifest) : Prop where
  id : some m.id = last id? parts
  tags : m.tags = parts.filterMap tag?
  dependents : m.dependents = parts.filterMap dependent?
  profile : m.profile = last profile? parts
  validity : m.validity = last validity? parts
  entities : m.entities = parts.filterMap entity?

/-- All that is set is valid, but for the identifier, which need not be set. -/
structure Manifest.Sound (m : Manifest) : Prop where
  tags : ∀ t ∈ m.tags, t.validate = .ok ()
  dependents : ∀ l ∈ m.dependents, l.validate = .ok ()
  profile : ∀ i ∈ m.profile, i.validate = .ok ()
  validity : ∀ v ∈ m.validity, v.validate = .ok ()
  entities : ∀ e ∈ m.entities, e.validate = .ok ()

theorem Manifest.sound_blank : blank.Sound where
  tags := List.forall_mem_nil _
  dependents := List.forall_mem_nil _
  profile := forall_mem_none
  validity := forall_mem_none
  entities := List.forall_mem_nil _

namespace ManifestPart

theorem obeys : Obeys put check set Manifest.Sound where
  passes p m _ hp := checked_of_ok hp
  refuses p m e _ hp := congrArg Prod.snd (checked_of_error hp)
  keeps p m h hp := by
    cases p with
    | id i => exact { h with }
    | comid c => exact { h with tags := forall_mem_concat h.tags (Result.context_eq_ok.1 hp) }
    | opaqueTag b => exact { h with tags := forall_mem_concat h.tags hp }
    | dependent l => exact { h with dependents := forall_mem_concat h.dependents hp }
    | profile i => exact { h with profile := forall_mem_some hp }
    | validity v => exact { h with validity := forall_mem_some hp }
    | entity e => exact { h with entities := forall_mem_concat h.entities hp }

/-- The identifier is valid if one is put in. -/
theorem id_made {parts : List ManifestPart} (hparts : ∀ p ∈ parts, p.check = .ok ()) :
    (made set .blank parts).id.validate = .ok () ↔ ∃ p ∈ parts, p.id?.isSome := by
  refine made_achieves (fun m : Manifest => m.id.validate = .ok ())
    (fun p : ManifestPart => p.id?.isSome) (by decide) ?_ ?_
  · intro p m hp
    cases p with
    | id i => exact absurd rfl hp
    | _ => exact .rfl
  · intro p hmem hp m
    cases p with
    | id i => exact hparts _ hmem
    | _ => cases hp

/-- There are tags if one is put in. -/
theorem isEmpty_made (parts : List ManifestPart) :
    ¬(made set .blank parts).tags.isEmpty ↔ ∃ p ∈ parts, p.tag?.isSome := by
  refine made_achieves (fun m : Manifest => ¬m.tags.isEmpty)
    (fun p : ManifestPart => p.tag?.isSome) (by decide) ?_ ?_
  · intro p m hp
    cases p with
    | comid | opaqueTag => exact absurd rfl hp
    | _ => exact .rfl
  · intro p _ hp m
    cases p with
    | comid | opaqueTag => simp [set]
    | _ => cases hp

end ManifestPart

namespace Manifest

open ManifestPart

theorem holds_made {parts : List ManifestPart} (hid : ∃ p ∈ parts, p.id?.isSome) :
    Holds parts (made set .blank parts) where
  id := made_some (fun m : Manifest => m.id) id? (fun p _ => by cases p <;> rfl) hid
  tags := made_list (fun m : Manifest => m.tags) tag? rfl (fun p _ => by cases p <;> rfl) parts
  dependents := made_list (fun m : Manifest => m.dependents) dependent? rfl
    (fun p _ => by cases p <;> rfl) parts
  profile := made_last_of_none (fun m : Manifest => m.profile) profile? rfl
    (fun p _ => by cases p <;> rfl) parts
  validity := made_last_of_none (fun m : Manifest => m.validity) validity? rfl
    (fun p _ => by cases p <;> rfl) parts
  entities := made_list (fun m : Manifest => m.entities) entity? rfl
    (fun p _ => by cases p <;> rfl) parts

/-- **Building a manifest**: there is one of valid parts just if an identifier and a tag are among
them. -/
theorem builds : Builds label check
    (fun parts => (∃ p ∈ parts, p.id?.isSome) ∧ ∃ p ∈ parts, p.tag?.isSome) validate Holds build := by
  refine obeys.builds sound_blank Document.check (fun _ => rfl) ?_
    (fun _ _ h => Document.check_eq_ok.1 h) fun parts hparts => holds_made hparts.1
  intro parts hparts hsound
  rw [Document.check_eq_ok]
  show Manifest.validate _ = _ ↔ _
  rw [validate_eq_ok, id_made hparts, isEmpty_made]
  obtain ⟨htags, hdependents, hprofile, hvalidity, hentities⟩ := hsound
  exact ⟨fun h => ⟨h.1, h.2.1⟩, fun h =>
    ⟨h.1, h.2, htags, hdependents, hprofile, hvalidity, hentities⟩⟩

end Manifest

/-! ### Signer metadata -/

namespace MetaPart

def uri? : MetaPart → Option String
  | uri s => some s
  | _ => none

def validity? : MetaPart → Option Validity
  | validity v => some v
  | _ => none

end MetaPart

open MetaPart in
/-- Metadata that holds a name and parts and nothing else: of URI and window the last one. -/
structure Meta.Holds (name : String) (parts : List MetaPart) (m : Meta) : Prop where
  name : m.signer.name = name
  uri : m.signer.uri = last uri? parts
  validity : m.validity = last validity? parts

theorem SignerInfo.validate_eq_ok {s : SignerInfo} :
    s.validate = .ok () ↔ s.name ≠ "" ∧ s.uri ≠ some "" := by
  simp [validate]

theorem Meta.validate_eq_ok {m : Meta} : m.validate = .ok () ↔
    m.signer.validate = .ok () ∧ ∀ v ∈ m.validity, v.validate = .ok () := by
  simp only [validate, Result.check_eq_ok, Result.context_eq_ok, checkOptional_eq_ok]

namespace MetaPart

/-- What is asked of a URI is what is asked of a signer of that URI who has a name. -/
theorem validate_signer {m : Meta} (h : m.validate = .ok ()) (s : String) :
    ((uri s).set m).signer.validate = (uri s).check := by
  have hname := (SignerInfo.validate_eq_ok.1 (Meta.validate_eq_ok.1 h).1).1
  show (if m.signer.name = "" then _ else if some s = some "" then _ else .ok () : Result Unit) = _
  rw [if_neg hname, check]
  simp only [Option.some.injEq]

theorem obeys : Obeys put check set (fun m => m.validate = .ok ()) where
  passes p m h hp := by
    cases p with
    | uri s =>
      rw [put, thenCheck_of_ok]
      exact (validate_signer h s).trans hp
    | validity v => exact checked_of_ok hp
  refuses p m e h hp := by
    cases p with
    | uri s =>
      rw [put, thenCheck_of_error]
      exact (validate_signer h s).trans hp
    | validity v => exact congrArg Prod.snd (checked_of_error hp)
  keeps p m h hp := by
    obtain ⟨hsigner, hvalidity⟩ := Meta.validate_eq_ok.1 h
    refine Meta.validate_eq_ok.2 ?_
    cases p with
    | uri s => exact ⟨(validate_signer h s).trans hp, hvalidity⟩
    | validity v => exact ⟨hsigner, forall_mem_some hp⟩

end MetaPart

namespace Meta

open MetaPart

variable {name : String}

theorem holds_made (parts : List MetaPart) : Holds name parts (made set (named name) parts) where
  name := made_fixed (fun m : Meta => m.signer.name) (fun p _ => by cases p <;> rfl) parts
  uri := made_last_of_none (fun m : Meta => m.signer.uri) uri? rfl
    (fun p _ => by cases p <;> rfl) parts
  validity := made_last_of_none (fun m : Meta => m.validity) validity? rfl
    (fun p _ => by cases p <;> rfl) parts

/-- A signer without a name is refused, whatever the parts. -/
theorem build_nameless (parts : List MetaPart) :
    build "" parts = .error (.context "signer" (.invalid "signer" "empty name")) := by
  have hstart : (Staged.step ⟨named "", none⟩
      (.apply "signer" (.thenCheck id fun m => m.signer.validate))).error =
        some (.context "signer" (.invalid "signer" "empty name")) := rfl
  show (Staged.run (Staged.step _ _) _).finish = _
  rw [Staged.run_of_error hstart, Staged.finish, hstart]

/-- **Building metadata** of a signer who has a name: there is always some of valid parts. -/
theorem builds (h : name ≠ "") :
    Builds label check (fun _ => True) validate (Holds name) (build name) := by
  have hvalid : (named name).validate = .ok () :=
    validate_eq_ok.2 ⟨SignerInfo.validate_eq_ok.2 ⟨h, nofun⟩, forall_mem_none⟩
  refine obeys.builds hvalid (fun _ => .ok ()) (fun parts => ?_)
    (fun _ _ _ => iff_of_true rfl trivial) (fun _ h _ => h) fun parts _ => holds_made parts
  -- the signer is checked first, and passes
  have hsigner : (named name).signer.validate = .ok () := (validate_eq_ok.1 hvalid).1
  have hstart : Staged.step ⟨named name, none⟩
      (.apply "signer" (.thenCheck id fun m => m.signer.validate)) = ⟨named name, none⟩ := by
    refine Staged.step_of_passed (thenCheck_of_ok ?_) "signer"
    exact hsigner
  show (Staged.run (Staged.step _ _) _).finish = _
  rw [hstart]
  show _ = (Staged.run _ (parts.map MetaPart.step)).finish >>= fun m => .ok m
  cases (Staged.run ⟨named name, none⟩ (parts.map MetaPart.step)).finish <;> rfl

end Meta

/-! ### All builders -/

/-- **Builders succeed exactly when they should.** With an invalid part, what is returned is the
error of the first one under its label, whatever follows. Of valid parts there is a manifest just if
an identifier and a tag are among them, a module tag just if an identifier and a triple are, a
measurement just if a value is, and metadata always, if the signer has a name. What is built is
valid and holds the parts, and nothing else. -/
theorem builders_exact :
    Builds ManifestPart.label ManifestPart.check
      (fun parts => (∃ p ∈ parts, p.id?.isSome) ∧ ∃ p ∈ parts, p.tag?.isSome)
      Manifest.validate Manifest.Holds Manifest.build ∧
    Builds ComidPart.label ComidPart.check
      (fun parts => (∃ p ∈ parts, p.id?.isSome) ∧ ∃ p ∈ parts, p.IsTriple)
      Comid.validate Comid.Holds Comid.build ∧
    Builds MeasurementPart.label MeasurementPart.check (fun parts => ∃ p ∈ parts, p.IsValue)
      Measurement.validate Measurement.Holds Measurement.build ∧
    (∀ parts, Meta.build "" parts = .error (.context "signer" (.invalid "signer" "empty name"))) ∧
    ∀ name, name ≠ "" → Builds MetaPart.label MetaPart.check (fun _ => True)
      Meta.validate (Meta.Holds name) (Meta.build name) :=
  ⟨Manifest.builds, Comid.builds, Measurement.builds, Meta.build_nameless, fun _ => Meta.builds⟩

/-- A manifest of an identifier and two tags; no module tag without a triple; a serial number that
was put in before it was found to be empty, and a name that is not looked at; and a signer of two
URIs. -/
theorem builders_exact_sample :
    (∃ m, Manifest.build [.opaqueTag [1], .id (.text "acme"), .opaqueTag [2]] = .ok m ∧
      m.validate = .ok () ∧ m.tags = [.opaqueOctets [1], .opaqueOctets [2]]) ∧
    (¬∃ c, Comid.build [.id (.text "acme"), .version 3] = .ok c) ∧
    Measurement.build [.svn 7, .serialNumber "", .name ""] =
      .error (.context "serial number" (.invalid "serial number" "empty serial number")) ∧
    ∃ m, Meta.build "ACME" [.uri "a", .uri "b"] = .ok m ∧ m.signer = ⟨"ACME", some "b"⟩ := by
  obtain ⟨hmanifest, hcomid, hmeasurement, -, hmeta⟩ := builders_exact
  refine ⟨?_, ?_, ?_, ?_⟩
  · obtain ⟨m, hm⟩ := (hmanifest.succeeds [.opaqueTag [1], .id (.text "acme"), .opaqueTag [2]]
      (by simp [ManifestPart.check, EmbeddedTag.validate, Identifier.validate])).2
        ⟨⟨.id (.text "acme"), by simp, rfl⟩, ⟨.opaqueTag [1], by simp, rfl⟩⟩
    obtain ⟨hvalid, hholds⟩ := hmanifest.result _ m hm
    exact ⟨m, hm, hvalid, hholds.tags⟩
  · intro h
    obtain ⟨-, p, hp, htriple⟩ := (hcomid.succeeds [.id (.text "acme"), .version 3]
      (by simp [ComidPart.check, Identifier.validate])).1 h
    simp only [List.mem_cons, List.not_mem_nil, or_false] at hp
    rcases hp with rfl | rfl <;> exact htriple
  · exact hmeasurement.first_invalid [.svn 7] (.serialNumber "") [.name ""] _
      (List.forall_mem_singleton.2 rfl) rfl
  · have hacme := hmeta "ACME" (by decide)
    obtain ⟨m, hm⟩ := (hacme.succeeds [.uri "a", .uri "b"] (by simp [MetaPart.check])).2 trivial
    obtain ⟨-, hholds⟩ := hacme.result _ m hm
    obtain ⟨⟨name, uri⟩, validity⟩ := m
    obtain ⟨rfl, rfl, -⟩ := hholds
    exact ⟨_, hm, rfl⟩

end Rim
