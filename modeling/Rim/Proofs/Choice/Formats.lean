import Rim.Proofs.Choice.Json

/-!
# Type choices between the two formats

A kind that was registered reads its valid values back from either format, whatever else was registered
before or after it, and a value that was read is valid. So a value that one format gave is written and
read in the other one without a change.

* `Kind.Embedding`: other kinds may be among those of a registry.
* `Registry.holds_of_installs`: a kind that was registered in the course of a run is held at its end.
* `Kind.Embedding.both_formats`: valid values of a registered kind in both formats.
-/

namespace Rim

/-- A family of kinds with these kinds among its own: they have their tags and names there, are read as
here, and keep their rules. -/
structure Kind.Embedding (κ χ : Type) [KindFamily κ χ] [Checkable χ] where
  kind : Kind → κ
  value : Choice → χ
  tag : ∀ k, KindFamily.tag (kind k) = k.tag
  name : ∀ k, KindFamily.name (kind k) = k.name
  ofCbor : ∀ k v, (KindFamily.reader (kind k)).ofCbor v = value <$> k.ofCbor v
  ofJson : ∀ k v, (KindFamily.reader (kind k)).ofJson v = value <$> k.ofJson v
  validate : ∀ x, Checkable.validate (value x) = x.validate

/-- These kinds and no others. -/
def Kind.Embedding.id : Kind.Embedding Kind Choice where
  kind k := k
  value x := x
  tag _ := rfl
  name _ := rfl
  ofCbor k v := (id_map (k.ofCbor v)).symm
  ofJson k v := (id_map (k.ofJson v)).symm
  validate _ := rfl

namespace Registry

variable {κ χ : Type} [KindFamily κ χ] [DecidableEq κ] {calls : List (Call κ χ)} {k : κ}

/-- A call for a kind succeeded in the course of a run. -/
def Installs (calls : List (Call κ χ)) (k : κ) : Prop :=
  ∃ before after r, calls = before ++ .registerKind k :: after ∧ (run before).registerKind k = .ok r

/-- **A kind that was registered is held**, however the run went on. -/
theorem holds_of_installs (h : Installs calls k) : (run calls).holds k := by
  obtain ⟨before, after, r, rfl, hr⟩ := h
  have hcall : run (before ++ [.registerKind k]) = r :=
    (run_concat before (.registerKind k)).trans (call_of_attempt hr)
  have hgrows := run_append_grows (before ++ [.registerKind k]) after
  rw [List.append_assoc, List.singleton_append] at hgrows
  refine hgrows.holds (run_consistent _) (run_consistent _) ?_
  rw [hcall]
  exact holds_of_registerKind (run_consistent before) hr

end Registry

namespace Kind.Embedding

open Registry (Call Installs run)

variable {κ χ : Type} [KindFamily κ χ] [Checkable χ] [DecidableEq κ] (m : Kind.Embedding κ χ)
  {r : Registry κ χ} {x : Choice}

theorem ofCbor_toCbor (hr : r.Consistent) (hk : r.holds (m.kind x.kind)) (hv : x.validate = .ok ()) :
    r.ofCbor x.toCbor = .ok (m.value x) := by
  have hread : (KindFamily.reader (m.kind x.kind)).ofCbor x.body = .ok (m.value x) := by
    rw [m.ofCbor, x.ofCbor_body]
    rfl
  rw [Choice.toCbor, ← m.tag]
  exact Registry.ofCbor_of_holds hr hk hread ((m.validate x).trans hv)

theorem ofJson_toJson (hr : r.Consistent) (hk : r.holds (m.kind x.kind)) (hv : x.validate = .ok ()) :
    r.ofJson x.toJson = .ok (m.value x) := by
  have hread : (KindFamily.reader (m.kind x.kind)).ofJson x.text = .ok (m.value x) := by
    rw [m.ofJson, Choice.ofJson_text hv]
    rfl
  rw [Choice.toJson, ← m.name]
  exact Registry.ofJson_of_holds hr hk hread ((m.validate x).trans hv)

/-- **Both formats give valid values back.** In every run in which the kind of a value was registered, a
valid value is read back from its tagged form and from its typed form. A value that was accepted from
either format, however it was written there, is accepted unchanged from its form in the other one. -/
theorem both_formats (calls : List (Call κ χ)) (x : Choice) (hx : Installs calls (m.kind x.kind)) :
    (x.validate = .ok () → (run calls).ofCbor x.toCbor = .ok (m.value x) ∧
      (run calls).ofJson x.toJson = .ok (m.value x)) ∧
    (∀ v, (run calls).ofCbor v = .ok (m.value x) → (run calls).ofJson x.toJson = .ok (m.value x)) ∧
    ∀ v, (run calls).ofJson v = .ok (m.value x) → (run calls).ofCbor x.toCbor = .ok (m.value x) := by
  have hr := Registry.run_consistent calls
  have hk := Registry.holds_of_installs hx
  refine ⟨fun hv => ⟨m.ofCbor_toCbor hr hk hv, m.ofJson_toJson hr hk hv⟩, fun v h => ?_, fun v h => ?_⟩
  · exact m.ofJson_toJson hr hk ((m.validate x).symm.trans (Registry.validate_of_ofCbor h))
  · exact m.ofCbor_toCbor hr hk ((m.validate x).symm.trans (Registry.validate_of_ofJson h))

/-- A run in which object identifiers are registered, between another reading and one that comes too late
for their tag. -/
def oidRun : List (Call Kind Choice) :=
  [.register 112 "serial" (KindFamily.reader Kind.int), .registerKind .oid,
   .register 111 "number" (KindFamily.reader Kind.int)]

/-- The object identifier 1.2.3. -/
def sampleOid : Choice := .oid ⟨[0x2a, 0x03]⟩

/-- In that run the identifier is read back from both formats, and what its octets give is read from its
dotted notation. -/
theorem both_formats_oidRun :
    (run oidRun).ofCbor (.tag 111 (.bytes [0x2a, 0x03])) = .ok sampleOid ∧
    (run oidRun).ofJson (.typed "oid" (.string "1.2.3")) = .ok sampleOid := by
  have hinstalls : Installs oidRun Kind.oid := ⟨[_], [_], _, rfl, rfl⟩
  obtain ⟨hvalid, hjson, -⟩ := both_formats .id oidRun sampleOid hinstalls
  obtain ⟨hcbor, -⟩ := hvalid (by decide)
  have htext : sampleOid.toJson = .typed "oid" (.string "1.2.3") := rfl
  exact ⟨hcbor, htext ▸ hjson _ hcbor⟩

end Kind.Embedding

end Rim
