import Mathlib.Logic.Relation
import Rim.Proofs.Choice.Oid
import Rim.Proofs.Contents
import Rim.Proofs.Manifest.Digest

/-!
# The rules of the parts of a manifest

A manifest is a tree of parts, from its embedded tags down to the values of type choices. Each sort of
part has a rule of its own, which says nothing about the parts below it. A manifest is valid exactly if
every part keeps its rule, at whatever depth it stands: validation passes no part over and asks for
nothing more.

* `Part`, `Part.parts`: what a manifest is made of, and what stands directly in a part.
* `Part.Rule`: the rule of a part by itself.
* `Part.validate_step`: a part is valid if it keeps its rule and what stands directly in it is valid.
* `Manifest.valid_iff_rules`: a manifest is valid if everything in it keeps its rule.
-/

namespace Rim

/-! ### Values -/

/-- The two high bits of the ninth octet are those of RFC 4122. -/
def Uuid.Rule (u : Uuid) : Prop := ∃ b, u.octets[8]? = some b ∧ 0x80 ≤ b.toNat ∧ b.toNat < 0xc0

theorem Uuid.layout_eq_rfc4122 {u : Uuid} : u.layout = .rfc4122 ↔ u.Rule := by
  have h8 : u.octets[8]? = some (u.octets.get ⟨8, by have := u.length_octets; omega⟩) :=
    List.getElem?_eq_getElem _
  simp only [Rule, h8, Option.some.injEq, exists_eq_left', layout]
  -- each layout has an interval of its own
  split
  · exact iff_of_false (by decide) (by omega)
  · split
    · exact iff_of_true rfl (by omega)
    · split
      · exact iff_of_false (by decide) (by omega)
      · exact iff_of_false (by decide) (by omega)

theorem Uuid.validate_eq_ok {u : Uuid} : u.validate = .ok () ↔ u.Rule := by
  rw [← layout_eq_rfc4122, validate, Result.demand_eq_ok]
  exact and_iff_left rfl

/-- The octets are the digits of at least one number, each number of 64 bits. -/
def Oid.Rule (o : Oid) : Prop := ∃ ns ≠ [], (∀ n ∈ ns, n < 2 ^ 64) ∧ ns.flatMap base128 = o.ber

theorem Oid.validate_eq_ok {o : Oid} : o.validate = .ok () ↔ o.Rule := by
  unfold validate arcs
  rw [Result.bind_eq_ok]
  constructor
  · rintro ⟨arcs, h, -⟩
    obtain ⟨ns, hns, h⟩ := Result.bind_eq_ok.1 h
    obtain ⟨hber, hlt⟩ := numbersFrom_spec hns fun _ => rfl
    refine ⟨ns, ?_, hlt, hber⟩
    rintro rfl
    cases h
  · rintro ⟨ns, hne, hlt, hber⟩
    rw [← hber, numbersFrom_flatMap hlt]
    cases ns with
    | nil => exact absurd rfl hne
    | cons n r => exact ⟨_, rfl, rfl⟩

/-- The first octet names a form, and the length is one of that form's. -/
def Ueid.Rule (u : Ueid) : Prop := ∃ f, u.form? = some f ∧ u.octets.length ∈ f.lengths

theorem Ueid.validate_eq_ok {u : Ueid} : u.validate = .ok () ↔ u.Rule := by
  obtain ⟨octets⟩ := u
  unfold validate Rule form?
  cases octets with
  | nil => exact ⟨nofun, fun ⟨_, h, _⟩ => nomatch h⟩
  | cons b r =>
    dsimp only [List.head?_cons, Option.bind_some]
    cases Form.ofOctet? b with
    | none => exact ⟨nofun, fun ⟨_, h, _⟩ => nomatch h⟩
    | some f => simp

/-- The block of the text carries octets, at least one. -/
def PublicKey.Rule (k : PublicKey) : Prop :=
  ∃ body octets, body? k.pem = some body ∧
    Text.Base64.decode? (Text.dropBlanks body) = some octets ∧ octets ≠ []

theorem PublicKey.validate_eq_ok {k : PublicKey} : k.validate = .ok () ↔ k.Rule := by
  unfold validate der Rule
  cases body? k.pem with
  | none => exact ⟨nofun, fun ⟨_, _, h, _⟩ => nomatch h⟩
  | some body =>
    dsimp only
    cases hd : Text.Base64.decode? (Text.dropBlanks body) with
    | none => simp [hd]
    | some octets => cases octets <;> simp [hd]

/-- There is a value, and it is as long as its mask. -/
def MaskedValue.Rule (x : MaskedValue) : Prop := x.value ≠ [] ∧ x.value.length = x.mask.length

theorem MaskedValue.validate_eq_ok {x : MaskedValue} : x.validate = .ok () ↔ x.Rule := by
  simp [validate, Rule]

/-- The signer is a hash of 32 to 64 octets, and label and version are not empty where set. -/
def ReferenceValueId.Rule (i : ReferenceValueId) : Prop :=
  (32 ≤ i.signer.length ∧ i.signer.length ≤ 64) ∧ i.label ≠ some "" ∧ i.version ≠ some ""

theorem ReferenceValueId.validate_eq_ok {i : ReferenceValueId} : i.validate = .ok () ↔ i.Rule := by
  simp [validate, Rule]

namespace Choice

/-- The rule of the kind of a value. -/
def Rule : Choice → Prop
  | uuid u => u.Rule
  | oid o => o.Rule
  | ueid u => u.Rule
  | int _ | svn _ | minSvn _ | implementationId _ => True
  | publicKey k => k.Rule
  | bytes b => b ≠ []
  | masked x => x.Rule
  | referenceValueId i => i.Rule

theorem validate_eq_ok {x : Choice} : x.validate = .ok () ↔ x.Rule := by
  cases x with
  | uuid u => exact Uuid.validate_eq_ok
  | oid o => exact Oid.validate_eq_ok
  | ueid u => exact Ueid.validate_eq_ok
  | int | svn | minSvn | implementationId => exact ⟨fun _ => trivial, fun _ => rfl⟩
  | publicKey k => exact PublicKey.validate_eq_ok
  | bytes b => simp [validate, Rule]
  | masked x => exact MaskedValue.validate_eq_ok
  | referenceValueId i => exact ReferenceValueId.validate_eq_ok

end Choice

/-- The value is not empty and, for an algorithm with a name, as long as its digests are. -/
def Digest.Rule (d : Digest) : Prop :=
  d.value ≠ [] ∧ ∀ a ∈ HashAlgorithm.all, a.number = d.algorithm → d.value.length = a.size

theorem Digest.validate_eq_ok {d : Digest} : d.validate = .ok () ↔ d.Rule := by
  unfold validate Rule
  rw [Result.refuse_eq_ok]
  refine and_congr_right fun _ => ?_
  cases h : HashAlgorithm.ofNumber? d.algorithm with
  | none =>
    refine ⟨fun _ a ha hn => ?_, fun _ => rfl⟩
    cases h.symm.trans (HashAlgorithm.ofNumber?_eq_some.2 ⟨ha, hn⟩)
  | some a =>
    obtain ⟨ha, hn⟩ := HashAlgorithm.ofNumber?_eq_some.1 h
    rw [Result.demand_eq_ok]
    constructor
    · rintro ⟨hl, -⟩ b hb hbn
      obtain rfl := Option.some.inj (h.symm.trans (HashAlgorithm.ofNumber?_eq_some.2 ⟨hb, hbn⟩))
      exact hl
    · intro hl
      exact ⟨hl a ha hn, rfl⟩

theorem Digest.validateAll_eq_ok {ds : List Digest} :
    validateAll ds = .ok () ↔ ds ≠ [] ∧ ∀ d ∈ ds, d.validate = .ok () := by
  simp [validateAll]

/-- The value has the field's shape, is no empty set, and passes the field's own check. -/
def Extension.Entry.Rule (e : Extension.Entry) : Prop :=
  e.value.fits e.field.shape ∧ e.value ≠ .textSet [] ∧ ∀ rule ∈ e.field.rule, rule e.value = .ok ()

theorem Extension.Entry.check_eq_ok {e : Extension.Entry} :
    e.field.check e.value = .ok () ↔ e.Rule := by
  unfold Field.check Rule
  rw [Result.refuse_eq_ok, Result.refuse_eq_ok]
  cases e.field.rule <;> simp

/-! ### Parts of manifests and of module tags -/

/-- A text is not empty, and a UUID is one of RFC 4122. -/
def Identifier.Rule : Identifier → Prop
  | text s => s ≠ ""
  | uuid u => u.Rule

theorem Identifier.validate_eq_ok {i : Identifier} : i.validate = .ok () ↔ i.Rule := by
  cases i with
  | text s => simp [validate, Rule]
  | uuid u => exact Uuid.validate_eq_ok

/-- A URI is not empty and not of digits and dots only, and an object identifier writes numbers. -/
def ProfileId.Rule : ProfileId → Prop
  | uri text => text ≠ "" ∧ isDotted text = false
  | oid id => id.Rule

theorem ProfileId.validate_eq_ok {i : ProfileId} : i.validate = .ok () ↔ i.Rule := by
  cases i with
  | uri text => simp [validate, Rule]
  | oid id => exact Oid.validate_eq_ok

/-- The bounds are whole seconds, and the start is not later than the end. -/
def Validity.Rule (v : Validity) : Prop :=
  (∀ t ∈ v.bounds, t.nanos = 0) ∧ ∀ start ∈ v.notBefore, start ≤ v.notAfter

theorem Validity.validate_eq_ok {v : Validity} : v.validate = .ok () ↔ v.Rule := by
  obtain ⟨notBefore, notAfter⟩ := v
  simp only [validate, checkWhole, Rule, bounds, Result.check_eq_ok, Result.demand_eq_ok]
  cases notBefore with
  | none => simp
  | some start => simp [and_assoc, and_left_comm]

theorem Version.validate_eq_ok {v : Version} : v.validate = .ok () ↔ v.value ≠ "" := by
  simp [validate]

theorem Locator.validate_eq_ok {l : Locator} : l.validate = .ok () ↔
    l.href ≠ "" ∧ ∀ d ∈ l.thumbprint, d.validate = .ok () := by
  simp only [validate, Result.error_bind, Result.refuse_eq_ok, Result.context_eq_ok,
    checkOptional_eq_ok]

/-- Name and registration are not empty where set, and there is a role. -/
def Entity.Rule {ρ : Type} (e : Entity ρ) : Prop :=
  e.name ≠ "" ∧ e.registration ≠ some "" ∧ e.roles ≠ []

theorem Entity.validate_eq_ok {ρ : Type} {e : Entity ρ} : e.validate = .ok () ↔ e.Rule := by
  simp [validate, Rule]

namespace MeasurementValues

/-- Something is set. What stands in the place of a security version number is one, and what stands in
that of a raw value is one; a mask stands beside a plain raw value of its length. A list of digests is
not empty, and neither are texts. -/
structure Rule (v : MeasurementValues) : Prop where
  set : v ≠ empty
  svn : ∀ x ∈ v.svn, x.kind = .svn ∨ x.kind = .minSvn
  rawValue : ∀ x ∈ v.rawValue, x.kind = .bytes ∨ x.kind = .masked
  mask : ∀ k ∈ v.rawValueMask, ∃ b, v.rawValue = some (.bytes b) ∧ k.length = b.length
  digests : v.digests ≠ some []
  serialNumber : v.serialNumber ≠ some ""
  name : v.name ≠ some ""

/-- A slot of a security version number takes such a value, which is always valid. -/
theorem checkSvn_eq_ok {x : Choice} :
    checkSvn x = .ok () ↔ (x.kind = .svn ∨ x.kind = .minSvn) ∧ x.validate = .ok () := by
  cases x <;> simp [checkSvn, Choice.kind, Choice.validate]

theorem checkRawValue_eq_ok {x : Choice} :
    checkRawValue x = .ok () ↔ (x.kind = .bytes ∨ x.kind = .masked) ∧ x.validate = .ok () := by
  cases x <;> simp [checkRawValue, Choice.kind]

theorem checkMask_eq_ok {rawValue : Option Choice} {mask : Bytes} :
    checkMask rawValue mask = .ok () ↔
      ∃ b, rawValue = some (.bytes b) ∧ mask.length = b.length := by
  unfold checkMask
  split
  · simp
  · rename_i h
    exact ⟨nofun, fun ⟨b, hb, _⟩ => absurd hb (h b)⟩

theorem checkText_eq_ok {what : String} {text : Option String} :
    checkText what text = .ok () ↔ text ≠ some "" := by
  simp [checkText]

theorem isEmpty_iff {v : MeasurementValues} : v.isEmpty = true ↔ v = empty := by
  obtain ⟨_, _, _, _, _, _, _, _, _, entries, ordered⟩ := v
  simp [isEmpty, empty, Extensions.empty, and_assoc]

theorem validate_eq_ok {v : MeasurementValues} : v.validate = .ok () ↔ v.Rule ∧
    (∀ x ∈ v.version, x.validate = .ok ()) ∧ (∀ x ∈ v.svn, x.validate = .ok ()) ∧
    (∀ ds ∈ v.digests, ∀ d ∈ ds, d.validate = .ok ()) ∧ (∀ x ∈ v.rawValue, x.validate = .ok ()) ∧
    (∀ u ∈ v.ueid, u.validate = .ok ()) ∧ (∀ u ∈ v.uuid, u.validate = .ok ()) ∧
    ∀ e ∈ v.extensions.entries, e.field.check e.value = .ok () := by
  simp only [validate, Result.error_bind, Result.refuse_eq_ok, Result.check_eq_ok,
    Result.context_eq_ok, checkOptional_eq_ok, isEmpty_iff, checkSvn_eq_ok,
    Digest.validateAll_eq_ok, checkRawValue_eq_ok, checkMask_eq_ok, checkText_eq_ok,
    Extensions.validate_eq_ok]
  constructor
  · rintro ⟨hset, hversion, hsvn, hdigests, hraw, hmask, hserial, hueid, huuid, hname, hx⟩
    refine ⟨?_, hversion, fun x h => (hsvn x h).2, fun ds h => (hdigests ds h).2,
      fun x h => (hraw x h).2, hueid, huuid, hx⟩
    exact { set := hset
            svn := fun x h => (hsvn x h).1
            rawValue := fun x h => (hraw x h).1
            mask := hmask
            digests := fun h => (hdigests [] h).1 rfl
            serialNumber := hserial
            name := hname }
  · rintro ⟨h, hversion, hsvn, hdigests, hraw, hueid, huuid, hx⟩
    refine ⟨h.set, hversion, fun x hm => ⟨h.svn x hm, hsvn x hm⟩, fun ds hm => ⟨?_, hdigests ds hm⟩,
      fun x hm => ⟨h.rawValue x hm, hraw x hm⟩, h.mask, h.serialNumber, hueid, huuid, h.name, hx⟩
    rintro rfl
    exact h.digests hm

end MeasurementValues

theorem Triples.isEmpty_iff {t : Triples} : t.isEmpty = true ↔ t = .empty := by
  obtain ⟨_, _, _, _⟩ := t
  simp [isEmpty, empty, and_assoc]

/-! ### Parts -/

/-- A part of a manifest, or a manifest. -/
inductive Part
  | manifest (m : Manifest)
  | identifier (i : Identifier)
  | profile (i : ProfileId)
  | validity (v : Validity)
  | locator (l : Locator)
  | manifestEntity (e : Entity ManifestRole)
  | tag (t : EmbeddedTag)
  | comid (c : Comid)
  | tagEntity (e : Entity TagRole)
  | triples (t : Triples)
  | valueTriple (t : ValueTriple)
  | keyTriple (t : KeyTriple)
  | environment (e : Environment)
  | moduleClass (c : ModuleClass)
  | measurement (m : Measurement)
  | values (v : MeasurementValues)
  | version (v : Version)
  | digest (d : Digest)
  | ueid (u : Ueid)
  | uuid (u : Uuid)
  | extension (e : Extension.Entry)
  | choice (x : Choice)

namespace Part

/-- What stands directly in a part. -/
def parts : Part → List Part
  | manifest m =>
    identifier m.id :: m.tags.map tag ++ m.dependents.map locator ++ m.profile.toList.map profile ++
      m.validity.toList.map validity ++ m.entities.map manifestEntity
  | locator l => l.thumbprint.toList.map digest
  | tag t => t.comid?.toList.map comid
  | comid c => identifier c.identity.id :: triples c.triples :: c.entities.map tagEntity
  | triples t =>
    (t.referenceValues ++ t.endorsedValues).map valueTriple ++
      (t.identityKeys ++ t.attestKeys).map keyTriple
  | valueTriple t => environment t.environment :: t.measurements.map measurement
  | keyTriple t => environment t.environment :: t.keys.map choice
  | environment e =>
    e.moduleClass.toList.map moduleClass ++ (e.instanceId.toList ++ e.group.toList).map choice
  | moduleClass c => c.id.toList.map choice
  | measurement m => values m.values :: m.key.toList.map choice
  | values v =>
    v.version.toList.map version ++ v.svn.toList.map choice ++
      v.digests.toList.flatMap (·.map digest) ++ v.rawValue.toList.map choice ++
      v.ueid.toList.map ueid ++ v.uuid.toList.map uuid ++ v.extensions.entries.map extension
  | identifier _ | profile _ | validity _ | manifestEntity _ | tagEntity _ | version _ | digest _
  | ueid _ | uuid _ | extension _ | choice _ => []

/-- The rule of a part, whatever stands in it. -/
def Rule : Part → Prop
  | manifest m => m.tags ≠ []
  | identifier i => i.Rule
  | profile i => i.Rule
  | validity v => v.Rule
  | locator l => l.href ≠ ""
  | manifestEntity e => e.Rule
  | tag t => t ≠ .opaqueOctets []
  | comid c => c.language ≠ some ""
  | tagEntity e => e.Rule
  | triples t => t ≠ .empty
  | valueTriple t => t.measurements ≠ []
  | keyTriple t => t.keys ≠ []
  | environment e => e ≠ ⟨none, none, none⟩
  | moduleClass c => c ≠ ⟨none, none, none, none, none⟩ ∧ c.vendor ≠ some "" ∧ c.model ≠ some ""
  | measurement _ => True
  | values v => v.Rule
  | version v => v.value ≠ ""
  | digest d => d.Rule
  | ueid u => u.Rule
  | uuid u => u.Rule
  | extension e => e.Rule
  | choice x => x.Rule

/-- How a part is validated. -/
def validate : Part → Result Unit
  | manifest m => m.validate
  | identifier i => i.validate
  | profile i => i.validate
  | validity v => v.validate
  | locator l => l.validate
  | manifestEntity e => e.validate
  | tag t => t.validate
  | comid c => c.validate
  | tagEntity e => e.validate
  | triples t => t.validate
  | valueTriple t => t.validate
  | keyTriple t => t.validate
  | environment e => e.validate
  | moduleClass c => c.validate
  | measurement m => m.validate
  | values v => v.validate
  | version v => v.validate
  | digest d => d.validate
  | ueid u => u.validate
  | uuid u => u.validate
  | extension e => e.field.check e.value
  | choice x => x.validate

/-- A part in which nothing stands is valid if it keeps its rule. -/
theorem validate_step_of_leaf {p : Part} (hp : p.parts = []) (h : p.validate = .ok () ↔ p.Rule) :
    p.validate = .ok () ↔ p.Rule ∧ ∀ q ∈ p.parts, q.validate = .ok () := by
  rw [h, hp]
  exact (and_iff_left (List.forall_mem_nil _)).symm

/-- **A part is valid** if it keeps its rule and what stands directly in it is valid. -/
theorem validate_step (p : Part) :
    p.validate = .ok () ↔ p.Rule ∧ ∀ q ∈ p.parts, q.validate = .ok () := by
  cases p with
  | manifest m =>
    simp only [parts, List.cons_append, List.forall_mem_append, List.forall_mem_cons,
      List.forall_mem_map, Option.mem_toList, and_assoc]
    refine Manifest.validate_eq_ok.trans ?_
    rw [List.isEmpty_iff]
    exact and_left_comm
  | identifier i => exact validate_step_of_leaf rfl Identifier.validate_eq_ok
  | profile i => exact validate_step_of_leaf rfl ProfileId.validate_eq_ok
  | validity v => exact validate_step_of_leaf rfl Validity.validate_eq_ok
  | locator l =>
    simp only [parts, List.forall_mem_map, Option.mem_toList]
    exact Locator.validate_eq_ok
  | manifestEntity e => exact validate_step_of_leaf rfl Entity.validate_eq_ok
  | tag t =>
    cases t <;> simp [parts, EmbeddedTag.comid?, validate, Rule, EmbeddedTag.validate]
  | comid c =>
    simp only [parts, List.forall_mem_cons, List.forall_mem_map]
    refine Comid.validate_eq_ok.trans ?_
    exact and_congr_right' (and_congr_right' and_comm)
  | tagEntity e => exact validate_step_of_leaf rfl Entity.validate_eq_ok
  | triples t =>
    simp only [parts, List.forall_mem_append, List.forall_mem_map, and_assoc]
    refine Triples.validate_eq_ok.trans ?_
    rw [Triples.isEmpty_iff]
    rfl
  | valueTriple t =>
    simp only [parts, List.forall_mem_cons, List.forall_mem_map]
    refine ValueTriple.validate_eq_ok.trans ?_
    rw [List.isEmpty_iff]
    exact and_left_comm
  | keyTriple t =>
    simp only [parts, List.forall_mem_cons, List.forall_mem_map]
    refine KeyTriple.validate_eq_ok.trans ?_
    rw [List.isEmpty_iff]
    exact and_left_comm
  | environment e =>
    simp only [parts, List.map_append, List.forall_mem_append, List.forall_mem_map,
      Option.mem_toList]
    exact Environment.validate_eq_ok
  | moduleClass c =>
    simp only [parts, List.forall_mem_map, Option.mem_toList]
    exact ModuleClass.validate_eq_ok
  | measurement m =>
    simp only [parts, List.forall_mem_cons, List.forall_mem_map, Option.mem_toList]
    exact Measurement.validate_eq_ok.trans (and_comm.trans (iff_and_self.2 fun _ => trivial))
  | values v =>
    simp only [parts, List.forall_mem_append, List.forall_mem_map, Option.mem_toList,
      List.forall_mem_flatMap, and_assoc]
    exact MeasurementValues.validate_eq_ok
  | version v => exact validate_step_of_leaf rfl Version.validate_eq_ok
  | digest d => exact validate_step_of_leaf rfl Digest.validate_eq_ok
  | ueid u => exact validate_step_of_leaf rfl Ueid.validate_eq_ok
  | uuid u => exact validate_step_of_leaf rfl Uuid.validate_eq_ok
  | extension e => exact validate_step_of_leaf rfl Extension.Entry.check_eq_ok
  | choice x => exact validate_step_of_leaf rfl Choice.validate_eq_ok

/-- A part and everything that stands in it, directly or not. -/
def Contains : Part → Part → Prop := Relation.ReflTransGen fun p q => q ∈ p.parts

/-- A number that falls from a part to the parts that stand in it. -/
def rank : Part → Nat
  | manifest _ => 7
  | tag _ => 6
  | comid _ => 5
  | triples _ => 4
  | valueTriple _ | keyTriple _ => 3
  | environment _ | measurement _ => 2
  | moduleClass _ | values _ | locator _ => 1
  | identifier _ | profile _ | validity _ | manifestEntity _ | tagEntity _ | version _ | digest _
  | ueid _ | uuid _ | extension _ | choice _ => 0

theorem rank_lt {p q : Part} (h : q ∈ p.parts) : q.rank < p.rank := by
  revert q
  show ∀ q ∈ p.parts, q.rank < p.rank
  cases p <;> simp only [parts, List.cons_append, List.forall_mem_append, List.forall_mem_cons,
    List.forall_mem_map, List.forall_mem_flatMap] <;> simp [rank]

variable {p q : Part}

/-- Everything in a valid part is valid. -/
theorem valid_of_contains (h : p.validate = .ok ()) (hq : p.Contains q) : q.validate = .ok () := by
  induction hq with
  | refl => exact h
  | tail _ hs ih => exact ((validate_step _).1 ih).2 _ hs

/-- A part in which everything keeps its rule is valid. -/
theorem valid_of_rules (p : Part) (h : ∀ q, p.Contains q → q.Rule) : p.validate = .ok () :=
  (validate_step p).2 ⟨h p .refl, fun q hq => valid_of_rules q fun r hr => h r (.head hq hr)⟩
termination_by p.rank
decreasing_by exact rank_lt hq

end Part

/-- **A manifest is valid** exactly if everything in it keeps its rule, at whatever depth it stands. -/
theorem Manifest.valid_iff_rules (m : Manifest) :
    m.validate = .ok () ↔ ∀ p, (Part.manifest m).Contains p → p.Rule := by
  show (Part.manifest m).validate = .ok () ↔ _
  constructor
  · intro h p hp
    exact ((Part.validate_step p).1 (Part.valid_of_contains h hp)).1
  · exact Part.valid_of_rules _

end Rim
