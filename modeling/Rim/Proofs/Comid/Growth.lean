import Rim.Comid
import Rim.Proofs.Growth

/-!
# Module tags under a growing catalogue

Whatever part of a module tag is read with a scope, in either format, is read with every scope that the
first one grows to. The known kinds matter where a choice is read; the extension fields matter where
something is left of measurement values, and without fields nothing may be left.

* `Extensions.ofCbor_within`, `Extensions.ofJson_within`: the fields of a profile that was not known.
* `Environment.ofCbor_within`, `Measurement.ofCbor_within`, `Triples.ofCbor_within`, and the same for
  the text format: the parts.
* `Comid.ofCbor_within`, `Comid.ofJson_within`: a whole module tag.
-/

namespace Rim

open Extension (Field)

variable {r r' : ChoiceRegistry} {s s' : Scope}

/-! ### Environments -/

theorem ModuleClass.ofCbor_within (h : r.Grows r') (v : Cbor.Value) :
    (ModuleClass.ofCbor r v).Within (ModuleClass.ofCbor r' v) :=
  Cbor.Value.readMap_within (.bind (.takeWith h.ofCbor _) fun _ => .refl _) _ v

theorem ModuleClass.ofJson_within (h : r.Grows r') (v : Json.Value) :
    (ModuleClass.ofJson r v).Within (ModuleClass.ofJson r' v) :=
  Json.Value.readObject_within (.bind (.takeWith h.ofJson _) fun _ => .refl _) _ v

namespace Environment

theorem ofCbor_within (h : r.Grows r') (v : Cbor.Value) :
    (Environment.ofCbor r v).Within (Environment.ofCbor r' v) := by
  refine Cbor.Value.readMap_within ?_ _ v
  refine .bind (.takeWith (ModuleClass.ofCbor_within h) _) fun _ => ?_
  refine .bind (.takeWith h.ofCbor _) fun _ => ?_
  exact .bind (.takeWith h.ofCbor _) fun _ => .refl _

theorem ofJson_within (h : r.Grows r') (v : Json.Value) :
    (Environment.ofJson r v).Within (Environment.ofJson r' v) := by
  refine Json.Value.readObject_within ?_ _ v
  refine .bind (.takeWith (ModuleClass.ofJson_within h) _) fun _ => ?_
  refine .bind (.takeWith h.ofJson _) fun _ => ?_
  exact .bind (.takeWith h.ofJson _) fun _ => .refl _

end Environment

/-! ### Measurements -/

namespace Extensions

variable {schema schema' : List Field}

/-- A schema without fields reads nothing, which every schema reads. -/
theorem ofCbor_within (h : schema' = schema ∨ schema = []) (entries : Cbor.Entries) :
    (ofCbor schema entries).Within (ofCbor schema' entries) := by
  rcases h with rfl | rfl
  · exact .refl _
  · cases entries with
    | nil => exact .refl _
    | cons e rest =>
      have hnone : fieldOfKey? [] e.1 = none := by
        unfold fieldOfKey?
        cases e.1.toInt? <;> rfl
      intro x hx
      rw [ofCbor, List.foldlM_cons, readEntry, hnone] at hx
      cases hx

/-- A schema without fields reads nothing, which every schema reads. -/
theorem ofJson_within (h : schema' = schema ∨ schema = []) (members : Json.Members) :
    (ofJson schema members).Within (ofJson schema' members) := by
  rcases h with rfl | rfl
  · exact .refl _
  · cases members with
    | nil => exact .refl _
    | cons m rest =>
      intro x hx
      rw [ofJson, List.foldlM_cons, readMember, List.find?_nil] at hx
      cases hx

end Extensions

namespace MeasurementValues

theorem svnOfCbor_within (h : r.Grows r') (v : Cbor.Value) :
    (svnOfCbor r v).Within (svnOfCbor r' v) := by
  cases v with
  | tag n body => exact h.ofCbor (.tag n body)
  | _ => exact .refl _

theorem ofCbor_within (h : s.Grows s') (v : Cbor.Value) :
    (MeasurementValues.ofCbor s v).Within (MeasurementValues.ofCbor s' v) := by
  refine Cbor.Value.readMap_within ?_ _ v
  refine .bind (.refl _) fun version => ?_
  refine .bind (.takeWith (fun v => (svnOfCbor_within h.registry v).context _) _) fun svn => ?_
  refine .bind (.refl _) fun digests => ?_
  refine .bind (.takeWith (fun v => (h.registry.ofCbor v).context _) _) fun rawValue => ?_
  refine .bind (.refl _) fun rawValueMask => ?_
  refine .bind (.refl _) fun serialNumber => ?_
  refine .bind (.refl _) fun ueid => ?_
  refine .bind (.refl _) fun uuid => ?_
  refine .bind (.refl _) fun name => ?_
  -- what the core leaves is read by the fields of the scope
  refine .bind (.refl _) fun rest => ?_
  exact .bind (.ofResult (Extensions.ofCbor_within h.fields rest)) fun _ => .refl _

theorem ofJson_within (h : s.Grows s') (v : Json.Value) :
    (MeasurementValues.ofJson s v).Within (MeasurementValues.ofJson s' v) := by
  refine Json.Value.readObject_within ?_ _ v
  refine .bind (.refl _) fun version => ?_
  refine .bind (.takeWith (fun v => (h.registry.ofJson v).context _) _) fun svn => ?_
  refine .bind (.refl _) fun digests => ?_
  refine .bind (.takeWith (fun v => (h.registry.ofJson v).context _) _) fun rawValue => ?_
  refine .bind (.refl _) fun rawValueMask => ?_
  refine .bind (.refl _) fun serialNumber => ?_
  refine .bind (.refl _) fun ueid => ?_
  refine .bind (.refl _) fun uuid => ?_
  refine .bind (.refl _) fun name => ?_
  -- what the core leaves is read by the fields of the scope
  refine .bind (.refl _) fun rest => ?_
  exact .bind (.ofResult (Extensions.ofJson_within h.fields rest)) fun _ => .refl _

end MeasurementValues

namespace Measurement

theorem ofCbor_within (h : s.Grows s') (v : Cbor.Value) :
    (Measurement.ofCbor s v).Within (Measurement.ofCbor s' v) := by
  refine Cbor.Value.readMap_within ?_ _ v
  refine .bind (.takeWith (fun v => (h.registry.ofCbor v).context _) _) fun _ => ?_
  exact .bind (.requireWith (MeasurementValues.ofCbor_within h) _ _) fun _ => .refl _

theorem ofJson_within (h : s.Grows s') (v : Json.Value) :
    (Measurement.ofJson s v).Within (Measurement.ofJson s' v) := by
  refine Json.Value.readObject_within ?_ _ v
  refine .bind (.takeWith (fun v => (h.registry.ofJson v).context _) _) fun _ => ?_
  exact .bind (.requireWith (MeasurementValues.ofJson_within h) _ _) fun _ => .refl _

end Measurement

/-! ### Triples -/

namespace ValueTriple

theorem ofCbor_within (h : s.Grows s') (v : Cbor.Value) :
    (ValueTriple.ofCbor s v).Within (ValueTriple.ofCbor s' v) := by
  refine .bind (.refl _) fun t => ?_
  refine .bind ((Environment.ofCbor_within h.registry t.1).context _) fun _ => ?_
  refine .bind (.refl _) fun items => ?_
  exact .bind (.mapM (Measurement.ofCbor_within h) items) fun _ => .refl _

theorem ofJson_within (h : s.Grows s') (v : Json.Value) :
    (ValueTriple.ofJson s v).Within (ValueTriple.ofJson s' v) := by
  refine Json.Value.readObject_within ?_ _ v
  refine .bind (.requireWith (fun v => ?_) _ _) fun _ => ?_
  · exact (Environment.ofJson_within h.registry v).context _
  · refine .bind (.requireWith (fun v => ?_) _ _) fun _ => .refl _
    exact .bind (.refl _) fun items => .mapM (Measurement.ofJson_within h) items

end ValueTriple

namespace KeyTriple

theorem ofCbor_within (h : r.Grows r') (v : Cbor.Value) :
    (KeyTriple.ofCbor r v).Within (KeyTriple.ofCbor r' v) := by
  refine .bind (.refl _) fun t => ?_
  refine .bind ((Environment.ofCbor_within h t.1).context _) fun _ => ?_
  refine .bind (.refl _) fun items => ?_
  exact .bind (.mapM h.ofCbor items) fun _ => .refl _

theorem ofJson_within (h : r.Grows r') (v : Json.Value) :
    (KeyTriple.ofJson r v).Within (KeyTriple.ofJson r' v) := by
  refine Json.Value.readObject_within ?_ _ v
  refine .bind (.requireWith (fun v => ?_) _ _) fun _ => ?_
  · exact (Environment.ofJson_within h v).context _
  · refine .bind (.requireWith (fun v => ?_) _ _) fun _ => .refl _
    exact .bind (.refl _) fun items => .mapM h.ofJson items

end KeyTriple

namespace Triples

variable {α : Type}

theorem takeCbor_within {read read' : Cbor.Value → Result α}
    (h : ∀ v, (read v).Within (read' v)) (key : Int64) (what : String) :
    Unread.Within (takeCbor key what read) (takeCbor key what read') :=
  .bind (.takeWith (fun _ => .bind (.refl _) fun items => readEach_within h what items) _)
    fun _ => .refl _

theorem takeJson_within {read read' : Json.Value → Result α}
    (h : ∀ v, (read v).Within (read' v)) (name : String) :
    Unread.Within (takeJson name read) (takeJson name read') :=
  .bind (.takeWith (fun _ => .bind (.refl _) fun items => .mapM h items) _) fun _ => .refl _

theorem ofCbor_within (h : s.Grows s') (v : Cbor.Value) :
    (Triples.ofCbor s v).Within (Triples.ofCbor s' v) := by
  refine Cbor.Value.readMap_within ?_ _ v
  refine .bind (takeCbor_within (ValueTriple.ofCbor_within h) _ _) fun _ => ?_
  refine .bind (takeCbor_within (ValueTriple.ofCbor_within h) _ _) fun _ => ?_
  refine .bind (takeCbor_within (KeyTriple.ofCbor_within h.registry) _ _) fun _ => ?_
  exact .bind (takeCbor_within (KeyTriple.ofCbor_within h.registry) _ _) fun _ => .refl _

theorem ofJson_within (h : s.Grows s') (v : Json.Value) :
    (Triples.ofJson s v).Within (Triples.ofJson s' v) := by
  refine Json.Value.readObject_within ?_ _ v
  refine .bind (takeJson_within (ValueTriple.ofJson_within h) _) fun _ => ?_
  refine .bind (takeJson_within (ValueTriple.ofJson_within h) _) fun _ => ?_
  refine .bind (takeJson_within (KeyTriple.ofJson_within h.registry) _) fun _ => ?_
  exact .bind (takeJson_within (KeyTriple.ofJson_within h.registry) _) fun _ => .refl _

end Triples

/-! ### Module tags -/

namespace Comid

/-- **A module tag is read as before.** -/
theorem ofCbor_within (h : s.Grows s') (v : Cbor.Value) :
    (Comid.ofCbor s v).Within (Comid.ofCbor s' v) := by
  refine Cbor.Value.readMap_within ?_ _ v
  refine .bind (.refl _) fun language => ?_
  refine .bind (.refl _) fun identity => ?_
  refine .bind (.refl _) fun entities => ?_
  refine .bind (.requireWith (fun v => ?_) _ _) fun _ => .refl _
  exact (Triples.ofCbor_within h v).context _

/-- **A printed module tag is read as before.** -/
theorem ofJson_within (h : s.Grows s') (v : Json.Value) :
    (Comid.ofJson s v).Within (Comid.ofJson s' v) := by
  refine Json.Value.readObject_within ?_ _ v
  refine .bind (.refl _) fun language => ?_
  refine .bind (.refl _) fun identity => ?_
  refine .bind (.refl _) fun entities => ?_
  refine .bind (.requireWith (fun v => ?_) _ _) fun _ => .refl _
  exact (Triples.ofJson_within h v).context _

end Comid

end Rim
