import Rim.Proofs.Catalogue
import Rim.Proofs.Contents

/-!
# What a scope has to know

A module tag is read back in either format if the kinds of its choices are held, its extension values
stand under fields of the scope, and all of them are valid. What is asked of a tag is asked of each of
its parts.

* `Scope.Reads`: what a scope has to know of the choices and the extension values.
* `Scope.Reads.valueTriple`, `Scope.Reads.measurement` and others: what follows for the parts.
-/

namespace Rim

/-- A scope reads choices that are valid and of kinds that it holds, and extension values that keep
the rules of fields that it has. -/
structure Scope.Reads (s : Scope) (choices : List Choice) (entries : List Extension.Entry) :
    Prop where
  held : ∀ x ∈ choices, s.registry.holds x.kind
  valid : ∀ x ∈ choices, x.validate = .ok ()
  fields : ∀ e ∈ entries, e.field ∈ s.fields
  kept : ∀ e ∈ entries, e.field.check e.value = .ok ()

/-! ### Environments -/

namespace Environment

variable {e : Environment} {x : Choice}

theorem mem_choices_of_class {c : ModuleClass} (hc : c ∈ e.moduleClass) (hx : x ∈ c.id) :
    x ∈ e.choices := by
  have hb : x ∈ e.moduleClass.bind ModuleClass.id := Option.bind_eq_some_iff.2 ⟨c, hc, hx⟩
  exact List.mem_append_left _ (List.mem_append_left _ (Option.mem_toList.2 hb))

theorem mem_choices_of_instanceId (hx : x ∈ e.instanceId) : x ∈ e.choices :=
  List.mem_append_left _ (List.mem_append_right _ (Option.mem_toList.2 hx))

theorem mem_choices_of_group (hx : x ∈ e.group) : x ∈ e.choices :=
  List.mem_append_right _ (Option.mem_toList.2 hx)

end Environment

namespace Scope.Reads

variable {s : Scope}

theorem mono {xs ys : List Choice} {ds es : List Extension.Entry} (h : s.Reads ys es) (hx : xs ⊆ ys)
    (hd : ds ⊆ es) : s.Reads xs ds :=
  ⟨fun x m => h.held x (hx m), fun x m => h.valid x (hx m), fun e m => h.fields e (hd m),
    fun e m => h.kept e (hd m)⟩

theorem moduleClass {e : Environment} (h : s.Reads e.choices []) {c : ModuleClass}
    (hc : c ∈ e.moduleClass) : s.Reads c.id.toList [] :=
  h.mono (fun _ hx => Environment.mem_choices_of_class hc (Option.mem_toList.1 hx))
    (List.nil_subset _)

/-! ### Measurements -/

theorem values {m : Measurement} (h : s.Reads m.choices m.values.extensions.entries) :
    s.Reads m.values.choices m.values.extensions.entries :=
  h.mono (List.subset_append_right _ _) (List.Subset.refl _)

/-! ### Triples -/

theorem valueEnvironment {t : ValueTriple} (h : s.Reads t.choices t.extensionEntries) :
    s.Reads t.environment.choices [] := h.mono (List.subset_append_left _ _) (List.nil_subset _)

theorem measurement {t : ValueTriple} (h : s.Reads t.choices t.extensionEntries) {m : Measurement}
    (hm : m ∈ t.measurements) : s.Reads m.choices m.values.extensions.entries := by
  refine h.mono ?_ ?_
  · exact fun x hx => List.mem_append_right _ (List.mem_flatMap.2 ⟨m, hm, hx⟩)
  · exact fun e he => List.mem_flatMap.2 ⟨m, hm, he⟩

theorem keyEnvironment {t : KeyTriple} (h : s.Reads t.choices []) :
    s.Reads t.environment.choices [] := h.mono (List.subset_append_left _ _) (List.Subset.refl _)

theorem valueTriple {t : Triples} (h : s.Reads t.choices t.extensionEntries) {v : ValueTriple}
    (hv : v ∈ t.referenceValues ++ t.endorsedValues) : s.Reads v.choices v.extensionEntries := by
  refine h.mono ?_ ?_
  · exact fun x hx => List.mem_append_left _ (List.mem_flatMap.2 ⟨v, hv, hx⟩)
  · exact fun e he => List.mem_flatMap.2 ⟨v, hv, he⟩

theorem keyTriple {t : Triples} (h : s.Reads t.choices t.extensionEntries) {k : KeyTriple}
    (hk : k ∈ t.identityKeys ++ t.attestKeys) : s.Reads k.choices [] := by
  refine h.mono ?_ (List.nil_subset _)
  exact fun x hx => List.mem_append_right _ (List.mem_flatMap.2 ⟨k, hk, hx⟩)

end Scope.Reads

/-! ### Manifests -/

/-- What a scope has to know of a valid manifest it knows of each module tag in it. -/
theorem Manifest.reads_of_mem_comids {s : Scope} {m : Manifest} (hv : m.validate = .ok ())
    (hchoices : ∀ x ∈ m.choices, s.registry.holds x.kind)
    (hfields : ∀ e ∈ m.extensionEntries, e.field ∈ s.fields) {d : Comid} (hd : d ∈ m.comids) :
    s.Reads d.triples.choices d.triples.extensionEntries := by
  have hc (x : Choice) (hx : x ∈ d.triples.choices) : x ∈ m.choices :=
    List.mem_flatMap.2 ⟨d, hd, hx⟩
  have he (e : Extension.Entry) (he : e ∈ d.triples.extensionEntries) : e ∈ m.extensionEntries :=
    List.mem_flatMap.2 ⟨d, hd, he⟩
  exact ⟨fun x hx => hchoices x (hc x hx), fun x hx => choices_valid hv x (hc x hx),
    fun e h => hfields e (he e h), fun e h => extensions_valid hv e (he e h)⟩

end Rim
