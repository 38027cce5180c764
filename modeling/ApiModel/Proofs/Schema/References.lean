import ApiModel.Proofs.Schema.Invariant

/-!
# Where imports come from

A model imports what its schema mentions: the target of a reference, or a type by its name. A
reference is mentioned where a schema, an element or a property is one.

**Theorem (`imports_model`).** Whatever holds of the imports of all references and types that are
mentioned on the way to a model holds of the imports of the model.

The invariant `ImportsOnly` speaks of the properties of a model as well, because compositions
promote properties without the model they belong to.
-/

namespace ApiModel

namespace Schema

open Report

/-! ## Mentions -/

/-- A schema refers to a place: it is a reference itself, or its element or one of its properties
is. -/
inductive Refers (ctx : Context) (s : Node) : String → Prop
  | itself {ref : String} : s.asMap.ref? = some ref → Refers ctx s ref
  | element {kind : ModelKind} {e : Node} {ref : String} :
      (rule ctx s.asMap).outcome = .ok (.container kind e) → e.ref? = some ref →
      Refers ctx s ref
  | property {r : Rule} {entries : List (Scalar × Node)} {key : String} {p : Node}
      {ref : String} :
      (rule ctx s.asMap).outcome = .ok r → r.HasProperties →
      s.asMap.field "properties" = .map entries → (.text key, p) ∈ entries →
      p.asMap.ref? = some ref → Refers ctx s ref

/-- The type that a schema names, if naming it is all that the schema does. -/
def NamesType (ctx : Context) (s : Node) (type : TypeExpr) : Prop :=
  ∃ node, (rule ctx s.asMap).outcome = .ok (.named node) ∧
    type = .ofNode ctx.dialect node (s.asMap.field "format")

/-- The imports of what a schema mentions all satisfy `P`. -/
structure MentionsOnly (ctx : Context) (P : String → Prop) (s : Node) : Prop where
  references : ∀ ref, Refers ctx s ref → ∀ i ∈ (TypeExpr.ofRef ctx.dialect ref).imports, P i
  types : ∀ type, NamesType ctx s type → ∀ i ∈ type.imports, P i

/-- The imports of a model and of its properties all satisfy `P`. -/
structure ImportsOnly (P : String → Prop) (m : Model) : Prop where
  own : ∀ i ∈ m.imports, P i
  properties : ∀ q ∈ m.properties, ∀ i ∈ q.imports, P i

/-! ## What a step keeps -/

section Step

variable {build : Builder} {ctx : Context} {name : String} {s : Node} {P : String → Prop}

/-- A model without properties has the imports that its core has. -/
theorem importsOnly_of_core {m l : Model} (hcore : m.core = l) (hnil : l.properties = [])
    (h : ∀ i ∈ l.imports, P i) : ImportsOnly P m where
  own := by rwa [imports_of_core hcore]
  properties := by
    rw [properties_of_core hcore, hnil]
    exact fun q hq => absurd hq List.not_mem_nil

theorem rule_of_ref {ref : String} (h : (rule ctx s.asMap).outcome = .ok (.reference ref)) :
    s.asMap.ref? = some ref := by
  rcases rule_eq_ok h with ⟨ref', href, heq⟩ | ⟨_, _, heq⟩ | heq
  · cases heq
    exact href
  · cases heq
  · simp only [structuredRule] at heq
    split at heq
    · cases heq
    · split at heq
      · cases heq
      · cases heq
      · split_ifs at heq

/-- The properties of a schema import what the schema mentions or what the schemas visited
import. -/
theorem imports_properties {r : Rule} (hr : (rule ctx s.asMap).outcome = .ok r)
    (hp : r.HasProperties) (hmentions : MentionsOnly ctx P s)
    (hbuild : ∀ t, Visits ctx name s t → ∀ m, (build t).outcome = .ok m → ImportsOnly P m)
    {own : List Model} (hown : (properties build ctx s.asMap name).outcome = .ok own) :
    ∀ m ∈ own, ∀ i ∈ m.imports, P i := by
  refine forall_properties (fun hcore => ?_) (fun hentries hmem href hcore => ?_)
    (fun t hv l hl m hcore => ?_) hr hp hown
  · rw [imports_of_core hcore]
    exact fun i hi => absurd hi List.not_mem_nil
  · rw [imports_of_core hcore]
    exact hmentions.references _ (.property hr hp hentries hmem href)
  · rw [(imports_of_core hcore :)]
    exact (hbuild t hv l hl).own

theorem imports_importsOf {ms : List Model} (h : ∀ m ∈ ms, ∀ i ∈ m.imports, P i) :
    ∀ i ∈ importsOf ms, P i := by
  intro i hi
  obtain ⟨m, hm, hi⟩ := List.mem_flatMap.1 hi
  exact h m hm i hi

theorem importsOnly_step : KeptByStep ctx (MentionsOnly ctx P) (ImportsOnly P) := by
  intro build isDefinition name s m hmentions hbuild h
  obtain ⟨r, hr, hmade⟩ := modelStep_made h
  have hnone {l : Model} (hcore : m.core = l) (hnil : l.properties = [])
      (himports : l.imports = []) : ImportsOnly P m :=
    importsOnly_of_core hcore hnil (by simp [himports])
  cases hmade with
  | reference hcore =>
    exact importsOnly_of_core hcore rfl (hmentions.references _ (.itself (rule_of_ref hr)))
  | enumeration hcore => exact hnone hcore rfl rfl
  | anything hcore => exact hnone hcore rfl rfl
  | referenceContainer href hcore =>
    exact importsOnly_of_core hcore rfl (hmentions.references _ (.element hr href))
  | named hcore => exact importsOnly_of_core hcore rfl (hmentions.types _ ⟨_, hr, rfl⟩)
  | container href hlink hcore =>
    exact importsOnly_of_core hcore rfl (hbuild _ (.element hr href) _ hlink).own
  | @interface own _ hown hcore =>
    have hall : ∀ p ∈ own, ∀ i ∈ p.imports, P i :=
      imports_properties hr trivial hmentions hbuild hown
    constructor
    · rw [(imports_of_core hcore :)]
      exact imports_importsOf hall
    · rw [(properties_of_core hcore :)]
      exact hall
  | @composition kind members options lifted own _ hoptions hlifted hown hcore =>
    obtain ⟨hkept, hlift, hself⟩ := forall_composition
      (fun t hv m hm => (hbuild t hv m hm).own)
      (fun t hv m hm q hq _ => (hbuild t hv m hm).properties q hq)
      (fun own => imports_properties hr trivial hmentions hbuild) hr hoptions hlifted hown
    constructor
    · rw [(imports_of_core hcore :)]
      intro i hi
      rcases List.mem_append.1 hi with hi | hi
      · rcases List.mem_append.1 hi with hi | hi
        · exact imports_importsOf hkept i hi
        · exact imports_importsOf hlift i hi
      · exact imports_importsOf hself i hi
    · rw [(properties_of_core hcore :)]
      intro p hp
      rcases List.mem_append.1 hp with hp | hp
      · exact hkept p hp
      · unfold gathered at hp
        split at hp
        · exact absurd hp List.not_mem_nil
        · -- The model that gathers properties has no imports itself.
          rw [List.mem_singleton.1 hp]
          exact fun i hi => absurd hi List.not_mem_nil

end Step

/-- The imports of a model come from what is mentioned on the way to it. -/
theorem imports_model {ctx : Context} {P : String → Prop} {s : Node} {isDefinition : Bool}
    {name : String} {m : Model} (h : (model ctx s isDefinition name).outcome = .ok m)
    (hmentions : ∀ u, u = s ∨ Reaches ctx name s u → MentionsOnly ctx P u) :
    ∀ i ∈ m.imports, P i := by
  have honly : ImportsOnly P m := model_keeps importsOnly_step hmentions h
  exact honly.own

end Schema

end ApiModel
