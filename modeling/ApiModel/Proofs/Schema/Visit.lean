import ApiModel.Proofs.Schema.Flaws
import ApiModel.Proofs.Schema.Made

/-!
# The schemas that a schema visits

To make the model of a schema, models of other schemas are made: of elements, of properties, of
members of compositions, and, where a composition requires properties of its members, of the
schemas to which those members refer. `Visits` says which; `Reaches` is one visit or more.

**Theorem (`modelStep_lift`).** What relates two ways to make models on the schemas that a schema
visits relates them on the schema itself. So the work on a schema depends on the work on visited
schemas and on nothing else.

**Theorem (`Visits.built`).** If a model is made of a schema, then a model has been made of every
schema it visits.

The name of a schema matters for its own properties only: inner schemas have none. That is why
`Reaches` passes the empty name on.
-/

namespace ApiModel

namespace Schema

open Report

/-! ## Visits -/

/-- The rules that build the properties a schema declares. -/
def Rule.HasProperties : Rule → Prop
  | .interface | .composition _ _ => True
  | _ => False

/-- A schema of the given name visits another one: a model of the other is made on the way to its
own. -/
inductive Visits (ctx : Context) (name : String) (s : Node) : Node → Prop
  /-- The element of an array or dictionary, unless it is a reference. -/
  | element {kind : ModelKind} {e : Node} :
      (rule ctx s.asMap).outcome = .ok (.container kind e) → e.ref? = none →
      Visits ctx name s e.asMap
  /-- A property, unless it is a reference or a literal takes its place. -/
  | property {r : Rule} {entries : List (Scalar × Node)} {key : String} {p : Node} :
      (rule ctx s.asMap).outcome = .ok r → r.HasProperties →
      s.asMap.field "properties" = .map entries → (.text key, p) ∈ entries →
      p.asMap.ref? = none → substitute? ctx name key = none →
      Visits ctx name s p.asMap
  /-- A member of a composition of which something is said. -/
  | member {kind : ModelKind} {members : List Node} {m : Node} :
      (rule ctx s.asMap).outcome = .ok (.composition kind members) → m ∈ members →
      isBareObject m = false → Visits ctx name s m
  /-- What a member of a composition refers to, if the composition requires properties. -/
  | target {kind : ModelKind} {members : List Node} {m t : Node} :
      (rule ctx s.asMap).outcome = .ok (.composition kind members) →
      requiredNames s.asMap ≠ [] → m ∈ members →
      (Node.target ctx.document m).outcome = .ok t → Visits ctx name s t

/-- One visit or more. -/
inductive Reaches (ctx : Context) : String → Node → Node → Prop
  | visit {name : String} {s t : Node} : Visits ctx name s t → Reaches ctx name s t
  | step {name : String} {s t u : Node} :
      Visits ctx name s t → Reaches ctx "" t u → Reaches ctx name s u

/-- A composition that requires properties of its members, and so looks into what they refer
to. -/
def Promotes (ctx : Context) (s : Node) : Prop :=
  (∃ kind members, (rule ctx s.asMap).outcome = .ok (.composition kind members)) ∧
    requiredNames s.asMap ≠ []

variable {ctx : Context} {name : String} {s t u : Node} {build build' : Builder}

theorem discriminator?_empty (ctx : Context) : ctx.discriminator? "" = none := if_pos rfl

/-- A name can only put literals in the place of properties, so without it no fewer schemas are
visited. -/
theorem Visits.nameless (h : Visits ctx name s t) : Visits ctx "" s t := by
  cases h with
  | element hr href => exact .element hr href
  | property hr hp he hmem href _ =>
    exact .property hr hp he hmem href (by rw [substitute?, discriminator?_empty]; rfl)
  | member hr hm hbare => exact .member hr hm hbare
  | target hr hreq hm ht => exact .target hr hreq hm ht

theorem Reaches.nameless (h : Reaches ctx name s t) : Reaches ctx "" s t := by
  cases h with
  | visit hv => exact .visit hv.nameless
  | step hv h => exact .step hv.nameless h

theorem Reaches.trans (h : Reaches ctx name s t) (h' : Reaches ctx "" t u) :
    Reaches ctx name s u := by
  induction h with
  | visit hv => exact .step hv h'
  | step hv _ ih => exact .step hv (ih h')

/-- A visited schema is reached, and so is what is reached from there. -/
theorem Visits.reaches (h : Visits ctx name s t) (hu : u = t ∨ Reaches ctx "" t u) :
    Reaches ctx name s u := by
  rcases hu with rfl | hu
  · exact .visit h
  · exact .step h hu

/-- The rules that look into a schema. -/
def Rule.LooksInside : Rule → Prop
  | .container _ _ | .composition _ _ | .interface => True
  | _ => False

theorem Visits.looksInside (h : Visits ctx name s t) {r : Rule}
    (hr : (rule ctx s.asMap).outcome = .ok r) : r.LooksInside := by
  cases h with
  | element hr' _ => obtain rfl := Except.ok.inj (hr'.symm.trans hr); trivial
  | @property r' _ _ _ hr' hp _ _ _ _ =>
    obtain rfl := Except.ok.inj (hr'.symm.trans hr)
    cases r' <;> trivial
  | member hr' _ _ => obtain rfl := Except.ok.inj (hr'.symm.trans hr); trivial
  | target hr' _ _ _ => obtain rfl := Except.ok.inj (hr'.symm.trans hr); trivial

/-! ## Work on a schema and on the schemas it visits -/

section Lift

variable {R : (α : Type) → Built α → Built α → Prop}

theorem container_lift (hR : Lifting R) {schema element : Node} {kind : ModelKind} {base : Model}
    (h : element.ref? = none → R Model (build element.asMap) (build' element.asMap)) :
    R Model (container build ctx schema element kind base)
      (container build' ctx schema element kind base) := by
  refine hR.bind ?_ fun _ _ => hR.refl ?_
  · unfold elementOf
    cases href : element.ref? with
    | some ref => exact hR.refl (ends_pure _)
    | none => exact hR.bind (h href) fun _ _ => hR.refl (ends_pure _)
  · exact ends_bind (ends_settle _) fun _ _ => ends_withDefault _ _

theorem property_lift (hR : Lifting R) {required : List Node} {key : Scalar} {p : Node}
    (h : ∀ k, key = .text k → p.asMap.ref? = none → substitute? ctx name k = none →
      R Model (build p.asMap) (build' p.asMap)) :
    R Model (property build ctx required (ctx.discriminator? name) name (key, p))
      (property build' ctx required (ctx.discriminator? name) name (key, p)) := by
  cases key with
  | text k =>
    simp only [property]
    split
    · exact hR.refl (ends_settle _)
    · exact hR.refl (ends_bind (ends_default _ _) fun _ _ => ends_settle _)
    · rename_i hsub href
      exact hR.bind (h k rfl href hsub) fun _ _ => hR.refl (ends_pure _)
  | _ => exact hR.refl (ends_fail (by simp))

theorem properties_lift (hR : Lifting R) {schema : Node}
    (h : ∀ entries k p, schema.field "properties" = .map entries → (.text k, p) ∈ entries →
      p.asMap.ref? = none → substitute? ctx name k = none →
      R Model (build p.asMap) (build' p.asMap)) :
    R (List Model) (properties build ctx schema name) (properties build' ctx schema name) := by
  unfold properties
  cases hp : schema.field "properties" with
  | map entries =>
    refine hR.mapM fun (key, p) he => property_lift hR ?_
    rintro k rfl href hsub
    exact h entries k p hp he href hsub
  | _ => exact hR.refl (ends_pure _)

theorem member_lift (hR : Lifting R) {kind : ModelKind} {label : String} {m : Node}
    (h : isBareObject m = false → R Model (build m) (build' m)) :
    R (Option Model) (member build kind label m) (member build' kind label m) := by
  unfold member
  split_ifs with hbare
  · exact hR.refl (ends_bind (ends_note _) fun _ _ => ends_pure _)
  · refine hR.bind (h (by simpa using hbare)) fun model _ => hR.refl ?_
    split_ifs
    · exact ends_bind (ends_note _) fun _ _ => ends_pure _
    · exact ends_pure _

theorem promoted_lift (hR : Lifting R) {schema : Node} {members : List Node}
    (h : requiredNames schema ≠ [] → ∀ m ∈ members, ∀ t,
      (Node.target ctx.document m).outcome = .ok t → R Model (build t) (build' t)) :
    R (List Model) (promoted build ctx schema members) (promoted build' ctx schema members) := by
  unfold promoted
  cases hreq : requiredNames schema with
  | nil => exact hR.refl (ends_pure _)
  | cons n ns =>
    simp only [map_eq_pure_bind]
    refine hR.bind (hR.mapM fun m hm => ?_) fun _ _ => hR.refl (ends_pure _)
    refine hR.bind (hR.refl (ends_target _ _)) fun t ht => ?_
    exact hR.bind (h (by simp [hreq]) m hm t ht) fun _ _ => hR.refl (ends_pure _)

/-- The work on a schema depends on the work on the schemas it visits only. -/
theorem modelStep_lift (hR : Lifting R) {isDefinition : Bool}
    (h : ∀ t, Visits ctx name s t → R Model (build t) (build' t)) :
    R Model (modelStep build ctx isDefinition name s)
      (modelStep build' ctx isDefinition name s) := by
  rw [modelStep_eq, modelStep_eq]
  refine hR.bind (hR.refl (ends_rule _ _)) fun r hr => ?_
  cases r with
  | reference ref => exact hR.refl (ends_reference _ _ _ _)
  | enumeration type members => exact hR.refl (ends_enumeration _ _ _ _)
  | container kind element => exact container_lift hR fun href => h _ (.element hr href)
  | composition kind members =>
    refine hR.bind (hR.mapM fun m hm => member_lift hR fun hbare => h _ (.member hr hm hbare))
      fun _ _ => ?_
    refine hR.bind (promoted_lift hR fun hreq m hm t ht => h _ (.target hr hreq hm ht))
      fun _ _ => ?_
    refine hR.bind ?_ fun _ _ => hR.refl (ends_settle _)
    simp only [ownProperties]
    split_ifs
    · exact properties_lift hR fun entries k p he hp href hsub =>
        h _ (.property hr trivial he hp href hsub)
    · exact hR.refl (ends_pure _)
  | interface =>
    refine hR.bind (properties_lift hR fun entries k p he hp href hsub =>
      h _ (.property hr trivial he hp href hsub)) fun _ _ => hR.refl ?_
    exact ends_bind (ends_settle _) fun _ _ => ends_withDefault _ _
  | named type => exact hR.refl (ends_named _ _ _ _)
  | anything => exact hR.refl (ends_settle _)

/-- Work on a schema ends if the work on the schemas it visits does. -/
theorem ends_modelStep {isDefinition : Bool} (h : ∀ t, Visits ctx name s t → Ends (build t)) :
    Ends (modelStep build ctx isDefinition name s) :=
  @modelStep_lift ctx name s build build _ lifting_ends isDefinition h

end Lift

/-! ## What has been built -/

/-- If a model is made of a schema, then one has been made of every schema it visits. -/
theorem Visits.built {isDefinition : Bool} {m : Model}
    (h : (modelStep build ctx isDefinition name s).outcome = .ok m) (hv : Visits ctx name s t) :
    ∃ model, (build t).outcome = .ok model := by
  obtain ⟨r, hr, hmade⟩ := modelStep_made h
  cases hv with
  | element hr' href =>
    obtain rfl := Except.ok.inj (hr.symm.trans hr')
    cases hmade with
    | referenceContainer href' => rw [href] at href'; simp at href'
    | container _ hlink => exact ⟨_, hlink⟩
  | @property r' entries key p hr' hp hentries hmem href hsub =>
    obtain rfl := Except.ok.inj (hr.symm.trans hr')
    cases hmade with
    | interface hown => exact built_property hown hentries hmem href hsub
    | composition _ _ hown =>
      exact built_property (properties_of_ownProperties hown) hentries hmem href hsub
    | _ => exact hp.elim
  | member hr' hm hbare =>
    obtain rfl := Except.ok.inj (hr.symm.trans hr')
    cases hmade with
    | composition hoptions => exact built_member hoptions hm hbare
  | target hr' hreq hm ht =>
    obtain rfl := Except.ok.inj (hr.symm.trans hr')
    cases hmade with
    | composition _ hlifted => exact built_target hlifted hreq hm ht

/-! ## A zoo -/

/-- A document in which a pet promotes the name of what it refers to, and in which animals and
cats promote from each other. -/
def zoo : Context :=
  let refersTo name := Node.record [("$ref", Node.text ("#/definitions/" ++ name))]
  let promotes key name := Node.record [("required", Node.list [Node.text key]),
    ("allOf", Node.list [refersTo name])]
  let named := Node.record [("type", Node.text "object"),
    ("properties", Node.record [("name", refersTo "Text")])]
  { dialect := .v2
    document := Node.record [("definitions", Node.record [("Named", named),
      ("Pet", promotes "name" "Named"), ("Animal", promotes "kind" "Cat"),
      ("Cat", promotes "kind" "Animal")])] }

/-- The schema of the given name. -/
def zooSchema (name : String) : Node := (zoo.document.field "definitions").field name

theorem zoo_pet_visits {t : Node} (h : Visits zoo "" (zooSchema "Pet") t) :
    t = Node.record [("$ref", Node.text "#/definitions/Named")] ∨ t = zooSchema "Named" := by
  have hrule : (rule zoo (zooSchema "Pet").asMap).outcome =
      .ok (.composition .allOf [Node.record [("$ref", Node.text "#/definitions/Named")]]) := rfl
  cases h with
  | element hr _ => rw [hrule] at hr; cases hr
  | property _ _ hentries _ _ _ => cases hentries
  | member hr hm _ =>
    cases hrule.symm.trans hr
    exact .inl (List.mem_singleton.1 hm)
  | target hr _ hm ht =>
    cases hrule.symm.trans hr
    rw [List.mem_singleton.1 hm] at ht
    exact .inr (Except.ok.inj ht).symm

theorem zoo_pet_reaches {u : Node} (h : Reaches zoo "" (zooSchema "Pet") u) :
    u = Node.record [("$ref", Node.text "#/definitions/Named")] ∨ u = zooSchema "Named" := by
  have hstop : ∀ t, Visits zoo "" (zooSchema "Pet") t → ∀ u, ¬ Visits zoo "" t u := by
    intro t ht u hu
    rcases zoo_pet_visits ht with rfl | rfl
    · exact (hu.looksInside rfl : Rule.LooksInside (.reference "#/definitions/Named"))
    · cases hu with
      | element hr _ => cases hr
      | property _ _ hentries hmem href _ =>
        cases hentries
        cases List.mem_singleton.1 hmem
        cases href
      | member hr _ _ => cases hr
      | target hr _ _ _ => cases hr
  cases h with
  | visit hv => exact zoo_pet_visits hv
  | step hv h =>
    exfalso
    cases h with
    | visit hv' => exact hstop _ hv _ hv'
    | step hv' _ => exact hstop _ hv _ hv'

end Schema

end ApiModel
