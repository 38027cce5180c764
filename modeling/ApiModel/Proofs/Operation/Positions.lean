import ApiModel.Proofs.Operation.WellFormed
import ApiModel.Proofs.Schema.Definitions
import ApiModel.Proofs.Schema.Recursion

/-!
# One schema in several places

A schema may be that of a definition, of a property, of a parameter, of the body of a request or of
a response. Each place has a builder of its own, which takes over what it needs from the model that
the schema has by itself.

**Theorem (`core_of_placed`).** Wherever a schema stands, what is built there has the core of the
model of the schema. A property is this model altogether, except for its name, for being required
and for its constraints.

A definition and a property are made by the rule of their schema, and the name that a rule is given
shows in a core only through a discriminator (`Made.unnamed`); so the cores agree because a rule
determines the core that it makes (`core_of_made`).
-/

namespace ApiModel

open Report

namespace Schema

variable {ctx : Context} {build : Builder} {name : String} {s : Node} {r : Rule} {m m' : Model}

/-! ## What a rule determines -/

/-- The label of a composition is for notices only. -/
theorem outcome_member (kind : ModelKind) (label label' : String) (t : Node) :
    (member build kind label t).outcome = (member build kind label' t).outcome := by
  unfold member
  split_ifs
  · rfl
  · rw [outcome_bind, outcome_bind]
    congr 1
    funext k
    split_ifs <;> rfl

/-- Without a discriminator, the name of the parent does not matter to a property. -/
theorem property_of_parent (required : List Node) (parent parent' : String)
    (e : Scalar × Node) :
    property build ctx required none parent e = property build ctx required none parent' e := by
  obtain ⟨key, p⟩ := e
  cases key with
  | text key =>
    simp only [property, Option.filter_none]
    cases p.asMap.ref? <;> rfl
  | _ => rfl

theorem properties_unnamed (h : ctx.discriminator? name = none) :
    properties build ctx s name = properties build ctx s "" := by
  have hproperty : property build ctx (requiredNames s) none name =
      property build ctx (requiredNames s) none "" := funext (property_of_parent _ _ _)
  unfold properties
  rw [h, discriminator?_empty, hproperty]

/-- A name for which there is no discriminator does not show in the core. -/
theorem Made.unnamed (hname : ctx.discriminator? name = none) (h : Made build ctx name s r m) :
    Made build ctx "" s r m := by
  cases h with
  | reference hcore => exact .reference hcore
  | enumeration hcore => exact .enumeration hcore
  | referenceContainer href hcore => exact .referenceContainer href hcore
  | container href hlink hcore => exact .container href hlink hcore
  | composition hoptions hlifted hown hcore =>
    refine .composition ?_ hlifted ?_ hcore
    · exact mapM_eq_ok.2 ((mapM_eq_ok.1 hoptions).imp fun t o ho => by
        rwa [outcome_member _ _ name])
    · unfold ownProperties at hown ⊢
      rwa [← properties_unnamed hname]
  | interface hown hcore => exact .interface (by rwa [← properties_unnamed hname]) hcore
  | named hcore => exact .named hcore
  | anything hcore => exact .anything hcore

/-- A rule makes one core only. -/
theorem core_of_made (h : Made build ctx name s r m) (h' : Made build ctx name s r m') :
    m.core = m'.core := by
  cases h with
  | reference hcore =>
    cases h' with
    | reference hcore' => rw [hcore, hcore']
  | enumeration hcore =>
    cases h' with
    | enumeration hcore' => rw [hcore, hcore']
  | referenceContainer href hcore =>
    cases h' with
    | referenceContainer href' hcore' =>
      cases href.symm.trans href'
      rw [hcore, hcore']
    | container href' _ _ => cases href.symm.trans href'
  | container href hlink hcore =>
    cases h' with
    | referenceContainer href' _ => cases href.symm.trans href'
    | container _ hlink' hcore' =>
      cases hlink.symm.trans hlink'
      rw [hcore, hcore']
  | composition hoptions hlifted hown hcore =>
    cases h' with
    | composition hoptions' hlifted' hown' hcore' =>
      cases hoptions.symm.trans hoptions'
      cases hlifted.symm.trans hlifted'
      cases hown.symm.trans hown'
      rw [hcore, hcore']
  | interface hown hcore =>
    cases h' with
    | interface hown' hcore' =>
      cases hown.symm.trans hown'
      rw [hcore, hcore']
  | named hcore =>
    cases h' with
    | named hcore' => rw [hcore, hcore']
  | anything hcore =>
    cases h' with
    | anything hcore' => rw [hcore, hcore']

/-- Under whatever name a model is made, its core is the same, if there is no discriminator for the
name. -/
theorem core_of_model {isDefinition : Bool} (hname : ctx.discriminator? name = none)
    (h : (model ctx s isDefinition name).outcome = .ok m') (hm : (inner ctx s).outcome = .ok m) :
    m'.core = m.core := by
  obtain ⟨r, hr, hmade⟩ := model_made h
  obtain ⟨r', hr', hmade'⟩ := model_made hm
  cases hr.symm.trans hr'
  exact core_of_made (hmade.unnamed hname) hmade'

/-! ## References and properties -/

theorem asMap_of_isMap (h : s.isMap = true) : s.asMap = s := by
  cases s with
  | map entries => rfl
  | _ => cases h

/-- A reference has a model of one step. -/
theorem reference_of_model {ref : String} (hs : s.isMap = true) (href : s.ref? = some ref)
    (hm : (inner ctx s).outcome = .ok m) :
    (reference ctx s ref (base ctx s false "")).outcome = .ok m := by
  simpa only [inner, model, modelStep, asMap_of_isMap hs, href] using hm

theorem core_of_reference {ref : String} (hs : s.isMap = true) (href : s.ref? = some ref)
    (hm : (inner ctx s).outcome = .ok m) :
    m.core = { toTypeExpr := .ofRef ctx.dialect ref, kind := .reference } := by
  obtain ⟨default, -, h⟩ := bind_eq_ok.1 (reference_of_model hs href hm)
  exact core_of_settle h

/-- A property in whose place no literal stands is the model of its schema, except for its name, for
being required and for its constraints. -/
theorem eq_of_property {required : List Node} {parent key : String} {p : Model} {n : Nat}
    (hs : s.isMap = true) (hm : (inner ctx s).outcome = .ok m)
    (hsub : substitute? ctx parent key = none)
    (h : (property (modelWithin ctx n) ctx required (ctx.discriminator? parent) parent
      (.text key, s)).outcome = .ok p) :
    p = { m with
      name := Identifier.propertyName key
      isRequired := required.any (·.isText key)
      constraints := p.constraints } := by
  simp only [property, asMap_of_isMap hs] at h
  split at h
  · rename_i d hsome
    cases hsub.symm.trans hsome
  · -- A reference is not followed in either place.
    rename_i ref _ href
    obtain ⟨default, hdefault, h⟩ := bind_eq_ok.1 h
    obtain ⟨default', hdefault', h'⟩ := bind_eq_ok.1 (reference_of_model hs href hm)
    cases hdefault.symm.trans hdefault'
    rw [(settle_eq_ok.1 h).2, (settle_eq_ok.1 h').2]
    rfl
  · obtain ⟨k, hk, h⟩ := bind_eq_ok.1 h
    cases h
    obtain rfl : k = m := Except.ok.inj ((carries_modelWithin ctx n s k hk).symm.trans hm)
    have hlabel := labelled_model hm
    rw [asMap_of_isMap hs] at hlabel
    have hnullable : (k.isNullable || (s.field ctx.dialect.nullableKeyword).isTrue) =
        k.isNullable := by
      rw [Bool.or_eq_left_iff_imp]
      exact hlabel.isNullable
    have hdescription : k.description = (s.field "description").orNull := hlabel.description
    have hdeprecated : k.deprecated = (s.field "deprecated").isTrue := hlabel.deprecated
    have hisReadOnly : k.isReadOnly = (s.field "readOnly").isTrue := hlabel.isReadOnly
    have hisDefinition : k.isDefinition = false := hlabel.isDefinition
    simp only [propertyBase, hnullable, ← hdescription, ← hdeprecated, ← hisReadOnly,
      ← hisDefinition]

end Schema

/-! ## Parameters -/

open Schema (inner core_of_reference)

namespace Parameter

variable {ctx : Context} {d : Draft} {p : Parameter} {node s : Node} {m : Model}

/-- A parameter object leaves the type to its schema: it is no reference, and where it could say
values or a type itself, it does not. -/
structure Defers (d : Dialect) (node : Node) : Prop where
  reference : node.ref? = none
  values : d.hasInlineTypes = true → node.field "enum" = .null
  type : d.hasInlineTypes = true → node.field "type" = .null

theorem core_of_ofSchema (hd : d.core = {}) (hs : s.isMap = true)
    (hm : (inner ctx s).outcome = .ok m) (h : (ofSchema ctx s d).outcome = .ok p) :
    p.core = m.core := by
  obtain ⟨-, h⟩ := unless_eq_ok.1 h
  split at h
  · rename_i ref href
    obtain ⟨d', hd', h⟩ := bind_eq_ok.1 h
    obtain ⟨default, -, hd'⟩ := bind_eq_ok.1 hd'
    cases hd'
    have hcore : p.core =
        { d.core with toTypeExpr := .ofRef ctx.dialect ref, kind := .reference } :=
      (core_of_settle h :)
    rw [hcore, hd, core_of_reference hs href hm]
  · obtain ⟨k, hk, h⟩ := bind_eq_ok.1 h
    cases hk.symm.trans hm
    exact core_of_settle h

/-- Without values and without a type, the keywords of a parameter give none. -/
theorem eq_none_of_ofKeywords {o : Option Parameter} (henum : node.field "enum" = .null)
    (htype : node.field "type" = .null) (h : (ofKeywords? ctx node d).outcome = .ok o) :
    o = none := by
  obtain ⟨members, hmembers, h⟩ := bind_eq_ok.1 h
  obtain ⟨listed, hlisted, h⟩ := bind_eq_ok.1 h
  have hnil : listed = [] :=
    (Enumeration.extend_eq_nil_iff (bind_eq_ok.2 ⟨members, hmembers, hlisted⟩)).2
      (by rw [henum]; rfl)
  subst hnil
  rw [htype] at h
  obtain ⟨described, hdescribed, h⟩ := bind_eq_ok.1 h
  cases hdescribed
  exact (Except.ok.inj h).symm

theorem core_of_ofSchemaOrType (hd : d.core = {}) (hs : s.isMap = true)
    (hschema : node.field "schema" = s)
    (hforeign : ∀ ref, s.ref? = some ref → ref.startsWith ctx.dialect.parameterMark = false)
    (hm : (inner ctx s).outcome = .ok m)
    (h : (ofSchemaOrType ctx node d).outcome = .ok p) : p.core = m.core := by
  simp only [ofSchemaOrType, hschema, hs, if_pos] at h
  have htarget : schemaTarget ctx s = pure s := Node.targetAmong_eq_self ctx.document hforeign
  rw [htarget, pure_bind] at h
  exact core_of_ofSchema hd hs hm h

/-- A parameter that leaves its type to a schema has the core of the model of the schema. -/
theorem core_of_ofNode (hdefers : Defers ctx.dialect node) (hs : s.isMap = true)
    (hschema : node.field "schema" = s)
    (hforeign : ∀ ref, s.ref? = some ref → ref.startsWith ctx.dialect.parameterMark = false)
    (hm : (inner ctx s).outcome = .ok m) (h : (ofNode ctx node).outcome = .ok p) :
    p.core = m.core := by
  have hd : (draft ctx.dialect node).core = {} := rfl
  obtain ⟨-, h⟩ := unless_eq_ok.1 h
  rw [hdefers.reference] at h
  dsimp only at h
  split at h
  · rename_i hinline
    obtain ⟨o, ho, h⟩ := bind_eq_ok.1 h
    obtain rfl := eq_none_of_ofKeywords (hdefers.values hinline) (hdefers.type hinline) ho
    exact core_of_ofSchemaOrType hd hs hschema hforeign hm h
  · exact core_of_ofSchemaOrType hd hs hschema hforeign hm h

/-- The body of a request has the core of the model of the schema that is picked. -/
theorem core_of_ofRequestBody {mediaType : String} (hs : s.isMap = true)
    (hchoice : (Content.choose (node.field "content")).outcome = .ok (some (mediaType, s)))
    (hm : (inner ctx s).outcome = .ok m) (h : (ofRequestBody ctx node).outcome = .ok p) :
    p.core = m.core := by
  obtain ⟨-, h⟩ := unless_eq_ok.1 h
  obtain ⟨content, hcontent, h⟩ := bind_eq_ok.1 h
  cases hcontent.symm.trans hchoice
  dsimp only at h
  split at h
  · exact core_of_ofSchema rfl hs hm h
  · exact core_of_ofSchema rfl hs hm h

end Parameter

/-! ## Responses -/

namespace Response

variable {ctx : Context} {r : Response} {node s : Node} {m : Model} {code : Int}

/-- A response has the core of the model of the schema of its body. -/
theorem core_of_ofNode (hs : s.isMap = true)
    (hschema : (bodySchema? ctx.dialect node).outcome = .ok (some s))
    (hforeign : ∀ ref, s.ref? = some ref → ref.startsWith ctx.dialect.responseMark = false)
    (hm : (inner ctx s).outcome = .ok m) (h : (ofNode ctx node code).outcome = .ok r) :
    r.core = m.core := by
  obtain ⟨schema, hbody, h⟩ := bind_eq_ok.1 h
  cases hbody.symm.trans hschema
  dsimp only [ofSchema] at h
  have htarget : schemaTarget ctx s = pure s := Node.targetAmong_eq_self ctx.document hforeign
  rw [htarget, pure_bind] at h
  obtain ⟨-, h⟩ := unless_eq_ok.1 h
  split at h
  · rename_i ref href
    rw [core_of_reference hs href hm]
    exact core_of_settle h
  · obtain ⟨k, hk, h⟩ := bind_eq_ok.1 h
    cases hk.symm.trans hm
    exact core_of_settle h

end Response

/-! ## All places -/

namespace Schema

/-- What is built where the schema stands: a definition that no discriminator concerns, a property
in whose place no literal stands, a parameter, the body of a request, or a response. -/
inductive Placed (ctx : Context) (s : Node) : Model → Prop
  | definition {key : Scalar} {m : Model} :
      ctx.discriminator? (ctx.dialect.schemaName (.scalar key)) = none →
      (definition ctx (key, s)).outcome = .ok m → Placed ctx s m
  | property {n : Nat} {required : List Node} {parent key : String} {m : Model} :
      substitute? ctx parent key = none →
      (property (modelWithin ctx n) ctx required (ctx.discriminator? parent) parent
        (.text key, s)).outcome = .ok m → Placed ctx s m
  | parameter {node : Node} {p : Parameter} : node.field "schema" = s →
      Parameter.Defers ctx.dialect node → (Parameter.ofNode ctx node).outcome = .ok p →
      Placed ctx s p.toModel
  | requestBody {node : Node} {mediaType : String} {p : Parameter} :
      (Content.choose (node.field "content")).outcome = .ok (some (mediaType, s)) →
      (Parameter.ofRequestBody ctx node).outcome = .ok p → Placed ctx s p.toModel
  | response {node : Node} {code : Int} {r : Response} :
      (Response.bodySchema? ctx.dialect node).outcome = .ok (some s) →
      (Response.ofNode ctx node code).outcome = .ok r → Placed ctx s r.toModel

variable {ctx : Context} {s : Node} {m : Model}

/-- Wherever a schema stands that is no reference to a parameter or a response, what is built there
has the core of its model. A property is the model itself, except for its name, for being required,
which its parent says, and for the constraints. -/
theorem core_of_placed (hs : s.isMap = true)
    (hforeign : ∀ ref, s.ref? = some ref → ref.startsWith ctx.dialect.parameterMark = false ∧
      ref.startsWith ctx.dialect.responseMark = false)
    (hm : (model ctx s false "").outcome = .ok m) :
    (∀ p, Placed ctx s p → p.core = m.core) ∧
      ∀ n required parent key p, substitute? ctx parent key = none →
        (property (modelWithin ctx n) ctx required (ctx.discriminator? parent) parent
          (.text key, s)).outcome = .ok p →
        p = { m with
          name := Identifier.propertyName key
          isRequired := required.any (·.isText key)
          constraints := p.constraints } := by
  refine ⟨fun p hp => ?_, fun n required parent key p hsub hp => eq_of_property hs hm hsub hp⟩
  cases hp with
  | definition hname h => exact core_of_model hname h hm
  | property hsub h =>
    rw [eq_of_property hs hm hsub h]
    rfl
  | parameter hschema hdefers h =>
    exact Parameter.core_of_ofNode hdefers hs hschema (fun ref href => (hforeign ref href).1) hm h
  | requestBody hchoice h => exact Parameter.core_of_ofRequestBody hs hchoice hm h
  | response hschema h =>
    exact Response.core_of_ofNode hs hschema (fun ref href => (hforeign ref href).2) hm h

/-- A market about which nothing else is said. -/
def market : Context := { dialect := .v2, document := .record [] }

/-- A crate of at most nine fruits. -/
def crate : Node :=
  .record [("type", .text "array"), ("description", .text "Fruits of the day."),
    ("maxItems", .int 9), ("x-nullable", .bool true),
    ("items", .record [("$ref", .text "#/definitions/Fruit")])]

/-- A crate that is sent to the market. -/
def delivery : Node :=
  .record [("name", .text "crate"), ("in", .text "body"), ("schema", crate)]

/-- A crate is the same in a delivery and as a property that is required. -/
theorem core_of_placed_crate :
    ∃ m p q, (model market crate false "").outcome = .ok m ∧ m.type = "Fruit" ∧
      (Parameter.ofNode market delivery).outcome = .ok p ∧ p.core = m.core ∧
      (property (modelWithin market 3) market [.text "in-stock"] none "Stall"
        (.text "in-stock", crate)).outcome = .ok q ∧
      q = { m with name := "'in-stock'", isRequired := true, constraints := q.constraints } := by
  have hforeign (ref : String) (href : crate.ref? = some ref) :
      ref.startsWith market.dialect.parameterMark = false ∧
        ref.startsWith market.dialect.responseMark = false := by cases href
  obtain ⟨m, hm, htype⟩ : ∃ m, (model market crate false "").outcome = .ok m ∧
      m.type = "Fruit" := ⟨_, rfl, rfl⟩
  obtain ⟨p, hp⟩ : ∃ p, (Parameter.ofNode market delivery).outcome = .ok p := ⟨_, rfl⟩
  obtain ⟨q, hq⟩ : ∃ q, (property (modelWithin market 3) market [.text "in-stock"] none "Stall"
      (.text "in-stock", crate)).outcome = .ok q := ⟨_, rfl⟩
  obtain ⟨hcore, hproperty⟩ := core_of_placed rfl hforeign hm
  have hplaced : Placed market crate p.toModel :=
    .parameter rfl ⟨rfl, fun _ => rfl, fun _ => rfl⟩ hp
  exact ⟨m, p, q, hm, htype, hp, hcore _ hplaced, hq, hproperty 3 _ "Stall" _ q rfl hq⟩

end Schema

end ApiModel
