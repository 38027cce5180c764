import ApiModel.Proofs.Schema.Rule
import Mathlib.Data.List.ReduceOption

/-!
# What a rule makes

A model has a core, which is what its schema makes of it, and around the core what the schema
says about it: name, description, constraints, default. The last steps of every rule, `settle`
and `withDefault`, change only what is around the core.

**Theorem (`modelStep_made`).** A model that is made has the core that its rule says: `Made` has
one case for each rule. The lemmas `property_eq_ok`, `mem_kept` and `mem_promoted` say the same
of the models that become properties.

**Theorem (`labelled_modelStep`).** Around its core a model says what its schema says, under the
name that it is made with. It is not required: only properties are.
-/

namespace ApiModel

/-- A model without its name and without what its schema says about it. -/
def Model.core (m : Model) : Model :=
  { toTypeExpr := m.toTypeExpr, kind := m.kind, link := m.link, members := m.members
    enums := m.enums, properties := m.properties }

/-- A model says of itself what another one does, as far as the rules leave it alone. They add at
most that nothing is a value, too. -/
structure Model.LabelledAs (m base : Model) : Prop where
  name : m.name = base.name
  description : m.description = base.description
  deprecated : m.deprecated = base.deprecated
  isDefinition : m.isDefinition = base.isDefinition
  isReadOnly : m.isReadOnly = base.isReadOnly
  isRequired : m.isRequired = base.isRequired
  isNullable : base.isNullable = true → m.isNullable = true

theorem Model.LabelledAs.trans {m l base : Model} (h : m.LabelledAs l) (h' : l.LabelledAs base) :
    m.LabelledAs base where
  name := h.name.trans h'.name
  description := h.description.trans h'.description
  deprecated := h.deprecated.trans h'.deprecated
  isDefinition := h.isDefinition.trans h'.isDefinition
  isReadOnly := h.isReadOnly.trans h'.isReadOnly
  isRequired := h.isRequired.trans h'.isRequired
  isNullable hbase := h.isNullable (h'.isNullable hbase)

namespace Schema

open Report

section Core

variable {m l : Model}

theorem toTypeExpr_of_core (h : m.core = l) : m.toTypeExpr = l.toTypeExpr := by
  rw [← h]
  rfl

theorem imports_of_core (h : m.core = l) : m.imports = l.imports := by
  rw [← h]
  rfl

theorem type_of_core (h : m.core = l) : m.type = l.type := by
  rw [← h]
  rfl

theorem kind_of_core (h : m.core = l) : m.kind = l.kind := by
  rw [← h]
  rfl

theorem enums_of_core (h : m.core = l) : m.enums = l.enums := by
  rw [← h]
  rfl

theorem members_of_core (h : m.core = l) : m.members = l.members := by
  rw [← h]
  rfl

theorem link_of_core (h : m.core = l) : m.link = l.link := by
  rw [← h]
  rfl

theorem properties_of_core (h : m.core = l) : m.properties = l.properties := by
  rw [← h]
  rfl

end Core

/-! ## The last steps of a rule -/

theorem settle_eq_ok {m m' : Model} :
    m.settle.outcome = .ok m' ↔ m.complaints = 0 ∧ m' = m.withFittingValues := by
  unfold Model.settle
  rw [bind_eq_ok]
  constructor
  · rintro ⟨_, hrefuse, h⟩
    unfold Model.refuse at hrefuse
    split_ifs at hrefuse with h0
    · rw [outcome_pure, Except.ok.injEq] at h
      exact ⟨h0, h.symm⟩
    · simp at hrefuse
  · rintro ⟨h0, rfl⟩
    exact ⟨(), by rw [Model.refuse, if_pos h0]; rfl, rfl⟩

theorem core_of_settle {m m' : Model} (h : m.settle.outcome = .ok m') : m'.core = m.core := by
  rw [(settle_eq_ok.1 h).2]
  rfl

theorem core_of_withDefault {m m' : Model} {schema : Node}
    (h : (m.withDefault schema).outcome = .ok m') : m'.core = m.core := by
  obtain ⟨d, -, h⟩ := bind_eq_ok.1 h
  rw [outcome_pure, Except.ok.injEq] at h
  rw [← h]
  rfl

/-- Both last steps, one after the other. -/
theorem core_of_last {m m' : Model} {schema : Node}
    (h : (m.settle >>= (·.withDefault schema)).outcome = .ok m') : m'.core = m.core := by
  obtain ⟨a, ha, h⟩ := bind_eq_ok.1 h
  rw [core_of_withDefault h, core_of_settle ha]

/-! ## Properties -/

variable {build : Builder} {ctx : Context} {name : String} {schema : Node}

/-- The discriminator that puts a literal in the place of a property. -/
def substitute? (ctx : Context) (name key : String) : Option Node :=
  (ctx.discriminator? name).filter fun d => (d.field "propertyName").isText key

/-- The core of the model of a property. -/
inductive MadeProperty (build : Builder) (ctx : Context) (name key : String) (p : Node) :
    Model → Prop
  | literal {d : Node} {m : Model} : substitute? ctx name key = some d →
      m.core = { type := "string"
                 base := "'" ++ (Discriminator.literal ctx.dialect d name).display ++ "'"
                 kind := .reference } →
      MadeProperty build ctx name key p m
  | reference {ref : String} {m : Model} : substitute? ctx name key = none →
      p.asMap.ref? = some ref →
      m.core = { toTypeExpr := .ofRef ctx.dialect ref, kind := .reference } →
      MadeProperty build ctx name key p m
  | embedded {inner m : Model} : substitute? ctx name key = none → p.asMap.ref? = none →
      (build p.asMap).outcome = .ok inner → m.core = inner.core →
      MadeProperty build ctx name key p m

theorem property_eq_ok {required : List Node} {entry : Scalar × Node} {m : Model}
    (h : (property build ctx required (ctx.discriminator? name) name entry).outcome = .ok m) :
    ∃ key, entry.1 = .text key ∧ m.name = Identifier.propertyName key ∧
      m.isRequired = required.any (·.isText key) ∧
      MadeProperty build ctx name key entry.2 m := by
  obtain ⟨scalar, p⟩ := entry
  cases scalar with
  | text key =>
    refine ⟨key, rfl, ?_⟩
    simp only [property] at h
    split at h
    · rename_i d hsub
      refine ⟨?_, ?_, .literal hsub (core_of_settle h)⟩
      · rw [(settle_eq_ok.1 h).2]; rfl
      · rw [(settle_eq_ok.1 h).2]; rfl
    · rename_i ref hsub href
      obtain ⟨default, -, h⟩ := bind_eq_ok.1 h
      refine ⟨?_, ?_, .reference hsub href (core_of_settle h)⟩
      · rw [(settle_eq_ok.1 h).2]; rfl
      · rw [(settle_eq_ok.1 h).2]; rfl
    · rename_i hsub href
      obtain ⟨inner, hinner, h⟩ := bind_eq_ok.1 h
      rw [outcome_pure, Except.ok.injEq] at h
      subst h
      exact ⟨rfl, rfl, .embedded hsub href hinner rfl⟩
  | _ => simp [property] at h

/-- The entries with which a schema declares properties. -/
def declarations (schema : Node) : List (Scalar × Node) :=
  (schema.field "properties").entries?.getD []

theorem declarations_eq {entries : List (Scalar × Node)}
    (h : schema.field "properties" = .map entries) : declarations schema = entries := by
  rw [declarations, h]
  rfl

/-- The properties of a schema are those of its declarations, in order. -/
theorem properties_eq_ok {own : List Model} :
    (properties build ctx schema name).outcome = .ok own ↔
      List.Forall₂ (fun e m =>
        (property build ctx (requiredNames schema) (ctx.discriminator? name) name e).outcome =
          .ok m) (declarations schema) own := by
  rw [← mapM_eq_ok]
  unfold properties declarations
  cases schema.field "properties" <;> rfl

theorem mem_declarations {e : Scalar × Node} (he : e ∈ declarations schema) :
    schema.field "properties" = .map (declarations schema) := by
  unfold declarations at he ⊢
  cases hfield : schema.field "properties" with
  | map entries => rfl
  | _ => rw [hfield] at he; cases he

theorem declarations_eq_nil (h : ¬ (schema.field "properties").truthy = true) :
    declarations schema = [] := by
  refine List.eq_nil_iff_forall_not_mem.2 fun e he => h ?_
  rw [mem_declarations he]
  simpa [Node.truthy] using List.ne_nil_of_mem he

theorem mem_properties {own : List Model}
    (h : (properties build ctx schema name).outcome = .ok own) {m : Model} (hm : m ∈ own) :
    ∃ entries key p, schema.field "properties" = .map entries ∧ (.text key, p) ∈ entries ∧
      m.name = Identifier.propertyName key ∧
      m.isRequired = (requiredNames schema).any (·.isText key) ∧
      MadeProperty build ctx name key p m := by
  obtain ⟨⟨scalar, p⟩, he, hprop⟩ := exists_left_of_mem (properties_eq_ok.1 h) hm
  obtain ⟨key, rfl, hname, hreq, hmade⟩ := property_eq_ok hprop
  exact ⟨declarations schema, key, p, mem_declarations he, he, hname, hreq, hmade⟩

/-- A property that is neither a reference nor a literal has the core of its schema's model. -/
theorem embedded_property {own : List Model}
    (h : (properties build ctx schema name).outcome = .ok own)
    {entries : List (Scalar × Node)} {key : String} {p : Node}
    (hentries : schema.field "properties" = .map entries) (hp : (.text key, p) ∈ entries)
    (href : p.asMap.ref? = none) (hsub : substitute? ctx name key = none) :
    ∃ m ∈ own, ∃ inner, (build p.asMap).outcome = .ok inner ∧ m.core = inner.core := by
  rw [← declarations_eq hentries] at hp
  obtain ⟨m, hm, hprop⟩ := exists_right_of_mem (properties_eq_ok.1 h) hp
  obtain ⟨key', hkey, -, -, hmade⟩ := property_eq_ok hprop
  obtain rfl : key = key' := by simpa using hkey
  cases hmade with
  | literal hsub' => rw [hsub] at hsub'; simp at hsub'
  | reference _ href' => rw [href] at href'; simp at href'
  | embedded _ _ hinner hcore => exact ⟨m, hm, _, hinner, hcore⟩

/-- A property that is neither a reference nor a literal is built. -/
theorem built_property {own : List Model}
    (h : (properties build ctx schema name).outcome = .ok own)
    {entries : List (Scalar × Node)} {key : String} {p : Node}
    (hentries : schema.field "properties" = .map entries) (hp : (.text key, p) ∈ entries)
    (href : p.asMap.ref? = none) (hsub : substitute? ctx name key = none) :
    ∃ model, (build p.asMap).outcome = .ok model := by
  obtain ⟨_, -, model, hmodel, -⟩ := embedded_property h hentries hp href hsub
  exact ⟨model, hmodel⟩

/-- What is declared is the same whether or not the keyword is looked at first. -/
theorem properties_of_ownProperties {own : List Model}
    (h : (ownProperties build ctx schema name).outcome = .ok own) :
    (properties build ctx schema name).outcome = .ok own := by
  unfold ownProperties at h
  split at h
  · exact h
  · rename_i htruthy
    cases h
    rw [properties_eq_ok, declarations_eq_nil htruthy]
    exact .nil

/-! ## Members of compositions -/

variable {members : List Node} {m : Node}

/-- A member is left out if it is a bare object or its model is empty, and kept otherwise. -/
theorem member_eq_ok {kind : ModelKind} {label : String} {o : Option Model}
    (h : (member build kind label m).outcome = .ok o) :
    (isBareObject m = true ∧ o = none) ∨
      isBareObject m = false ∧ ∃ k, (build m).outcome = .ok k ∧
        ((isEmptyMember k = true ∧ o = none) ∨ isEmptyMember k = false ∧ o = some k) := by
  unfold member at h
  split at h
  · rename_i hbare
    cases h
    exact .inl ⟨hbare, rfl⟩
  · rename_i hbare
    obtain ⟨k, hk, h⟩ := bind_eq_ok.1 h
    refine .inr ⟨by simpa using hbare, k, hk, ?_⟩
    split at h
    · rename_i hempty
      cases h
      exact .inl ⟨hempty, rfl⟩
    · rename_i hempty
      cases h
      exact .inr ⟨by simpa using hempty, rfl⟩

/-- A member that is kept is no bare object, and its model is not empty. -/
theorem mem_kept {kind : ModelKind} {label : String} {options : List (Option Model)}
    (h : (members.mapM (member build kind label)).outcome = .ok options) {k : Model}
    (hk : k ∈ options.reduceOption) :
    ∃ m ∈ members, isBareObject m = false ∧ (build m).outcome = .ok k ∧
      isEmptyMember k = false := by
  obtain ⟨m, hm, hmember⟩ := exists_of_mem_mapM h (List.reduceOption_mem_iff.1 hk)
  obtain ⟨-, hnone⟩ | ⟨hbare, k', hk', ⟨-, hnone⟩ | ⟨hempty, hsome⟩⟩ := member_eq_ok hmember
  · cases hnone
  · cases hnone
  · cases hsome
    exact ⟨m, hm, hbare, hk', hempty⟩

/-- A member that is no bare object is kept unless its model is empty. -/
theorem mem_kept_of_member {kind : ModelKind} {label : String} {options : List (Option Model)}
    (h : (members.mapM (member build kind label)).outcome = .ok options) (hm : m ∈ members)
    (hbare : isBareObject m = false) {k : Model} (hk : (build m).outcome = .ok k)
    (hempty : isEmptyMember k = false) : k ∈ options.reduceOption := by
  obtain ⟨o, ho, hmember⟩ := exists_mem_of_mapM h hm
  obtain ⟨hbare', -⟩ | ⟨-, k', hk', hkept⟩ := member_eq_ok hmember
  · rw [hbare] at hbare'
    cases hbare'
  · obtain rfl := Except.ok.inj (hk.symm.trans hk')
    obtain ⟨hempty', -⟩ | ⟨-, rfl⟩ := hkept
    · rw [hempty] at hempty'
      cases hempty'
    · exact List.reduceOption_mem_iff.2 ho

/-- Every member that is no bare object is built. -/
theorem built_member {kind : ModelKind} {label : String} {options : List (Option Model)}
    (h : (members.mapM (member build kind label)).outcome = .ok options) (hm : m ∈ members)
    (hbare : isBareObject m = false) : ∃ model, (build m).outcome = .ok model := by
  obtain ⟨o, -, hmember⟩ := exists_mem_of_mapM h hm
  obtain ⟨hbare', -⟩ | ⟨-, k, hk, -⟩ := member_eq_ok hmember
  · rw [hbare] at hbare'
    cases hbare'
  · exact ⟨k, hk⟩

theorem promotedFrom_eq_ok {required : List Node} {lifted : List Model} :
    (promotedFrom build ctx required m).outcome = .ok lifted ↔
      ∃ t model, (Node.target ctx.document m).outcome = .ok t ∧ (build t).outcome = .ok model ∧
        lifted =
          (model.properties.filter fun p => !p.isRequired && required.any (·.isText p.name)).map
            fun p => { p with isRequired := true } := by
  unfold promotedFrom
  simp only [bind_eq_ok, outcome_pure, Except.ok.injEq]
  constructor
  · rintro ⟨t, ht, model, hmodel, rfl⟩
    exact ⟨t, model, ht, hmodel, rfl⟩
  · rintro ⟨t, model, ht, hmodel, rfl⟩
    exact ⟨t, ht, model, hmodel, rfl⟩

/-- What a composition promotes is a property of a model that a member refers to. -/
theorem mem_promoted {lifted : List Model}
    (h : (promoted build ctx schema members).outcome = .ok lifted) {p : Model}
    (hp : p ∈ lifted) :
    requiredNames schema ≠ [] ∧ ∃ m ∈ members, ∃ t model q,
      (Node.target ctx.document m).outcome = .ok t ∧ (build t).outcome = .ok model ∧
      q ∈ model.properties ∧ q.isRequired = false ∧
      (requiredNames schema).any (·.isText q.name) = true ∧ p = { q with isRequired := true } := by
  unfold promoted at h
  cases hreq : requiredNames schema with
  | nil =>
    simp only [hreq, outcome_pure, Except.ok.injEq] at h
    subst h
    simp at hp
  | cons n ns =>
    simp only [hreq] at h
    obtain ⟨parts, hparts, rfl⟩ := map_eq_ok.1 h
    obtain ⟨part, hpart, hp⟩ := List.mem_flatten.1 hp
    obtain ⟨m, hm, hfrom⟩ := exists_of_mem_mapM hparts hpart
    obtain ⟨t, model, ht, hmodel, rfl⟩ := promotedFrom_eq_ok.1 hfrom
    obtain ⟨q, hq, rfl⟩ := List.mem_map.1 hp
    rw [List.mem_filter, Bool.and_eq_true, Bool.not_eq_true'] at hq
    exact ⟨by simp, m, hm, t, model, q, ht, hmodel, hq.1, hq.2.1, hq.2.2, rfl⟩

/-- If properties are promoted at all, what a member refers to is built. -/
theorem built_target {lifted : List Model} {t : Node}
    (h : (promoted build ctx schema members).outcome = .ok lifted)
    (hreq : requiredNames schema ≠ []) (hm : m ∈ members)
    (ht : (Node.target ctx.document m).outcome = .ok t) :
    ∃ model, (build t).outcome = .ok model := by
  unfold promoted at h
  split at h
  · rename_i hnil
    exact absurd hnil hreq
  · obtain ⟨parts, hparts, rfl⟩ := map_eq_ok.1 h
    obtain ⟨part, -, hfrom⟩ := exists_mem_of_mapM hparts hm
    obtain ⟨t', model, ht', hmodel, -⟩ := promotedFrom_eq_ok.1 hfrom
    rw [ht, Except.ok.injEq] at ht'
    subst ht'
    exact ⟨model, hmodel⟩

/-! ## Models -/

/-- The core of the model that a rule makes. -/
inductive Made (build : Builder) (ctx : Context) (name : String) (schema : Node) :
    Rule → Model → Prop
  | reference {ref : String} {m : Model} :
      m.core = { toTypeExpr := .ofRef ctx.dialect ref, kind := .reference } →
      Made build ctx name schema (.reference ref) m
  | enumeration {type : String} {members : List EnumMember} {m : Model} :
      m.core = { toTypeExpr := .plain type, kind := .enum, members } →
      Made build ctx name schema (.enumeration type members) m
  | referenceContainer {kind : ModelKind} {element : Node} {ref : String} {m : Model} :
      element.ref? = some ref → m.core = { toTypeExpr := .ofRef ctx.dialect ref, kind } →
      Made build ctx name schema (.container kind element) m
  | container {kind : ModelKind} {element : Node} {link m : Model} : element.ref? = none →
      (build element.asMap).outcome = .ok link →
      m.core = { toTypeExpr := link.toTypeExpr, kind, link := some link } →
      Made build ctx name schema (.container kind element) m
  | composition {kind : ModelKind} {members : List Node} {options : List (Option Model)}
      {lifted own : List Model} {m : Model} :
      (members.mapM (member build kind name)).outcome = .ok options →
      (promoted build ctx schema members).outcome = .ok lifted →
      (ownProperties build ctx schema name).outcome = .ok own →
      m.core =
        { kind
          imports :=
            importsOf options.reduceOption ++ importsOf lifted ++ importsOf own
          enums :=
            nestedEnums options.reduceOption ++ nestedEnums lifted ++ enumsOf own
          properties := options.reduceOption ++ gathered (lifted ++ own) } →
      Made build ctx name schema (.composition kind members) m
  | interface {own : List Model} {m : Model} :
      (properties build ctx schema name).outcome = .ok own →
      m.core =
        { kind := .interface, imports := importsOf own, enums := enumsOf own
          properties := own } →
      Made build ctx name schema .interface m
  | named {type : Node} {m : Model} :
      m.core =
        { toTypeExpr := .ofNode ctx.dialect type (schema.field "format"), kind := .generic } →
      Made build ctx name schema (.named type) m
  | anything {m : Model} : m.core = {} → Made build ctx name schema .anything m

theorem container_made {element : Node} {kind : ModelKind} {isDefinition : Bool} {m : Model}
    (h : (container build ctx schema element kind
      (base ctx schema isDefinition name)).outcome = .ok m) :
    Made build ctx name schema (.container kind element) m := by
  obtain ⟨⟨type, link⟩, helement, hlast⟩ := bind_eq_ok.1 h
  unfold elementOf at helement
  split at helement
  · rename_i ref href
    simp only [outcome_pure, Except.ok.injEq, Prod.mk.injEq] at helement
    obtain ⟨rfl, rfl⟩ := helement
    exact .referenceContainer href (core_of_last hlast)
  · rename_i href
    obtain ⟨inner, hinner, helement⟩ := bind_eq_ok.1 helement
    simp only [outcome_pure, Except.ok.injEq, Prod.mk.injEq] at helement
    obtain ⟨rfl, rfl⟩ := helement
    exact .container href hinner (core_of_last hlast)

/-- A model that is made has the core that the rule for its schema says. -/
theorem modelStep_made {isDefinition : Bool} {node : Node} {m : Model}
    (h : (modelStep build ctx isDefinition name node).outcome = .ok m) :
    ∃ r, (rule ctx node.asMap).outcome = .ok r ∧ Made build ctx name node.asMap r m := by
  rw [modelStep_eq] at h
  obtain ⟨r, hr, h⟩ := bind_eq_ok.1 h
  refine ⟨r, hr, ?_⟩
  cases r with
  | reference ref =>
    obtain ⟨default, -, h⟩ := bind_eq_ok.1 h
    exact .reference (core_of_settle h)
  | enumeration type members => exact .enumeration (core_of_last h)
  | container kind element => exact container_made h
  | composition kind members =>
    obtain ⟨options, hoptions, h⟩ := bind_eq_ok.1 h
    obtain ⟨lifted, hlifted, h⟩ := bind_eq_ok.1 h
    obtain ⟨own, hown, h⟩ := bind_eq_ok.1 h
    exact .composition hoptions hlifted hown (core_of_settle h)
  | interface =>
    obtain ⟨own, hown, h⟩ := bind_eq_ok.1 h
    exact .interface hown (core_of_last h)
  | named type => exact .named (core_of_last h)
  | anything => exact .anything (core_of_settle h)

/-- The kind of a model is that of its rule. -/
theorem kind_of_made {r : Rule} {m : Model} (h : Made build ctx name schema r m) :
    m.kind = r.kind := by
  cases h with
  | reference hcore => exact kind_of_core hcore
  | enumeration hcore => exact kind_of_core hcore
  | referenceContainer _ hcore => exact kind_of_core hcore
  | container _ _ hcore => exact kind_of_core hcore
  | composition _ _ _ hcore => exact kind_of_core hcore
  | interface _ hcore => exact kind_of_core hcore
  | named hcore => exact kind_of_core hcore
  | anything hcore => exact kind_of_core hcore

/-! ## Around the core -/

theorem labelled_settle {m m' : Model} (h : m.settle.outcome = .ok m') : m'.LabelledAs m := by
  rw [(settle_eq_ok.1 h).2]
  exact ⟨rfl, rfl, rfl, rfl, rfl, rfl, id⟩

theorem labelled_last {m m' : Model} {schema : Node}
    (h : (m.settle >>= (·.withDefault schema)).outcome = .ok m') : m'.LabelledAs m := by
  obtain ⟨a, ha, h⟩ := bind_eq_ok.1 h
  obtain ⟨d, -, h⟩ := bind_eq_ok.1 h
  cases h
  -- The default is no part of the label.
  have hdefault : Model.LabelledAs { a with default := d } a :=
    ⟨rfl, rfl, rfl, rfl, rfl, rfl, id⟩
  exact hdefault.trans (labelled_settle ha)

/-- A step makes a model that is labelled as its schema and its name say. -/
theorem labelled_modelStep {isDefinition : Bool} {node : Node} {m : Model}
    (h : (modelStep build ctx isDefinition name node).outcome = .ok m) :
    m.LabelledAs (base ctx node.asMap isDefinition name) := by
  rw [modelStep_eq] at h
  obtain ⟨r, -, h⟩ := bind_eq_ok.1 h
  cases r with
  | reference ref =>
    obtain ⟨default, -, h⟩ := bind_eq_ok.1 h
    exact (labelled_settle h).trans ⟨rfl, rfl, rfl, rfl, rfl, rfl, id⟩
  | enumeration type members =>
    exact (labelled_last h).trans ⟨rfl, rfl, rfl, rfl, rfl, rfl, id⟩
  | container kind element =>
    obtain ⟨⟨type, link⟩, -, h⟩ := bind_eq_ok.1 h
    exact (labelled_last h).trans ⟨rfl, rfl, rfl, rfl, rfl, rfl, id⟩
  | composition kind members =>
    obtain ⟨options, -, h⟩ := bind_eq_ok.1 h
    obtain ⟨lifted, -, h⟩ := bind_eq_ok.1 h
    obtain ⟨own, -, h⟩ := bind_eq_ok.1 h
    exact (labelled_settle h).trans ⟨rfl, rfl, rfl, rfl, rfl, rfl, id⟩
  | interface =>
    obtain ⟨own, -, h⟩ := bind_eq_ok.1 h
    exact (labelled_last h).trans ⟨rfl, rfl, rfl, rfl, rfl, rfl, id⟩
  | named type =>
    exact (labelled_last h).trans
      ⟨rfl, rfl, rfl, rfl, rfl, rfl, fun hbase => Bool.or_eq_true_iff.2 (.inl hbase)⟩
  | anything => exact labelled_settle h

/-- A model is labelled as its schema and its name say. -/
theorem labelled_model {s : Node} {isDefinition : Bool} {m : Model}
    (h : (model ctx s isDefinition name).outcome = .ok m) :
    m.LabelledAs (base ctx s.asMap isDefinition name) := labelled_modelStep h

/-- A model has the name that it is made with. -/
theorem name_model {s : Node} {isDefinition : Bool} {m : Model}
    (h : (model ctx s isDefinition name).outcome = .ok m) : m.name = name :=
  (labelled_model h).name

/-- A model of a schema is not required. -/
theorem isRequired_model {s : Node} {isDefinition : Bool} {m : Model}
    (h : (model ctx s isDefinition name).outcome = .ok m) : m.isRequired = false :=
  (labelled_model h).isRequired

end Schema

end ApiModel
