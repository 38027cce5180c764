import ApiModel.Proofs.Schema.Nesting

/-!
# Well-formed models

What a model shows depends on its kind: members for enumerations only, a link for containers only,
properties and enumerations for interfaces and compositions only. A type with an inner part is
written as its outermost part with the inner part in angle brackets.

**Theorem (`wellFormed_model`).** The model of a schema is well-formed, and so is every model in it.
-/

namespace ApiModel

/-! ## Types -/

namespace TypeExpr

/-- A type with an inner part is written as its outermost part and the inner part. -/
def Composed (t : TypeExpr) : Prop :=
  ∀ inner, t.template = some inner → t.type = t.base ++ "<" ++ inner ++ ">"

theorem composed_of_template {t : TypeExpr} (h : t.template = none) : t.Composed := by
  intro inner hinner
  rw [h] at hinner
  cases hinner

theorem composed_ofBareName (s : List Char) : (ofBareName s).Composed := by
  unfold ofBareName
  split
  · simp only [apply]
    split_ifs
    · exact composed_of_template rfl
    · rintro inner ⟨⟩
      rfl
  · split
    · exact composed_of_template rfl
    · exact composed_of_template rfl

theorem composed_ofName (d : Dialect) (name : String) (format : Node) :
    (ofName d name format).Composed := by
  unfold ofName
  split_ifs
  · exact composed_of_template rfl
  · split
    · exact composed_of_template rfl
    · exact composed_ofBareName _

theorem composed_ofRef (d : Dialect) (ref : String) : (ofRef d ref).Composed :=
  composed_ofName d ref .null

theorem composed_ofNode (d : Dialect) (type format : Node) : (ofNode d type format).Composed := by
  unfold ofNode
  split
  · exact composed_ofName d _ format
  · split_ifs
    · exact composed_of_template rfl
    · exact composed_of_template rfl
  · exact composed_of_template rfl

end TypeExpr

namespace Model

open Schema

/-! ## Well-formed models -/

/-- A model shows only what its kind has. -/
structure WellFormed (m : Model) : Prop where
  members : m.kind = .enum ↔ m.members ≠ []
  link : m.link ≠ none → m.kind = .array ∨ m.kind = .dictionary
  parts : m.properties ≠ [] ∨ m.enums ≠ [] →
    m.kind = .interface ∨ m.kind = .oneOf ∨ m.kind = .anyOf ∨ m.kind = .allOf
  enums : ∀ e ∈ m.enums, e.kind = .enum
  type : m.Composed

variable {m l : Model} {type : TypeExpr} {kind : ModelKind} {members : List EnumMember}

theorem generic_ne_enum : ModelKind.generic ≠ .enum := by simp

theorem ne_enum_of_container (h : kind = .array ∨ kind = .dictionary) : kind ≠ .enum := by
  rcases h with rfl | rfl <;> simp

theorem WellFormed.of_core (h : m.core = l.core) (hl : l.WellFormed) : m.WellFormed := by
  have hkind : m.kind = l.kind := (kind_of_core h :)
  have hmembers : m.members = l.members := (members_of_core h :)
  have hlink : m.link = l.link := (link_of_core h :)
  have hproperties : m.properties = l.properties := (properties_of_core h :)
  have henums : m.enums = l.enums := (enums_of_core h :)
  have htype : m.toTypeExpr = l.toTypeExpr := (toTypeExpr_of_core h :)
  constructor
  · rw [hkind, hmembers]
    exact hl.members
  · rw [hkind, hlink]
    exact hl.link
  · rw [hkind, hproperties, henums]
    exact hl.parts
  · rw [henums]
    exact hl.enums
  · rw [htype]
    exact hl.type

/-- A model that shows its type only. -/
theorem wellFormed_plain (hkind : kind ≠ .enum) (htype : type.Composed) :
    WellFormed { toTypeExpr := type, kind } where
  members := iff_of_false hkind fun h => h rfl
  link h := absurd rfl h
  parts h := by simp at h
  enums e he := absurd he List.not_mem_nil
  type := htype

theorem wellFormed_enumeration {name : String} (h : members ≠ []) :
    WellFormed { toTypeExpr := .plain name, kind := .enum, members } where
  members := iff_of_true rfl h
  link h := absurd rfl h
  parts h := by simp at h
  enums e he := absurd he List.not_mem_nil
  type := TypeExpr.composed_of_template rfl

theorem throughout_of_plain (h : m.core = { toTypeExpr := type, kind }) (hkind : kind ≠ .enum)
    (htype : type.Composed) : m.Throughout WellFormed :=
  throughout_of_leaf ((wellFormed_plain hkind htype).of_core (h.trans rfl)) (link_of_core h)
    (properties_of_core h) (enums_of_core h)

theorem throughout_of_enumeration {name : String}
    (h : m.core = { toTypeExpr := .plain name, kind := .enum, members })
    (hmembers : members ≠ []) : m.Throughout WellFormed :=
  throughout_of_leaf ((wellFormed_enumeration hmembers).of_core (h.trans rfl)) (link_of_core h)
    (properties_of_core h) (enums_of_core h)

/-- A model that shows its type and its link. -/
theorem wellFormed_container (hkind : kind = .array ∨ kind = .dictionary) (hl : l.WellFormed) :
    WellFormed { toTypeExpr := l.toTypeExpr, kind, link := some l } where
  members := iff_of_false (ne_enum_of_container hkind) fun h => h rfl
  link _ := hkind
  parts h := by simp at h
  enums e he := absurd he List.not_mem_nil
  type := hl.type

/-- A model that shows properties and enumerations. -/
theorem wellFormed_parts {imports : List String} {enums properties : List Model}
    (hkind : kind = .interface ∨ kind = .oneOf ∨ kind = .anyOf ∨ kind = .allOf)
    (henums : ∀ e ∈ enums, e.kind = .enum) :
    WellFormed { kind, imports, enums, properties } where
  members := iff_of_false (by rcases hkind with rfl | rfl | rfl | rfl <;> simp) fun h => h rfl
  link h := absurd rfl h
  parts _ := hkind
  enums := henums
  type := TypeExpr.composed_of_template rfl

end Model

namespace Schema

open Report Model TypeExpr

variable {build : Builder} {ctx : Context} {name : String} {s : Node} {r : Rule} {m : Model}

theorem wellFormed_inherited (ctx : Context) : Inherited ctx WellFormed where
  core := WellFormed.of_core
  literal _ := wellFormed_plain (by simp) (composed_of_template rfl)
  reference ref := wellFormed_plain (by simp) (composed_ofRef ctx.dialect ref)
  gathered properties := by
    have hparts : WellFormed { kind := .interface, properties } :=
      wellFormed_parts (.inl rfl) fun e he => absurd he List.not_mem_nil
    refine hparts.of_core ?_
    rfl

theorem kind_of_mem_nestedEnums {ms : List Model} (h : ∀ p ∈ ms, p.Throughout WellFormed) :
    ∀ e ∈ nestedEnums ms, e.kind = .enum := by
  intro e he
  obtain ⟨p, hp, hep⟩ := mem_nestedEnums.1 he
  exact (h p hp).here.enums e hep

theorem kind_of_mem_enumsOf {ms : List Model} (h : ∀ p ∈ ms, p.Throughout WellFormed) :
    ∀ e ∈ enumsOf ms, e.kind = .enum := by
  intro e he
  obtain ⟨p, hp, hep | ⟨hkind, rfl⟩⟩ := mem_enumsOf.1 he
  · exact (h p hp).here.enums e hep
  · exact hkind

/-- A rule makes a well-formed model of well-formed models. -/
theorem wellFormed_of_made (hr : (rule ctx s.asMap).outcome = .ok r)
    (hmade : Made build ctx name s.asMap r m)
    (hvisited : ∀ t, Visits ctx name s t → ∀ l, (build t).outcome = .ok l →
      l.Throughout WellFormed) : m.WellFormed := by
  have hregular := regular_rule hr
  cases hmade with
  | @reference ref _ hcore =>
    have hplain := (wellFormed_inherited ctx).reference ref
    exact hplain.of_core (hcore.trans rfl)
  | enumeration hcore =>
    exact (wellFormed_enumeration (members_ne_nil_of_rule hr)).of_core (hcore.trans rfl)
  | @referenceContainer _ _ ref _ _ hcore =>
    have hkind := ne_enum_of_container hregular
    exact (wellFormed_plain hkind (composed_ofRef ctx.dialect ref)).of_core (hcore.trans rfl)
  | container href hlink hcore =>
    have hl := (hvisited _ (.element hr href) _ hlink).here
    exact (wellFormed_container hregular hl).of_core (hcore.trans rfl)
  | composition hoptions hlifted hown hcore =>
    obtain ⟨hkept, hlift, hself⟩ :=
      (wellFormed_inherited ctx).throughout_composition hvisited hr hoptions hlifted hown
    refine (wellFormed_parts (.inr hregular) ?_).of_core (hcore.trans rfl)
    refine List.forall_mem_append.2 ⟨List.forall_mem_append.2 ⟨?_, ?_⟩, ?_⟩
    · exact kind_of_mem_nestedEnums hkept
    · exact kind_of_mem_nestedEnums hlift
    · exact kind_of_mem_enumsOf hself
  | interface hown hcore =>
    have hall := (wellFormed_inherited ctx).throughout_properties hvisited hr trivial hown
    exact (wellFormed_parts (.inl rfl) (kind_of_mem_enumsOf hall)).of_core (hcore.trans rfl)
  | @named type _ hcore =>
    have htype := composed_ofNode ctx.dialect type (s.asMap.field "format")
    exact (wellFormed_plain generic_ne_enum htype).of_core (hcore.trans rfl)
  | anything hcore =>
    have hblank : WellFormed {} := wellFormed_plain (by simp) (composed_of_template rfl)
    exact hblank.of_core (hcore.trans rfl)

theorem wellFormed_step {ctx : Context} :
    KeptByStep ctx (fun _ => True) (Throughout WellFormed) := by
  intro build isDefinition name s m _ hvisited h
  obtain ⟨r, hr, hmade⟩ := modelStep_made h
  exact (wellFormed_inherited ctx).throughout hr hmade (wellFormed_of_made hr hmade hvisited)
    hvisited

/-- The model of a schema is well-formed, and so are all models in it. -/
theorem wellFormed_model {isDefinition : Bool}
    (h : (model ctx s isDefinition name).outcome = .ok m) : m.Throughout WellFormed :=
  model_keeps wellFormed_step (fun _ _ => trivial) h

end Schema

end ApiModel
