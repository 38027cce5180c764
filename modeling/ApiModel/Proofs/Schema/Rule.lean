import ApiModel.Proofs.Outcome
import ApiModel.Schema.Builder

/-!
# The rule for a schema

Which kind of model a schema becomes does not depend on the schemas inside it. A `Rule` is that
decision, with what it takes from the schema; `Rule.build` is the work that the rule asks for.

**Theorem (`modelStep_eq`).** Making a model is finding its rule and then building by it.
-/

namespace ApiModel

namespace Schema

open Report

/-- How a schema becomes a model, and what the model is made from. -/
inductive Rule where
  | reference (ref : String)
  | enumeration (type : String) (members : List EnumMember)
  | container (kind : ModelKind) (element : Node)
  | composition (kind : ModelKind) (members : List Node)
  | interface
  | named (type : Node)
  | anything

/-- The rule for a schema that is neither a reference nor an enumeration. -/
def structuredRule (d : Dialect) (schema : Node) : Rule :=
  let type := schema.field "type"
  let items := schema.field "items"
  if type.isText "array" && items.truthy then .container .array items
  else
    match furtherProperties? d schema, combination? d schema with
    | some element, _ => .container .dictionary element
    | none, some (kind, members) => .composition kind members
    | none, none =>
      if type.isText "object" then
        if d.hasBareObjects && !(schema.field "properties").truthy then
          .container .dictionary (.map [])
        else .interface
      else if type.truthy then .named type
      else .anything

/-- The rule for a schema. -/
def rule (ctx : Context) (schema : Node) : Built Rule :=
  match schema.ref? with
  | some ref => pure (.reference ref)
  | none => do
    match ← listedMembers ctx schema with
    | m :: ms => pure (.enumeration "string" (m :: ms))
    | [] =>
      match ← describedMembers ctx schema with
      | m :: ms => pure (.enumeration "number" (m :: ms))
      | [] => pure (structuredRule ctx.dialect schema)

/-- The model that a rule makes. -/
def Rule.build (build : Builder) (ctx : Context) (schema : Node) (name : String) (base : Model) :
    Rule → Built Model
  | .reference ref => Schema.reference ctx schema ref base
  | .enumeration type members => Schema.enumeration schema type members base
  | .container kind element => Schema.container build ctx schema element kind base
  | .composition kind members => Schema.composition build ctx schema members kind base
  | .interface => Schema.interface build ctx schema name base
  | .named type => Schema.named ctx schema type base
  | .anything => base.settle

theorem structured_eq (build : Builder) (ctx : Context) (schema : Node) (name : String)
    (base : Model) :
    structured build ctx schema name base =
      (structuredRule ctx.dialect schema).build build ctx schema name base := by
  simp only [structured, structuredRule, object]
  rcases furtherProperties? ctx.dialect schema with _ | element
  · rcases combination? ctx.dialect schema with _ | ⟨kind, members⟩
    · split_ifs <;> rfl
    · split_ifs <;> rfl
  · split_ifs <;> rfl

/-- A model is made by finding the rule and building by it. -/
theorem modelStep_eq (build : Builder) (ctx : Context) (isDefinition : Bool) (name : String)
    (node : Node) :
    modelStep build ctx isDefinition name node =
      rule ctx node.asMap >>=
        Rule.build build ctx node.asMap name (base ctx node.asMap isDefinition name) := by
  simp only [modelStep, rule]
  cases node.asMap.ref? with
  | some ref => simp only [pure_bind, Rule.build]
  | none =>
    simp only [bind_assoc]
    congr 1
    funext listed
    cases listed with
    | cons m ms => simp only [pure_bind, Rule.build]
    | nil =>
      simp only [bind_assoc]
      congr 1
      funext described
      cases described with
      | cons m ms => simp only [pure_bind, Rule.build]
      | nil => simp only [pure_bind, structured_eq]

/-- A rule that looks into a schema is the one for its structure. -/
theorem rule_eq_ok {ctx : Context} {schema : Node} {r : Rule}
    (h : (rule ctx schema).outcome = .ok r) :
    (∃ ref, schema.ref? = some ref ∧ r = .reference ref) ∨
      (∃ type members, r = .enumeration type members) ∨
      r = structuredRule ctx.dialect schema := by
  unfold rule at h
  split at h
  · rename_i ref href
    exact .inl ⟨ref, href, by simpa using h.symm⟩
  · obtain ⟨listed, -, h⟩ := bind_eq_ok.1 h
    split at h
    · exact .inr (.inl ⟨_, _, (Except.ok.inj h).symm⟩)
    · obtain ⟨described, -, h⟩ := bind_eq_ok.1 h
      split at h
      · exact .inr (.inl ⟨_, _, (Except.ok.inj h).symm⟩)
      · exact .inr (.inr (Except.ok.inj h).symm)

/-- A container is one by its items, by its further properties, or because nothing is said of an
object. -/
theorem container_of_rule {ctx : Context} {schema e : Node} {kind : ModelKind}
    (h : (rule ctx schema).outcome = .ok (.container kind e)) :
    (schema.field "items" = e ∧ e.truthy = true) ∨
      furtherProperties? ctx.dialect schema = some e ∨
      e = .map [] ∧ (schema.field "type").isText "object" = true := by
  obtain ⟨_, _, h⟩ | ⟨_, _, h⟩ | h := rule_eq_ok h
  · cases h
  · cases h
  simp only [structuredRule] at h
  split at h
  · rename_i harray
    obtain ⟨-, rfl⟩ := Rule.container.inj h
    exact .inl ⟨rfl, (Bool.and_eq_true_iff.1 harray).2⟩
  · split at h
    · rename_i hfurther
      obtain ⟨-, rfl⟩ := Rule.container.inj h
      exact .inr (.inl hfurther)
    · cases h
    · split_ifs at h with hobject
      obtain ⟨-, rfl⟩ := Rule.container.inj h
      exact .inr (.inr ⟨rfl, hobject⟩)

/-- A composition is one by the keywords that combine schemas. -/
theorem combination_of_rule {ctx : Context} {schema : Node} {kind : ModelKind}
    {members : List Node} (h : (rule ctx schema).outcome = .ok (.composition kind members)) :
    combination? ctx.dialect schema = some (kind, members) := by
  obtain ⟨_, _, h⟩ | ⟨_, _, h⟩ | h := rule_eq_ok h
  · cases h
  · cases h
  simp only [structuredRule] at h
  split at h
  · cases h
  · split at h
    · cases h
    · rename_i hcombination
      obtain ⟨rfl, rfl⟩ := Rule.composition.inj h
      exact hcombination
    · split_ifs at h

/-- The kind of the model that a rule makes. -/
def Rule.kind : Rule → ModelKind
  | .reference _ => .reference
  | .enumeration _ _ => .enum
  | .container kind _ | .composition kind _ => kind
  | .interface | .anything => .interface
  | .named _ => .generic

/-- Enumerations are of texts or numbers, containers are arrays or dictionaries, and compositions
are of one of the kinds that keywords combine. -/
def Rule.Regular : Rule → Prop
  | .enumeration type _ => type = "string" ∨ type = "number"
  | .container kind _ => kind = .array ∨ kind = .dictionary
  | .composition kind _ => kind = .oneOf ∨ kind = .anyOf ∨ kind = .allOf
  | _ => True

/-- A combination is what one of the keywords lists. -/
theorem exists_keyword_of_combination {d : Dialect} {schema : Node} {kind : ModelKind}
    {members : List Node} (h : combination? d schema = some (kind, members)) :
    ∃ keyword, (keyword, kind) ∈ d.combinations ∧ schema.field keyword = .list members := by
  obtain ⟨⟨keyword, kind'⟩, hmem, hfound⟩ := List.exists_of_findSome?_eq_some h
  dsimp only at hfound
  split at hfound
  · rename_i hfield
    cases hfound
    exact ⟨keyword, hmem, hfield⟩
  · cases hfound

theorem regular_of_combination {d : Dialect} {schema : Node} {kind : ModelKind}
    {members : List Node} (h : combination? d schema = some (kind, members)) :
    (Rule.composition kind members).Regular := by
  obtain ⟨keyword, hmem, -⟩ := exists_keyword_of_combination h
  have hkind : kind ∈ d.combinations.map (·.2) := List.mem_map.2 ⟨_, hmem, rfl⟩
  show kind = .oneOf ∨ kind = .anyOf ∨ kind = .allOf
  cases d with
  | v2 => exact .inr (.inr (by simpa [Dialect.combinations] using hkind))
  | v3 => simpa [Dialect.combinations] using hkind

theorem regular_structuredRule (d : Dialect) (schema : Node) :
    (structuredRule d schema).Regular := by
  simp only [structuredRule]
  split
  · exact .inl rfl
  · split
    · exact .inr rfl
    · rename_i hcombination
      exact regular_of_combination hcombination
    · split_ifs
      · exact .inr rfl
      all_goals trivial

theorem regular_rule {ctx : Context} {schema : Node} {r : Rule}
    (h : (rule ctx schema).outcome = .ok r) : r.Regular := by
  unfold rule at h
  split at h
  · cases h
    trivial
  · obtain ⟨listed, -, h⟩ := bind_eq_ok.1 h
    split at h
    · cases h
      exact .inl rfl
    · obtain ⟨described, -, h⟩ := bind_eq_ok.1 h
      split at h
      · cases h
        exact .inr rfl
      · cases h
        exact regular_structuredRule ctx.dialect schema

/-- An enumeration has members. -/
theorem members_ne_nil_of_rule {ctx : Context} {schema : Node} {type : String}
    {members : List EnumMember} (h : (rule ctx schema).outcome = .ok (.enumeration type members)) :
    members ≠ [] := by
  unfold rule at h
  split at h
  · cases h
  · obtain ⟨listed, -, h⟩ := bind_eq_ok.1 h
    split at h
    · cases h
      exact List.cons_ne_nil _ _
    · obtain ⟨described, -, h⟩ := bind_eq_ok.1 h
      split at h
      · cases h
        exact List.cons_ne_nil _ _
      · -- The rule for the structure of a schema makes no enumeration.
        have hrule : structuredRule ctx.dialect schema = .enumeration type members :=
          Except.ok.inj h
        simp only [structuredRule] at hrule
        split at hrule
        · cases hrule
        · split at hrule
          · cases hrule
          · cases hrule
          · split_ifs at hrule

end Schema

end ApiModel
