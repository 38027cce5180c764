import ApiModel.Proofs.Operation.Positions
import ApiModel.Proofs.Schema.Containers
import ApiModel.Proofs.Schema.Typeless

/-!
# Arrays that parameters declare themselves

In the older dialect a parameter may be an array without a schema: it names the items itself. Of
these only the type and the format are read, while the model of an array looks into its items.

**Theorem (`inline_array_type`).** A parameter that declares an array has the kind of an array and
the type that its items name. The model of the array schema with these items has the same type
exactly if this is what the items denote.

What a schema denotes (`Denotes`) is said rule by rule: a reference its target, an enumeration the
type of its values, a container what its elements denote, an object or a composition any type with
the imports of its parts. Where items name a type and nothing more, it is the type they denote.
-/

namespace ApiModel

namespace Schema

open Report Model

/-! ## What a schema denotes -/

/-- The type that the model of a schema has. -/
inductive Denotes (ctx : Context) : Node → TypeExpr → Prop
  | reference {s : Node} {ref : String} : (rule ctx s.asMap).outcome = .ok (.reference ref) →
      Denotes ctx s (.ofRef ctx.dialect ref)
  | enumeration {s : Node} {type : String} {members : List EnumMember} :
      (rule ctx s.asMap).outcome = .ok (.enumeration type members) → Denotes ctx s (.plain type)
  | container {s e : Node} {kind : ModelKind} {t : TypeExpr} :
      (rule ctx s.asMap).outcome = .ok (.container kind e) → Denotes ctx e.asMap t →
      Denotes ctx s t
  | gathered {s : Node} {r : Rule} {m : Model} : (rule ctx s.asMap).outcome = .ok r →
      r.HasProperties → (inner ctx s).outcome = .ok m → Denotes ctx s { imports := m.imports }
  | named {s type : Node} : (rule ctx s.asMap).outcome = .ok (.named type) →
      Denotes ctx s (.ofNode ctx.dialect type (s.asMap.field "format"))
  | anything {s : Node} : (rule ctx s.asMap).outcome = .ok .anything → Denotes ctx s {}

/-- What a schema denotes by its rule. -/
def Rule.Denotes (ctx : Context) (s : Node) (t : TypeExpr) : Rule → Prop
  | .reference ref => t = .ofRef ctx.dialect ref
  | .enumeration type _ => t = .plain type
  | .container _ e => Schema.Denotes ctx e.asMap t
  | .composition _ _ | .interface =>
    ∃ m, (inner ctx s).outcome = .ok m ∧ t = { imports := m.imports }
  | .named type => t = .ofNode ctx.dialect type (s.asMap.field "format")
  | .anything => t = {}

variable {ctx : Context} {name : String} {s items : Node} {r : Rule} {m : Model} {t : TypeExpr}
  {isDefinition : Bool}

theorem denotes_iff (hr : (rule ctx s.asMap).outcome = .ok r) :
    Denotes ctx s t ↔ r.Denotes ctx s t := by
  constructor
  · intro h
    cases h with
    | reference hr' => cases hr'.symm.trans hr; rfl
    | enumeration hr' => cases hr'.symm.trans hr; rfl
    | container hr' h => cases hr'.symm.trans hr; exact h
    | gathered hr' hgathers hm =>
      cases hr'.symm.trans hr
      cases r with
      | composition kind members => exact ⟨_, hm, rfl⟩
      | interface => exact ⟨_, hm, rfl⟩
      | _ => exact hgathers.elim
    | named hr' => cases hr'.symm.trans hr; rfl
    | anything hr' => cases hr'.symm.trans hr; rfl
  · intro h
    cases r with
    | reference ref => cases h; exact .reference hr
    | enumeration type members => cases h; exact .enumeration hr
    | container kind e => exact .container hr h
    | composition kind members =>
      obtain ⟨m, hm, rfl⟩ := h
      exact .gathered hr trivial hm
    | interface =>
      obtain ⟨m, hm, rfl⟩ := h
      exact .gathered hr trivial hm
    | named type => cases h; exact .named hr
    | anything => cases h; exact .anything hr

/-- A reference denotes its target. -/
theorem denotes_ref_iff {ref : String} (h : s.asMap.ref? = some ref) :
    Denotes ctx s t ↔ t = .ofRef ctx.dialect ref := by
  have hr : (rule ctx s.asMap).outcome = .ok (.reference ref) := by
    rw [rule, h]
    rfl
  exact denotes_iff hr

/-- The type of a model that a rule makes is what the rule says that its schema denotes. -/
theorem denotes_of_made (hr : (rule ctx s.asMap).outcome = .ok r)
    (hmade : Made (inner ctx) ctx name s.asMap r m) (hm : (inner ctx s).outcome = .ok m)
    (hvisited : ∀ u, Visits ctx name s u → ∀ l, (inner ctx u).outcome = .ok l →
      ∀ t, Denotes ctx u t ↔ t = l.toTypeExpr) : r.Denotes ctx s t ↔ t = m.toTypeExpr := by
  have hgathered (ht : m.toTypeExpr = { imports := m.imports }) :
      (∃ l, (inner ctx s).outcome = .ok l ∧ t = { imports := l.imports }) ↔ t = m.toTypeExpr := by
    rw [ht]
    constructor
    · rintro ⟨l, hl, rfl⟩
      cases hl.symm.trans hm
      rfl
    · exact fun h => ⟨m, hm, h⟩
  cases hmade with
  | reference hcore => rw [(toTypeExpr_of_core hcore :)]; rfl
  | enumeration hcore => rw [(toTypeExpr_of_core hcore :)]; rfl
  | @referenceContainer kind e ref _ href hcore =>
    rw [(toTypeExpr_of_core hcore :)]
    exact denotes_ref_iff (by rw [ref?_asMap, ref?_asMap, href])
  | container href hlink hcore =>
    rw [(toTypeExpr_of_core hcore :)]
    exact hvisited _ (.element hr href) _ hlink t
  | composition _ _ _ hcore =>
    exact hgathered (by rw [imports_of_core hcore, toTypeExpr_of_core hcore])
  | interface _ hcore =>
    exact hgathered (by rw [imports_of_core hcore, toTypeExpr_of_core hcore])
  | named hcore => rw [(toTypeExpr_of_core hcore :)]; rfl
  | anything hcore => rw [(toTypeExpr_of_core hcore :)]; rfl

/-- A schema denotes the type of its model, and no other one. -/
theorem denotes_iff_eq (h : (inner ctx s).outcome = .ok m) :
    Denotes ctx s t ↔ t = m.toTypeExpr := by
  suffices hall : (inner ctx s).outcome = .ok m → ∀ t, Denotes ctx s t ↔ t = m.toTypeExpr from
    hall h t
  refine made_induction
    (R := fun s m => (inner ctx s).outcome = .ok m → ∀ t, Denotes ctx s t ↔ t = m.toTypeExpr) ?_ h
  intro name s r m hr hmade hvisited hm t
  rw [denotes_iff hr]
  exact denotes_of_made hr hmade hm fun u hv l hl => hvisited u hv l hl hl

/-! ## Schemas that only name a type -/

/-- The rule reads at most a type name. -/
def Rule.IsPlain : Rule → Prop
  | .named _ | .anything => True
  | _ => False

theorem structuredRule_isPlain {d : Dialect} (h : (structuredRule d s).IsPlain) :
    structuredRule d s = .named (s.field "type") ∨
      structuredRule d s = .anything ∧ (s.field "type").truthy = false := by
  unfold structuredRule at h ⊢
  dsimp only at h ⊢
  split
  · rename_i harray
    rw [if_pos harray] at h
    exact h.elim
  · rename_i harray
    rw [if_neg harray] at h
    split
    · rename_i hfurther
      rw [hfurther] at h
      exact h.elim
    · rename_i hfurther hcombination
      rw [hfurther, hcombination] at h
      exact h.elim
    · rename_i hfurther hcombination
      rw [hfurther, hcombination] at h
      dsimp only at h
      split_ifs at h ⊢ with hobject hbare htruthy
      · exact h.elim
      · exact h.elim
      · exact .inl rfl
      · exact .inr ⟨rfl, Bool.eq_false_iff.2 htruthy⟩

/-- A schema that only names a type denotes what its type and its format say. -/
theorem denotes_of_isPlain (hctx : ctx.dialect = .v2)
    (hr : (rule ctx s.asMap).outcome = .ok r) (h : r.IsPlain) :
    Denotes ctx s (.ofNode .v2 (s.asMap.field "type") (s.asMap.field "format")) := by
  rw [← hctx]
  obtain ⟨ref, -, rfl⟩ | ⟨type, members, rfl⟩ | rfl := rule_eq_ok hr
  · exact h.elim
  · exact h.elim
  · rcases structuredRule_isPlain h with hnamed | ⟨hanything, htype⟩
    · exact .named (hnamed ▸ hr)
    · have hunknown : TypeExpr.IsUnknown ctx.dialect (s.asMap.field "type") := by
        refine ⟨?_, fun names hlist => ?_⟩
        · cases hfield : s.asMap.field "type" with
          | scalar value =>
            cases value with
            | text word =>
              rw [hfield] at htype
              simpa [Node.truthy, Scalar.truthy, Node.text?] using htype
            | _ => rfl
          | _ => rfl
        · rw [hctx] at hlist
          exact absurd hlist.1 (by decide)
      rw [TypeExpr.ofNode_eq_any hunknown]
      exact .anything (hanything ▸ hr)

/-! ## Arrays -/

/-- The schema of an array with the given items. -/
def arrayOf (items : Node) : Node := .record [("type", .text "array"), ("items", items)]

theorem rule_arrayOf (h : items.truthy = true) :
    (rule ctx (arrayOf items).asMap).outcome = .ok (.container .array items) := by
  have hstructured : structuredRule ctx.dialect (arrayOf items) = .container .array items := by
    rw [structuredRule]
    exact if_pos (Bool.and_eq_true_iff.2 ⟨rfl, h⟩)
  have hlisted : listedMembers ctx (arrayOf items) = pure [] := rfl
  have hdescribed : describedMembers ctx (arrayOf items) = pure [] := by
    have hinteger : isInteger ((arrayOf items).field "type") = false := rfl
    rw [describedMembers, hinteger, Bool.and_false]
  show (rule ctx (arrayOf items)).outcome = _
  have hnone : (arrayOf items).ref? = none := rfl
  rw [rule, hnone, hlisted, hdescribed, hstructured]
  rfl

/-- The model of an array has the type that the items denote. -/
theorem denotes_items_iff (hitems : items.isMap = true) (htruthy : items.truthy = true)
    (h : (model ctx (arrayOf items) isDefinition name).outcome = .ok m) :
    Denotes ctx items t ↔ t = m.toTypeExpr := by
  have hself : items.asMap = items := asMap_of_isMap hitems
  obtain ⟨r, hr, hmade⟩ := model_made h
  cases hr.symm.trans (rule_arrayOf htruthy)
  cases hmade with
  | referenceContainer href hcore =>
    rw [(toTypeExpr_of_core hcore :)]
    exact denotes_ref_iff (by rw [ref?_asMap, href])
  | container href hlink hcore =>
    rw [hself] at hlink
    have helement := denotes_iff_eq (t := t) hlink
    rw [(toTypeExpr_of_core hcore :)]
    exact helement

end Schema

namespace Parameter

open Report Schema

variable {ctx : Context} {node items : Node} {p : Parameter}

/-- A parameter that is an array by its own keywords. -/
structure DeclaresArray (node items : Node) : Prop where
  reference : node.ref? = none
  values : node.field "enum" = .null
  type : (node.field "type").isText "array" = true
  field : node.field "items" = items
  isMap : items.isMap = true
  truthy : items.truthy = true

/-- The keywords of such a parameter give the kind of an array and the type that the items name. -/
theorem core_of_declaresArray (h : DeclaresArray node items) {d : Draft} {o : Option Parameter}
    (ho : (ofKeywords? ctx node d).outcome = .ok o) :
    ∃ q, o = some q ∧ q.kind = .array ∧
      q.toTypeExpr = .ofNode ctx.dialect (items.field "type") (items.field "format") := by
  obtain ⟨members, hmembers, ho⟩ := bind_eq_ok.1 ho
  obtain ⟨listed, hlisted, ho⟩ := bind_eq_ok.1 ho
  have hnil : listed = [] :=
    (Enumeration.extend_eq_nil_iff (bind_eq_ok.2 ⟨members, hmembers, hlisted⟩)).2
      (by rw [h.values]; rfl)
  subst hnil
  have hinteger : isInteger (node.field "type") = false := by
    have htext : (node.field "type").text? = some "array" := of_decide_eq_true h.type
    rw [isInteger, Node.isText, Node.isText, htext]
    decide
  have hkind : containerKind? (node.field "type") = some .array := if_pos h.type
  rw [hinteger] at ho
  obtain ⟨described, hdescribed, ho⟩ := bind_eq_ok.1 ho
  cases hdescribed
  beta_reduce at ho
  rw [if_neg (by simp), h.field, hkind] at ho
  dsimp only at ho
  rw [h.isMap] at ho
  obtain ⟨q, hq, ho⟩ := bind_eq_ok.1 ho
  obtain ⟨default, -, hq⟩ := bind_eq_ok.1 hq
  cases ho
  exact ⟨q, rfl, (kind_of_core (core_of_settle hq) :), (toTypeExpr_of_core (core_of_settle hq) :)⟩

/-- A parameter that declares an array in the older dialect has the kind of an array and the type
that the items name. This is the type of the model of the array schema with these items if they name
a type and nothing more, and in general exactly if it is what they denote. -/
theorem inline_array_type (hctx : ctx.dialect = .v2) (h : DeclaresArray node items)
    (hp : (ofNode ctx node).outcome = .ok p) :
    p.kind = .array ∧ p.toTypeExpr = .ofNode .v2 (items.field "type") (items.field "format") ∧
      ∀ isDefinition name m, (model ctx (arrayOf items) isDefinition name).outcome = .ok m →
        (∀ r, (rule ctx items).outcome = .ok r → r.IsPlain → p.toTypeExpr = m.toTypeExpr) ∧
          (p.toTypeExpr = m.toTypeExpr ↔ Denotes ctx items p.toTypeExpr) := by
  obtain ⟨hkind, htype⟩ : p.kind = .array ∧
      p.toTypeExpr = .ofNode .v2 (items.field "type") (items.field "format") := by
    obtain ⟨-, hp⟩ := unless_eq_ok.1 hp
    have hinline : ctx.dialect.hasInlineTypes = true := by rw [hctx]; rfl
    rw [h.reference] at hp
    dsimp only at hp
    rw [if_pos hinline] at hp
    obtain ⟨o, ho, hp⟩ := bind_eq_ok.1 hp
    obtain ⟨q, rfl, hq⟩ := core_of_declaresArray h ho
    cases hp
    rwa [hctx] at hq
  refine ⟨hkind, htype, fun isDefinition name m hm => ?_⟩
  have hdenotes : Denotes ctx items p.toTypeExpr ↔ p.toTypeExpr = m.toTypeExpr :=
    denotes_items_iff h.isMap h.truthy hm
  refine ⟨fun r hr hplain => hdenotes.1 ?_, hdenotes.symm⟩
  have hself : items.asMap = items := asMap_of_isMap h.isMap
  rw [← hself] at hr
  have hitems := denotes_of_isPlain hctx hr hplain
  rwa [hself, ← htype] at hitems

/-- A parameter in the query that is an array of the given items. -/
def listOf (items : Node) : Node :=
  .record [("name", .text "ids"), ("in", .text "query"), ("type", .text "array"), ("items", items)]

/-- Numbers. -/
def wholeNumbers : Node := .record [("type", .text "integer"), ("format", .text "int64")]

/-- Arrays of texts. -/
def textLists : Node := arrayOf (.record [("type", .text "string")])

theorem declaresArray_listOf {items : Node} (hmap : items.isMap = true)
    (htruthy : items.truthy = true) : DeclaresArray (listOf items) items :=
  ⟨rfl, rfl, rfl, rfl, hmap, htruthy⟩

/-- An array of numbers has one type, whether a parameter or a schema declares it. -/
theorem inline_array_type_numbers :
    market.dialect = .v2 ∧ DeclaresArray (listOf wholeNumbers) wholeNumbers ∧
      ∃ p m, (ofNode market (listOf wholeNumbers)).outcome = .ok p ∧
        (model market (arrayOf wholeNumbers) false "").outcome = .ok m ∧
        p.kind = .array ∧ p.type = "number" ∧ p.toTypeExpr = m.toTypeExpr := by
  have h : DeclaresArray (listOf wholeNumbers) wholeNumbers := declaresArray_listOf rfl rfl
  obtain ⟨p, m, hp, hm⟩ : ∃ p m, (ofNode market (listOf wholeNumbers)).outcome = .ok p ∧
      (model market (arrayOf wholeNumbers) false "").outcome = .ok m := ⟨_, _, rfl, rfl⟩
  obtain ⟨hkind, htype, hmodel⟩ := inline_array_type rfl h hp
  have hrule : (rule market wholeNumbers).outcome = .ok (.named (.text "integer")) := rfl
  refine ⟨rfl, h, p, m, hp, hm, hkind, ?_, (hmodel false "" m hm).1 _ hrule trivial⟩
  rw [htype]
  rfl

/-- Not every array has one type in both places: of items that are arrays themselves, a parameter
does not see the items. -/
theorem not_all_inline_arrays_agree :
    ¬ ∀ (ctx : Context) (node items : Node) (p : Parameter) (m : Model), ctx.dialect = .v2 →
      DeclaresArray node items → node.field "schema" = .null → (ofNode ctx node).outcome = .ok p →
      (model ctx (arrayOf items) false "").outcome = .ok m →
      p.kind = .array ∧ p.toTypeExpr = m.toTypeExpr := by
  intro h
  obtain ⟨p, m, hp, hm, htype⟩ : ∃ p m, (ofNode market (listOf textLists)).outcome = .ok p ∧
      (model market (arrayOf textLists) false "").outcome = .ok m ∧
      p.toTypeExpr.type ≠ m.toTypeExpr.type := ⟨_, _, rfl, rfl, by decide⟩
  have heq := (h market (listOf textLists) textLists p m rfl
    (declaresArray_listOf rfl rfl) rfl hp hm).2
  exact htype (congrArg TypeExpr.type heq)

end Parameter

end ApiModel
