import ApiModel.Operation.Builder
import ApiModel.Proofs.Node.Order
import ApiModel.Proofs.Schema.Agreement

/-!
# Parameters and responses in two contexts

A reference may lead to a schema, a parameter, a response or the body of a request, and of the node
there only the keywords of `readKeywords` are read. So nodes that say the same under these keywords
are interchangeable (`SameFor`), and if references lead to interchangeable nodes in two contexts,
the contexts are `Twins`.

**Theorems (`Parameter.ofNode_twin`, `Parameter.ofRequestBody_twin`, `Response.ofNode_twin`).** In
twin contexts, parameters, bodies and responses come out the same from interchangeable nodes.
-/

namespace ApiModel

open Node Report Schema

/-! ## What is read -/

/-- The keywords besides the plain ones that are read in both dialects. -/
def furtherKeywords : List String :=
  ["items", "additionalProperties", "properties", "name", "in", "schema", "content", "headers"]

/-- The keywords that are read of a schema, a parameter, a response or the body of a request. -/
def readKeywords (d : Dialect) : List String :=
  plainKeywords d ++ (furtherKeywords ++ d.combinations.map (·.1))

section Same

variable {d : Dialect} {n n' : Node} (h : SameFor (readKeywords d) n n')
include h

theorem says_plain : SaysSame (plainKeywords d) n n' :=
  h.saysSame.subset (List.subset_append_left _ _)

theorem says_further {key : String} (hkey : key ∈ furtherKeywords) : n.get? key = n'.get? key :=
  h.saysSame key (List.mem_append_right _ (List.mem_append_left _ hkey))

theorem field_further {key : String} (hkey : key ∈ furtherKeywords) :
    n.field key = n'.field key := by
  rw [field, says_further h hkey, field]

theorem field_combination {keyword : String} {kind : ModelKind}
    (hkey : (keyword, kind) ∈ d.combinations) : n.field keyword = n'.field keyword :=
  h.saysSame.field (List.mem_append_right _ (List.mem_append_right _
    (List.mem_map.2 ⟨_, hkey, rfl⟩)))

end Same

theorem agreement_sameFor (d : Dialect) : Agreement d (SameFor (readKeywords d)) where
  refl _ := .inl rfl
  mapping h := h.imp_right And.left
  plain := says_plain
  element h hkey := by
    rw [field_further h (List.mem_append_left _ hkey : _ ∈ elementKeywords ++ _)]
    exact .inl rfl
  properties h := by
    rw [field_further h (by decide)]
    exact .same _
  members h hkey := by
    rw [field_combination h hkey]
    exact .same _

theorem discerned_sameFor (d : Dialect) : Discerned d (SameFor (readKeywords d)) where
  items h _ := by rw [field_further h (by decide)]
  bare h hkey := by
    rw [field_combination h hkey]
    exact .same _

/-- Two contexts of one dialect in which references lead to interchangeable nodes. -/
abbrev Twins (ctx ctx' : Context) : Prop := Twin ctx ctx' (SameFor (readKeywords ctx.dialect))

/-! ## Interchangeable nodes -/

section Same

variable {ctx : Context} {n n' : Node} (h : SameFor (readKeywords ctx.dialect) n n')
include h

theorem Parameter.draft_same : Parameter.draft ctx.dialect n = Parameter.draft ctx.dialect n' := by
  have hplain := says_plain h
  have hname : n.get? "name" = n'.get? "name" := says_further h (by decide)
  simp (disch := decide) only [draft, hname, nullable_plain hplain, constraints_plain hplain,
    field_plain hplain, field_further h]

theorem Parameter.typed_same (type : TypeExpr) (kind : ModelKind) (p : Parameter.Draft) :
    Parameter.typed n type kind p = Parameter.typed n' type kind p := by
  rw [typed, default_plain (says_plain h), typed]

theorem Parameter.enumeration_same (type : String) (members : List EnumMember)
    (p : Parameter.Draft) :
    Parameter.enumeration n type members p = Parameter.enumeration n' type members p := by
  simp only [enumeration, withDefault_plain (says_plain h)]

theorem Parameter.ofKeywords?_same (p : Parameter.Draft) :
    Parameter.ofKeywords? ctx n p = Parameter.ofKeywords? ctx n' p := by
  have hplain := says_plain h
  have hitems : n.field "items" = n'.field "items" := field_further h (by decide)
  unfold Parameter.ofKeywords?
  rw [hitems, field_plain hplain (by decide : "type" ∈ sharedKeywords),
    field_plain hplain (by decide : "enum" ∈ sharedKeywords),
    field_plain hplain (by decide : "description" ∈ sharedKeywords)]
  simp only [extend_plain hplain, enumeration_same h, typed_same h]

theorem Parameter.ofSchemaOrType_same (p : Parameter.Draft) :
    Parameter.ofSchemaOrType ctx n p = Parameter.ofSchemaOrType ctx n' p := by
  simp (disch := decide) only [ofSchemaOrType, typed_same h, field_plain (says_plain h),
    field_further h]

theorem Parameter.ofNode_same : Parameter.ofNode ctx n = Parameter.ofNode ctx n' := by
  simp only [Parameter.ofNode, h.isMap, ref?_plain (says_plain h), draft_same h,
    ofKeywords?_same h, ofSchemaOrType_same h]

theorem Parameter.ofRequestBody_same :
    Parameter.ofRequestBody ctx n = Parameter.ofRequestBody ctx n' := by
  have hplain := says_plain h
  simp (disch := decide) only [Parameter.ofRequestBody, h.isMap, nullable_plain hplain,
    field_plain hplain, field_further h]

theorem Response.ofNode_same (code : Int) :
    Response.ofNode ctx n code = Response.ofNode ctx n' code := by
  have hplain := says_plain h
  simp (disch := decide) only [Response.ofNode, bodySchema?, field_plain hplain, field_further h]

end Same

/-! ## Twin contexts -/

section Twins

variable {ctx ctx' : Context} (htwins : Twins ctx ctx') {s t : Node}
include htwins

theorem pairs_model (hst : SameFor (readKeywords ctx.dialect) s t) :
    Pairs Eq (Schema.model ctx s false "") (Schema.model ctx' t false "") := by
  refine pairs_eq.2 (outcome_model_of_twin htwins hst false ?_)
  rw [discriminator?_empty, discriminator?_empty]

theorem pairs_targetAmong (mark : String) (n : Node) :
    Pairs (SameFor (readKeywords ctx.dialect)) (targetAmong mark ctx.document n)
      (targetAmong mark ctx'.document n) := by
  unfold targetAmong
  cases n.ref? with
  | some ref =>
    dsimp only
    split_ifs
    · exact htwins.target (.inl rfl)
    · exact .pure (.inl rfl)
  | none => exact .pure (.inl rfl)

namespace Parameter

theorem ofSchema_twin (hst : SameFor (readKeywords ctx.dialect) s t) (p : Draft) :
    Pairs Eq (ofSchema ctx s p) (ofSchema ctx' t p) := by
  have hplain := says_plain hst
  unfold ofSchema
  rw [hst.isMap, ref?_plain hplain, htwins.dialect]
  cases t.isMap with
  | false => exact .error _
  | true =>
    cases t.ref? with
    | some ref =>
      simp only [Draft.ofReference, default_plain hplain]
      exact pairs_self _
    | none =>
      refine (pairs_model htwins hst).bind_eq fun m => ?_
      simp only [Draft.ofModel, constraints_plain hplain]
      exact pairs_self _

theorem ofSchemaOrType_twin (n : Node) (p : Draft) :
    Pairs Eq (ofSchemaOrType ctx n p) (ofSchemaOrType ctx' n p) := by
  unfold ofSchemaOrType
  rw [htwins.dialect]
  dsimp only
  split_ifs
  · have htarget : Pairs (SameFor (readKeywords ctx.dialect))
        (schemaTarget ctx (n.field "schema")) (schemaTarget ctx' (n.field "schema")) := by
      unfold schemaTarget
      rw [htwins.dialect]
      exact pairs_targetAmong htwins _ _
    exact htarget.bind fun s t hst => ofSchema_twin htwins hst p
  · exact pairs_self _
  · exact pairs_self _

theorem ofNode_twin {n n' : Node} (h : SameFor (readKeywords ctx.dialect) n n') :
    Pairs Eq (ofNode ctx n) (ofNode ctx' n') := by
  rw [ofNode_same h]
  have hkeywords (p : Draft) : ofKeywords? ctx' n' p = ofKeywords? ctx n' p := by
    simp only [ofKeywords?, htwins.dialect]
  unfold ofNode
  rw [htwins.dialect]
  cases n'.isMap with
  | false => exact .error _
  | true =>
    dsimp only
    cases n'.ref? with
    | some ref => exact pairs_self _
    | none =>
      cases ctx.dialect.hasInlineTypes with
      | false => exact ofSchemaOrType_twin htwins _ _
      | true =>
        rw [hkeywords]
        refine (pairs_self _).bind_eq fun found => ?_
        cases found with
        | some p => exact pairs_self _
        | none => exact ofSchemaOrType_twin htwins _ _

theorem ofRequestBody_twin {n n' : Node} (h : SameFor (readKeywords ctx.dialect) n n') :
    Pairs Eq (ofRequestBody ctx n) (ofRequestBody ctx' n') := by
  rw [ofRequestBody_same h]
  unfold ofRequestBody
  rw [htwins.dialect]
  cases n'.isMap with
  | false => exact .error _
  | true =>
    refine (pairs_self _).bind_eq fun chosen => ?_
    cases chosen with
    | none => exact pairs_self _
    | some choice =>
      dsimp only
      split_ifs
      · exact ofSchema_twin htwins (.inl rfl) _
      · exact ofSchema_twin htwins (.inl rfl) _

end Parameter

namespace Response

theorem ofSchema_twin (s : Node) (r : Draft) : Pairs Eq (ofSchema ctx s r) (ofSchema ctx' s r) := by
  have htarget : Pairs (SameFor (readKeywords ctx.dialect)) (schemaTarget ctx s)
      (schemaTarget ctx' s) := by
    unfold schemaTarget
    rw [htwins.dialect]
    exact pairs_targetAmong htwins _ s
  refine htarget.bind fun u v huv => ?_
  have hplain := says_plain huv
  rw [huv.isMap, ref?_plain hplain, htwins.dialect]
  cases v.isMap with
  | false => exact .error _
  | true =>
    cases v.ref? with
    | some ref => exact pairs_self _
    | none =>
      refine (pairs_model htwins huv).bind_eq fun m => ?_
      simp only [Draft.ofModel, constraints_plain hplain]
      exact pairs_self _

theorem ofNode_twin {n n' : Node} (h : SameFor (readKeywords ctx.dialect) n n') (code : Int) :
    Pairs Eq (ofNode ctx n code) (ofNode ctx' n' code) := by
  rw [ofNode_same h]
  unfold ofNode
  rw [htwins.dialect]
  refine (pairs_self _).bind_eq fun body => ?_
  cases body with
  | none => exact pairs_self _
  | some schema => exact ofSchema_twin htwins schema _

end Response

end Twins

end ApiModel
