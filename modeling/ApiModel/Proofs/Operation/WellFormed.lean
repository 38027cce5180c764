import ApiModel.Proofs.Operation.Parameters
import ApiModel.Proofs.Operation.Results
import ApiModel.Proofs.Schema.WellFormed

/-!
# Well-formed parameters and responses

A parameter and a response start blank and take what they show from a schema, from a reference, or
from keywords of their own.

**Theorem (`Parameter.IsBuilt.wellFormed`).** Whatever it is built from, a parameter is well-formed
throughout, and so is a response by `Response.IsBuilt.wellFormed`.

The parameters of an operation are built, and its results are built or nothing:
`isBuilt_of_holds` and `isBuilt_of_mem_results`.
-/

namespace ApiModel

open Report Model Schema TypeExpr

/-- A blank model that takes a type shows this type only. -/
theorem Model.throughout_of_blank {m l : Model} {type : TypeExpr} {kind : ModelKind}
    (hl : l.core = {}) (hm : m.core = { l.core with toTypeExpr := type, kind })
    (hkind : kind ≠ .enum) (htype : type.Composed) : m.Throughout WellFormed := by
  rw [hl] at hm
  exact throughout_of_plain (hm.trans rfl) hkind htype

/-- A blank model that takes the type of a reference. -/
theorem Model.throughout_of_reference {m l : Model} {d : Dialect} {ref : String}
    (hl : l.core = {})
    (hm : m.core = { l.core with toTypeExpr := .ofRef d ref, kind := .reference }) :
    m.Throughout WellFormed :=
  throughout_of_blank hl hm (by simp) (composed_ofRef d ref)

/-! ## Parameters -/

namespace Parameter

variable {ctx : Context} {d : Draft} {p : Parameter} {node : Node}

theorem core_of_settle (h : d.settle.outcome = .ok p) : p.core = d.core := by
  obtain ⟨_, -, h⟩ := bind_eq_ok.1 h
  split at h
  · cases h
    rfl
  · cases h

theorem wellFormed_enumeration {type : String} {members : List EnumMember} (hd : d.core = {})
    (hmembers : members ≠ []) (h : (enumeration node type members d).outcome = .ok p) :
    p.Throughout WellFormed := by
  obtain ⟨settled, hsettled, h⟩ := bind_eq_ok.1 h
  obtain ⟨m, hm, h⟩ := bind_eq_ok.1 h
  cases h
  have hcore : m.core =
      { d.core with toTypeExpr := .plain type, kind := .enum, members } :=
    (core_of_withDefault hm).trans (core_of_settle hsettled)
  rw [hd] at hcore
  exact throughout_of_enumeration (hcore.trans rfl) hmembers

theorem wellFormed_typed {type : TypeExpr} {kind : ModelKind} (hd : d.core = {})
    (hkind : kind ≠ .enum) (htype : type.Composed)
    (h : (typed node type kind d).outcome = .ok p) : p.Throughout WellFormed := by
  obtain ⟨default, -, h⟩ := bind_eq_ok.1 h
  have hcore : p.core = { d.core with toTypeExpr := type, kind } := (core_of_settle h :)
  exact throughout_of_blank hd hcore hkind htype

theorem wellFormed_ofSchema {schema : Node} (hd : d.core = {})
    (h : (ofSchema ctx schema d).outcome = .ok p) : p.Throughout WellFormed := by
  obtain ⟨-, h⟩ := unless_eq_ok.1 h
  split at h
  · obtain ⟨d', hd', h⟩ := bind_eq_ok.1 h
    obtain ⟨default, -, hd'⟩ := bind_eq_ok.1 hd'
    cases hd'
    exact throughout_of_reference hd (core_of_settle h :)
  · obtain ⟨m, hm, h⟩ := bind_eq_ok.1 h
    have hcore : p.core = m.core := core_of_settle h
    exact (wellFormed_inherited ctx).throughout_of_core hcore (wellFormed_model hm)

theorem wellFormed_ofKeywords (hd : d.core = {})
    (h : (ofKeywords? ctx node d).outcome = .ok (some p)) : p.Throughout WellFormed := by
  obtain ⟨_, _, hmembers, h⟩ | ⟨_, type, format, hkind, h⟩ := ofKeywords_eq_ok h
  · exact wellFormed_enumeration hd hmembers h
  · exact wellFormed_typed hd (ne_enum_of_container hkind) (composed_ofNode _ type format) h

theorem wellFormed_of_blank (hd : d.core = {}) (h : d.settle.outcome = .ok p) :
    p.Throughout WellFormed :=
  throughout_of_plain ((core_of_settle h).trans hd) (by simp) (composed_of_template rfl)

theorem wellFormed_ofSchemaOrType (hd : d.core = {})
    (h : (ofSchemaOrType ctx node d).outcome = .ok p) : p.Throughout WellFormed := by
  simp only [ofSchemaOrType] at h
  split_ifs at h
  · obtain ⟨schema, -, h⟩ := bind_eq_ok.1 h
    exact wellFormed_ofSchema hd h
  · exact wellFormed_typed hd (by simp) (composed_ofNode _ _ _) h
  · exact wellFormed_of_blank hd h

theorem wellFormed_ofNode (h : (ofNode ctx node).outcome = .ok p) : p.Throughout WellFormed := by
  have hd : (draft ctx.dialect node).core = {} := rfl
  obtain ⟨-, h⟩ := unless_eq_ok.1 h
  split at h
  · exact throughout_of_reference hd (core_of_settle h :)
  · split at h
    · obtain ⟨o, ho, h⟩ := bind_eq_ok.1 h
      split at h
      · cases h
        exact wellFormed_ofKeywords hd ho
      · exact wellFormed_ofSchemaOrType hd h
    · exact wellFormed_ofSchemaOrType hd h

theorem wellFormed_ofRequestBody (h : (ofRequestBody ctx node).outcome = .ok p) :
    p.Throughout WellFormed := by
  obtain ⟨-, h⟩ := unless_eq_ok.1 h
  obtain ⟨content, -, h⟩ := bind_eq_ok.1 h
  split at h
  · exact wellFormed_of_blank rfl h
  · split at h
    · exact wellFormed_ofSchema rfl h
    · exact wellFormed_ofSchema rfl h

/-- A parameter of a parameter object, or of the body of a request. -/
def IsBuilt (ctx : Context) (p : Parameter) : Prop :=
  ∃ node, (ofNode ctx node).outcome = .ok p ∨ (ofRequestBody ctx node).outcome = .ok p

theorem IsBuilt.wellFormed (h : IsBuilt ctx p) : p.Throughout WellFormed := by
  obtain ⟨node, h | h⟩ := h
  · exact wellFormed_ofNode h
  · exact wellFormed_ofRequestBody h

end Parameter

/-! ## Responses -/

namespace Response

variable {ctx : Context} {d : Draft} {r : Response} {node : Node} {rs : List Response}

theorem wellFormed_ofSchema {schema : Node} (hd : d.core = {})
    (h : (ofSchema ctx schema d).outcome = .ok r) : r.Throughout WellFormed := by
  obtain ⟨target, -, h⟩ := bind_eq_ok.1 h
  obtain ⟨-, h⟩ := unless_eq_ok.1 h
  split at h
  · exact throughout_of_reference hd (core_of_settle h :)
  · obtain ⟨m, hm, h⟩ := bind_eq_ok.1 h
    have hcore : r.core = m.core := core_of_settle h
    exact (wellFormed_inherited ctx).throughout_of_core hcore (wellFormed_model hm)

theorem wellFormed_ofHeaders {headers : Node} (hd : d.core = {})
    (h : (ofHeaders headers d).outcome = .ok r) : r.Throughout WellFormed := by
  unfold ofHeaders at h
  split at h
  · have hcore : r.core = { d.core with toTypeExpr := .plain "string", kind := .generic } :=
      (core_of_settle h :)
    exact throughout_of_blank hd hcore (by simp) (composed_of_template rfl)
  · have hcore : r.core = { d.core with kind := .generic } := (core_of_settle h :)
    rw [hd] at hcore
    have hplain : r.core = { toTypeExpr := {}, kind := .generic } := hcore
    exact throughout_of_plain hplain (by simp) (composed_of_template rfl)

theorem IsBuilt.wellFormed (h : IsBuilt ctx r) : r.Throughout WellFormed := by
  obtain ⟨node, code, h⟩ := h
  obtain ⟨schema, -, h⟩ := bind_eq_ok.1 h
  split at h
  · exact wellFormed_ofSchema rfl h
  · exact wellFormed_ofHeaders rfl h

theorem wellFormed_nothing : nothing.Throughout WellFormed :=
  have hcore : nothing.core = { toTypeExpr := .plain "void", kind := .generic } := rfl
  throughout_of_plain hcore (by simp) (composed_of_template rfl)

theorem mem_of_mem_distinct {dialect : Dialect} {kept : List Response}
    (h : r ∈ distinct dialect kept rs) : r ∈ kept ∨ r ∈ rs := by
  induction rs generalizing kept with
  | nil => exact .inl h
  | cons s rest ih =>
    rw [distinct] at h
    split_ifs at h
    · exact (ih h).imp_right (List.mem_cons_of_mem s)
    · rcases ih h with hkept | hrest
      · rcases List.mem_append.1 hkept with hkept | hs
        · exact .inl hkept
        · exact .inr (List.mem_cons.2 (.inl (List.mem_singleton.1 hs)))
      · exact .inr (List.mem_cons_of_mem s hrest)

theorem mem_of_mem_results {dialect : Dialect} (h : r ∈ results dialect rs) :
    r = nothing ∨ r ∈ rs := by
  unfold results at h
  split at h
  · exact .inl (List.mem_singleton.1 h)
  · rcases mem_of_mem_distinct h with hnone | hfound
    · cases hnone
    · exact .inr (List.mem_of_mem_filter hfound)

end Response

/-! ## Operations -/

namespace Parameters

/-- A parameter stands in the list of all, or in that of its place, or is the body. -/
inductive Holds (ps : Parameters) (p : Parameter) : Prop
  | listed : p ∈ ps.parameters → Holds ps p
  | path : p ∈ ps.path → Holds ps p
  | query : p ∈ ps.query → Holds ps p
  | form : p ∈ ps.form → Holds ps p
  | cookie : p ∈ ps.cookie → Holds ps p
  | header : p ∈ ps.header → Holds ps p
  | body : ps.body = some p → Holds ps p

variable {ps : List Parameter} {p : Parameter}

theorem mem_of_holds_sorted (h : (sorted ps).Holds p) : p ∈ ps := by
  cases h with
  | listed h => exact h
  | path h => exact List.mem_of_mem_filter h
  | query h => exact List.mem_of_mem_filter h
  | form h => exact List.mem_of_mem_filter h
  | cookie h => exact List.mem_of_mem_filter h
  | header h => exact List.mem_of_mem_filter h
  | body h => exact List.mem_of_mem_filter (List.mem_of_getLast? h)

theorem mem_pressingFirst : p ∈ pressingFirst ps ↔ p ∈ ps :=
  (List.filter_append_perm isPressing ps).mem_iff

theorem BuiltFrom.isBuilt {ctx : Context} {node : Node} (h : BuiltFrom ctx node ps)
    (hp : p ∈ ps) : p.IsBuilt ctx := by
  obtain ⟨definitions, -, hbuilt⟩ := h
  obtain ⟨d, -, hdp⟩ := exists_left_of_mem hbuilt hp
  exact ⟨d, .inl hdp⟩

end Parameters

namespace Operation

variable {ctx : Context} {url node pathNode : Node} {method tag : String} {o : Operation}
  {pathParameters : Parameters} {p : Parameter} {r : Response}

/-- Whatever an operation holds as a parameter is built. -/
theorem isBuilt_of_holds
    (hpath : (Parameters.ofNode ctx pathNode).outcome = .ok pathParameters)
    (h : (Operation.ofNode ctx url method tag node pathParameters).outcome = .ok o)
    (hp : o.toParameters.Holds p) : p.IsBuilt ctx := by
  obtain ⟨fromPath, hfromPath, rfl⟩ := Parameters.ofNode_eq_ok hpath
  obtain ⟨_, qs, hown, hqs, -, hlist, hplaces⟩ := taken_of_ofNode h
  obtain ⟨own, hfromOwn, rfl⟩ := Parameters.ofNode_eq_ok hown
  rw [Parameters.sorted_append] at hqs
  obtain ⟨body, hbody, rfl⟩ := withRequestBody_sorted hqs
  obtain ⟨hpathBucket, hquery, hform, hcookie, hheader, hbodyBucket⟩ := hplaces
  have hmem : p ∈ fromPath ++ own ++ body.toList := by
    refine Parameters.mem_of_holds_sorted ?_
    cases hp with
    | listed hp => exact .listed (Parameters.mem_pressingFirst.1 (hlist ▸ hp))
    | path hp => exact .path (hpathBucket ▸ hp)
    | query hp => exact .query (hquery ▸ hp)
    | form hp => exact .form (hform ▸ hp)
    | cookie hp => exact .cookie (hcookie ▸ hp)
    | header hp => exact .header (hheader ▸ hp)
    | body hp => exact .body (hbodyBucket ▸ hp)
  rcases List.mem_append.1 hmem with hmem | hmem
  · rcases List.mem_append.1 hmem with hmem | hmem
    · exact hfromPath.isBuilt hmem
    · exact hfromOwn.isBuilt hmem
  · cases hbody with
    | absent => cases hmem
    | empty => cases hmem
    | present _ _ _ _ hp =>
      obtain rfl := List.mem_singleton.1 hmem
      exact ⟨_, .inr hp⟩

/-- Whatever an operation holds as a result is built, or the result of an operation without. -/
theorem isBuilt_of_mem_results
    (h : (Operation.ofNode ctx url method tag node pathParameters).outcome = .ok o)
    (hr : r ∈ o.results) : r = Response.nothing ∨ r.IsBuilt ctx := by
  obtain ⟨-, h⟩ := unless_eq_ok.1 h
  obtain ⟨own, -, h⟩ := bind_eq_ok.1 h
  obtain ⟨ps, -, h⟩ := bind_eq_ok.1 h
  obtain ⟨responses, hresponses, h⟩ := bind_eq_ok.1 h
  obtain ⟨id, -, h⟩ := bind_eq_ok.1 h
  obtain ⟨path, -, h⟩ := bind_eq_ok.1 h
  obtain ⟨_, -, h⟩ := bind_eq_ok.1 h
  cases h
  dsimp only at hr
  split at hr
  · exact (Response.mem_of_mem_results hr).imp_right (Response.isBuilt_of_ofNodes hresponses)
  · cases hr

end Operation

end ApiModel
