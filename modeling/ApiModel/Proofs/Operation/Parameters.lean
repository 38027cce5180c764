import ApiModel.Operation.Builder
import ApiModel.Proofs.Node.Display
import ApiModel.Proofs.Outcome
import Mathlib.Data.List.Perm.Basic
import Mathlib.Data.List.ReduceOption

/-!
# Parameters of an operation

The parameters of an operation come from three places: from its path, from the operation itself,
and from the body of its request. They are gathered in one list and sorted into buckets on the way,
part by part.

**Theorem (`parameters_of_operation`).** The buckets of an operation are those of the one list that
the three parts make one after the other, and the list of the operation is that list with the
required parameters without a default in front.

What is sorted part by part is sorted as a whole: `sorted_append` and `addBody_sorted`.
-/

namespace ApiModel

open Report

/-! ## Where a parameter travels -/

namespace Parameter

/-- A parameter goes where its draft says, under the name on the wire that its draft has. -/
def Draft.Yields (d : Draft) (p : Parameter) : Prop :=
  ParameterPlace.ofNode? d.location = some p.place ∧ p.prop = d.prop

variable {ctx : Context} {d : Draft} {p : Parameter} {node : Node}

theorem yields_settle (h : d.settle.outcome = .ok p) : d.Yields p := by
  obtain ⟨_, -, h⟩ := bind_eq_ok.1 h
  split at h
  · rename_i place hplace
    cases h
    exact ⟨hplace, rfl⟩
  · cases h

theorem yields_enumeration {type : String} {members : List EnumMember}
    (h : (enumeration node type members d).outcome = .ok p) : d.Yields p := by
  obtain ⟨settled, hsettled, h⟩ := bind_eq_ok.1 h
  obtain ⟨m, -, h⟩ := bind_eq_ok.1 h
  cases h
  exact (yields_settle hsettled :)

theorem yields_typed {type : TypeExpr} {kind : ModelKind}
    (h : (typed node type kind d).outcome = .ok p) : d.Yields p := by
  obtain ⟨default, -, h⟩ := bind_eq_ok.1 h
  exact (yields_settle h :)

theorem yields_ofSchema {schema : Node} (h : (ofSchema ctx schema d).outcome = .ok p) :
    d.Yields p := by
  obtain ⟨-, h⟩ := unless_eq_ok.1 h
  split at h
  · obtain ⟨d', hd', h⟩ := bind_eq_ok.1 h
    obtain ⟨default, -, hd'⟩ := bind_eq_ok.1 hd'
    cases hd'
    exact (yields_settle h :)
  · obtain ⟨m, -, h⟩ := bind_eq_ok.1 h
    exact (yields_settle h :)

theorem container_of_containerKind {type : Node} {kind : ModelKind}
    (h : containerKind? type = some kind) : kind = .array ∨ kind = .dictionary := by
  unfold containerKind? at h
  split_ifs at h
  · cases h
    exact .inl rfl
  · cases h
    exact .inr rfl

/-- Keywords of its own make a parameter an enumeration, or a container of a named type. -/
theorem ofKeywords_eq_ok (h : (ofKeywords? ctx node d).outcome = .ok (some p)) :
    (∃ type members, members ≠ [] ∧ (enumeration node type members d).outcome = .ok p) ∨
      ∃ kind type format, (kind = .array ∨ kind = .dictionary) ∧
        (typed node (.ofNode ctx.dialect type format) kind d).outcome = .ok p := by
  obtain ⟨members, -, h⟩ := bind_eq_ok.1 h
  obtain ⟨listed, -, h⟩ := bind_eq_ok.1 h
  split at h
  · rename_i hlisted
    obtain ⟨p', hp', h⟩ := bind_eq_ok.1 h
    cases h
    exact .inl ⟨_, listed, by simpa using hlisted, hp'⟩
  · -- Whether a description is read or not, the members it lists come next.
    split at h
    all_goals
      obtain ⟨described, -, h⟩ := bind_eq_ok.1 h
      beta_reduce at h
      split at h
      · rename_i hdescribed
        obtain ⟨p', hp', h⟩ := bind_eq_ok.1 h
        cases h
        exact .inl ⟨_, described, by simpa using hdescribed, hp'⟩
      · dsimp only at h
        split at h
        · rename_i hkind _
          obtain ⟨p', hp', h⟩ := bind_eq_ok.1 h
          cases h
          exact .inr ⟨_, _, _, container_of_containerKind hkind, hp'⟩
        · cases h

theorem yields_ofKeywords (h : (ofKeywords? ctx node d).outcome = .ok (some p)) : d.Yields p := by
  obtain ⟨_, _, -, h⟩ | ⟨_, _, _, -, h⟩ := ofKeywords_eq_ok h
  · exact yields_enumeration h
  · exact yields_typed h

theorem yields_ofSchemaOrType (h : (ofSchemaOrType ctx node d).outcome = .ok p) :
    d.Yields p := by
  simp only [ofSchemaOrType] at h
  split_ifs at h
  · obtain ⟨schema, -, h⟩ := bind_eq_ok.1 h
    exact yields_ofSchema h
  · exact yields_typed h
  · exact (yields_settle h :)

/-- A parameter goes where its object says, under the name that stands there. -/
theorem yields_ofNode (h : (ofNode ctx node).outcome = .ok p) :
    (draft ctx.dialect node).Yields p := by
  obtain ⟨-, h⟩ := unless_eq_ok.1 h
  split at h
  · exact (yields_settle h :)
  · split at h
    · obtain ⟨o, ho, h⟩ := bind_eq_ok.1 h
      split at h
      · cases h
        exact yields_ofKeywords ho
      · exact yields_ofSchemaOrType h
    · exact yields_ofSchemaOrType h

/-- The body of a request travels as a form or as the body. -/
theorem place_ofRequestBody (h : (ofRequestBody ctx node).outcome = .ok p) :
    p.place = .form ∨ p.place = .body := by
  obtain ⟨-, h⟩ := unless_eq_ok.1 h
  obtain ⟨content, -, h⟩ := bind_eq_ok.1 h
  split at h
  · right
    exact (Option.some.inj (yields_settle h).1).symm
  · split at h
    · left
      exact (Option.some.inj (yields_ofSchema h).1).symm
    · right
      exact (Option.some.inj (yields_ofSchema h).1).symm

end Parameter

namespace Parameters

/-! ## One list of parameters -/

/-- Is the object that of a parameter? One that names the version is none, and one without a place
is none. -/
def isParameter (definition : Node) : Bool :=
  definition.isMap && !(definition.field "name").isText versionName &&
    (ParameterPlace.ofNode? (definition.field "in")).isSome

/-- The entries of a list of parameters. -/
def entries (node : Node) : List Node := if node.truthy then node.members?.getD [] else []

/-- The parameters are built, in order, from those entries that lead to an object of a
parameter. -/
def BuiltFrom (ctx : Context) (node : Node) (ps : List Parameter) : Prop :=
  ∃ definitions,
    List.Forall₂ (fun e d => (Node.target ctx.document e).outcome = .ok d) (entries node)
      definitions ∧
    List.Forall₂ (fun d p => (Parameter.ofNode ctx d).outcome = .ok p)
      (definitions.filter isParameter) ps

variable {ctx : Context} {node : Node} {ps a b : List Parameter}

theorem entry_eq_ok {o : Option Parameter} (h : (entry ctx node).outcome = .ok o) :
    ∃ d, (Node.target ctx.document node).outcome = .ok d ∧
      ((isParameter d = false ∧ o = none) ∨
        isParameter d = true ∧ ∃ p, (Parameter.ofNode ctx d).outcome = .ok p ∧ o = some p) := by
  obtain ⟨d, hd, h⟩ := bind_eq_ok.1 h
  refine ⟨d, hd, ?_⟩
  unfold isParameter
  split at h
  · rename_i hmap
    cases h
    exact .inl ⟨by simp_all, rfl⟩
  · rename_i hmap
    dsimp only at h
    split at h
    · rename_i hversion
      cases h
      exact .inl ⟨by simp_all, rfl⟩
    · rename_i hversion
      split at h
      · rename_i hplace
        cases h
        exact .inl ⟨by simp_all, rfl⟩
      · rename_i hplace
        obtain ⟨p, hp, h⟩ := bind_eq_ok.1 h
        cases h
        refine .inr ⟨?_, p, hp, rfl⟩
        rw [Option.isNone_iff_eq_none, ← ne_eq, Option.ne_none_iff_isSome] at hplace
        simp_all

theorem builtFrom_of_entries {nodes : List Node} {os : List (Option Parameter)}
    (h : List.Forall₂ (fun e o => (entry ctx e).outcome = .ok o) nodes os) :
    ∃ definitions,
      List.Forall₂ (fun e d => (Node.target ctx.document e).outcome = .ok d) nodes definitions ∧
      List.Forall₂ (fun d p => (Parameter.ofNode ctx d).outcome = .ok p)
        (definitions.filter isParameter) os.reduceOption := by
  induction h with
  | nil => exact ⟨[], .nil, .nil⟩
  | @cons e o nodes os he htail ih =>
    obtain ⟨definitions, htargets, hbuilt⟩ := ih
    obtain ⟨d, hd, ⟨hparameter, rfl⟩ | ⟨hparameter, p, hp, rfl⟩⟩ := entry_eq_ok he
    · refine ⟨d :: definitions, .cons hd htargets, ?_⟩
      rwa [List.filter_cons_of_neg (by simp [hparameter]), List.reduceOption_cons_of_none]
    · refine ⟨d :: definitions, .cons hd htargets, ?_⟩
      rw [List.filter_cons_of_pos hparameter, List.reduceOption_cons_of_some]
      exact .cons hp hbuilt

/-- A list of parameters is what is built from its entries, sorted. -/
theorem ofNode_eq_ok {sortedParameters : Parameters}
    (h : (ofNode ctx node).outcome = .ok sortedParameters) :
    ∃ ps, BuiltFrom ctx node ps ∧ sortedParameters = sorted ps := by
  unfold BuiltFrom entries
  by_cases htruthy : node.truthy = true
  · simp only [ofNode, if_pos htruthy] at h
    obtain ⟨members, hmembers, h⟩ := bind_eq_ok.1 h
    obtain ⟨os, hos, h⟩ := bind_eq_ok.1 h
    cases h
    rw [if_pos htruthy, ofOption_eq_ok.1 hmembers, Option.getD_some]
    exact ⟨os.reduceOption, builtFrom_of_entries (mapM_eq_ok.1 hos), rfl⟩
  · simp only [ofNode, if_neg htruthy] at h
    cases h
    rw [if_neg htruthy]
    exact ⟨[], ⟨[], .nil, .nil⟩, rfl⟩

/-- No parameter is the one that names the version. -/
theorem prop_ne_versionName (h : BuiltFrom ctx node ps) {p : Parameter} (hp : p ∈ ps) :
    p.prop ≠ versionName := by
  obtain ⟨definitions, -, hbuilt⟩ := h
  obtain ⟨d, hd, hdp⟩ := exists_left_of_mem hbuilt hp
  obtain ⟨-, hprop⟩ := Parameter.yields_ofNode hdp
  intro hversion
  rw [hversion] at hprop
  -- The name is displayed as that of the version, so it is that text.
  have htext : (d.get? "name").getD (.text "") = .text versionName :=
    eq_text_of_display hprop.symm (by decide) (by decide) (by decide) (by decide)
  have hname : d.field "name" = .text versionName := by
    cases hget : d.get? "name" with
    | none => simp [hget, Node.text, versionName] at htext
    | some n => rw [hget] at htext; rw [Node.field, hget]; exact htext
  have hparameter := (List.mem_filter.1 hd).2
  have hnamed : (d.field "name").isText versionName = true := by rw [hname]; decide
  simp [isParameter, hnamed] at hparameter

/-! ## Sorting -/

/-- Lists that are sorted apart are sorted together. -/
theorem sorted_append (a b : List Parameter) : sorted a ++ sorted b = sorted (a ++ b) := by
  show append (sorted a) (sorted b) = sorted (a ++ b)
  simp only [append, sorted, List.filter_append, List.flatMap_append, List.getLast?_append]

/-- The body of a request takes its place behind sorted parameters. -/
theorem addBody_sorted {p : Parameter} (hp : p.place = .form ∨ p.place = .body) :
    (sorted ps).addBody p = sorted (ps ++ [p]) := by
  rcases hp with hp | hp <;>
    simp [addBody, sorted, hp, List.filter_append, List.flatMap_append]

/-- The parameters are those of one list: the required ones without a default come first, and each
bucket holds those with its place. -/
structure Sorts (sortedParameters : Parameters) (ps : List Parameter) : Prop where
  parameters : sortedParameters.parameters =
    ps.filter (fun p => p.isRequired && p.default.isNone) ++
      ps.filter fun p => !(p.isRequired && p.default.isNone)
  perm : sortedParameters.parameters.Perm ps
  path : sortedParameters.path = ps.filter (·.place = .path)
  query : sortedParameters.query = ps.filter (·.place = .query)
  form : sortedParameters.form = ps.filter (·.place = .form)
  cookie : sortedParameters.cookie = ps.filter (·.place = .cookie)
  header : sortedParameters.header = ps.filter (·.place = .header)
  body : sortedParameters.body = (ps.filter (·.place = .body)).getLast?

end Parameters

namespace Operation

open Parameters

variable {ctx : Context} {url node pathNode : Node} {method tag : String} {o : Operation}
  {pathParameters : Parameters} {ps : List Parameter}

/-- The parameter that the body of a request makes: one if the dialect has such bodies and there is
an object, or a reference to an object, else none. -/
inductive HasRequestBody (ctx : Context) (node : Node) : Option Parameter → Prop
  | absent (h : ctx.dialect = .v2 ∨ (node.field "requestBody").isMap = false) :
      HasRequestBody ctx node none
  | empty {target : Node} (hdialect : ctx.dialect = .v3)
      (hmap : (node.field "requestBody").isMap = true)
      (htarget : (Node.target ctx.document (node.field "requestBody")).outcome = .ok target)
      (htargetMap : target.isMap = false) :
      HasRequestBody ctx node none
  | present {target : Node} {p : Parameter} (hdialect : ctx.dialect = .v3)
      (hmap : (node.field "requestBody").isMap = true)
      (htarget : (Node.target ctx.document (node.field "requestBody")).outcome = .ok target)
      (htargetMap : target.isMap = true)
      (hp : (Parameter.ofRequestBody ctx target).outcome = .ok p) :
      HasRequestBody ctx node (some p)

theorem withRequestBody_sorted {qs : Parameters}
    (h : (withRequestBody ctx node (sorted ps)).outcome = .ok qs) :
    ∃ body, HasRequestBody ctx node body ∧ qs = sorted (ps ++ body.toList) := by
  simp only [withRequestBody] at h
  split at h
  · rename_i hbody
    obtain ⟨hnegotiates, hmap⟩ := Bool.and_eq_true_iff.1 hbody
    have hdialect : ctx.dialect = .v3 := eq_of_beq hnegotiates
    obtain ⟨target, htarget, h⟩ := bind_eq_ok.1 h
    split at h
    · rename_i htargetMap
      obtain ⟨p, hp, h⟩ := bind_eq_ok.1 h
      cases h
      exact ⟨some p, .present hdialect hmap htarget htargetMap hp,
        addBody_sorted (Parameter.place_ofRequestBody hp)⟩
    · rename_i htargetMap
      cases h
      refine ⟨none, .empty hdialect hmap htarget (by simpa using htargetMap), ?_⟩
      rw [Option.toList_none, List.append_nil]
  · rename_i hbody
    cases h
    refine ⟨none, .absent ?_, by rw [Option.toList_none, List.append_nil]⟩
    cases hdialect : ctx.dialect with
    | v2 => exact .inl rfl
    | v3 => exact .inr (by simpa [Dialect.negotiatesContent, hdialect] using hbody)

/-- What an operation takes from its sorted parameters; its results add to the imports. -/
theorem taken_of_ofNode
    (h : (Operation.ofNode ctx url method tag node pathParameters).outcome = .ok o) :
    ∃ own qs, (Parameters.ofNode ctx (node.field "parameters")).outcome = .ok own ∧
      (withRequestBody ctx node (pathParameters ++ own)).outcome = .ok qs ∧
      o.imports = qs.imports ++ o.results.flatMap (·.imports) ∧
      o.parameters = pressingFirst qs.parameters ∧ o.path = qs.path ∧ o.query = qs.query ∧
      o.form = qs.form ∧ o.cookie = qs.cookie ∧ o.header = qs.header ∧ o.body = qs.body := by
  obtain ⟨-, h⟩ := unless_eq_ok.1 h
  obtain ⟨own, hown, h⟩ := bind_eq_ok.1 h
  obtain ⟨qs, hqs, h⟩ := bind_eq_ok.1 h
  obtain ⟨_, -, h⟩ := bind_eq_ok.1 h
  obtain ⟨_, -, h⟩ := bind_eq_ok.1 h
  obtain ⟨_, -, h⟩ := bind_eq_ok.1 h
  obtain ⟨_, -, h⟩ := bind_eq_ok.1 h
  cases h
  exact ⟨own, qs, hown, hqs, rfl, rfl, rfl, rfl, rfl, rfl, rfl, rfl⟩

/-- The parameters of an operation are those of its path, its own, and the body of its request, in
this order and sorted as a whole, and the one that names the version is none of them. -/
theorem parameters_of_operation
    (hpath : (Parameters.ofNode ctx pathNode).outcome = .ok pathParameters)
    (h : (Operation.ofNode ctx url method tag node pathParameters).outcome = .ok o) :
    ∃ fromPath own body,
      BuiltFrom ctx pathNode fromPath ∧ BuiltFrom ctx (node.field "parameters") own ∧
      HasRequestBody ctx node body ∧
      Sorts o.toParameters (fromPath ++ own ++ body.toList) ∧
      ∀ p ∈ fromPath ++ own, p.prop ≠ versionName := by
  obtain ⟨fromPath, hfromPath, rfl⟩ := ofNode_eq_ok hpath
  obtain ⟨_, qs, hown, hqs, -, hparameters, hplaces⟩ := taken_of_ofNode h
  obtain ⟨own, hfromOwn, rfl⟩ := ofNode_eq_ok hown
  rw [sorted_append] at hqs
  obtain ⟨body, hbody, rfl⟩ := withRequestBody_sorted hqs
  obtain ⟨hpathBucket, hquery, hform, hcookie, hheader, hbodyBucket⟩ := hplaces
  refine ⟨fromPath, own, body, hfromPath, hfromOwn, hbody, ?_, fun p hp => ?_⟩
  · exact ⟨hparameters, hparameters ▸ List.filter_append_perm isPressing _, hpathBucket, hquery,
      hform, hcookie, hheader, hbodyBucket⟩
  · rcases List.mem_append.1 hp with hp | hp
    · exact prop_ne_versionName hfromPath hp
    · exact prop_ne_versionName hfromOwn hp

/-! ## An order -/

/-- A document in which the limit of a query is declared once for all operations. -/
def orders : Context :=
  let limit := Node.record [("name", .text "limit"), ("in", .text "query")]
  { dialect := .v3
    document := Node.record [("components", Node.record [("parameters", Node.record
      [("Limit", limit)])])] }

/-- The parameters of the path of an order; the version is none of them. -/
def orderPath : Node :=
  Node.list
    [Node.record [("name", .text "id"), ("in", .text "path"), ("required", .bool true)],
      Node.record [("name", .text "api-version"), ("in", .text "query")]]

/-- An order refers to the limit, names a parameter without a place, demands a token, and has a
body. -/
def order : Node :=
  Node.record
    [("parameters", Node.list
      [Node.record [("$ref", .text "#/components/parameters/Limit")],
        Node.record [("name", .text "trace"), ("in", .text "nowhere")],
        Node.record [("name", .text "token"), ("in", .text "header"), ("required", .bool true)]]),
      ("requestBody", Node.record [("description", .text "What is ordered.")])]

/-- The parameters of an order: what is required comes first. -/
theorem parameters_of_operation_order :
    ∃ pathParameters o fromPath own body,
      (Parameters.ofNode orders orderPath).outcome = .ok pathParameters ∧
      (Operation.ofNode orders (.text "/orders") "post" "Orders" order pathParameters).outcome =
        .ok o ∧
      o.parameters.map (·.prop) = ["id", "token", "limit", "requestBody"] ∧
      BuiltFrom orders orderPath fromPath ∧ BuiltFrom orders (order.field "parameters") own ∧
      HasRequestBody orders order body ∧
      Sorts o.toParameters (fromPath ++ own ++ body.toList) ∧
      ∀ p ∈ fromPath ++ own, p.prop ≠ versionName := by
  obtain ⟨pathParameters, o, hpath, ho, hprops⟩ : ∃ pathParameters o,
      (Parameters.ofNode orders orderPath).outcome = .ok pathParameters ∧
      (Operation.ofNode orders (.text "/orders") "post" "Orders" order pathParameters).outcome =
        .ok o ∧
      o.parameters.map (·.prop) = ["id", "token", "limit", "requestBody"] :=
    ⟨_, _, rfl, rfl, rfl⟩
  obtain ⟨fromPath, own, body, h⟩ := parameters_of_operation hpath ho
  exact ⟨pathParameters, o, fromPath, own, body, hpath, ho, hprops, h⟩

end Operation

end ApiModel
