import ApiModel.Proofs.Client.ModelNames
import ApiModel.Proofs.Identifier.TypeName
import ApiModel.Proofs.Node.Keys
import ApiModel.Proofs.Operation.Services

/-!
# Collisions of model names

The models of a client are named after the keys under which a document names schemas: first the
definitions and then, in the third version, the parameters that have a schema. Nothing tells two
models of one name apart.

**Theorem (`names_nodup_iff`).** The names of the models are those of the keys, in order. They are
different exactly if no two keys collide. Where all keys are identifiers and no primitives, two
things only can be in the way: a key that names both a schema and a parameter, and a reserved word
beside the same word with an underscore.
-/

namespace ApiModel

open Identifier TypeExpr

/-! ## Names of keys -/

/-- What a key is read as, before reserved words are marked. -/
def Dialect.baseOf (d : Dialect) (key : Scalar) : String := (ofNode d (.scalar key) .null).base

/-- Two keys are read as one name: as the same base, or as a reserved word and its marked form. -/
def Dialect.Collide (d : Dialect) (k l : Scalar) : Prop :=
  d.baseOf k = d.baseOf l ∨ (d.baseOf k ∈ reserved ∧ d.baseOf l = "_" ++ d.baseOf k) ∨
    (d.baseOf l ∈ reserved ∧ d.baseOf k = "_" ++ d.baseOf l)

theorem schemaName_eq_iff_collide (d : Dialect) (k l : Scalar) :
    d.schemaName (.scalar k) = d.schemaName (.scalar l) ↔ d.Collide k l :=
  escapeReserved_eq_iff

/-- The key is an identifier and no primitive, so it is read as it stands. -/
def IsTypeName (key : Scalar) : Prop :=
  ∃ s, key = .text s ∧ isIdentifier s.toList = true ∧ primitives.lookup s = none

theorem IsTypeName.collide_iff {d : Dialect} {s t : String} (hs : IsTypeName (.text s))
    (ht : IsTypeName (.text t)) :
    d.Collide (.text s) (.text t) ↔
      s = t ∨ (s ∈ reserved ∧ t = "_" ++ s) ∨ (t ∈ reserved ∧ s = "_" ++ t) := by
  have hbase {s : String} (hs : IsTypeName (.text s)) : d.baseOf (.text s) = s := by
    obtain ⟨_, heq, hidentifier, hprimitive⟩ := hs
    cases heq
    exact base_of_isIdentifier d hidentifier hprimitive
  rw [Dialect.Collide, hbase hs, hbase ht]

/-- Two lists of type names, each without repetitions, make different names together unless they
share a key, or a reserved word stands beside its marked form. -/
theorem nodup_schemaNames_iff {d : Dialect} {ks ls : List Scalar} (hks : ks.Nodup) (hls : ls.Nodup)
    (htypes : ∀ key ∈ ks ++ ls, IsTypeName key) :
    ((ks ++ ls).map fun key => d.schemaName (.scalar key)).Nodup ↔
      ks.Disjoint ls ∧ ∀ w ∈ reserved, .text w ∈ ks ++ ls → .text ("_" ++ w) ∉ ks ++ ls := by
  constructor
  · intro hnodup
    have hkeys := hnodup.of_map
    refine ⟨(List.nodup_append'.1 hkeys).2.2, fun w hw hmem hmarked => ?_⟩
    have hcollide : d.Collide (.text w) (.text ("_" ++ w)) :=
      (IsTypeName.collide_iff (htypes _ hmem) (htypes _ hmarked)).2 (.inr (.inl ⟨hw, rfl⟩))
    have heq := List.inj_on_of_nodup_map hnodup hmem hmarked
      ((schemaName_eq_iff_collide d _ _).2 hcollide)
    exact not_mem_reserved w (Scalar.text.inj heq ▸ hw)
  · rintro ⟨hdisjoint, hreserved⟩
    refine List.Nodup.map_on (fun k hk l hl heq => ?_)
      (List.nodup_append'.2 ⟨hks, hls, hdisjoint⟩)
    obtain ⟨s, rfl, hs⟩ := htypes k hk
    obtain ⟨t, rfl, ht⟩ := htypes l hl
    rw [schemaName_eq_iff_collide, IsTypeName.collide_iff ⟨s, rfl, hs⟩ ⟨t, rfl, ht⟩] at heq
    rcases heq with rfl | ⟨hmem, rfl⟩ | ⟨hmem, rfl⟩
    · rfl
    · exact absurd hl (hreserved s hmem hk)
    · exact absurd hk (hreserved t hmem hl)

namespace Schema

/-! ## Keys of named schemas -/

/-- The keys of the definitions. -/
def definitionKeys (ctx : Context) : List Scalar :=
  ((definitionsOf ctx).entries?.getD []).map (·.1)

/-- The named parameters. A document of the second version gives none a model. -/
def parametersOf (ctx : Context) : List (Scalar × Node) :=
  match ctx.dialect with
  | .v2 => []
  | .v3 => ((componentsOf ctx.document).field "parameters").entries?.getD []

/-- Does a named parameter have a schema? -/
def hasSchema (e : Scalar × Node) : Bool := (e.2.field "schema").truthy

/-- The keys of the named parameters that have a schema. -/
def parameterKeys (ctx : Context) : List Scalar :=
  ((parametersOf ctx).filter hasSchema).map (·.1)

/-- The keys under which the document names schemas. -/
def namedKeys (ctx : Context) : List Scalar := definitionKeys ctx ++ parameterKeys ctx

variable {ctx : Context} {models : List Model}

theorem keyed_componentsOf {document : Node} (h : document.Keyed) :
    (componentsOf document).Keyed := by
  unfold componentsOf Node.orElse
  split_ifs
  · exact h.field "components"
  · exact Node.keyed_map .nil fun _ hmem => absurd hmem List.not_mem_nil

/-- Each section has a key once. -/
theorem nodup_sectionKeys (h : ctx.document.Keyed) :
    (definitionKeys ctx).Nodup ∧ (parameterKeys ctx).Nodup := by
  constructor
  · unfold definitionKeys definitionsOf
    split
    · exact (h.field "definitions").entries.nodup
    · exact ((keyed_componentsOf h).field "schemas").entries.nodup
  · have hparameters : ((parametersOf ctx).map (·.1)).Nodup := by
      unfold parametersOf
      split
      · exact List.nodup_nil
      · exact ((keyed_componentsOf h).field "parameters").entries.nodup
    exact hparameters.sublist (List.filter_sublist.map _)

/-! ## Names of models -/

theorem names_of_definition {entries : List (Scalar × Node)}
    (h : (entries.mapM (definition ctx)).outcome = .ok models) :
    models.map (·.name) =
      (entries.map (·.1)).map fun key => ctx.dialect.schemaName (.scalar key) := by
  have hforall := Report.mapM_eq_ok.1 h
  clear h
  induction hforall with
  | nil => rfl
  | cons hm _ ih => rw [List.map_cons, List.map_cons, List.map_cons, ih, name_model hm]

theorem names_of_parameterDefinition {entries : List (Scalar × Node)}
    {options : List (Option Model)}
    (h : (entries.mapM (parameterDefinition ctx)).outcome = .ok options) :
    options.reduceOption.map (·.name) =
      ((entries.filter hasSchema).map (·.1)).map
        fun key => ctx.dialect.schemaName (.scalar key) := by
  have hforall := Report.mapM_eq_ok.1 h
  clear h
  induction hforall with
  | nil => rfl
  | @cons e o entries options he _ ih =>
    obtain ⟨key, p⟩ := e
    cases htruthy : (p.field "schema").truthy with
    | true =>
      obtain ⟨m, rfl⟩ : ∃ m, o = some m := by
        simp only [parameterDefinition, htruthy, if_true] at he
        obtain ⟨m, -, he⟩ := Report.bind_eq_ok.1 he
        cases he
        exact ⟨_, rfl⟩
      obtain ⟨m', hm', hname, -⟩ := parameterDefinition_eq_ok he
      have hhas : hasSchema (key, p) = true := htruthy
      rw [List.reduceOption_cons_of_some, List.filter_cons_of_pos hhas, List.map_cons,
        List.map_cons, List.map_cons, ih, hname, name_model hm']
    | false =>
      obtain rfl : o = none := by
        simp only [parameterDefinition, htruthy] at he
        cases he
        rfl
      have hhas : ¬ hasSchema (key, p) = true := Bool.eq_false_iff.1 htruthy
      rw [List.reduceOption_cons_of_none, List.filter_cons_of_neg hhas, ih]

/-- The models are named after the keys, in order. -/
theorem names_of_definitions (h : (definitions ctx).outcome = .ok models) :
    models.map (·.name) = (namedKeys ctx).map fun key => ctx.dialect.schemaName (.scalar key) := by
  rw [namedKeys, definitionKeys, parameterKeys]
  cases hd : ctx.dialect with
  | v2 =>
    obtain ⟨entries, hentries, hmodels⟩ := definitions_v2 hd h
    have hparametersOf : parametersOf ctx = [] := by rw [parametersOf, hd]
    rw [← sectionEntries_eq_ok hentries, hparametersOf, names_of_definition hmodels, hd,
      List.filter_nil, List.map_nil, List.append_nil]
  | v3 =>
    obtain ⟨entries, ms, parameters, options, hentries, hms, hparameters, hoptions, rfl⟩ :=
      definitions_v3 hd h
    have hparametersOf : parametersOf ctx = parameters := by
      rw [sectionEntries_eq_ok hparameters, parametersOf, hd]
    rw [← sectionEntries_eq_ok hentries, hparametersOf, List.map_append, List.map_append,
      names_of_definition hms, names_of_parameterDefinition hoptions, hd]

end Schema

namespace Client

open Schema

/-- The models of a client are named after the keys of the document, and their names are different
exactly if no two keys collide; among keys that are identifiers and no primitives only a key of
both sections, or a reserved word beside its marked form, is in the way. -/
theorem names_nodup_iff {document : Node} {c : Client} (hkeyed : document.Keyed)
    (h : (generate document).outcome = .ok c) :
    ∃ ctx, (Context.ofDocument document).outcome = .ok ctx ∧
      c.models.map (·.name) =
        (namedKeys ctx).map (fun key => ctx.dialect.schemaName (.scalar key)) ∧
      ((c.models.map (·.name)).Nodup ↔
        (namedKeys ctx).Pairwise fun k l => ¬ ctx.dialect.Collide k l) ∧
      ((∀ key ∈ namedKeys ctx, IsTypeName key) →
        ((c.models.map (·.name)).Nodup ↔
          (definitionKeys ctx).Disjoint (parameterKeys ctx) ∧
            ∀ w ∈ reserved, .text w ∈ namedKeys ctx → .text ("_" ++ w) ∉ namedKeys ctx)) := by
  obtain ⟨raw, hraw, rfl⟩ := Report.map_eq_ok.1 h
  obtain ⟨ctx, hctx, hmodels, -⟩ := ofDocument_eq_ok hraw
  have hnames : (Tidy.client raw).models.map (·.name) =
      (namedKeys ctx).map (fun key => ctx.dialect.schemaName (.scalar key)) := by
    rw [← names_of_definitions hmodels, Tidy.client, List.map_map]
    rfl
  refine ⟨ctx, hctx, hnames, ?_, fun htypes => ?_⟩
  · rw [hnames, List.Nodup, List.pairwise_map]
    simp only [ne_eq, schemaName_eq_iff_collide]
  rw [← document_of_context hctx] at hkeyed
  obtain ⟨hdefinitions, hparameters⟩ := nodup_sectionKeys hkeyed
  rw [hnames]
  exact nodup_schemaNames_iff hdefinitions hparameters htypes

/-- Birds, a class of them, and two parameters, of which only one has a schema. -/
def aviary : Node :=
  .record [("openapi", .text "3.0.0"), ("components", .record [
    ("schemas", .record [("Bird", .record [("type", .text "object")]),
      ("class", .record [("type", .text "string")])]),
    ("parameters", .record [
      ("BirdId", .record [("schema", .record [("type", .text "integer")])]),
      ("Bird", .record [("name", .text "bird")])])])]

/-- The models of the aviary have different names: the parameter `Bird` has no schema, and nothing
is called `_class`. -/
theorem names_nodup_aviary :
    aviary.Keyed ∧ ∃ c, (generate aviary).outcome = .ok c ∧
      c.models.map (·.name) = ["Bird", "_class", "BirdId"] ∧ (c.models.map (·.name)).Nodup := by
  have hkeyed : aviary.Keyed := by decide +kernel
  obtain ⟨c, hc, hnames⟩ : ∃ c, (generate aviary).outcome = .ok c ∧
      c.models.map (·.name) = ["Bird", "_class", "BirdId"] := ⟨_, rfl, rfl⟩
  obtain ⟨ctx, hctx, -, -, hplain⟩ := names_nodup_iff hkeyed hc
  have hkeys : definitionKeys ctx = [.text "Bird", .text "class"] ∧
      parameterKeys ctx = [.text "BirdId"] := by
    cases hctx
    exact ⟨rfl, rfl⟩
  rw [namedKeys, hkeys.1, hkeys.2] at hplain
  refine ⟨hkeyed, c, hc, hnames, (hplain ?_).2 ⟨by simp, by decide +kernel⟩⟩
  rw [List.cons_append, List.cons_append, List.nil_append]
  refine List.forall_mem_cons.2 ⟨⟨_, rfl, by decide, by decide⟩, ?_⟩
  refine List.forall_mem_cons.2 ⟨⟨_, rfl, by decide, by decide⟩, ?_⟩
  exact List.forall_mem_singleton.2 ⟨_, rfl, by decide, by decide⟩

/-- A parameter is named after the schema to which it refers. -/
def petRegister : Node :=
  .record [("openapi", .text "3.0.0"), ("components", .record [
    ("schemas", .record [("PetId", .record [("type", .text "integer")])]),
    ("parameters", .record [("PetId", .record [("schema",
      .record [("$ref", .text "#/components/schemas/PetId")])])])])]

/-- Both the schema and the parameter of the register have a model, and both models have the same
name. -/
theorem not_all_names_nodup :
    ¬ ∀ document c, document.Keyed → (generate document).outcome = .ok c →
      (c.models.map (·.name)).Nodup := by
  intro h
  obtain ⟨c, hc, hnames⟩ : ∃ c, (generate petRegister).outcome = .ok c ∧
      c.models.map (·.name) = ["PetId", "PetId"] := ⟨_, rfl, rfl⟩
  have hnodup := h petRegister c (by decide +kernel) hc
  rw [hnames] at hnodup
  exact absurd hnodup (by simp)

end Client

end ApiModel
