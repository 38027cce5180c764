import ApiModel.Client.Builder
import ApiModel.Proofs.Operation.Flaws
import ApiModel.Proofs.Operation.Services
import ApiModel.Proofs.Schema.Definitions

/-!
# What is wrong with a document

**Theorem (`fault_of_generate`).** A document has a client exactly if it has no flaw, and what is
reported of a document without client is one of its flaws. In particular, if all its flaws are
documented, then so is what is reported.

Two conditions are documented as the only ones that keep a document from having a client: a version
that nobody knows, and a reference that has to be followed and leads nowhere. The other flaws are
nodes of the wrong kind where the builders do not look twice, values that records refuse, and
schemas that contain themselves without end (`not_all_failures_documented`).

A document may have several flaws, and which of them is reported depends on the order in which it is
read; so the flaws are all that may be reported, and each of them by itself is enough for a failure.
-/

namespace ApiModel

open Report Model

/-! ## Operations -/

namespace Operation

variable {ctx : Context} {url node : Node} {f : Fault}

/-- Something is wrong with the body of the request of an operation. -/
inductive BodyFlaw (ctx : Context) (node : Node) : Fault → Prop
  | dangles {f : Fault} : (node.field "requestBody").isMap = true →
      Node.Dangles ctx.document (node.field "requestBody") f → BodyFlaw ctx node f
  | body {target : Node} {f : Fault} : (node.field "requestBody").isMap = true →
      (Node.target ctx.document (node.field "requestBody")).outcome = .ok target →
      target.isMap = true → Parameter.BodyFlaw ctx target f → BodyFlaw ctx node f

theorem failsBy_withRequestBody (ctx : Context) (node : Node) (ps : Parameters) :
    FailsBy (withRequestBody ctx node ps) fun f =>
      ctx.dialect.negotiatesContent = true ∧ BodyFlaw ctx node f := by
  simp only [withRequestBody]
  split_ifs with hbody
  · obtain ⟨hcontent, hmap⟩ := Bool.and_eq_true_iff.1 hbody
    refine ((Node.failsBy_target ctx.document _).bindAt (H := fun target f =>
      target.isMap = true ∧ Parameter.BodyFlaw ctx target f) fun target _ => ?_).congr
      fun f => ⟨?_, fun hf => ?_⟩
    · split_ifs with htarget
      · exact ((Parameter.failsBy_ofRequestBody ctx target).before fun _ _ => .pure _).congr
          fun f => by simp [htarget]
      · exact (FailsBy.pure _).congr fun f => by simp [htarget]
    · rintro (hf | ⟨target, htarget, hobject, hf⟩)
      · exact ⟨hcontent, .dangles hmap hf⟩
      · exact ⟨hcontent, .body hmap htarget hobject hf⟩
    · cases hf.2 with
      | dangles _ hf => exact .inl hf
      | body _ htarget hobject hf => exact .inr ⟨_, htarget, hobject, hf⟩
  · refine (FailsBy.pure _).congr fun f => iff_of_false id ?_
    rintro ⟨hcontent, hf⟩
    refine hbody ?_
    rw [hcontent, Bool.true_and]
    cases hf with
    | dangles hmap _ => exact hmap
    | body hmap _ _ _ => exact hmap

/-- Something is wrong with an operation under the given path. -/
inductive Flaw (ctx : Context) (url node : Node) : Fault → Prop
  | object : node.isMap = false → Flaw ctx url node .malformed
  | parameters {f : Fault} : Parameters.Flaw ctx (node.field "parameters") f → Flaw ctx url node f
  | requestBody {f : Fault} : ctx.dialect.negotiatesContent = true → BodyFlaw ctx node f →
      Flaw ctx url node f
  | response {e : Scalar × Node} {f : Fault} :
      e ∈ (node.field "responses").entries?.getD [] → Response.EntryFlaw ctx e f →
      Flaw ctx url node f
  /-- The identifier is no text. -/
  | identifier : (node.field "operationId").truthy = true →
      (node.field "operationId").text? = none → Flaw ctx url node .malformed
  /-- The path is no text, and there is no identifier to name the operation by. -/
  | path : (node.field "operationId").truthy = false → url.text? = none →
      Flaw ctx url node .malformed
  | refused {f : Fault} : Refused "Operation" (complaints url node) f → Flaw ctx url node f

theorem failsBy_identifier (node : Node) :
    FailsBy (identifier? node) fun f =>
      ((node.field "operationId").truthy = true ∧ (node.field "operationId").text? = none) ∧
        f = .malformed := by
  simp only [identifier?]
  split_ifs with htruthy
  · exact (FailsBy.ofOption _ _).map.congr fun f => by simp [htruthy]
  · exact (FailsBy.pure _).congr fun f => by simp [htruthy]

theorem identifier_eq_none_iff {id : Option String} (h : (identifier? node).outcome = .ok id) :
    id = none ↔ (node.field "operationId").truthy = false := by
  simp only [identifier?] at h
  split_ifs at h with htruthy
  · obtain ⟨text, -, rfl⟩ := map_eq_ok.1 h
    simp [htruthy]
  · cases h
    simpa using htruthy

theorem failsBy_pathText (url : Node) (id : Option String) :
    FailsBy (pathText url id) fun f => (id = none ∧ url.text? = none) ∧ f = .malformed := by
  unfold pathText
  split
  · rename_i htext
    exact (FailsBy.pure _).congr fun f => by simp [htext]
  · exact (FailsBy.pure _).congr fun f => by simp
  · rename_i htext
    exact (FailsBy.fail _).congr fun f => by simp [htext]

/-- Building an operation fails exactly by its flaws. -/
theorem failsBy_ofNode (ctx : Context) (url : Node) (method tag : String) (node : Node)
    (pathParameters : Parameters) :
    FailsBy (Operation.ofNode ctx url method tag node pathParameters) (Flaw ctx url node) := by
  unfold Operation.ofNode
  refine .guarded (fun hobject => .object (by simpa using hobject)) fun hobject => ?_
  have hmap : node.isMap ≠ false := by simpa using hobject
  have hpath (id : Option String) (hid : (identifier? node).outcome = .ok id) :
      FailsBy (pathText url id) fun f =>
        ((node.field "operationId").truthy = false ∧ url.text? = none) ∧ f = .malformed := by
    rw [← identifier_eq_none_iff hid]
    exact failsBy_pathText url id
  refine ((Parameters.failsBy_ofNode ctx _).bind fun _ _ =>
    (failsBy_withRequestBody ctx node _).bind fun _ _ =>
      (Response.failsBy_ofNodes ctx _).bind fun _ _ =>
        (failsBy_identifier node).bind fun id hid => (hpath id hid).bind fun _ _ =>
          (failsBy_refuse _ _).before fun _ _ => .pure _).congr fun f => ⟨?_, fun hf => ?_⟩
  · rintro (hf | ⟨hcontent, hf⟩ | ⟨e, he, hf⟩ | ⟨⟨htruthy, htext⟩, rfl⟩ | ⟨⟨hnone, htext⟩, rfl⟩ |
      hf)
    · exact .parameters hf
    · exact .requestBody hcontent hf
    · exact .response he hf
    · exact .identifier htruthy htext
    · exact .path hnone htext
    · exact .refused hf
  · cases hf with
    | object hfalse => exact absurd hfalse hmap
    | parameters hf => exact .inl hf
    | requestBody hcontent hf => exact .inr (.inl ⟨hcontent, hf⟩)
    | response he hf => exact .inr (.inr (.inl ⟨_, he, hf⟩))
    | identifier htruthy htext => exact .inr (.inr (.inr (.inl ⟨⟨htruthy, htext⟩, rfl⟩)))
    | path hnone htext => exact .inr (.inr (.inr (.inr (.inl ⟨⟨hnone, htext⟩, rfl⟩))))
    | refused hf => exact .inr (.inr (.inr (.inr (.inr hf))))

theorem failsBy_tags (node : Node) :
    FailsBy (tags node) fun f => (node.field "tags").Unlistable ∧ f = .malformed := by
  simp only [tags, Node.Unlistable]
  split_ifs with htruthy
  · exact ((FailsBy.ofOption _ _).before fun _ _ => .pure _).congr fun f => by simp [htruthy]
  · exact (FailsBy.pure _).congr fun f => by simp [htruthy]

end Operation

/-! ## Paths -/

namespace Service

variable {ctx : Context} {url : Scalar} {item : Node} {method : String} {f : Fault}

/-- Something is wrong with what a method does on a path. -/
inductive MethodFlaw (ctx : Context) (url : Scalar) (item : Node) (method : String) :
    Fault → Prop
  | tags : (item.field method).isMap = true → ((item.field method).field "tags").Unlistable →
      MethodFlaw ctx url item method .malformed
  | operation {f : Fault} : (item.field method).isMap = true →
      Operation.Flaw ctx (.scalar url) (item.field method) f → MethodFlaw ctx url item method f

theorem tags_ne_nil {node : Node} {tags : List String}
    (h : (Operation.tags node).outcome = .ok tags) : tags ≠ [] := by
  rw [Operation.tags_eq_ok h, Filing.tagsOf]
  split
  · exact List.cons_ne_nil _ _
  · assumption

theorem failsBy_ofMethod (ctx : Context) (url : Scalar) (item : Node) (ps : Parameters)
    (method : String) :
    FailsBy (ofMethod ctx url item ps method) (MethodFlaw ctx url item method) := by
  simp only [ofMethod]
  split_ifs with hmap
  · have hoperations (tags : List String)
        (htags : (Operation.tags (item.field method)).outcome = .ok tags) :
        FailsBy (tags.mapM fun tag =>
            Operation.ofNode ctx (.scalar url) method tag (item.field method) ps)
          (Operation.Flaw ctx (.scalar url) (item.field method)) := by
      obtain ⟨tag, htag⟩ := List.exists_mem_of_ne_nil _ (tags_ne_nil htags)
      refine (FailsBy.mapM fun tag _ => Operation.failsBy_ofNode ctx _ method tag _ ps).congr
        fun f => ⟨?_, fun hf => ⟨tag, htag, hf⟩⟩
      rintro ⟨-, -, hf⟩
      exact hf
    refine ((Operation.failsBy_tags _).bind hoperations).congr fun f => ⟨?_, fun hf => ?_⟩
    · rintro (⟨htags, rfl⟩ | hf)
      · exact .tags hmap htags
      · exact .operation hmap hf
    · cases hf with
      | tags _ htags => exact .inl ⟨htags, rfl⟩
      | operation _ hf => exact .inr hf
  · refine (FailsBy.pure _).congr fun f => iff_of_false id fun hf => hmap ?_
    cases hf with
    | tags hmap _ => exact hmap
    | operation hmap _ => exact hmap

/-- Something is wrong with a path. -/
inductive PathFlaw (ctx : Context) (e : Scalar × Node) : Fault → Prop
  | parameters {f : Fault} : e.2.isMap = true →
      Parameters.Flaw ctx (e.2.field "parameters") f → PathFlaw ctx e f
  | method {method : String} {f : Fault} : e.2.isMap = true → method ∈ Operation.methods →
      MethodFlaw ctx e.1 e.2 method f → PathFlaw ctx e f

theorem failsBy_noteOthers (url : Scalar) (entries : List (Scalar × Node)) :
    FailsBy (noteOthers url entries) fun _ => False := by
  simp only [noteOthers, List.forM_eq_forM]
  induction entries with
  | nil => exact .pure _
  | cons e entries ih =>
    rw [List.forM_cons]
    refine FailsBy.after ?_ fun _ _ => ih
    split_ifs
    · exact .pure _
    · exact .note _

theorem failsBy_ofPath (ctx : Context) (e : Scalar × Node) :
    FailsBy (ofPath ctx e) (PathFlaw ctx e) := by
  obtain ⟨url, item⟩ := e
  unfold ofPath
  cases item with
  | map entries =>
    refine ((Parameters.failsBy_ofNode ctx _).bind fun ps _ =>
      (failsBy_noteOthers url entries).after fun _ _ =>
        (FailsBy.mapM fun method _ => failsBy_ofMethod ctx url _ ps method).map).congr
      fun f => ⟨?_, fun hf => ?_⟩
    · rintro (hf | ⟨method, hmethod, hf⟩)
      · exact .parameters rfl hf
      · exact .method rfl hmethod hf
    · cases hf with
      | parameters _ hf => exact .inl hf
      | method _ hmethod hf => exact .inr ⟨_, hmethod, hf⟩
  | _ =>
    refine (FailsBy.pure _).congr fun f => iff_of_false id fun hf => ?_
    cases hf with
    | parameters hmap _ => cases hmap
    | method hmap _ _ => cases hmap

end Service

/-! ## Parts of a document -/

namespace Node

/-- A part of a document that should be a mapping says something else. -/
def NoMapping (n : Node) : Prop := n.truthy = true ∧ n.isMap = false

theorem isMap_orElse (n : Node) : (n.orElse (.map [])).isMap = false ↔ n.NoMapping := by
  unfold orElse NoMapping
  split_ifs with htruthy
  · simp [htruthy]
  · simp [htruthy, isMap, entries?]

theorem entries?_orElse (n : Node) : (n.orElse (.map [])).entries? = none ↔ n.NoMapping := by
  rw [← isMap_orElse, isMap, Option.isSome_eq_false_iff, Option.isNone_iff_eq_none]

end Node

namespace Schema

theorem isMap_componentsOf (document : Node) :
    (componentsOf document).isMap = false ↔ (document.field "components").NoMapping :=
  Node.isMap_orElse _

theorem failsBy_sectionEntries (n : Node) :
    FailsBy (sectionEntries n) fun f => n.NoMapping ∧ f = .malformed := by
  rw [← Node.entries?_orElse]
  exact FailsBy.ofOption _ _

/-- Work on the entries of a part of a document. -/
theorem failsBy_section {β : Type} {n : Node} {g : Scalar × Node → Built β}
    {H : Scalar × Node → Fault → Prop} (h : ∀ e, FailsBy (g e) (H e)) :
    FailsBy (sectionEntries n >>= fun entries => entries.mapM g) fun f =>
      (n.NoMapping ∧ f = .malformed) ∨ ∃ e ∈ n.entries?.getD [], H e f := by
  refine (failsBy_sectionEntries n).bind fun entries hentries => ?_
  rw [← sectionEntries_eq_ok hentries]
  exact FailsBy.mapM fun e _ => h e

end Schema

/-- Building the services of a document fails exactly by the flaws of its paths. -/
theorem Service.failsBy_ofDocument (ctx : Context) :
    FailsBy (Service.ofDocument ctx) fun f =>
      ((ctx.document.field "paths").NoMapping ∧ f = .malformed) ∨
        ∃ e ∈ (ctx.document.field "paths").entries?.getD [], PathFlaw ctx e f := by
  have hpaths : Service.ofDocument ctx =
      (Schema.sectionEntries (ctx.document.field "paths") >>= fun entries =>
        entries.mapM (ofPath ctx)) >>= fun operations =>
          pure (ofOperations operations.flatten) := by
    rw [bind_assoc]
    rfl
  rw [hpaths]
  exact (Schema.failsBy_section (failsBy_ofPath ctx)).before fun _ _ => .pure _

/-! ## Definitions -/

namespace Schema

/-- Something is wrong with the definitions of a document. -/
inductive DefinitionsFlaw (ctx : Context) : Fault → Prop
  | components : ctx.dialect = .v3 → (ctx.document.field "components").NoMapping →
      DefinitionsFlaw ctx .malformed
  | definitions : (definitionsOf ctx).NoMapping → DefinitionsFlaw ctx .malformed
  | definition {e : Scalar × Node} {f : Fault} : e ∈ (definitionsOf ctx).entries?.getD [] →
      Flaw ctx (ctx.dialect.schemaName (.scalar e.1)) e.2 f → DefinitionsFlaw ctx f
  | parameters : ctx.dialect = .v3 →
      ((componentsOf ctx.document).field "parameters").NoMapping → DefinitionsFlaw ctx .malformed
  | parameter {e : Scalar × Node} {f : Fault} : ctx.dialect = .v3 →
      e ∈ ((componentsOf ctx.document).field "parameters").entries?.getD [] →
      (e.2.field "schema").truthy = true →
      Flaw ctx (ctx.dialect.schemaName (.scalar e.1)) (e.2.field "schema") f →
      DefinitionsFlaw ctx f

variable {ctx : Context}

theorem failsBy_definition (ctx : Context) (e : Scalar × Node) :
    FailsBy (definition ctx e) (Flaw ctx (ctx.dialect.schemaName (.scalar e.1)) e.2) :=
  failsBy_model ctx e.2 true _

theorem failsBy_parameterDefinition (ctx : Context) (e : Scalar × Node) :
    FailsBy (parameterDefinition ctx e) fun f => (e.2.field "schema").truthy = true ∧
      Flaw ctx (ctx.dialect.schemaName (.scalar e.1)) (e.2.field "schema") f := by
  simp only [parameterDefinition]
  split_ifs with htruthy
  · exact ((failsBy_definition ctx _).before fun _ _ => .pure _).congr fun f =>
      (and_iff_right htruthy).symm
  · exact (FailsBy.pure _).congr fun f => by simp [htruthy]

/-- The models of the definitions and of the parameters of a document of the third version. -/
def definitionsBelow (ctx : Context) : Built (List Model) :=
  (sectionEntries (definitionsOf ctx) >>= fun entries => entries.mapM (definition ctx)) >>=
    fun models =>
      (sectionEntries ((componentsOf ctx.document).field "parameters") >>= fun entries =>
        entries.mapM (parameterDefinition ctx)) >>= fun parameters =>
          pure (models ++ parameters.reduceOption)

/-- Making the models of a document fails exactly by the flaws of its definitions. -/
theorem failsBy_definitions (ctx : Context) : FailsBy (definitions ctx) (DefinitionsFlaw ctx) := by
  have hdefinitions : FailsBy (sectionEntries (definitionsOf ctx) >>= fun entries =>
      entries.mapM (definition ctx)) fun f =>
        ((definitionsOf ctx).NoMapping ∧ f = .malformed) ∨
          ∃ e ∈ (definitionsOf ctx).entries?.getD [],
            Flaw ctx (ctx.dialect.schemaName (.scalar e.1)) e.2 f :=
    failsBy_section (failsBy_definition ctx)
  cases hd : ctx.dialect with
  | v2 =>
    have hwork : definitions ctx = sectionEntries (definitionsOf ctx) >>= fun entries =>
        entries.mapM (definition ctx) := by
      simp only [definitions, definitionsOf, hd]
    rw [hwork]
    refine hdefinitions.congr fun f => ⟨?_, fun hf => ?_⟩
    · rintro (⟨hsection, rfl⟩ | ⟨e, he, hf⟩)
      · exact .definitions hsection
      · exact .definition he hf
    · cases hf with
      | components h _ => cases hd.symm.trans h
      | definitions hsection => exact .inl ⟨hsection, rfl⟩
      | definition he hf => exact .inr ⟨_, he, hf⟩
      | parameters h _ => cases hd.symm.trans h
      | parameter h _ _ _ => cases hd.symm.trans h
  | v3 =>
    have hwork : definitions ctx =
        if (!(componentsOf ctx.document).isMap) = true then
          (fail .malformed >>= fun _ : Unit => definitionsBelow ctx)
        else definitionsBelow ctx := by
      simp only [definitions, definitionsBelow, definitionsOf, componentsOf, hd, bind_assoc]
    rw [hwork]
    refine .guarded (fun hobject => ?_) fun hobject => ?_
    · exact .components hd ((isMap_componentsOf _).1 (by simpa using hobject))
    refine (hdefinitions.bind fun _ _ =>
      (failsBy_section (failsBy_parameterDefinition ctx)).before fun _ _ => .pure _).congr
      fun f => ⟨?_, fun hf => ?_⟩
    · rintro ((⟨hsection, rfl⟩ | ⟨e, he, hf⟩) | ⟨hsection, rfl⟩ | ⟨e, he, htruthy, hf⟩)
      · exact .definitions hsection
      · exact .definition he hf
      · exact .parameters hd hsection
      · exact .parameter hd he htruthy hf
    · cases hf with
      | components _ hsection =>
        rw [(isMap_componentsOf _).2 hsection] at hobject
        cases hobject
      | definitions hsection => exact .inl (.inl ⟨hsection, rfl⟩)
      | definition he hf => exact .inl (.inr ⟨_, he, hf⟩)
      | parameters _ hsection => exact .inr (.inl ⟨hsection, rfl⟩)
      | parameter _ he htruthy hf => exact .inr (.inr ⟨_, he, htruthy, hf⟩)

end Schema

/-! ## Dialect and discriminators -/

/-- The version of a document is not known. -/
inductive Dialect.Flaw (document : Node) : Fault → Prop
  | object : document.isMap = false → Dialect.Flaw document .malformed
  | version : document.isMap = true → Dialect.ofMarker? (Dialect.marker document) = none →
      Dialect.Flaw document (.unsupportedVersion (Dialect.marker document))

theorem Dialect.failsBy_ofDocument (document : Node) :
    FailsBy (ofExcept (Dialect.ofDocument document)) (Dialect.Flaw document) := by
  cases document with
  | map entries =>
    unfold Dialect.ofDocument
    dsimp only
    split
    · rename_i d hd
      refine (FailsBy.pure d).congr fun f => iff_of_false id fun hf => ?_
      cases hf with
      | object h => cases h
      | version _ h => cases hd.symm.trans h
    · rename_i hd
      refine (FailsBy.fail _).congr fun f => ⟨?_, fun hf => ?_⟩
      · rintro rfl
        exact .version rfl hd
      · cases hf with
        | object h => cases h
        | version _ _ => rfl
  | _ =>
    refine (FailsBy.fail _).congr fun f => ⟨?_, fun hf => ?_⟩
    · rintro rfl
      exact .object rfl
    · cases hf with
      | object _ => rfl
      | version h _ => cases h

namespace Discriminator

/-- Something is wrong with the schemas of a document that may offer alternatives. -/
inductive Flaw (document : Node) : Prop
  | components : (document.field "components").NoMapping → Flaw document
  | schemas : ((Schema.componentsOf document).field "schemas").NoMapping → Flaw document
  /-- The alternatives that a discriminator tells apart cannot be gone through. -/
  | alternatives {e : Scalar × Node} :
      e ∈ ((Schema.componentsOf document).field "schemas").entries?.getD [] →
      (e.2.field "discriminator").isMap = true → (e.2.field "oneOf").Unlistable → Flaw document

theorem failsBy_membersOf (d : Dialect) (schema : Node) :
    FailsBy (membersOf d schema) fun f =>
      ((schema.field "discriminator").isMap = true ∧ (schema.field "oneOf").Unlistable) ∧
        f = .malformed := by
  simp only [membersOf, Node.Unlistable]
  split_ifs with hcondition
  · obtain ⟨hmap, htruthy⟩ := Bool.and_eq_true_iff.1 hcondition
    exact ((FailsBy.ofOption _ _).before fun _ _ => .pure _).congr fun f => by
      simp [hmap, htruthy]
  · refine (FailsBy.pure _).congr fun f => iff_of_false id ?_
    rintro ⟨⟨hmap, htruthy, -⟩, -⟩
    exact hcondition (Bool.and_eq_true_iff.2 ⟨hmap, htruthy⟩)

theorem failsBy_schemas (document : Node) :
    FailsBy (schemas document) fun f =>
      ((document.field "components").NoMapping ∨
        ((Schema.componentsOf document).field "schemas").NoMapping) ∧ f = .malformed := by
  show FailsBy (if (!(Schema.componentsOf document).isMap) = true then
      (fail .malformed >>= fun _ : Unit =>
        Schema.sectionEntries ((Schema.componentsOf document).field "schemas"))
    else Schema.sectionEntries ((Schema.componentsOf document).field "schemas")) _
  refine .guarded (fun hobject => ?_) fun hobject => ?_
  · exact ⟨.inl ((Schema.isMap_componentsOf _).1 (by simpa using hobject)), rfl⟩
  · have hmap : ¬ (document.field "components").NoMapping := by
      rw [← Schema.isMap_componentsOf]
      simpa using hobject
    exact (Schema.failsBy_sectionEntries _).congr fun f => by rw [or_iff_right hmap]

theorem schemas_eq_ok {document : Node} {entries : List (Scalar × Node)}
    (h : (schemas document).outcome = .ok entries) :
    entries = ((Schema.componentsOf document).field "schemas").entries?.getD [] :=
  Schema.sectionEntries_eq_ok (unless_eq_ok.1 h).2

theorem failsBy_index (d : Dialect) (document : Node) :
    FailsBy (index d document) fun f =>
      (d.hasDiscriminators = true ∧ Flaw document) ∧ f = .malformed := by
  unfold index
  split_ifs with hd
  · have hmembers (entries : List (Scalar × Node))
        (hentries : (schemas document).outcome = .ok entries) :
        FailsBy (entries.mapM fun e => membersOf d e.2) fun f =>
          ∃ e ∈ ((Schema.componentsOf document).field "schemas").entries?.getD [],
            ((e.2.field "discriminator").isMap = true ∧ (e.2.field "oneOf").Unlistable) ∧
              f = .malformed := by
      rw [← schemas_eq_ok hentries]
      exact FailsBy.mapM fun e _ => failsBy_membersOf d e.2
    refine ((failsBy_schemas document).bind fun entries hentries =>
      (hmembers entries hentries).before fun _ _ => .pure _).congr fun f => ⟨?_, ?_⟩
    · rintro (⟨hcomponents | hschemas, rfl⟩ | ⟨e, he, ⟨hmap, hmembers⟩, rfl⟩)
      · exact ⟨⟨hd, .components hcomponents⟩, rfl⟩
      · exact ⟨⟨hd, .schemas hschemas⟩, rfl⟩
      · exact ⟨⟨hd, .alternatives he hmap hmembers⟩, rfl⟩
    · rintro ⟨⟨-, hflaw⟩, rfl⟩
      cases hflaw with
      | components hcomponents => exact .inl ⟨.inl hcomponents, rfl⟩
      | schemas hschemas => exact .inl ⟨.inr hschemas, rfl⟩
      | alternatives he hmap hmembers => exact .inr ⟨_, he, ⟨hmap, hmembers⟩, rfl⟩
  · exact (FailsBy.pure _).congr fun f => by simp [hd]

end Discriminator

/-! ## Version and server -/

namespace Client

theorem failsBy_versionOf (document : Node) :
    FailsBy (versionOf document) fun f =>
      (document.field "info").NoMapping ∧ f = .malformed := by
  have hnode : FailsBy (versionNode document) fun f =>
      (document.field "info").NoMapping ∧ f = .malformed := by
    unfold versionNode
    refine .guarded (fun hobject => ?_) fun hobject => ?_
    · exact ⟨(Node.isMap_orElse _).1 (by simpa using hobject), rfl⟩
    · have hmap : ¬ (document.field "info").NoMapping := by
        rw [← Node.isMap_orElse]
        simpa using hobject
      exact (FailsBy.pure _).congr fun f => by simp [hmap]
  exact hnode.before fun _ _ => .pure _

/-- The address of the server cannot be made. -/
inductive ServerFlaw (document : Node) : Dialect → Prop
  /-- There is a host, but no first scheme. -/
  | scheme : (document.field "host").truthy = true →
      first? ((document.field "schemes").orElse (.list [.text "http"])) = none →
      ServerFlaw document .v2
  /-- There is no host, and the base path is no text. -/
  | basePath : (document.field "host").truthy = false →
      ((document.field "basePath").orElse (.text "")).text? = none → ServerFlaw document .v2
  | servers : (document.field "servers").truthy = true →
      first? (document.field "servers") = none → ServerFlaw document .v3
  /-- The address has variables, but no mapping says what they are. -/
  | undefined {server : Node} : (firstServer (document.field "servers")).outcome = .ok server →
      (server.field "variables").NoMapping →
      hasVariable ((server.field "url").orElse (.text "")).display.toList = true →
      ServerFlaw document .v3

theorem failsBy_serverOfHost (document : Node) :
    FailsBy (serverOfHost document) fun f => ServerFlaw document .v2 ∧ f = .malformed := by
  simp only [serverOfHost]
  split_ifs with hhost
  · refine ((FailsBy.ofOption _ _).before fun _ _ => .pure _).congr fun f => and_congr_left ?_
    rintro rfl
    refine ⟨.scheme hhost, fun hflaw => ?_⟩
    cases hflaw with
    | scheme _ hnone => exact hnone
    | basePath hfalse _ => rw [hhost] at hfalse; cases hfalse
  · refine (FailsBy.ofOption _ _).map.congr fun f => and_congr_left ?_
    rintro rfl
    refine ⟨.basePath (by simpa using hhost), fun hflaw => ?_⟩
    cases hflaw with
    | scheme htrue _ => exact absurd htrue hhost
    | basePath _ hnone => exact hnone

theorem failsBy_firstServer (servers : Node) :
    FailsBy (firstServer servers) fun f =>
      (servers.truthy = true ∧ first? servers = none) ∧ f = .malformed := by
  unfold firstServer
  split_ifs with htruthy
  · exact ((FailsBy.ofOption _ _).before fun _ _ => .pure _).congr fun f => by simp [htruthy]
  · exact (FailsBy.pure _).congr fun f => by simp [htruthy]

theorem failsBy_serverOfList (document : Node) :
    FailsBy (serverOfList document) fun f => ServerFlaw document .v3 ∧ f = .malformed := by
  refine ((failsBy_firstServer _).bindAt (H := fun server f =>
    ((server.field "variables").NoMapping ∧
      hasVariable ((server.field "url").orElse (.text "")).display.toList = true) ∧
        f = .malformed) fun server _ => ?_).congr fun f => ⟨?_, ?_⟩
  · refine .guarded (fun hrefused => ?_) fun hrefused => ?_
    · obtain ⟨hmap, hvariable⟩ := Bool.and_eq_true_iff.1 hrefused
      exact ⟨⟨(Node.isMap_orElse _).1 (by simpa using hmap), hvariable⟩, rfl⟩
    · refine (FailsBy.pure _).congr fun f => iff_of_false id ?_
      rintro ⟨⟨hmap, hvariable⟩, -⟩
      rw [(Node.isMap_orElse _).2 hmap, hvariable] at hrefused
      cases hrefused
  · rintro (⟨⟨htruthy, hnone⟩, rfl⟩ | ⟨server, hserver, ⟨hmap, hvariable⟩, rfl⟩)
    · exact ⟨.servers htruthy hnone, rfl⟩
    · exact ⟨.undefined hserver hmap hvariable, rfl⟩
  · rintro ⟨hflaw, rfl⟩
    cases hflaw with
    | servers htruthy hnone => exact .inl ⟨⟨htruthy, hnone⟩, rfl⟩
    | undefined hserver hmap hvariable => exact .inr ⟨_, hserver, ⟨hmap, hvariable⟩, rfl⟩

theorem failsBy_serverOf (ctx : Context) :
    FailsBy (serverOf ctx) fun f => ServerFlaw ctx.document ctx.dialect ∧ f = .malformed := by
  unfold serverOf
  cases ctx.dialect with
  | v2 => exact failsBy_serverOfHost ctx.document
  | v3 => exact failsBy_serverOfList ctx.document

/-! ## Clients -/

/-- Something is wrong with a document of which the dialect and the discriminators are known. -/
inductive FlawIn (ctx : Context) : Fault → Prop
  | info : (ctx.document.field "info").NoMapping → FlawIn ctx .malformed
  | server : ServerFlaw ctx.document ctx.dialect → FlawIn ctx .malformed
  | definitions {f : Fault} : Schema.DefinitionsFlaw ctx f → FlawIn ctx f
  | paths : (ctx.document.field "paths").NoMapping → FlawIn ctx .malformed
  | path {e : Scalar × Node} {f : Fault} :
      e ∈ (ctx.document.field "paths").entries?.getD [] → Service.PathFlaw ctx e f → FlawIn ctx f

/-- Something is wrong with a document. -/
inductive Flaw (document : Node) : Fault → Prop
  | dialect {f : Fault} : Dialect.Flaw document f → Flaw document f
  | discriminators {d : Dialect} : Dialect.ofDocument document = .ok d →
      d.hasDiscriminators = true → Discriminator.Flaw document → Flaw document .malformed
  | inside {ctx : Context} {f : Fault} : (Context.ofDocument document).outcome = .ok ctx →
      FlawIn ctx f → Flaw document f

theorem failsBy_context (document : Node) :
    FailsBy (Context.ofDocument document) fun f => Dialect.Flaw document f ∨
      ∃ d, Dialect.ofDocument document = .ok d ∧
        (d.hasDiscriminators = true ∧ Discriminator.Flaw document) ∧ f = .malformed :=
  (Dialect.failsBy_ofDocument document).bindAt fun d _ =>
    (Discriminator.failsBy_index d document).before fun _ _ => .pure _

/-- Building a client fails exactly by the flaws of the document. -/
theorem failsBy_ofDocument (document : Node) :
    FailsBy (Client.ofDocument document) (Flaw document) := by
  have hinside (ctx : Context) (hctx : (Context.ofDocument document).outcome = .ok ctx) :
      FailsBy (do
        let version ← versionOf document
        let server ← serverOf ctx
        let models ← Schema.definitions ctx
        let services ← Service.ofDocument ctx
        pure ({ version, server, models, services } : Client)) (FlawIn ctx) := by
    rw [← document_of_context hctx]
    refine ((failsBy_versionOf _).bind fun _ _ => (failsBy_serverOf ctx).bind fun _ _ =>
      (Schema.failsBy_definitions ctx).bind fun _ _ =>
        (Service.failsBy_ofDocument ctx).before fun _ _ => .pure _).congr
      fun f => ⟨?_, fun hf => ?_⟩
    · rintro (⟨hinfo, rfl⟩ | ⟨hserver, rfl⟩ | hf | ⟨hpaths, rfl⟩ | ⟨e, he, hf⟩)
      · exact .info hinfo
      · exact .server hserver
      · exact .definitions hf
      · exact .paths hpaths
      · exact .path he hf
    · cases hf with
      | info hinfo => exact .inl ⟨hinfo, rfl⟩
      | server hserver => exact .inr (.inl ⟨hserver, rfl⟩)
      | definitions hf => exact .inr (.inr (.inl hf))
      | paths hpaths => exact .inr (.inr (.inr (.inl ⟨hpaths, rfl⟩)))
      | path he hf => exact .inr (.inr (.inr (.inr ⟨_, he, hf⟩)))
  refine ((failsBy_context document).bindAt hinside).congr fun f => ⟨?_, fun hf => ?_⟩
  · rintro ((hf | ⟨d, hd, ⟨hhas, hflaw⟩, rfl⟩) | ⟨ctx, hctx, hf⟩)
    · exact .dialect hf
    · exact .discriminators hd hhas hflaw
    · exact .inside hctx hf
  · cases hf with
    | dialect hf => exact .inl (.inl hf)
    | discriminators hd hhas hflaw => exact .inl (.inr ⟨_, hd, ⟨hhas, hflaw⟩, rfl⟩)
    | inside hctx hf => exact .inr ⟨_, hctx, hf⟩

theorem failsBy_generate (document : Node) : FailsBy (generate document) (Flaw document) :=
  (failsBy_ofDocument document).map

end Client

/-- The faults that are documented as the only ones: a version that nobody knows, and a reference
that leads nowhere. -/
inductive Fault.IsDocumented : Fault → Prop
  | version (marker : Node) : Fault.IsDocumented (.unsupportedVersion marker)
  | reference (ref : String) : Fault.IsDocumented (.unresolved ref)

/-- A document that can be written in JSON: its keys are texts, and it holds no dates. -/
inductive Node.IsJson : Node → Prop
  | null : Node.IsJson .null
  | bool (b : Bool) : Node.IsJson (.bool b)
  | int (n : Int) : Node.IsJson (.int n)
  | float (x : Float) : Node.IsJson (.float x)
  | text (s : String) : Node.IsJson (.text s)
  | list {items : List Node} : (∀ n ∈ items, n.IsJson) → Node.IsJson (.list items)
  | record {fields : List (String × Node)} : (∀ e ∈ fields, e.2.IsJson) →
      Node.IsJson (.record fields)

namespace Client

/-- A document has a client exactly if it has no flaw, and what is reported otherwise is one of its
flaws. So if all its flaws are documented, it has a client or a documented fault is reported. -/
theorem fault_of_generate (document : Node) :
    ((∃ c, (generate document).outcome = .ok c) ↔ ∀ f, ¬ Flaw document f) ∧
      (∀ f, (generate document).outcome = .error f → Flaw document f) ∧
      ((∀ f, Flaw document f → f.IsDocumented) →
        (∃ c, (generate document).outcome = .ok c) ∨
          ∃ f, f.IsDocumented ∧ (generate document).outcome = .error f) := by
  have hfails : FailsBy (generate document) (Flaw document) := failsBy_generate document
  refine ⟨hfails.exists_ok_iff, hfails.sound, fun hdocumented => ?_⟩
  cases houtcome : (generate document).outcome with
  | ok c => exact .inl ⟨c, rfl⟩
  | error f => exact .inr ⟨f, hdocumented f (hfails.sound f houtcome), rfl⟩

/-- A document with a definition that is described by a list of texts. -/
def register : Node :=
  .record [("swagger", .text "2.0"), ("definitions", .record [("Pet",
    .record [("type", .text "object"), ("description", .list [.text "a", .text "pet"])])])]

/-- Not all failures are documented: a description that is no text is refused. -/
theorem not_all_failures_documented :
    ¬ ∀ document : Node, document.IsJson →
      (∃ c, (generate document).outcome = .ok c) ∨
        ∃ f, f.IsDocumented ∧ (generate document).outcome = .error f := by
  intro hall
  have hpet : (Node.record [("type", .text "object"),
      ("description", .list [.text "a", .text "pet"])]).IsJson :=
    .record (by simp [Node.IsJson.text, Node.IsJson.list])
  have hdefinitions : (Node.record [("Pet", Node.record [("type", .text "object"),
      ("description", .list [.text "a", .text "pet"])])]).IsJson := .record (by simpa using hpet)
  have hjson : register.IsJson := .record (by simpa [Node.IsJson.text] using hdefinitions)
  have houtcome : (generate register).outcome = .error (.rejected "Model" 1) := rfl
  obtain ⟨c, hc⟩ | ⟨f, hf, herror⟩ := hall register hjson
  · cases houtcome.symm.trans hc
  · cases houtcome.symm.trans herror
    cases hf

end Client

end ApiModel
