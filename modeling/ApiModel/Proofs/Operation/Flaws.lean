import ApiModel.Operation.Builder
import ApiModel.Proofs.Operation.Parameters
import ApiModel.Proofs.Schema.Failure

/-!
# What is wrong with parameters and responses

The builders of parameters, request bodies and responses tolerate most of what can be odd in a
document. Here is what they do not tolerate, in terms of the document.

**Theorems (`Parameter.failsBy_ofNode`, `Parameter.failsBy_ofRequestBody`,
`Response.failsBy_ofNode`).** Building fails exactly by a flaw: a reference that has to be followed
and leads nowhere, a record that refuses what it is given, a node with which nothing can be done, or
a flaw of the schema.

The flaws are stated separately for each source of a type, because what a record refuses depends on
the source: a schema overrides the constraints of its parameter.
-/

namespace ApiModel

open Report Model

/-! ## Content -/

namespace Content

/-- No schema can be picked: some key is no text, and the very best media type is not found before
it. -/
def Unchoosable (content : Node) : Prop :=
  ∃ entries, content = .map entries ∧ (withSchema entries).mapM textual? = none ∧
    bestBeforeForeign? (withSchema entries) = none

theorem failsBy_choose (content : Node) :
    FailsBy (choose content) fun f => Unchoosable content ∧ f = .malformed := by
  unfold choose Unchoosable
  split
  · rename_i entries
    dsimp only
    split
    · rename_i hall
      exact (FailsBy.pure _).congr fun f => by simp [hall]
    · rename_i hforeign
      exact (FailsBy.ofOption _ _).map.congr fun f => by simp [hforeign]
  · rename_i hmap
    refine (FailsBy.pure _).congr fun f => iff_of_false id ?_
    rintro ⟨⟨entries, h, -⟩, -⟩
    exact hmap entries h

end Content

/-! ## Parameters -/

namespace Parameter

variable {ctx : Context} {p : Draft} {node : Node} {f : Fault}

/-- The complaints about a parameter that its type has nothing to do with: those about its
description and its place. -/
def Draft.otherComplaints (p : Draft) : Nat :=
  descriptionComplaints p.description + placeComplaints p.location

/-- A parameter with the given constraints is refused. -/
def RefusedWith (n : Nat) (constraints : Constraints) : Fault → Prop :=
  Refused "OperationParameter" (n + constraints.complaints)

theorem failsBy_settle (p : Draft) :
    FailsBy p.settle (RefusedWith p.otherComplaints p.constraints) := by
  have hcount : p.complaints + placeComplaints p.location =
      p.otherComplaints + p.constraints.complaints := by
    simp only [Model.complaints, Draft.otherComplaints]
    omega
  unfold Draft.settle RefusedWith
  rw [hcount]
  refine (failsBy_refuse _ _).before fun _ h => ?_
  split
  · exact .pure _
  · rename_i hplace
    -- What has no place is refused before.
    have hcomplaints : p.otherComplaints + p.constraints.complaints ≠ 0 := by
      simp [Draft.otherComplaints, placeComplaints, hplace]
    exact absurd h ((failsBy_refuse _ _).complete _ ⟨hcomplaints, rfl⟩ _)

/-! ### From a schema -/

/-- Something is wrong with the schema that gives a parameter its type. The parameter itself has
constraints and other complaints. -/
inductive SchemaFlaw (ctx : Context) (n : Nat) (constraints : Constraints) (schema : Node) :
    Fault → Prop
  | object : schema.isMap = false → SchemaFlaw ctx n constraints schema .malformed
  | reference {ref : String} {f : Fault} : schema.ref? = some ref →
      RefusedWith n constraints f → SchemaFlaw ctx n constraints schema f
  | model {f : Fault} : schema.isMap = true → schema.ref? = none →
      Schema.Flaw ctx "" schema f → SchemaFlaw ctx n constraints schema f
  /-- The constraints of the schema go before those of the parameter. -/
  | refused {f : Fault} : schema.isMap = true → schema.ref? = none →
      RefusedWith n ((Constraints.ofSchema schema).override constraints) f →
      SchemaFlaw ctx n constraints schema f

theorem failsBy_ofSchema (ctx : Context) (schema : Node) (p : Draft) :
    FailsBy (ofSchema ctx schema p) (SchemaFlaw ctx p.otherComplaints p.constraints schema) := by
  unfold ofSchema
  cases href : schema.ref? with
  | some ref =>
    have hmap : schema.isMap = true := Node.isMap_of_ref href
    have hdraft : FailsBy (p.ofReference ctx.dialect schema ref) fun _ => False :=
      (failsBy_default _ _).before fun _ _ => .pure _
    simp only [hmap, Bool.not_true, Bool.false_eq_true, if_false]
    refine (hdraft.after fun q hq => ?_).congr fun f => ⟨.reference href, fun hf => ?_⟩
    · obtain ⟨default, -, hq⟩ := bind_eq_ok.1 hq
      cases hq
      exact failsBy_settle _
    · cases hf with
      | object hfalse => rw [hmap] at hfalse; cases hfalse
      | reference _ hf => exact hf
      | model _ hnone _ => cases href.symm.trans hnone
      | refused _ hnone _ => cases href.symm.trans hnone
  | none =>
    have hsettle (m : Model) : FailsBy (p.ofModel schema m).settle
        (RefusedWith p.otherComplaints ((Constraints.ofSchema schema).override p.constraints)) :=
      failsBy_settle _
    refine .guarded (fun hobject => .object (by simpa using hobject)) fun hobject => ?_
    have hmap : schema.isMap = true := by simpa using hobject
    refine ((Schema.failsBy_model ctx schema false "").bind fun m _ => hsettle m).congr
      fun f => ⟨?_, fun hf => ?_⟩
    · rintro (hf | hf)
      · exact .model hmap href hf
      · exact .refused hmap href hf
    · cases hf with
      | object hfalse => rw [hmap] at hfalse; cases hfalse
      | reference hsome _ => cases href.symm.trans hsome
      | model _ _ hf => exact .inl hf
      | refused _ _ hf => exact .inr hf

/-! ### From its own keywords -/

/-- The description of an integer lists members. -/
def DescribesMembers (node : Node) : Prop :=
  Schema.isInteger (node.field "type") = true ∧
    ∃ description ∈ (node.field "description").text?,
      ∃ m ms, (Enumeration.ofDescription description).outcome = .ok (m :: ms)

/-- A parameter object declares members or items of its own. -/
def TypedByKeywords (node : Node) : Prop :=
  Enumeration.valuesOf (node.field "enum") ≠ [] ∨ DescribesMembers node ∨
    (containerKind? (node.field "type")).isSome = true ∧ (node.field "items").isMap = true

/-- The keywords of a parameter object cannot be read. -/
inductive KeywordFlaw (node : Node) : Prop
  | unlistable : Enumeration.HasUnlistable node → KeywordFlaw node
  | overlong : Enumeration.valuesOf (node.field "enum") = [] →
      Enumeration.DescribesOverlong node → KeywordFlaw node

theorem failsBy_enumeration (node : Node) (type : String) (members : List EnumMember)
    (p : Draft) :
    FailsBy (enumeration node type members p) (RefusedWith p.otherComplaints p.constraints) :=
  (failsBy_settle _).before fun _ _ => (failsBy_withDefault _ _).before fun _ _ => .pure _

theorem failsBy_typed (node : Node) (type : TypeExpr) (kind : ModelKind) (p : Draft) :
    FailsBy (typed node type kind p) (RefusedWith p.otherComplaints p.constraints) :=
  (failsBy_default _ _).after fun _ _ => failsBy_settle _

/-- A parameter with items of its own. -/
def ofItems (ctx : Context) (node : Node) (p : Draft) : Built (Option Parameter) :=
  let items := node.field "items"
  match containerKind? (node.field "type"), items.isMap with
  | some kind, true =>
    some <$> typed node (.ofNode ctx.dialect (items.field "type") (items.field "format")) kind p
  | _, _ => pure none

/-- The keywords of a parameter are read in three steps: values, described members, items. -/
theorem ofKeywords_eq (h : ctx.dialect.hasDescribedEnums = true) (node : Node) (p : Draft) :
    ofKeywords? ctx node p =
      (Enumeration.ofNode (node.field "enum") >>= Enumeration.extend node) >>= fun listed =>
        match listed with
        | m :: ms => some <$> enumeration node "string" (m :: ms) p
        | [] => Schema.describedMembers ctx node >>= fun described =>
          match described with
          | m :: ms => some <$> enumeration node "number" (m :: ms) p
          | [] => ofItems ctx node p := by
  unfold ofKeywords? Schema.describedMembers ofItems
  rw [h, Bool.true_and]
  simp only [bind_assoc, map_eq_pure_bind]
  congr 1
  funext members
  congr 1
  funext listed
  cases listed with
  | cons m ms => rfl
  | nil =>
    simp only [List.isEmpty_nil, Bool.not_true, Bool.false_eq_true, if_false]
    cases Schema.isInteger (node.field "type") with
    | false => rfl
    | true =>
      cases (node.field "description").text? with
      | none => rfl
      | some description =>
        dsimp only
        congr 1
        funext described
        cases described <;> rfl

/-- Items give a parameter if the type is that of a container and they are a mapping. -/
theorem ofItems_cases (ctx : Context) (node : Node) (p : Draft) :
    (((containerKind? (node.field "type")).isSome = true ∧ (node.field "items").isMap = true) ∧
      ∃ type kind, ofItems ctx node p = some <$> typed node type kind p) ∨
    ¬ ((containerKind? (node.field "type")).isSome = true ∧ (node.field "items").isMap = true) ∧
      ofItems ctx node p = pure none := by
  simp only [ofItems]
  split
  · rename_i kind hkind hmap
    exact .inl ⟨⟨Option.isSome_iff_exists.2 ⟨kind, hkind⟩, hmap⟩, _, kind, rfl⟩
  · rename_i hnone
    refine .inr ⟨?_, rfl⟩
    rintro ⟨hsome, hmap⟩
    obtain ⟨kind, hkind⟩ := Option.isSome_iff_exists.1 hsome
    exact hnone kind hkind hmap

theorem failsBy_ofItems (ctx : Context) (node : Node) (p : Draft) :
    FailsBy (ofItems ctx node p) fun f =>
      ((containerKind? (node.field "type")).isSome = true ∧ (node.field "items").isMap = true) ∧
        RefusedWith p.otherComplaints p.constraints f := by
  obtain ⟨hitems, type, kind, heq⟩ | ⟨hnot, heq⟩ := ofItems_cases ctx node p
  · rw [heq]
    exact (failsBy_typed _ _ _ _).map.congr fun f => (and_iff_right hitems).symm
  · rw [heq]
    exact (FailsBy.pure _).congr fun f => iff_of_false id fun h => hnot h.1

theorem describedMembers_ne_nil_iff {members : List EnumMember}
    (h : ctx.dialect.hasDescribedEnums = true)
    (hm : (Schema.describedMembers ctx node).outcome = .ok members) :
    members ≠ [] ↔ DescribesMembers node := by
  unfold Schema.describedMembers at hm
  rw [h, Bool.true_and] at hm
  unfold DescribesMembers
  split at hm
  · rename_i description hinteger hdescription
    rw [hinteger, hdescription]
    cases members <;> simp [hm]
  · rename_i hnone
    cases hm
    simp only [ne_eq, not_true_eq_false, false_iff]
    rintro ⟨hinteger, description, hdescription, -⟩
    exact hnone description hinteger hdescription

/-- The keywords give a parameter exactly if the parameter is typed by them. -/
theorem isSome_ofKeywords {o : Option Parameter} (h : ctx.dialect.hasDescribedEnums = true)
    (ho : (ofKeywords? ctx node p).outcome = .ok o) :
    o.isSome = true ↔ TypedByKeywords node := by
  rw [ofKeywords_eq h] at ho
  obtain ⟨listed, hlisted, ho⟩ := bind_eq_ok.1 ho
  have hvalues := Enumeration.extend_eq_nil_iff hlisted
  cases listed with
  | cons m ms =>
    obtain ⟨q, -, rfl⟩ := map_eq_ok.1 ho
    exact iff_of_true rfl (.inl (mt hvalues.2 (List.cons_ne_nil m ms)))
  | nil =>
    obtain ⟨described, hdescribed, ho⟩ := bind_eq_ok.1 ho
    have hmembers := describedMembers_ne_nil_iff h hdescribed
    cases described with
    | cons m ms =>
      obtain ⟨q, -, rfl⟩ := map_eq_ok.1 ho
      exact iff_of_true rfl (.inr (.inl (hmembers.1 (List.cons_ne_nil m ms))))
    | nil =>
      have hnot : ¬ DescribesMembers node := fun hdescribes => hmembers.2 hdescribes rfl
      rw [TypedByKeywords, or_iff_right (not_not.2 (hvalues.1 rfl)), or_iff_right hnot]
      obtain ⟨hitems, type, kind, heq⟩ | ⟨hnone, heq⟩ := ofItems_cases ctx node p
      · rw [heq] at ho
        obtain ⟨q, -, rfl⟩ := map_eq_ok.1 ho
        exact iff_of_true rfl hitems
      · rw [heq] at ho
        cases ho
        exact iff_of_false Bool.false_ne_true hnone

theorem failsBy_ofKeywords (h : ctx.dialect.hasDescribedEnums = true) (node : Node) (p : Draft) :
    FailsBy (ofKeywords? ctx node p) fun f =>
      (KeywordFlaw node ∧ f = .malformed) ∨
        TypedByKeywords node ∧ RefusedWith p.otherComplaints p.constraints f := by
  rw [ofKeywords_eq h]
  have hlisted : FailsBy (Enumeration.ofNode (node.field "enum") >>= Enumeration.extend node)
      fun f => Enumeration.HasUnlistable node ∧ f = .malformed :=
    (Enumeration.failsBy_ofNode _).after fun _ _ => Enumeration.failsBy_extend node _
  refine (hlisted.bind (G := fun f =>
    (Enumeration.valuesOf (node.field "enum") = [] ∧ Enumeration.DescribesOverlong node ∧
      f = .malformed) ∨ TypedByKeywords node ∧ RefusedWith p.otherComplaints p.constraints f)
    fun listed hl => ?_).congr fun f => ?_
  · have hvalues := Enumeration.extend_eq_nil_iff hl
    cases listed with
    | cons m ms =>
      have hne := mt hvalues.2 (List.cons_ne_nil m ms)
      exact (failsBy_enumeration _ _ _ _).map.congr fun f => by simp [hne, TypedByKeywords]
    | nil =>
      have hnil := hvalues.1 rfl
      refine ((Schema.failsBy_describedMembers ctx node).bind (G := fun f =>
        TypedByKeywords node ∧ RefusedWith p.otherComplaints p.constraints f)
        fun described hd => ?_).congr fun f => by simp [h, hnil]
      have hmembers := describedMembers_ne_nil_iff h hd
      cases described with
      | cons m ms =>
        have hdescribes := hmembers.1 (List.cons_ne_nil m ms)
        exact (failsBy_enumeration _ _ _ _).map.congr fun f =>
          (and_iff_right (.inr (.inl hdescribes))).symm
      | nil =>
        have hnot : ¬ DescribesMembers node := fun hdescribes => hmembers.2 hdescribes rfl
        exact (failsBy_ofItems ctx node p).congr fun f => by simp [TypedByKeywords, hnil, hnot]
  · rw [← or_assoc]
    refine or_congr_left ⟨?_, ?_⟩
    · rintro (⟨hflaw, rfl⟩ | ⟨hnil, hflaw, rfl⟩)
      · exact ⟨.unlistable hflaw, rfl⟩
      · exact ⟨.overlong hnil hflaw, rfl⟩
    · rintro ⟨hflaw, rfl⟩
      cases hflaw with
      | unlistable hflaw => exact .inl ⟨hflaw, rfl⟩
      | overlong hnil hflaw => exact .inr ⟨hnil, hflaw, rfl⟩

/-! ### From a parameter object -/

/-- A parameter object is refused for what it says itself. -/
def RefusedItself (d : Dialect) (node : Node) : Fault → Prop :=
  RefusedWith (draft d node).otherComplaints (draft d node).constraints

/-- Something is wrong with a parameter object whose keywords give it no type. -/
inductive UntypedFlaw (ctx : Context) (node : Node) : Fault → Prop
  /-- The schema refers to another parameter, and there is none. -/
  | dangles {f : Fault} : (node.field "schema").isMap = true →
      Node.DanglesAmong ctx.dialect.parameterMark ctx.document (node.field "schema") f →
      UntypedFlaw ctx node f
  | schema {target : Node} {f : Fault} : (node.field "schema").isMap = true →
      (schemaTarget ctx (node.field "schema")).outcome = .ok target →
      SchemaFlaw ctx (draft ctx.dialect node).otherComplaints
        (draft ctx.dialect node).constraints target f → UntypedFlaw ctx node f
  | refused {f : Fault} : (node.field "schema").isMap = false →
      RefusedItself ctx.dialect node f → UntypedFlaw ctx node f

/-- Something is wrong with a parameter object. -/
inductive Flaw (ctx : Context) (node : Node) : Fault → Prop
  | object : node.isMap = false → Flaw ctx node .malformed
  | reference {ref : String} {f : Fault} : node.ref? = some ref →
      RefusedItself ctx.dialect node f → Flaw ctx node f
  | keywords : node.ref? = none → ctx.dialect.hasInlineTypes = true → KeywordFlaw node →
      Flaw ctx node .malformed
  | typed {f : Fault} : node.ref? = none → ctx.dialect.hasInlineTypes = true →
      TypedByKeywords node → RefusedItself ctx.dialect node f → Flaw ctx node f
  | untyped {f : Fault} : node.ref? = none →
      (ctx.dialect.hasInlineTypes = true → ¬ TypedByKeywords node) → UntypedFlaw ctx node f →
      Flaw ctx node f

theorem failsBy_ofSchemaOrType (ctx : Context) (node : Node) :
    FailsBy (ofSchemaOrType ctx node (draft ctx.dialect node)) (UntypedFlaw ctx node) := by
  simp only [ofSchemaOrType]
  split_ifs with hschema htype
  · have htarget : FailsBy (schemaTarget ctx (node.field "schema"))
        (Node.DanglesAmong ctx.dialect.parameterMark ctx.document (node.field "schema")) :=
      Node.failsBy_targetAmong _ _ _
    refine (htarget.bindAt fun target _ => failsBy_ofSchema ctx target _).congr fun f => ?_
    constructor
    · rintro (hf | ⟨target, htarget, hf⟩)
      · exact .dangles hschema hf
      · exact .schema hschema htarget hf
    · intro hf
      cases hf with
      | dangles _ hf => exact .inl hf
      | schema _ htarget hf => exact .inr ⟨_, htarget, hf⟩
      | refused hfalse _ => rw [hschema] at hfalse; cases hfalse
  all_goals
    have hfalse : (node.field "schema").isMap = false := by simpa using hschema
    have hown (f : Fault) : RefusedItself ctx.dialect node f ↔ UntypedFlaw ctx node f := by
      refine ⟨.refused hfalse, fun hf => ?_⟩
      cases hf with
      | dangles htrue _ => exact absurd htrue hschema
      | schema htrue _ _ => exact absurd htrue hschema
      | refused _ hf => exact hf
  · exact (failsBy_typed _ _ _ _).congr hown
  · exact (failsBy_settle _).congr hown

/-- What the keywords do not give is looked for elsewhere. -/
theorem failsBy_ofKeywordsOrElse (h : ctx.dialect.hasInlineTypes = true) (node : Node) :
    FailsBy (ofKeywords? ctx node (draft ctx.dialect node) >>= fun o =>
        match o with
        | some parameter => pure parameter
        | none => ofSchemaOrType ctx node (draft ctx.dialect node))
      fun f => ((KeywordFlaw node ∧ f = .malformed) ∨
        TypedByKeywords node ∧ RefusedItself ctx.dialect node f) ∨
          ¬ TypedByKeywords node ∧ UntypedFlaw ctx node f := by
  refine (failsBy_ofKeywords h node _).bind fun o ho => ?_
  rw [← isSome_ofKeywords h ho]
  cases o with
  | some q => exact (FailsBy.pure q).congr fun f => by simp
  | none => exact (failsBy_ofSchemaOrType ctx node).congr fun f => by simp

/-- Building a parameter fails exactly by the flaws of its object. -/
theorem failsBy_ofNode (ctx : Context) (node : Node) :
    FailsBy (ofNode ctx node) (Flaw ctx node) := by
  unfold ofNode
  refine .guarded (fun hobject => .object (by simpa using hobject)) fun hobject => ?_
  have hmap : node.isMap ≠ false := by simpa using hobject
  cases href : node.ref? with
  | some ref =>
    refine (failsBy_settle _).congr fun f => ⟨.reference href, fun hf => ?_⟩
    cases hf with
    | object hfalse => exact absurd hfalse hmap
    | reference _ hf => exact hf
    | keywords hnone _ _ => cases href.symm.trans hnone
    | typed hnone _ _ _ => cases href.symm.trans hnone
    | untyped hnone _ _ => cases href.symm.trans hnone
  | none =>
    dsimp only
    split_ifs with hinline
    · refine (failsBy_ofKeywordsOrElse hinline node).congr fun f => ⟨?_, fun hf => ?_⟩
      · rintro ((⟨hflaw, rfl⟩ | ⟨htyped, hf⟩) | ⟨hnot, hf⟩)
        · exact .keywords href hinline hflaw
        · exact .typed href hinline htyped hf
        · exact .untyped href (fun _ => hnot) hf
      · cases hf with
        | object hfalse => exact absurd hfalse hmap
        | reference hsome _ => cases href.symm.trans hsome
        | keywords _ _ hflaw => exact .inl (.inl ⟨hflaw, rfl⟩)
        | typed _ _ htyped hf => exact .inl (.inr ⟨htyped, hf⟩)
        | untyped _ hnot hf => exact .inr ⟨hnot hinline, hf⟩
    · refine (failsBy_ofSchemaOrType ctx node).congr fun f => ⟨fun hf => ?_, fun hf => ?_⟩
      · exact .untyped href (fun h => absurd h hinline) hf
      · cases hf with
        | object hfalse => exact absurd hfalse hmap
        | reference hsome _ => cases href.symm.trans hsome
        | keywords _ h _ => exact absurd h hinline
        | typed _ h _ _ => exact absurd h hinline
        | untyped _ _ hf => exact hf

/-! ### From the body of a request -/

/-- Something is wrong with the body of a request. -/
inductive BodyFlaw (ctx : Context) (node : Node) : Fault → Prop
  | object : node.isMap = false → BodyFlaw ctx node .malformed
  | content : Content.Unchoosable (node.field "content") → BodyFlaw ctx node .malformed
  | refused {f : Fault} : (Content.choose (node.field "content")).outcome = .ok none →
      RefusedWith (descriptionComplaints (node.field "description").orNull) [] f →
      BodyFlaw ctx node f
  | schema {mediaType : String} {schema : Node} {f : Fault} :
      (Content.choose (node.field "content")).outcome = .ok (some (mediaType, schema)) →
      SchemaFlaw ctx (descriptionComplaints (node.field "description").orNull) [] schema f →
      BodyFlaw ctx node f

theorem placeComplaints_label (place : ParameterPlace) :
    placeComplaints (.text place.label) = 0 := by
  have hplace : ParameterPlace.ofNode? (.text place.label) = some place :=
    place.ofLabel?_label
  rw [placeComplaints, hplace]
  rfl

/-- Building the body of a request fails exactly by its flaws. -/
theorem failsBy_ofRequestBody (ctx : Context) (node : Node) :
    FailsBy (ofRequestBody ctx node) (BodyFlaw ctx node) := by
  unfold ofRequestBody
  refine .guarded (fun hobject => .object (by simpa using hobject)) fun hobject => ?_
  have hmap : node.isMap ≠ false := by simpa using hobject
  refine ((Content.failsBy_choose _).bindAt (H := fun content => content.elim
    (RefusedWith (descriptionComplaints (node.field "description").orNull) [])
    fun e => SchemaFlaw ctx (descriptionComplaints (node.field "description").orNull) [] e.2)
    fun content _ => ?_).congr fun f => ⟨?_, fun hf => ?_⟩
  · -- A body has a place, so there are no complaints about that.
    have hother {p : Draft} {place : ParameterPlace}
        (hp : p.description = (node.field "description").orNull)
        (hplace : p.location = .text place.label) :
        p.otherComplaints = descriptionComplaints (node.field "description").orNull := by
      rw [Draft.otherComplaints, hp, hplace, placeComplaints_label, Nat.add_zero]
    have hschema (p : Draft) (place : ParameterPlace)
        (hp : p.description = (node.field "description").orNull)
        (hplace : p.location = .text place.label) (schema : Node) :
        FailsBy (ofSchema ctx schema p) (SchemaFlaw ctx
          (descriptionComplaints (node.field "description").orNull) p.constraints schema) :=
      hother hp hplace ▸ failsBy_ofSchema ctx schema p
    rcases content with _ | ⟨mediaType, schema⟩
    · refine (failsBy_settle _).congr fun f => iff_of_eq ?_
      rw [hother rfl rfl, Option.elim_none]
    · dsimp only
      split_ifs
      · exact hschema _ .form rfl rfl schema
      · exact hschema _ .body rfl rfl schema
  · rintro (⟨hcontent, rfl⟩ | ⟨content, hchoice, hf⟩)
    · exact .content hcontent
    · rcases content with _ | ⟨mediaType, schema⟩
      · exact .refused hchoice hf
      · exact .schema hchoice hf
  · cases hf with
    | object hfalse => exact absurd hfalse hmap
    | content hcontent => exact .inl ⟨hcontent, rfl⟩
    | refused hchoice hf => exact .inr ⟨none, hchoice, hf⟩
    | schema hchoice hf => exact .inr ⟨some (_, _), hchoice, hf⟩

end Parameter

/-! ## Lists of parameters -/

namespace Parameters

/-- Something is wrong with an entry of a list of parameters. -/
inductive EntryFlaw (ctx : Context) (node : Node) : Fault → Prop
  | dangles {f : Fault} : Node.Dangles ctx.document node f → EntryFlaw ctx node f
  | parameter {definition : Node} {f : Fault} :
      (Node.target ctx.document node).outcome = .ok definition → isParameter definition = true →
      Parameter.Flaw ctx definition f → EntryFlaw ctx node f

theorem failsBy_entry (ctx : Context) (node : Node) :
    FailsBy (entry ctx node) (EntryFlaw ctx node) := by
  refine ((Node.failsBy_target ctx.document node).bindAt (H := fun definition f =>
    isParameter definition = true ∧ Parameter.Flaw ctx definition f)
    fun definition _ => ?_).congr fun f => ⟨?_, fun hf => ?_⟩
  · have hnone {a : Option Parameter} (hnot : isParameter definition = false) :
        FailsBy (pure a) fun f => isParameter definition = true ∧ Parameter.Flaw ctx definition f :=
      (FailsBy.pure a).congr fun f => by simp [hnot]
    split_ifs with hmap
    · exact hnone (by simp_all [isParameter])
    dsimp only
    split_ifs with hversion hplace
    · exact (FailsBy.note _).after fun _ _ => hnone (by simp [isParameter, hversion])
    · exact (FailsBy.note _).after fun _ _ => hnone (by simp_all [isParameter])
    · have hparameter : isParameter definition = true := by
        simp_all [isParameter, Option.ne_none_iff_isSome]
      exact ((Parameter.failsBy_ofNode ctx definition).before fun _ _ => .pure _).congr
        fun f => by simp [hparameter]
  · rintro (hf | ⟨definition, hdefinition, hparameter, hf⟩)
    · exact .dangles hf
    · exact .parameter hdefinition hparameter hf
  · cases hf with
    | dangles hf => exact .inl hf
    | parameter hdefinition hparameter hf => exact .inr ⟨_, hdefinition, hparameter, hf⟩

/-- Something is wrong with a list of parameters. -/
inductive Flaw (ctx : Context) (node : Node) : Fault → Prop
  | unlistable : node.Unlistable → Flaw ctx node .malformed
  | entry {e : Node} {f : Fault} : e ∈ entries node → EntryFlaw ctx e f → Flaw ctx node f

/-- Building a list of parameters fails exactly by its flaws. -/
theorem failsBy_ofNode (ctx : Context) (node : Node) :
    FailsBy (ofNode ctx node) (Flaw ctx node) := by
  unfold ofNode
  split_ifs with htruthy
  · refine ((FailsBy.ofOption _ _).bindAt (H := fun members f =>
      ∃ e ∈ members, EntryFlaw ctx e f) fun members _ =>
        (FailsBy.mapM fun e _ => failsBy_entry ctx e).before fun _ _ => .pure _).congr
      fun f => ⟨?_, fun hf => ?_⟩
    · rintro (⟨hnone, rfl⟩ | ⟨members, hmembers, e, he, hf⟩)
      · exact .unlistable ⟨htruthy, hnone⟩
      · refine .entry ?_ hf
        rwa [entries, if_pos htruthy, ofOption_eq_ok.1 hmembers]
    · cases hf with
      | unlistable h => exact .inl ⟨h.2, rfl⟩
      | @entry e f he hf =>
        rw [entries, if_pos htruthy] at he
        cases hmembers : node.members? with
        | none => rw [hmembers] at he; cases he
        | some members =>
          rw [hmembers] at he
          exact .inr ⟨members, rfl, e, he, hf⟩
  · refine (FailsBy.pure _).congr fun f => iff_of_false id fun hf => ?_
    cases hf with
    | unlistable h => exact htruthy h.1
    | entry he _ =>
      rw [entries, if_neg htruthy] at he
      cases he

end Parameters

/-! ## Responses -/

namespace Response

variable {ctx : Context} {node : Node} {f : Fault}

theorem failsBy_settle (r : Draft) :
    FailsBy r.settle
      (Refused "OperationResponse" (r.complaints + nameComplaints r.headerName)) :=
  (failsBy_refuse _ _).before fun _ _ => .pure _

/-- A response of which nothing is known but its code and its description. -/
def bare (node : Node) (code : Int) : Draft :=
  { code, description := (node.field "description").orNull }

/-- A response that says nothing but its description, with so many complaints besides, is
refused. -/
def RefusedWith (node : Node) (n : Nat) : Fault → Prop :=
  Refused "OperationResponse" (descriptionComplaints (node.field "description").orNull + n)

/-- Something is wrong with the schema of the body of a response. -/
inductive SchemaFlaw (ctx : Context) (node schema : Node) : Fault → Prop
  /-- The schema refers to another response, and there is none. -/
  | dangles {f : Fault} : Node.DanglesAmong ctx.dialect.responseMark ctx.document schema f →
      SchemaFlaw ctx node schema f
  | object {target : Node} : (schemaTarget ctx schema).outcome = .ok target →
      target.isMap = false → SchemaFlaw ctx node schema .malformed
  | reference {target : Node} {ref : String} {f : Fault} :
      (schemaTarget ctx schema).outcome = .ok target → target.ref? = some ref →
      RefusedWith node 0 f → SchemaFlaw ctx node schema f
  | model {target : Node} {f : Fault} : (schemaTarget ctx schema).outcome = .ok target →
      target.isMap = true → target.ref? = none → Schema.Flaw ctx "" target f →
      SchemaFlaw ctx node schema f
  | refused {target : Node} {f : Fault} : (schemaTarget ctx schema).outcome = .ok target →
      target.isMap = true → target.ref? = none →
      RefusedWith node (Constraints.ofSchema target).complaints f → SchemaFlaw ctx node schema f

theorem failsBy_ofSchema (ctx : Context) (node schema : Node) (code : Int) :
    FailsBy (ofSchema ctx schema (bare node code)) (SchemaFlaw ctx node schema) := by
  have htarget : FailsBy (schemaTarget ctx schema)
      (Node.DanglesAmong ctx.dialect.responseMark ctx.document schema) :=
    Node.failsBy_targetAmong _ _ _
  refine (htarget.bindAt (H := fun target f =>
    (target.isMap = false ∧ f = .malformed) ∨
      ((∃ ref, target.ref? = some ref) ∧ RefusedWith node 0 f) ∨
      (target.isMap = true ∧ target.ref? = none) ∧
        (Schema.Flaw ctx "" target f ∨
          RefusedWith node (Constraints.ofSchema target).complaints f))
    fun target _ => ?_).congr fun f => ⟨?_, fun hf => ?_⟩
  · refine .guarded (fun hobject => .inl ⟨by simpa using hobject, rfl⟩) fun hobject => ?_
    have hmap : target.isMap = true := by simpa using hobject
    cases href : target.ref? with
    | some ref =>
      have hrefused : FailsBy (reference ctx.dialect ref (bare node code)) (RefusedWith node 0) :=
        failsBy_settle _
      exact hrefused.congr fun f => by simp [hmap]
    | none =>
      have hsettle (m : Model) : FailsBy ((bare node code).ofModel target m).settle
          (RefusedWith node (Constraints.ofSchema target).complaints) := failsBy_settle _
      exact ((Schema.failsBy_model ctx target false "").bind fun m _ => hsettle m).congr
        fun f => by simp [hmap]
  · rintro (hf | ⟨target, htarget, ⟨hobject, rfl⟩ | ⟨⟨ref, href⟩, hf⟩ | ⟨⟨hmap, href⟩, hf | hf⟩⟩)
    · exact .dangles hf
    · exact .object htarget hobject
    · exact .reference htarget href hf
    · exact .model htarget hmap href hf
    · exact .refused htarget hmap href hf
  · cases hf with
    | dangles hf => exact .inl hf
    | object htarget hobject => exact .inr ⟨_, htarget, .inl ⟨hobject, rfl⟩⟩
    | reference htarget href hf => exact .inr ⟨_, htarget, .inr (.inl ⟨⟨_, href⟩, hf⟩)⟩
    | model htarget hmap href hf => exact .inr ⟨_, htarget, .inr (.inr ⟨⟨hmap, href⟩, .inl hf⟩)⟩
    | refused htarget hmap href hf =>
      exact .inr ⟨_, htarget, .inr (.inr ⟨⟨hmap, href⟩, .inr hf⟩)⟩

/-- The complaints about the name of the first header. -/
def headerComplaints : Node → Nat
  | .map ((name, _) :: _) => nameComplaints (.scalar name)
  | _ => 0

theorem failsBy_ofHeaders (headers node : Node) (code : Int) :
    FailsBy (ofHeaders headers (bare node code)) (RefusedWith node (headerComplaints headers)) := by
  cases headers with
  | map entries =>
    cases entries with
    | nil => exact failsBy_settle _
    | cons e rest => exact failsBy_settle _
  | _ => exact failsBy_settle _

theorem failsBy_bodySchema (d : Dialect) (node : Node) :
    FailsBy (bodySchema? d node) fun f =>
      (d.negotiatesContent = true ∧ Content.Unchoosable (node.field "content")) ∧
        f = .malformed := by
  unfold bodySchema?
  split_ifs with hcontent
  · exact ((Content.failsBy_choose _).before fun _ _ => .pure _).congr fun f => by simp [hcontent]
  · exact (FailsBy.pure _).congr fun f => by simp [hcontent]

/-- Something is wrong with a response object. -/
inductive Flaw (ctx : Context) (node : Node) : Fault → Prop
  | content : ctx.dialect.negotiatesContent = true →
      Content.Unchoosable (node.field "content") → Flaw ctx node .malformed
  | schema {schema : Node} {f : Fault} :
      (bodySchema? ctx.dialect node).outcome = .ok (some schema) →
      SchemaFlaw ctx node schema f → Flaw ctx node f
  | headers {f : Fault} : (bodySchema? ctx.dialect node).outcome = .ok none →
      RefusedWith node (headerComplaints (node.field "headers")) f → Flaw ctx node f

/-- Building a response fails exactly by the flaws of its object. -/
theorem failsBy_ofNode (ctx : Context) (node : Node) (code : Int) :
    FailsBy (ofNode ctx node code) (Flaw ctx node) := by
  refine ((failsBy_bodySchema ctx.dialect node).bindAt (H := fun body => body.elim
    (RefusedWith node (headerComplaints (node.field "headers"))) (SchemaFlaw ctx node))
    fun body _ => ?_).congr fun f => ⟨?_, fun hf => ?_⟩
  · cases body with
    | some schema => exact failsBy_ofSchema ctx node schema code
    | none => exact failsBy_ofHeaders (node.field "headers") node code
  · rintro (⟨⟨hcontent, hflaw⟩, rfl⟩ | ⟨body, hbody, hf⟩)
    · exact .content hcontent hflaw
    · cases body with
      | some schema => exact .schema hbody hf
      | none => exact .headers hbody hf
  · cases hf with
    | content hcontent hflaw => exact .inl ⟨⟨hcontent, hflaw⟩, rfl⟩
    | schema hbody hf => exact .inr ⟨some _, hbody, hf⟩
    | headers hbody hf => exact .inr ⟨none, hbody, hf⟩

/-! ## Lists of responses -/

/-- A key is a number that cannot be read. -/
def UnreadableCode (key : String) : Prop :=
  key ≠ "default" ∧ isWholeNumber (Text.trim key.toList) = true ∧
    Decimal.readInt? (Text.trimSpacing key.toList) = none

theorem failsBy_code (key : String) :
    FailsBy (code? key) fun f => UnreadableCode key ∧ f = .malformed := by
  unfold code? UnreadableCode
  split_ifs with hdefault hnumber
  · exact (FailsBy.pure _).congr fun f => by simp [hdefault]
  · exact ((FailsBy.ofOption _ _).before fun _ _ => .pure _).congr fun f => by
      simp [hdefault, hnumber]
  · exact (FailsBy.pure _).congr fun f => by simp [hnumber]

/-- Something is wrong with an entry of the responses of an operation. -/
inductive EntryFlaw (ctx : Context) (e : Scalar × Node) : Fault → Prop
  | code : UnreadableCode e.1.display → EntryFlaw ctx e .malformed
  | dangles {code : Int} {f : Fault} : (code? e.1.display).outcome = .ok (some code) →
      Node.Dangles ctx.document e.2 f → EntryFlaw ctx e f
  | response {code : Int} {node : Node} {f : Fault} :
      (code? e.1.display).outcome = .ok (some code) →
      (Node.target ctx.document e.2).outcome = .ok node → Flaw ctx node.asMap f → EntryFlaw ctx e f

theorem failsBy_entry (ctx : Context) (e : Scalar × Node) :
    FailsBy (entry ctx e) (EntryFlaw ctx e) := by
  refine ((failsBy_code _).bindAt (H := fun code f => code.isSome = true ∧
    (Node.Dangles ctx.document e.2 f ∨ ∃ node,
      (Node.target ctx.document e.2).outcome = .ok node ∧ Flaw ctx node.asMap f))
    fun code _ => ?_).congr fun f => ⟨?_, fun hf => ?_⟩
  · cases code with
    | none => exact ((FailsBy.note _).after fun _ _ => .pure _).congr fun f => by simp
    | some code =>
      exact ((Node.failsBy_target ctx.document e.2).bindAt fun node _ =>
        (failsBy_ofNode ctx node.asMap code).before fun _ _ => .pure _).congr fun f => by simp
  · rintro (⟨hcode, rfl⟩ | ⟨code, hcode, hsome, hf⟩)
    · exact .code hcode
    · obtain ⟨code, rfl⟩ := Option.isSome_iff_exists.1 hsome
      rcases hf with hf | ⟨node, hnode, hf⟩
      · exact .dangles hcode hf
      · exact .response hcode hnode hf
  · cases hf with
    | code hcode => exact .inl ⟨hcode, rfl⟩
    | dangles hcode hf => exact .inr ⟨_, hcode, rfl, .inl hf⟩
    | response hcode hnode hf => exact .inr ⟨_, hcode, rfl, .inr ⟨_, hnode, hf⟩⟩

theorem failsBy_ofNodes (ctx : Context) (responses : Node) :
    FailsBy (ofNodes ctx responses) fun f =>
      ∃ e ∈ responses.entries?.getD [], EntryFlaw ctx e f := by
  unfold ofNodes
  split
  · exact (FailsBy.mapM fun e _ => failsBy_entry ctx e).before fun _ _ => .pure _
  · rename_i hmap
    refine (FailsBy.pure _).congr fun f => iff_of_false id ?_
    cases responses with
    | map entries => exact absurd rfl (hmap entries)
    | _ => rintro ⟨e, he, -⟩; cases he

end Response

end ApiModel
