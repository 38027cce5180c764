import ApiModel.Proofs.Schema.Recursion

/-!
# Members of compositions

A composition leaves out members that are bare objects, and members whose models add nothing as
far as their types, properties and enumerations show. Which members these are is said here of the
members themselves: `Dropped`.

**Theorem (`isEmptyMember_iff_hollow`).** The model of a schema is taken to add nothing exactly if
the schema is `Hollow`.

**Theorem (`properties_of_composition`).** The properties of a composition begin with the models
of its members, in order, without those that are dropped. Only members that say nothing are left
out exactly if no member is dropped that says something.

A dropped member can say much. An object of which a combination is said passes for a bare one,
since combinations are not among the keywords that are asked for, and what it combines is lost. And
an array shows the type of its elements and nothing else of them, so an array of objects is hollow,
while a dictionary of objects is not.
-/

namespace ApiModel

namespace Schema

open Report

/-! ## What a schema says -/

/-- A schema that stands in another one, in one of the ways in which schemas are nested. -/
inductive Part (d : Dialect) (s : Node) : Node → Prop
  | items {t : Node} : s.field "items" = t → t.truthy = true → Part d s t
  | further {entries : List (Scalar × Node)} :
      s.field "additionalProperties" = .map entries → Part d s (.map entries)
  | property {entries : List (Scalar × Node)} {key : Scalar} {t : Node} :
      s.field "properties" = .map entries → (key, t) ∈ entries → Part d s t
  | member {keyword : String} {kind : ModelKind} {members : List Node} {t : Node} :
      (keyword, kind) ∈ d.combinations → s.field keyword = .list members → t ∈ members →
      Part d s t

/-- A schema says something if it, or a schema that stands in it, is a reference, declares a
property, lists values, or has another type than that of an object. -/
inductive Speaks (d : Dialect) : Node → Prop
  | reference {s : Node} {ref : String} : s.ref? = some ref → Speaks d s
  | property {s : Node} : declarations s ≠ [] → Speaks d s
  | enumeration {s : Node} : (s.field "enum").truthy = true → Speaks d s
  | type {s : Node} : (s.field "type").truthy = true → (s.field "type").isText "object" = false →
      Speaks d s
  | part {s t : Node} : Part d s t → Speaks d t → Speaks d s

/-! ## Schemas without a type of their own -/

mutual

/-- A schema whose model is of any type. -/
inductive Untyped (ctx : Context) : Node → Prop
  | rule {s : Node} {r : Rule} : (rule ctx s.asMap).outcome = .ok r → UntypedBy ctx s.asMap r →
      Untyped ctx s

/-- A rule that makes a model of any type of the schema. -/
inductive UntypedBy (ctx : Context) : Node → Rule → Prop
  | reference {s : Node} {ref : String} : (TypeExpr.ofRef ctx.dialect ref).type = "any" →
      UntypedBy ctx s (.reference ref)
  | referenceContainer {s e : Node} {kind : ModelKind} {ref : String} : e.ref? = some ref →
      (TypeExpr.ofRef ctx.dialect ref).type = "any" → UntypedBy ctx s (.container kind e)
  | container {s e : Node} {kind : ModelKind} : e.ref? = none → Untyped ctx e.asMap →
      UntypedBy ctx s (.container kind e)
  | composition {s : Node} {kind : ModelKind} {members : List Node} :
      UntypedBy ctx s (.composition kind members)
  | interface {s : Node} : UntypedBy ctx s .interface
  | named {s type : Node} :
      (TypeExpr.ofNode ctx.dialect type (s.field "format")).type = "any" →
      UntypedBy ctx s (.named type)
  | anything {s : Node} : UntypedBy ctx s .anything

end

variable {ctx : Context} {name : String} {s : Node} {r : Rule} {m : Model} {isDefinition : Bool}

theorem untyped_iff (hr : (rule ctx s.asMap).outcome = .ok r) :
    Untyped ctx s ↔ UntypedBy ctx s.asMap r := by
  refine ⟨fun h => ?_, .rule hr⟩
  obtain ⟨hr', h⟩ := h
  obtain rfl := Except.ok.inj (hr'.symm.trans hr)
  exact h

/-- A rule makes a model of any type as `UntypedBy` says, if its element does. -/
theorem type_of_made (hregular : r.Regular) (hmade : Made (inner ctx) ctx name s r m)
    (helement : ∀ e : Node, ∀ l, (inner ctx e.asMap).outcome = .ok l →
      (∃ kind, r = .container kind e) → e.ref? = none → (l.type = "any" ↔ Untyped ctx e.asMap)) :
    m.type = "any" ↔ UntypedBy ctx s r := by
  cases hmade with
  | reference hcore =>
    rw [type_of_core hcore]
    exact ⟨.reference, fun h => by cases h; assumption⟩
  | @enumeration type members m hcore =>
    rw [type_of_core hcore]
    refine iff_of_false (fun h : type = "any" => ?_) (fun h => by cases h)
    subst h
    rcases hregular with h | h <;> simp at h
  | @referenceContainer kind e ref m href hcore =>
    rw [type_of_core hcore]
    refine ⟨.referenceContainer href, fun h => ?_⟩
    cases h with
    | referenceContainer href' htype =>
      obtain rfl := Option.some.inj (href'.symm.trans href)
      exact htype
    | container href' _ => rw [href] at href'; cases href'
  | @container kind e link m href hlink hcore =>
    rw [type_of_core hcore]
    refine (helement e link hlink ⟨kind, rfl⟩ href).trans ⟨.container href, fun h => ?_⟩
    cases h with
    | referenceContainer href' _ => rw [href] at href'; cases href'
    | container _ h => exact h
  | composition _ _ _ hcore => exact iff_of_true (type_of_core hcore) .composition
  | interface _ hcore => exact iff_of_true (type_of_core hcore) .interface
  | named hcore =>
    rw [type_of_core hcore]
    exact ⟨.named, fun h => by cases h; assumption⟩
  | anything hcore => exact iff_of_true (type_of_core hcore) .anything

/-- The model of a schema is of any type exactly if the schema is untyped. -/
theorem type_eq_any_iff (h : (model ctx s isDefinition name).outcome = .ok m) :
    m.type = "any" ↔ Untyped ctx s := by
  refine made_induction (R := fun s m => m.type = "any" ↔ Untyped ctx s) ?_ h
  intro name s r m hr hmade hvisited
  rw [untyped_iff hr]
  refine type_of_made (regular_rule hr) hmade ?_
  rintro e l hl ⟨kind, rfl⟩ href
  exact hvisited _ (.element hr href) l hl

/-! ## Schemas that are taken to add nothing -/

mutual

/-- A schema whose model is taken to add nothing to a composition. -/
inductive Hollow (ctx : Context) : Node → Prop
  | rule {s : Node} {r : Rule} : (rule ctx s.asMap).outcome = .ok r → HollowBy ctx s.asMap r →
      Hollow ctx s

/-- A rule that makes a model of the schema that is taken to add nothing. -/
inductive HollowBy (ctx : Context) : Node → Rule → Prop
  | reference {s : Node} {ref : String} : UntypedBy ctx s (.reference ref) →
      HollowBy ctx s (.reference ref)
  | array {s e : Node} : UntypedBy ctx s (.container .array e) →
      HollowBy ctx s (.container .array e)
  | composition {s : Node} {kind : ModelKind} {members : List Node} :
      (∀ t ∈ members, isBareObject t = false → Hollow ctx t) →
      (promoted (inner ctx) ctx s members).outcome = .ok [] → declarations s = [] →
      HollowBy ctx s (.composition kind members)
  | interface {s : Node} : declarations s = [] → HollowBy ctx s .interface
  | named {s type : Node} : UntypedBy ctx s (.named type) → HollowBy ctx s (.named type)
  | anything {s : Node} : HollowBy ctx s .anything

end

theorem hollow_iff (hr : (rule ctx s.asMap).outcome = .ok r) :
    Hollow ctx s ↔ HollowBy ctx s.asMap r := by
  refine ⟨fun h => ?_, .rule hr⟩
  obtain ⟨hr', h⟩ := h
  obtain rfl := Except.ok.inj (hr'.symm.trans hr)
  exact h

theorem isEmptyMember_iff {m : Model} :
    isEmptyMember m = true ↔
      m.kind ≠ .dictionary ∧ m.type = "any" ∧ m.properties = [] ∧ m.enums = [] := by
  simp [isEmptyMember, and_assoc]

section Empty

variable {build : Builder} {own : List Model} {members : List Node} {options : List (Option Model)}
  {kind : ModelKind} {label : String} {P : Node → Prop}

theorem properties_eq_nil_iff (h : (properties build ctx s name).outcome = .ok own) :
    own = [] ↔ declarations s = [] := by
  rw [← List.length_eq_zero_iff, ← (properties_eq_ok.1 h).length_eq, List.length_eq_zero_iff]

theorem ownProperties_eq_nil_iff (h : (ownProperties build ctx s name).outcome = .ok own) :
    own = [] ↔ declarations s = [] :=
  properties_eq_nil_iff (properties_of_ownProperties h)

/-- No member is kept exactly if all are bare or taken to add nothing. -/
theorem kept_eq_nil_iff
    (hoptions : (members.mapM (member build kind label)).outcome = .ok options)
    (hP : ∀ t ∈ members, isBareObject t = false → ∀ k, (build t).outcome = .ok k →
      (isEmptyMember k = true ↔ P t)) :
    options.reduceOption = [] ↔ ∀ t ∈ members, isBareObject t = false → P t := by
  constructor
  · intro hnil t ht hbare
    obtain ⟨o, ho, hmember⟩ := exists_mem_of_mapM hoptions ht
    have hnone : o = none := List.filterMap_eq_nil_iff.1 hnil o ho
    obtain ⟨hbare', -⟩ | ⟨-, k, hk, ⟨hempty, -⟩ | ⟨-, hsome⟩⟩ := member_eq_ok hmember
    · rw [hbare] at hbare'
      cases hbare'
    · exact (hP t ht hbare k hk).1 hempty
    · cases hnone.symm.trans hsome
  · intro hall
    rw [List.eq_nil_iff_forall_not_mem]
    intro k hk
    obtain ⟨t, ht, hbare, hbuilt, hempty⟩ := mem_kept hoptions hk
    rw [(hP t ht hbare k hbuilt).2 (hall t ht hbare)] at hempty
    cases hempty

end Empty

theorem gathered_eq_nil_iff {properties : List Model} :
    gathered properties = [] ↔ properties = [] := by
  cases properties <;> simp [gathered]

theorem hollowBy_container_iff {kind : ModelKind} {e : Node}
    (hregular : (Rule.container kind e).Regular) :
    HollowBy ctx s (.container kind e) ↔
      kind ≠ .dictionary ∧ UntypedBy ctx s (.container kind e) := by
  rcases hregular with rfl | rfl
  · refine ⟨fun h => ?_, fun h => .array h.2⟩
    cases h with
    | array huntyped => exact ⟨by simp, huntyped⟩
  · exact iff_of_false (fun h => nomatch h) (fun h => h.1 rfl)

/-- A rule makes a model that is taken to add nothing as `HollowBy` says, if its members do. -/
theorem isEmptyMember_of_made (hregular : r.Regular) (hmade : Made (inner ctx) ctx name s r m)
    (hmember : ∀ t : Node, ∀ k, (inner ctx t).outcome = .ok k →
      (∃ kind members, r = .composition kind members ∧ t ∈ members) → isBareObject t = false →
        (isEmptyMember k = true ↔ Hollow ctx t)) :
    isEmptyMember m = true ↔ HollowBy ctx s r := by
  have htype : m.type = "any" ↔ UntypedBy ctx s r :=
    type_of_made hregular hmade fun e l hl _ _ => type_eq_any_iff hl
  have hplain {l : Model} (hcore : m.core = l) (hproperties : l.properties = [])
      (henums : l.enums = []) :
      isEmptyMember m = true ↔ l.kind ≠ .dictionary ∧ UntypedBy ctx s r := by
    rw [isEmptyMember_iff, htype, kind_of_core hcore, properties_of_core hcore,
      enums_of_core hcore, hproperties, henums]
    simp
  cases hmade with
  | reference hcore =>
    refine (hplain hcore rfl rfl).trans ⟨fun h => .reference h.2, fun h => ?_⟩
    cases h with
    | reference huntyped => exact ⟨by simp, huntyped⟩
  | enumeration hcore =>
    exact (hplain hcore rfl rfl).trans (iff_of_false (fun h => nomatch h.2) fun h => nomatch h)
  | referenceContainer href hcore =>
    exact (hplain hcore rfl rfl).trans (hollowBy_container_iff hregular).symm
  | container href hlink hcore =>
    exact (hplain hcore rfl rfl).trans (hollowBy_container_iff hregular).symm
  | @composition kind members options lifted own m hoptions hlifted hown hcore =>
    have hkept := kept_eq_nil_iff (P := Hollow ctx) hoptions fun t ht hbare k hk =>
      hmember t k hk ⟨kind, members, rfl, ht⟩ hbare
    have hkind : kind ≠ .dictionary := by rcases hregular with rfl | rfl | rfl <;> simp
    rw [isEmptyMember_iff, htype, kind_of_core hcore, properties_of_core hcore,
      enums_of_core hcore]
    constructor
    · rintro ⟨-, -, hproperties, -⟩
      obtain ⟨hnil, hgathered⟩ := List.append_eq_nil_iff.1 hproperties
      obtain ⟨rfl, rfl⟩ := List.append_eq_nil_iff.1 (gathered_eq_nil_iff.1 hgathered)
      exact .composition (hkept.1 hnil) hlifted ((ownProperties_eq_nil_iff hown).1 rfl)
    · intro h
      cases h with
      | composition hall hnothing hdeclares =>
        obtain rfl : [] = lifted := Except.ok.inj (hnothing.symm.trans hlifted)
        obtain rfl := (ownProperties_eq_nil_iff hown).2 hdeclares
        exact ⟨hkind, .composition, by simp [hkept.2 hall, gathered],
          by simp [hkept.2 hall, nestedEnums, enumsOf]⟩
  | @interface own m hown hcore =>
    rw [isEmptyMember_iff, htype, kind_of_core hcore, properties_of_core hcore,
      enums_of_core hcore]
    refine ⟨fun h => .interface ((properties_eq_nil_iff hown).1 h.2.2.1), fun h => ?_⟩
    cases h with
    | interface hdeclares =>
      obtain rfl := (properties_eq_nil_iff hown).2 hdeclares
      exact ⟨by simp, .interface, rfl, rfl⟩
  | named hcore =>
    refine (hplain hcore rfl rfl).trans ⟨fun h => .named h.2, fun h => ?_⟩
    cases h with
    | named huntyped => exact ⟨by simp, huntyped⟩
  | anything hcore =>
    exact (hplain hcore rfl rfl).trans (iff_of_true ⟨by simp, .anything⟩ .anything)

/-- The model of a schema is taken to add nothing exactly if the schema is hollow. -/
theorem isEmptyMember_iff_hollow (h : (model ctx s isDefinition name).outcome = .ok m) :
    isEmptyMember m = true ↔ Hollow ctx s := by
  refine made_induction (R := fun s m => isEmptyMember m = true ↔ Hollow ctx s) ?_ h
  intro name s r m hr hmade hvisited
  rw [hollow_iff hr]
  refine isEmptyMember_of_made (regular_rule hr) hmade ?_
  rintro t k hk ⟨kind, members, rfl, ht⟩ hbare
  exact hvisited t (.member hr ht hbare) k hk

/-! ## The properties of a composition -/

/-- A member that a composition leaves out. -/
def Dropped (ctx : Context) (t : Node) : Prop := isBareObject t = true ∨ Hollow ctx t

/-- The models of the members, in order, without those of some members, all of them with `P`. -/
def LeavesOut (ctx : Context) (P : Node → Prop) : List Node → List (Option Model) → Prop :=
  List.Forall₂ fun t o => (o = none ∧ P t) ∨ ∃ k, o = some k ∧ (inner ctx t).outcome = .ok k

/-- The models of the members, in order, without those of the members with `P`. -/
def LeavesOutAll (ctx : Context) (P : Node → Prop) : List Node → List (Option Model) → Prop :=
  List.Forall₂ fun t o =>
    (o = none ∧ P t) ∨ (∃ k, o = some k ∧ (inner ctx t).outcome = .ok k) ∧ ¬ P t

theorem leavesOut_iff {P Q : Node → Prop} {members : List Node} {options : List (Option Model)}
    (h : LeavesOutAll ctx P members options) :
    LeavesOut ctx Q members options ↔ ∀ t ∈ members, P t → Q t := by
  refine forall₂_iff_of_forall₂ h fun t o hto => ?_
  obtain ⟨rfl, hP⟩ | ⟨⟨k, rfl, hk⟩, hP⟩ := hto
  · simp [hP]
  · simp [hP, hk]

/-- No model is left exactly if all members have `P`. -/
theorem reduceOption_eq_nil_iff {P : Node → Prop} {members : List Node}
    {options : List (Option Model)} (h : LeavesOutAll ctx P members options) :
    options.reduceOption = [] ↔ ∀ t ∈ members, P t := by
  induction h with
  | nil => simp
  | cons hto _ ih =>
    rw [List.forall_mem_cons, ← ih]
    obtain ⟨rfl, hP⟩ | ⟨⟨k, rfl, hk⟩, hP⟩ := hto
    · simp [hP]
    · simp [hP]

theorem leavesOutAll_of_members {members : List Node} {options : List (Option Model)}
    {kind : ModelKind} (h : (members.mapM (member (inner ctx) kind name)).outcome = .ok options) :
    LeavesOutAll ctx (Dropped ctx) members options := by
  refine (mapM_eq_ok.1 h).imp fun t o hmember => ?_
  obtain ⟨hbare, rfl⟩ | ⟨hbare, k, hk, ⟨hempty, rfl⟩ | ⟨hempty, rfl⟩⟩ := member_eq_ok hmember
  · exact .inl ⟨rfl, .inl hbare⟩
  · exact .inl ⟨rfl, .inr ((isEmptyMember_iff_hollow hk).1 hempty)⟩
  · refine .inr ⟨⟨k, rfl, hk⟩, ?_⟩
    rintro (hbare' | hhollow)
    · rw [hbare] at hbare'
      cases hbare'
    · rw [(isEmptyMember_iff_hollow hk).2 hhollow] at hempty
      cases hempty

/-- The properties of a composition begin with the models of its members, in order, without those
that are dropped. Only members that say nothing are left out exactly if no dropped member says
something. -/
theorem properties_of_composition {kind : ModelKind} {members : List Node}
    (h : (model ctx s isDefinition name).outcome = .ok m)
    (hr : (rule ctx s.asMap).outcome = .ok (.composition kind members)) :
    ∃ options lifted own,
      (promoted (inner ctx) ctx s.asMap members).outcome = .ok lifted ∧
      (ownProperties (inner ctx) ctx s.asMap name).outcome = .ok own ∧
      m.properties = options.reduceOption ++ gathered (lifted ++ own) ∧
      LeavesOutAll ctx (Dropped ctx) members options ∧
      (LeavesOut ctx (¬ Speaks ctx.dialect ·) members options ↔
        ∀ t ∈ members, Dropped ctx t → ¬ Speaks ctx.dialect t) := by
  obtain ⟨options, lifted, own, hoptions, hlifted, hown, hproperties⟩ := composition_of_model h hr
  have hall : LeavesOutAll ctx (Dropped ctx) members options := leavesOutAll_of_members hoptions
  exact ⟨options, lifted, own, hlifted, hown, hproperties, hall, leavesOut_iff hall⟩

/-- A document of the third version that says nothing by itself. -/
def blank : Context := { dialect := .v3, document := .record [] }

/-- An object that is a pet. -/
def asPet : Node :=
  .record [("type", .text "object"),
    ("allOf", .list [.record [("$ref", .text "#/components/schemas/Pet")]])]

theorem speaks_asPet : Speaks .v3 asPet := by
  have hpart : Part .v3 asPet (.record [("$ref", .text "#/components/schemas/Pet")]) :=
    .member (List.mem_cons_of_mem _ (List.mem_cons_of_mem _ List.mem_cons_self)) rfl
      List.mem_cons_self
  exact .part hpart (.reference rfl)

/-- A choice between a pet and a text. -/
def choice : List Node := [asPet, .record [("type", .text "string")]]

/-- Of the choice the text is left. -/
theorem properties_of_choice :
    ∃ m options lifted own,
      (model blank (.record [("oneOf", .list choice)]) false "").outcome = .ok m ∧
      m.properties.map (·.kind) = [.generic] ∧
      m.properties = options.reduceOption ++ gathered (lifted ++ own) ∧
      LeavesOutAll blank (Dropped blank) choice options ∧
      ¬ LeavesOut blank (¬ Speaks .v3 ·) choice options := by
  obtain ⟨m, hm, hkinds⟩ : ∃ m,
      (model blank (.record [("oneOf", .list choice)]) false "").outcome = .ok m ∧
      m.properties.map (·.kind) = [.generic] := ⟨_, rfl, rfl⟩
  have hr : (rule blank (Node.record [("oneOf", .list choice)]).asMap).outcome =
      .ok (.composition .oneOf choice) := rfl
  obtain ⟨options, lifted, own, -, -, hproperties, hall, hiff⟩ := properties_of_composition hm hr
  refine ⟨m, options, lifted, own, hm, hkinds, hproperties, hall, fun hleaves => ?_⟩
  exact hiff.1 hleaves asPet List.mem_cons_self (.inl rfl) speaks_asPet

/-- Not only members that say nothing are left out: an object that is a pet is. -/
theorem not_all_leavesOut_silent :
    ¬ ∀ (ctx : Context) (s : Node) (isDefinition : Bool) (name : String) (m : Model)
      (kind : ModelKind) (members : List Node),
      (model ctx s isDefinition name).outcome = .ok m →
      (rule ctx s.asMap).outcome = .ok (.composition kind members) →
      ∃ options lifted own,
        (promoted (inner ctx) ctx s.asMap members).outcome = .ok lifted ∧
        (ownProperties (inner ctx) ctx s.asMap name).outcome = .ok own ∧
        m.properties = options.reduceOption ++ gathered (lifted ++ own) ∧
        LeavesOut ctx (¬ Speaks ctx.dialect ·) members options := by
  intro hall
  obtain ⟨m, hm, hkinds⟩ : ∃ m,
      (model blank (.record [("oneOf", .list choice)]) false "").outcome = .ok m ∧
      m.properties.map (·.kind) = [.generic] := ⟨_, rfl, rfl⟩
  obtain ⟨options, lifted, own, -, -, hproperties, hleaves⟩ :=
    hall blank _ false "" m .oneOf choice hm rfl
  cases hleaves with
  | cons hpet _ =>
    rcases hpet with ⟨-, hsilent⟩ | ⟨k, rfl, hk⟩
    · exact hsilent speaks_asPet
    · -- The model of the pet would come first, but what comes first is the text.
      have hkind : (Model.kind <$> inner blank asPet).outcome = .ok .allOf := rfl
      obtain ⟨k', hk', hkind⟩ := map_eq_ok.1 hkind
      obtain rfl : k' = k := Except.ok.inj (hk'.symm.trans hk)
      rw [hproperties, List.reduceOption_cons_of_some, List.cons_append, List.map_cons,
        hkind] at hkinds
      cases hkinds

end Schema

end ApiModel
