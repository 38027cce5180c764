import ApiModel.Proofs.Schema.Common
import ApiModel.Proofs.Schema.Translation

/-!
# One model in both dialects

**Theorem (`model_translate`).** The model of a common schema is that of its translation: the same
work is done in both dialects, with the same notices, and it ends in the same model or the same
failure.

The proof is an induction on the budget (`modelWithin_translate`), and each level is a simulation:
the rule for the translation is the translated rule (`rule_translate`), and both make the same of
models that are the same (`build_translate`). The documents bound the work in different ways, but
both bounds are enough.
-/

namespace ApiModel

namespace Schema

open Report

variable {s : Node}

/-! ## The same rule -/

/-- A rule in the words of the third version. -/
def Rule.translate : Rule → Rule
  | .reference ref => .reference (translateRef ref)
  | .container kind element => .container kind (Schema.translate element)
  | .composition kind members => .composition kind (members.map Schema.translate)
  | r => r

theorem allOf_translate (s : Node) : allOf (translate s) = (allOf s).map translate := by
  rw [allOf, field_translate (by decide), allOf]
  cases s.field "allOf" with
  | list members => exact translateAll_eq_map members
  | scalar s => cases s <;> rfl
  | map entries => rfl

theorem combination?_translate (h : Shared s) :
    combination? .v3 (translate s) =
      (combination? .v2 s).map fun c => (c.1, c.2.map translate) := by
  have hother : ∀ key ∈ ["oneOf", "anyOf"], (translate s).field key = .null := by
    intro key hkey
    have hkeys : ∀ k ∈ ["oneOf", "anyOf"], k ∉ "x-nullable" :: "nullable" :: translatedKeys := by
      decide
    rw [field_translate_other (hkeys key hkey), h.field_eq_null hkey]
  rw [combination?_eq .v3 hother, combination?_eq .v2 fun _ => h.field_eq_null, allOf_translate]
  cases allOf s <;> rfl

theorem furtherProperties?_translate (h : Shared s) :
    furtherProperties? .v3 (translate s) = (furtherProperties? .v2 s).map translate := by
  have hclosed := h.closed
  unfold furtherProperties?
  rw [field_translate_other (by decide), field_translate (by decide)]
  by_cases hobject : (s.field "type").isText "object" = true
  · rw [if_pos hobject, if_pos hobject]
    cases hfield : s.field "additionalProperties" with
    | map entries => rfl
    | list items => rfl
    | scalar value =>
      rw [hfield] at hclosed
      cases value with
      | bool b =>
        cases b with
        | true => cases hclosed
        | false => rfl
      | _ => rfl
  · rw [if_neg hobject, if_neg hobject, Option.map_none]

/-- The structure of a schema calls for the same rule in both dialects. -/
theorem structuredRule_translate (h : Shared s) :
    structuredRule .v3 (translate s) = (structuredRule .v2 s).translate := by
  have hitems : (translate s).field "items" = translate (s.field "items") := by
    rw [field_translate (by decide), translateValue_schema (.inl rfl)]
  have htruthy : (translate (s.field "items")).truthy = (s.field "items").truthy := by
    rw [← hitems, truthy_translate (by decide)]
  simp only [structuredRule]
  rw [hitems, htruthy, combination?_translate h, furtherProperties?_translate h,
    field_translate_other (by decide), truthy_translate (by decide)]
  by_cases harray : ((s.field "type").isText "array" && (s.field "items").truthy) = true
  · rw [if_pos harray, if_pos harray]
    rfl
  · rw [if_neg harray, if_neg harray]
    cases hfurther : furtherProperties? .v2 s with
    | some element => rfl
    | none =>
      cases hcombination : combination? .v2 s with
      | some c => rfl
      | none =>
        dsimp only [Option.map_none]
        by_cases hobject : (s.field "type").isText "object" = true
        · -- Without properties the object would be a dictionary in the third version.
          have hproperties := h.truthy_properties hobject hfurther hcombination
          rw [if_pos hobject, if_pos hobject, hproperties]
          rfl
        · rw [if_neg hobject, if_neg hobject]
          split_ifs <;> rfl

section Contexts

variable {ctx₂ ctx₃ : Context} (hv2 : ctx₂.dialect = .v2) (hv3 : ctx₃.dialect = .v3)
include hv2 hv3

theorem listedMembers_translate (h : Shared s) :
    listedMembers ctx₃ (translate s) = listedMembers ctx₂ s := by
  have hmay : mayEnumerate ctx₃.dialect (translate s) = mayEnumerate ctx₂.dialect s := by
    simp (disch := decide) only [mayEnumerate, field_translate_other, hv2, hv3]
    cases hinteger : isInteger (s.field "type") with
    | true => rw [h.undescribed hinteger]; rfl
    | false => rfl
  simp (disch := decide) only [listedMembers, hmay, extend_translate, field_translate_other]

/-- An empty description lists no members. -/
theorem describedMembers_translate (h : Shared s) :
    describedMembers ctx₃ (translate s) = describedMembers ctx₂ s := by
  simp (disch := decide) only [describedMembers, field_translate_other, hv2, hv3]
  cases hinteger : isInteger (s.field "type") with
  | false => rfl
  | true =>
    have hempty := h.undescribed hinteger
    cases hfield : s.field "description" with
    | scalar value =>
      rw [hfield] at hempty
      cases value with
      | text description =>
        obtain rfl : description = "" := by simpa [Node.truthy, Scalar.truthy] using hempty
        rfl
      | _ => rfl
    | _ => rfl

/-- The rule for a schema is the same in both dialects. -/
theorem rule_translate (h : Shared s) :
    rule ctx₃ (translate s) = Rule.translate <$> rule ctx₂ s := by
  unfold rule
  rw [ref?_translate]
  cases s.ref? with
  | some ref => rfl
  | none =>
    simp only [Option.map_none, map_bind, listedMembers_translate hv2 hv3 h,
      describedMembers_translate hv2 hv3 h]
    congr 1
    funext listed
    cases listed with
    | cons m ms => rfl
    | nil =>
      simp only [map_bind]
      congr 1
      funext described
      cases described with
      | cons m ms => rfl
      | nil => simp only [map_pure, hv2, hv3, structuredRule_translate h]

/-! ## The same work -/

theorem nullable_translate (h : Shared s) :
    (translate s).field ctx₃.dialect.nullableKeyword =
      s.field ctx₂.dialect.nullableKeyword := by
  rw [hv2, hv3]
  exact field_nullable (Option.isNone_iff_eq_none.1 (h.absent "nullable" (by decide)))

theorem base_translate (h : Shared s) (isDefinition : Bool) (name : String) :
    base ctx₃ (translate s) isDefinition name = base ctx₂ s isDefinition name := by
  simp (disch := decide) only [base, field_translate_other, constraints_translate,
    nullable_translate hv2 hv3 h]

theorem reference_translate (h : Shared s) {ref : String} (href : s.ref? = some ref)
    (base : Model) :
    reference ctx₃ (translate s) (translateRef ref) base = reference ctx₂ s ref base := by
  simp only [reference, default_translate, hv2, hv3, ofRef_translateRef (h.references ref href)]

/-- A name without marks is read in the same way. -/
theorem named_translate (h : Shared s) (base : Model) :
    named ctx₃ (translate s) (s.field "type") base = named ctx₂ s (s.field "type") base := by
  simp (disch := decide) only [named, withDefault_translate, field_translate_other, hv2, hv3]
  have htype := h.type
  have hunmarked := h.unmarked
  cases hfield : s.field "type" with
  | scalar value =>
    rw [hfield] at hunmarked
    cases value with
    | text name =>
      have hbare (d : Dialect) (hmarks : d.marks ⊆ Dialect.marks .v2 ++ Dialect.marks .v3) :
          d.bareName name.toList = Text.trim name.toList :=
        TypeExpr.dropFirstMark_of_not_prefix fun mark hmark =>
          hunmarked name rfl mark (hmarks hmark)
      simp only [TypeExpr.ofNode, TypeExpr.ofName, TypeExpr.allowsNothing,
        hbare .v2 (List.subset_append_left _ _), hbare .v3 (List.subset_append_right _ _)]
    | _ => rfl
  | list names =>
    rw [hfield] at htype
    rcases htype with hnull | htext
    · cases hnull
    · cases htext
  | map entries => rfl

variable {build₂ build₃ : Builder} (hbuild : ∀ t, Common t → build₃ (translate t) = build₂ t)
include hbuild

theorem container_translate {e : Node} (he : Common e) (kind : ModelKind) (base : Model) :
    container build₃ ctx₃ (translate s) (translate e) kind base =
      container build₂ ctx₂ s e kind base := by
  have helement : elementOf build₃ ctx₃ (translate e) = elementOf build₂ ctx₂ e := by
    unfold elementOf
    rw [ref?_translate]
    cases href : e.ref? with
    | some ref =>
      simp only [Option.map_some, hv2, hv3, ofRef_translateRef (he.shared.references ref href)]
    | none => simp only [Option.map_none, asMap_translate, hbuild _ he.asMap]
  simp only [container, helement, withDefault_translate]

theorem property_translate {p : Node} (hp : Common p) (required : List Node) (parent : String)
    (key : Scalar) :
    property build₃ ctx₃ required none parent (key, translate p) =
      property build₂ ctx₂ required none parent (key, p) := by
  cases key with
  | text name =>
    simp only [property, asMap_translate, propertyBase_translate, ref?_translate,
      Option.filter_none, nullable_translate hv2 hv3 hp.asMap.shared]
    cases href : p.asMap.ref? with
    | some ref =>
      simp only [Option.map_some, referring, default_translate, hv2, hv3,
        ofRef_translateRef (hp.asMap.shared.references ref href)]
    | none => simp only [Option.map_none, embedded, hbuild _ hp.asMap]
  | _ => rfl

theorem properties_translate (hs : Common s) {parent : String}
    (h₂ : ctx₂.discriminator? parent = none) (h₃ : ctx₃.discriminator? parent = none) :
    properties build₃ ctx₃ (translate s) parent = properties build₂ ctx₂ s parent := by
  unfold properties
  rw [field_translate (by decide), requiredNames_translate, h₂, h₃]
  cases hfield : s.field "properties" with
  | map entries =>
    show (translateProperties entries).mapM _ = _
    rw [translateProperties_eq_map, List.mapM_map]
    refine lifting_eq.mapM fun (key, p) hmem => ?_
    exact property_translate hv2 hv3 hbuild (hs.part (.property hfield hmem)) _ _ _
  | scalar value => cases value <;> rfl
  | list items => rfl

omit hv2 hv3 in
theorem member_translate {m : Node} (hm : Common m) (kind : ModelKind) (label : String) :
    member build₃ kind label (translate m) = member build₂ kind label m := by
  simp only [member, isBareObject_translate, hbuild m hm]

theorem composition_translate (hs : Common s) {base : Model}
    (h₂ : ctx₂.discriminator? base.name = none) (h₃ : ctx₃.discriminator? base.name = none)
    (hmembers : (allOf s).isEmpty = false) (kind : ModelKind) :
    composition build₃ ctx₃ (translate s) ((allOf s).map translate) kind base =
      composition build₂ ctx₂ s (allOf s) kind base := by
  have hkept : ((allOf s).map translate).mapM (member build₃ kind base.name) =
      (allOf s).mapM (member build₂ kind base.name) := by
    rw [List.mapM_map]
    exact lifting_eq.mapM fun m hm =>
      member_translate hbuild (hs.part (part_of_mem_allOf hm)) kind _
  have hrequired : requiredNames s = [] := by
    simpa using hs.shared.unpromoted hmembers
  have hown : ownProperties build₃ ctx₃ (translate s) base.name =
      ownProperties build₂ ctx₂ s base.name := by
    rw [ownProperties, truthy_translate (by decide),
      properties_translate hv2 hv3 hbuild hs h₂ h₃, ownProperties]
  simp only [composition, hkept, promoted, requiredNames_translate, hrequired, hown]

/-- What a rule makes of a schema is the same in both dialects. -/
theorem build_translate (hs : Common s) {base : Model}
    (h₂ : ctx₂.discriminator? base.name = none) (h₃ : ctx₃.discriminator? base.name = none)
    {r : Rule} (hr : (rule ctx₂ s).outcome = .ok r) :
    r.translate.build build₃ ctx₃ (translate s) base.name base =
      r.build build₂ ctx₂ s base.name base := by
  cases fits_of_rule hv2 hs.shared hr with
  | reference href => exact reference_translate hv2 hv3 hs.shared href base
  | @enumeration type members =>
    show enumeration (translate s) type members base = enumeration s type members base
    simp only [enumeration, withDefault_translate]
  | container hpart => exact container_translate hv2 hv3 hbuild (hs.part hpart) _ base
  | composition hmembers =>
    exact composition_translate hv2 hv3 hbuild hs h₂ h₃ hmembers .allOf
  | interface =>
    show interface build₃ ctx₃ (translate s) base.name base =
      interface build₂ ctx₂ s base.name base
    simp only [interface, properties_translate hv2 hv3 hbuild hs h₂ h₃, withDefault_translate]
  | named => exact named_translate hv2 hv3 hs.shared base
  | anything => rfl

/-- A level of work on a schema is the same in both dialects. -/
theorem modelStep_translate (hs : Common s) {name : String}
    (h₂ : ctx₂.discriminator? name = none) (h₃ : ctx₃.discriminator? name = none)
    (isDefinition : Bool) :
    modelStep build₃ ctx₃ isDefinition name (translate s) =
      modelStep build₂ ctx₂ isDefinition name s := by
  have hmap := hs.asMap
  rw [modelStep_eq, modelStep_eq, asMap_translate, rule_translate hv2 hv3 hmap.shared,
    base_translate hv2 hv3 hmap.shared, bind_map_left]
  refine lifting_eq.bind rfl fun r hr => ?_
  exact build_translate hv2 hv3 hbuild hmap h₂ h₃ hr

omit hbuild in
/-- Work on a schema within a budget is the same in both dialects. -/
theorem modelWithin_translate (hs : Common s) (n : Nat) :
    modelWithin ctx₃ n (translate s) = modelWithin ctx₂ n s := by
  induction n generalizing s with
  | zero => rfl
  | succ n ih =>
    exact modelStep_translate hv2 hv3 (fun t ht => ih ht) hs (discriminator?_empty ctx₂)
      (discriminator?_empty ctx₃) false

end Contexts

/-! ## One model -/

theorem discriminator?_v2 {document : Node} {ctx : Context}
    (hctx : (Context.ofDocument document).outcome = .ok ctx) (hv2 : ctx.dialect = .v2)
    (name : String) : ctx.discriminator? name = none := by
  obtain ⟨dialect, -, hctx⟩ := bind_eq_ok.1 hctx
  obtain ⟨index, hindex, hctx⟩ := bind_eq_ok.1 hctx
  cases hctx
  obtain rfl : dialect = .v2 := hv2
  cases hindex
  unfold Context.discriminator?
  split_ifs <;> rfl

/-- The model of a common schema in a document of the second version is the model of its
translation in one of the third, under every name to which no alternatives refer: the work gives the
same notices and ends in the same model or the same failure. -/
theorem model_translate {document : Node} {ctx₂ ctx₃ : Context}
    (hctx₂ : (Context.ofDocument document).outcome = .ok ctx₂) (hv2 : ctx₂.dialect = .v2)
    (hv3 : ctx₃.dialect = .v3) {name : String} (hname : ctx₃.discriminator? name = none)
    {s : Node} (hs : Common s) (isDefinition : Bool) :
    model ctx₃ (translate s) isDefinition name = model ctx₂ s isDefinition name := by
  have hsame : model ctx₃ (translate s) isDefinition name =
      modelStep (modelWithin ctx₂ (levels ctx₃ (translate s))) ctx₂ isDefinition name s :=
    modelStep_translate hv2 hv3 (fun t ht => modelWithin_translate hv2 hv3 ht _) hs
      (discriminator?_v2 hctx₂ hv2 name) hname isDefinition
  rw [hsame]
  refine modelStep_eq_of_common hv2 hs isDefinition ?_ ?_
  · rw [levels, count_translate]
    omega
  · rw [levels]
    omega

/-- A pet is an animal with a list of toys, which may be nothing, and with names. -/
def pet (animal toy nullable : String) : Node :=
  let refersTo ref := Node.record [("$ref", Node.text ref)]
  let toys := Node.record [("type", Node.text "array"), ("items", refersTo toy),
    (nullable, Node.bool true)]
  let names := Node.record [("type", Node.text "object"),
    ("additionalProperties", Node.record [("type", Node.text "string")])]
  Node.record [("allOf", .list [refersTo animal, Node.record [("type", Node.text "object"),
    ("properties", Node.record [("toys", toys), ("names", names)])]])]

/-- A pet in the words of both versions. -/
theorem model_translate_pet :
    ∃ ctx₂ ctx₃ m s t,
      (Context.ofDocument (.record [("swagger", .text "2.0")])).outcome = .ok ctx₂ ∧
      (Context.ofDocument (.record [("openapi", .text "3.0.1")])).outcome = .ok ctx₃ ∧
      s = pet "#/definitions/Animal" "#/definitions/Toy" "x-nullable" ∧ Common s ∧
      t = pet "#/components/schemas/Animal" "#/components/schemas/Toy" "nullable" ∧
      (model ctx₂ s true "Pet").outcome = .ok m ∧ m.imports = ["Animal", "Toy"] ∧
      model ctx₃ t true "Pet" = model ctx₂ s true "Pet" := by
  obtain ⟨s, t, hs, ht, hcommon, htranslate⟩ : ∃ s t,
      s = pet "#/definitions/Animal" "#/definitions/Toy" "x-nullable" ∧
      t = pet "#/components/schemas/Animal" "#/components/schemas/Toy" "nullable" ∧
      Common s ∧ translate s = t := ⟨_, _, rfl, rfl, by decide, rfl⟩
  obtain ⟨ctx₂, ctx₃, m, hctx₂, hctx₃, hv2, hv3, hname, hm, himports⟩ : ∃ ctx₂ ctx₃ m,
      (Context.ofDocument (.record [("swagger", .text "2.0")])).outcome = .ok ctx₂ ∧
      (Context.ofDocument (.record [("openapi", .text "3.0.1")])).outcome = .ok ctx₃ ∧
      ctx₂.dialect = .v2 ∧ ctx₃.dialect = .v3 ∧ ctx₃.discriminator? "Pet" = none ∧
      (model ctx₂ s true "Pet").outcome = .ok m ∧ m.imports = ["Animal", "Toy"] := by
    subst hs
    exact ⟨_, _, _, rfl, rfl, rfl, rfl, rfl, rfl, rfl⟩
  refine ⟨ctx₂, ctx₃, m, s, t, hctx₂, hctx₃, hs, hcommon, ht, hm, himports, ?_⟩
  rw [← htranslate]
  exact model_translate hctx₂ hv2 hv3 hname hcommon true

end Schema

end ApiModel
