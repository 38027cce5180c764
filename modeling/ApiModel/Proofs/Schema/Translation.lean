import ApiModel.Proofs.Schema.Members
import ApiModel.Proofs.TypeExpr

/-!
# Schemas in the words of the third version

A schema of the second version says where definitions stand and that values may be nothing in words
of its own. `translate` puts the words of the third version in their place, in the schema and in
the schemas that stand in it: among items, further properties, members of `allOf` and properties.
Everything else stays, texts and keys in defaults, examples and lists of values included.

What the rules read of a schema is either translated itself (`get?_translate`) or the same as before
(`get?_translate_other`), and a reference leads to the same type (`ofRef_translateRef`).
-/

namespace ApiModel

namespace Schema

open Node

/-! ## Translation -/

/-- A reference to a definition in the words of the third version. -/
def translateRef (ref : String) : String :=
  match Text.after? (Dialect.definitionMark .v2).toList ref.toList with
  | some key => Dialect.definitionMark .v3 ++ String.ofList key
  | none => ref

/-- A key of a schema in the words of the third version. -/
def translateKey (key : Scalar) : Scalar :=
  if key = .text (Dialect.nullableKeyword .v2) then .text (Dialect.nullableKeyword .v3) else key

mutual

/-- A schema in the words of the third version. -/
def translate : Node → Node
  | .map entries => .map (translateEntries entries)
  | n => n

/-- What a schema says, in the words of the third version. -/
def translateEntries : List (Scalar × Node) → List (Scalar × Node)
  | [] => []
  | (key, value) :: rest => (translateKey key, translateValue key value) :: translateEntries rest

/-- What a schema says under a key: a reference, schemas, or something else. -/
def translateValue (key : Scalar) : Node → Node
  | .scalar (.text ref) => if key = .text "$ref" then .text (translateRef ref) else .text ref
  | .scalar s => .scalar s
  | .list items => if key = .text "allOf" then .list (translateAll items) else .list items
  | .map entries =>
    if key = .text "properties" then .map (translateProperties entries)
    else if key = .text "items" ∨ key = .text "additionalProperties" then
      .map (translateEntries entries)
    else .map entries

/-- Schemas in the words of the third version. -/
def translateAll : List Node → List Node
  | [] => []
  | n :: rest => translate n :: translateAll rest

/-- Properties with their schemas in the words of the third version. -/
def translateProperties : List (Scalar × Node) → List (Scalar × Node)
  | [] => []
  | (key, n) :: rest => (key, translate n) :: translateProperties rest

end

theorem translateAll_eq_map (ns : List Node) : translateAll ns = ns.map translate := by
  induction ns with
  | nil => rfl
  | cons n ns ih => rw [translateAll, ih, List.map_cons]

theorem translateProperties_eq_map (es : List (Scalar × Node)) :
    translateProperties es = es.map fun e => (e.1, translate e.2) := by
  induction es with
  | nil => rfl
  | cons e es ih => rw [translateProperties, ih, List.map_cons]

/-! ## The size stays -/

mutual

theorem count_translate (n : Node) : (translate n).count = n.count := by
  cases n with
  | map entries => rw [translate, count, count, countValues_translateEntries]
  | scalar s => rfl
  | list items => rfl

theorem countValues_translateEntries (es : List (Scalar × Node)) :
    countValues (translateEntries es) = countValues es := by
  match es with
  | [] => rfl
  | (key, n) :: rest =>
    rw [translateEntries, countValues, countValues, count_translateValue,
      countValues_translateEntries]

theorem count_translateValue (key : Scalar) (n : Node) :
    (translateValue key n).count = n.count := by
  cases n with
  | scalar s =>
    cases s with
    | text ref => rw [translateValue]; split_ifs <;> rfl
    | _ => rfl
  | list items =>
    rw [translateValue]
    split_ifs
    · rw [count, count, countAll_translateAll]
    · rfl
  | map entries =>
    rw [translateValue]
    split_ifs
    · rw [count, count, countValues_translateProperties]
    · rw [count, count, countValues_translateEntries]
    · rfl

theorem countAll_translateAll (ns : List Node) : countAll (translateAll ns) = countAll ns := by
  match ns with
  | [] => rfl
  | n :: rest => rw [translateAll, countAll, countAll, count_translate, countAll_translateAll]

theorem countValues_translateProperties (es : List (Scalar × Node)) :
    countValues (translateProperties es) = countValues es := by
  match es with
  | [] => rfl
  | (key, n) :: rest =>
    rw [translateProperties, countValues, countValues, count_translate,
      countValues_translateProperties]

end

/-! ## What a translated schema says -/

section Fields

variable {key : String} {s : Node}

/-- The keys under which something is translated. -/
def translatedKeys : List String := ["$ref", "items", "additionalProperties", "allOf", "properties"]

theorem translateValue_other (hkey : key ∉ translatedKeys) (n : Node) :
    translateValue (.text key) n = n := by
  simp only [translatedKeys, List.mem_cons, List.not_mem_nil, or_false, not_or] at hkey
  obtain ⟨href, hitems, hfurther, hall, hproperties⟩ := hkey
  cases n with
  | scalar s => cases s <;> simp [translateValue, href]
  | list items => simp [translateValue, hall]
  | map entries => simp [translateValue, hproperties, hitems, hfurther]

theorem getText?_translateEntries (hkey : key ∉ ["x-nullable", "nullable"])
    (es : List (Scalar × Node)) :
    getText? key (translateEntries es) = (getText? key es).map (translateValue (.text key)) := by
  simp only [List.mem_cons, List.not_mem_nil, or_false, not_or] at hkey
  induction es with
  | nil => rfl
  | cons e es ih =>
    obtain ⟨k, n⟩ := e
    rw [translateEntries]
    cases k with
    | text k =>
      by_cases hk : k = "x-nullable"
      · subst hk
        show getText? key ((.text "nullable", _) :: _) = _
        rw [getText?, getText?, if_neg (Ne.symm hkey.2), if_neg (Ne.symm hkey.1), ih]
      · rw [translateKey, if_neg (by simpa [Dialect.nullableKeyword] using hk), getText?, getText?]
        split_ifs with heq
        · rw [heq, Option.map_some]
        · exact ih
    | _ => exact ih

theorem getText?_nullable {es : List (Scalar × Node)} (h : getText? "nullable" es = none) :
    getText? "nullable" (translateEntries es) = getText? "x-nullable" es := by
  induction es with
  | nil => rfl
  | cons e es ih =>
    obtain ⟨k, n⟩ := e
    rw [translateEntries]
    cases k with
    | text k =>
      rw [getText?] at h
      split_ifs at h with hk
      by_cases hx : k = "x-nullable"
      · subst hx
        exact congrArg some (translateValue_other (by decide) n)
      · rw [translateKey, if_neg (by simpa [Dialect.nullableKeyword] using hx), getText?, getText?,
          if_neg hk, if_neg hx]
        exact ih h
    | _ => exact ih h

/-- What a schema says under a key is translated, unless the key itself is. -/
theorem get?_translate (hkey : key ∉ ["x-nullable", "nullable"]) (s : Node) :
    (translate s).get? key = (s.get? key).map (translateValue (.text key)) := by
  cases s with
  | map entries => exact getText?_translateEntries hkey entries
  | _ => rfl

theorem field_translate (hkey : key ∉ ["x-nullable", "nullable"]) (s : Node) :
    (translate s).field key = translateValue (.text key) (s.field key) := by
  rw [field, get?_translate hkey, field]
  cases s.get? key <;> rfl

/-- Under all other keys a schema says the same as before. -/
theorem get?_translate_other (hkey : key ∉ "x-nullable" :: "nullable" :: translatedKeys)
    (s : Node) : (translate s).get? key = s.get? key := by
  simp only [List.mem_cons, not_or] at hkey
  rw [get?_translate (by simp [hkey])]
  cases s.get? key with
  | none => rfl
  | some n => exact congrArg some (translateValue_other hkey.2.2 n)

theorem field_translate_other (hkey : key ∉ "x-nullable" :: "nullable" :: translatedKeys)
    (s : Node) : (translate s).field key = s.field key := by
  rw [field, get?_translate_other hkey, field]

/-- A schema says in each version's own word that its values may be nothing. -/
theorem field_nullable (h : s.get? "nullable" = none) :
    (translate s).field "nullable" = s.field "x-nullable" := by
  cases s with
  | map entries => exact congrArg (·.getD null) (getText?_nullable h)
  | _ => rfl

theorem translateRef_of_mark (s : List Char) :
    translateRef (Dialect.definitionMark .v2 ++ String.ofList s) =
      Dialect.definitionMark .v3 ++ String.ofList s := by
  rw [translateRef, Text.after?_eq_some.2 (by rw [String.toList_append, String.toList_ofList])]

theorem translateRef_eq_empty_iff {ref : String} : translateRef ref = "" ↔ ref = "" := by
  unfold translateRef
  split
  · rename_i key hkey
    have href := Text.after?_eq_some.1 hkey
    refine iff_of_false (fun h => ?_) fun h => ?_
    · have hlist := congrArg String.toList h
      rw [String.toList_append] at hlist
      cases hlist
    · rw [h] at href
      cases href
  · rfl

theorem truthy_translateValue (key : Scalar) (n : Node) :
    (translateValue key n).truthy = n.truthy := by
  cases n with
  | scalar s =>
    cases s with
    | text ref =>
      rw [translateValue]
      split_ifs
      · show (translateRef ref != "") = (ref != "")
        rw [Bool.eq_iff_iff, bne_iff_ne, bne_iff_ne, ne_eq, translateRef_eq_empty_iff]
      · rfl
    | _ => rfl
  | list items =>
    rw [translateValue]
    split_ifs
    · cases items <;> rfl
    · rfl
  | map entries =>
    rw [translateValue]
    split_ifs
    · cases entries <;> rfl
    · cases entries <;> rfl
    · rfl

theorem truthy_translate (hkey : key ∉ ["x-nullable", "nullable"]) (s : Node) :
    ((translate s).field key).truthy = (s.field key).truthy := by
  rw [field_translate hkey, truthy_translateValue]

theorem ref?_translate (s : Node) : (translate s).ref? = s.ref?.map translateRef := by
  rw [ref?, field_translate (by decide), ref?]
  cases s.field "$ref" with
  | scalar s => cases s <;> rfl
  | _ => rfl

theorem asMap_translate (s : Node) : (translate s).asMap = translate s.asMap := by
  cases s <;> rfl

theorem isMap_translate (s : Node) : (translate s).isMap = s.isMap := by
  cases s <;> rfl

/-- Under some keys stands a schema. -/
theorem translateValue_schema (hkey : key = "items" ∨ key = "additionalProperties") (n : Node) :
    translateValue (.text key) n = translate n := by
  cases n with
  | scalar s => cases s <;> rcases hkey with rfl | rfl <;> rfl
  | _ => rcases hkey with rfl | rfl <;> rfl

end Fields

/-! ## The same words -/

/-- A reference leads to the same type as before. -/
theorem ofRef_translateRef {ref : String}
    (h : (Dialect.definitionMark .v2).toList <+: ref.toList) :
    TypeExpr.ofRef .v3 (translateRef ref) = TypeExpr.ofRef .v2 ref := by
  obtain ⟨key, hkey⟩ := h
  obtain rfl : Dialect.definitionMark .v2 ++ String.ofList key = ref := by
    rw [← String.toList_inj, String.toList_append, String.toList_ofList, hkey]
  rw [translateRef_of_mark, TypeExpr.ofRef_definitionMark, TypeExpr.ofRef_definitionMark]

theorem constraints_translate (s : Node) : Constraints.ofSchema (translate s) = .ofSchema s := by
  unfold Constraints.ofSchema
  refine List.filterMap_congr fun c _ => ?_
  rw [field_translate_other (by cases c <;> decide)]

theorem default_translate (members : List EnumMember) (s : Node) :
    Default.ofSchema members (translate s) = Default.ofSchema members s := by
  simp (disch := decide) only [Default.ofSchema, get?_translate_other, field_translate_other]

theorem withDefault_translate (m : Model) (s : Node) :
    m.withDefault (translate s) = m.withDefault s := by
  rw [Model.withDefault, default_translate, Model.withDefault]

theorem extend_translate (s : Node) (members : List EnumMember) :
    Enumeration.extend (translate s) members = Enumeration.extend s members := by
  simp (disch := decide) only [Enumeration.extend, Enumeration.vendorTexts, field_translate_other]

theorem requiredNames_translate (s : Node) : requiredNames (translate s) = requiredNames s := by
  rw [requiredNames, field_translate_other (by decide), requiredNames]

theorem propertyBase_translate (required : List Node) (name : String) (s : Node) :
    propertyBase required name (translate s) = propertyBase required name s := by
  simp (disch := decide) only [propertyBase, field_translate_other, constraints_translate]

theorem isBareObject_translate (s : Node) : isBareObject (translate s) = isBareObject s := by
  simp (disch := decide) only [isBareObject, isMap_translate, field_translate_other,
    contentKeywords, List.any_cons, List.any_nil, truthy_translate]

end Schema

end ApiModel
