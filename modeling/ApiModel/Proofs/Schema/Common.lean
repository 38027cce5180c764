import ApiModel.Proofs.Schema.Dependence

/-!
# What the dialects share

Documents of both versions describe most schemas alike, apart from the words. `Common` says which
schemas these are, in the words of the second version: neither a schema nor a schema that stands in
it has something that the versions read in different ways. It is decided by going through the
schemas inside (`common_iff`).

In the fragment few rules are left (`fits_of_rule`), and none of them promotes properties
(`Common.selfContained`). So a budget of the size of the schema is enough, whatever the document
around it (`modelStep_eq_of_common`).
-/

namespace ApiModel

namespace Schema

open Report

/-! ## The common fragment -/

/-- The name of a type is no reference: nothing stands in front that stands there in a reference. -/
def Unmarked (name : String) : Prop :=
  ∀ mark ∈ Dialect.marks .v2 ++ Dialect.marks .v3, ¬ mark.toList <+: Text.trim name.toList

/-- The members of the composition that a schema is in both dialects. -/
def allOf (s : Node) : List Node :=
  match s.field "allOf" with
  | .list members => members
  | _ => []

/-- A schema has nothing that is read in different ways, as far as it says so itself. -/
structure Shared (s : Node) : Prop where
  /-- The type is left out, or it is a name and no list of names. -/
  type : (s.field "type").isNull = true ∨ (s.field "type").text?.isSome = true
  unmarked : ∀ name ∈ (s.field "type").text?, Unmarked name
  /-- References lead to definitions. -/
  references : ∀ ref ∈ s.ref?, (Dialect.definitionMark .v2).toList <+: ref.toList
  /-- There are no alternatives, and the word of the other dialect is not used. -/
  absent : ∀ key ∈ ["oneOf", "anyOf", "nullable"], (s.get? key).isNone = true
  /-- Integers have no descriptions. -/
  undescribed : isInteger (s.field "type") = true → (s.field "description").truthy = false
  /-- Further properties are not just allowed. -/
  closed : (s.field "additionalProperties").isTrue = false
  /-- An object has properties, unless it is a dictionary or a composition. -/
  declared : (s.field "type").isText "object" = true →
    (s.field "additionalProperties").isMap = false → (allOf s).isEmpty = true →
      (s.field "properties").truthy = true
  /-- A composition requires nothing of its members. -/
  unpromoted : (allOf s).isEmpty = false → (requiredNames s).isEmpty = true

/-- A schema has nothing that is read in different ways, at no depth. -/
inductive Common : Node → Prop
  | intro {s : Node} : Shared s → (∀ t, Part .v2 s t → Common t) → Common s

theorem Common.shared {s : Node} (h : Common s) : Shared s := by
  cases h
  assumption

theorem Common.part {s t : Node} (h : Common s) (ht : Part .v2 s t) : Common t := by
  cases h with
  | intro _ hparts => exact hparts t ht

theorem part_of_mem_allOf {s t : Node} (ht : t ∈ allOf s) : Part .v2 s t := by
  unfold allOf at ht
  split at ht
  · rename_i members hfield
    exact .member List.mem_cons_self hfield ht
  · cases ht

/-! ## The fragment can be decided -/

instance : DecidablePred Unmarked := fun name =>
  inferInstanceAs (Decidable (∀ mark ∈ Dialect.marks .v2 ++ Dialect.marks .v3,
    ¬ mark.toList <+: Text.trim name.toList))

instance : DecidablePred Shared := fun s =>
  decidable_of_iff
    (((s.field "type").isNull = true ∨ (s.field "type").text?.isSome = true) ∧
      (∀ name ∈ (s.field "type").text?, Unmarked name) ∧
      (∀ ref ∈ s.ref?, (Dialect.definitionMark .v2).toList <+: ref.toList) ∧
      (∀ key ∈ ["oneOf", "anyOf", "nullable"], (s.get? key).isNone = true) ∧
      (isInteger (s.field "type") = true → (s.field "description").truthy = false) ∧
      (s.field "additionalProperties").isTrue = false ∧
      ((s.field "type").isText "object" = true →
        (s.field "additionalProperties").isMap = false → (allOf s).isEmpty = true →
          (s.field "properties").truthy = true) ∧
      ((allOf s).isEmpty = false → (requiredNames s).isEmpty = true))
    ⟨fun ⟨h₁, h₂, h₃, h₄, h₅, h₆, h₇, h₈⟩ => ⟨h₁, h₂, h₃, h₄, h₅, h₆, h₇, h₈⟩,
      fun h => ⟨h.type, h.unmarked, h.references, h.absent, h.undescribed, h.closed, h.declared,
        h.unpromoted⟩⟩

theorem common_iff {s : Node} : Common s ↔ Everywhere .v2 Shared s := by
  constructor
  · intro h
    induction h with
    | intro hs _ ih => exact .intro hs ih
  · intro h
    induction h with
    | intro hs _ ih => exact .intro hs ih

instance : DecidablePred Common := fun _ => decidable_of_iff _ common_iff.symm

theorem common_empty : Common (.map []) := by decide

variable {s t : Node}

theorem Common.asMap (h : Common s) : Common s.asMap := by
  rcases asMap_eq s with heq | heq <;> rw [heq]
  · exact h
  · exact common_empty

/-! ## Rules of the fragment -/

theorem Shared.field_eq_null (h : Shared s) {key : String} (hkey : key ∈ ["oneOf", "anyOf"]) :
    s.field key = .null := by
  have hnone := h.absent key (List.mem_append_left ["nullable"] hkey)
  rw [Node.field, Option.isNone_iff_eq_none.1 hnone, Option.getD_none]

/-- Without alternatives, schemas are combined by one keyword only, in both dialects. -/
theorem combination?_eq (d : Dialect) (h : ∀ key ∈ ["oneOf", "anyOf"], s.field key = .null) :
    combination? d s =
      match allOf s with
      | [] => none
      | m :: ms => some (.allOf, m :: ms) := by
  unfold combination? allOf
  cases d with
  | v2 =>
    simp only [Dialect.combinations, List.findSome?_cons, List.findSome?_nil]
    cases s.field "allOf" with
    | list members => cases members <;> rfl
    | _ => rfl
  | v3 =>
    simp only [Dialect.combinations, List.findSome?_cons, List.findSome?_nil,
      h "oneOf" (by decide), h "anyOf" (by decide)]
    cases s.field "allOf" with
    | list members => cases members <;> rfl
    | _ => rfl

/-- An object that is neither a dictionary nor a composition has properties. -/
theorem Shared.truthy_properties (h : Shared s)
    (hobject : (s.field "type").isText "object" = true)
    (hfurther : furtherProperties? .v2 s = none) (hcombination : combination? .v2 s = none) :
    (s.field "properties").truthy = true := by
  refine h.declared hobject ?_ ?_
  · rw [furtherProperties?, if_pos hobject] at hfurther
    cases hfield : s.field "additionalProperties" with
    | map entries =>
      rw [hfield] at hfurther
      cases hfurther
    | _ => rfl
  · rw [combination?_eq .v2 fun _ => h.field_eq_null] at hcombination
    cases hall : allOf s with
    | nil => rfl
    | cons m ms =>
      rw [hall] at hcombination
      cases hcombination

/-- The rules by which models are made of schemas in the common fragment. -/
inductive Fits (s : Node) : Rule → Prop
  | reference {ref : String} : s.ref? = some ref → Fits s (.reference ref)
  | enumeration {type : String} {members : List EnumMember} : Fits s (.enumeration type members)
  | container {kind : ModelKind} {e : Node} : Part .v2 s e → Fits s (.container kind e)
  | composition : (allOf s).isEmpty = false → Fits s (.composition .allOf (allOf s))
  | interface : Fits s .interface
  | named : Fits s (.named (s.field "type"))
  | anything : Fits s .anything

theorem part_of_furtherProperties {e : Node} (h : furtherProperties? .v2 s = some e) :
    Part .v2 s e := by
  unfold furtherProperties? at h
  by_cases hobject : (s.field "type").isText "object" = true
  · rw [if_pos hobject] at h
    split at h
    · rename_i entries hfield
      cases h
      exact .further hfield
    · -- Only in the third version further properties of any kind make a dictionary.
      cases h
    · cases h
  · rw [if_neg hobject] at h
    cases h

theorem fits_structuredRule (h : Shared s) : Fits s (structuredRule .v2 s) := by
  simp only [structuredRule]
  split
  · rename_i harray
    exact .container (.items rfl (Bool.and_eq_true_iff.1 harray).2)
  · cases hfurther : furtherProperties? .v2 s with
    | some element => exact .container (part_of_furtherProperties hfurther)
    | none =>
      rw [combination?_eq .v2 fun _ => h.field_eq_null]
      cases hall : allOf s with
      | cons m ms =>
        show Fits s (.composition .allOf (m :: ms))
        rw [← hall]
        exact .composition (by rw [hall]; rfl)
      | nil =>
        dsimp only
        split_ifs
        · rename_i hbare
          cases hbare
        · exact .interface
        · exact .named
        · exact .anything

/-! ## The work on the fragment -/

section Work

variable {ctx : Context} {name : String} (hv2 : ctx.dialect = .v2)
include hv2

theorem fits_of_rule (h : Shared s) {r : Rule} (hr : (rule ctx s).outcome = .ok r) :
    Fits s r := by
  obtain ⟨ref, href, rfl⟩ | ⟨type, members, rfl⟩ | rfl := rule_eq_ok hr
  · exact .reference href
  · exact .enumeration
  · rw [hv2]
    exact fits_structuredRule h

theorem Common.selfContained (hs : Common s) : SelfContained ctx.dialect s := by
  rw [hv2]
  refine (common_iff.1 hs).imp fun t ht hsome => List.isEmpty_iff.1 (ht.unpromoted ?_)
  rw [combination?_eq .v2 fun _ => ht.field_eq_null] at hsome
  cases hall : allOf t with
  | nil =>
    rw [hall] at hsome
    cases hsome
  | cons m ms => rfl

/-- A budget of the size of the schema is enough, whatever the document. -/
theorem modelStep_eq_of_common (hs : Common s) (isDefinition : Bool) {n k : Nat}
    (hn : s.count ≤ n) (hk : s.count ≤ k) :
    modelStep (modelWithin ctx n) ctx isDefinition name s =
      modelStep (modelWithin ctx k) ctx isDefinition name s := by
  refine modelStep_lift lifting_eq fun t hv => ?_
  obtain ⟨ht, hlt⟩ := (hs.selfContained hv2).visits hv
  exact modelWithin_of_selfContained rfl ht (by omega) (by omega)

end Work

end Schema

end ApiModel
