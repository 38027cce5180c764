import ApiModel.Proofs.TypeExpr.Generic

/-!
# The shapes of types

What a document names as a type becomes a part of generated code, and the models that it depends on
become names of files. Nothing of the text of a document may leak through: whatever stands there,
what comes out of it is made of primitives and identifiers.

* The name of a type is an identifier, or nothing if no character can begin one, and identifiers are
  left as they are (`typeName_eq_self_iff`).
* A type is a part, a part applied to another one, or the arrays of a part, where a part is a
  primitive or a model (`shaped_ofName`). So it depends on two models at most.

**Theorem (`typeName_and_types`).** Both in one, and what follows for the written type and its
imports.
-/

namespace ApiModel

/-! ## Names of types -/

namespace Identifier

variable {s : List Char}

/-- From the first character on that can begin an identifier, a text is made one. -/
theorem isIdentifier_typeName (h : ∃ c ∈ s, isHead c = true) :
    isIdentifier (typeName s) = true := by
  obtain ⟨d, hd, hhead⟩ := h
  rw [typeName]
  cases hdrop : s.dropWhile fun c => !isHead c with
  | nil =>
    have hnone := List.dropWhile_eq_nil_iff.1 hdrop d hd
    rw [hhead] at hnone
    cases hnone
  | cons c t =>
    have hc : isHead c = true := by
      have hfirst := List.head?_dropWhile_not (fun c => !isHead c) s
      rw [hdrop] at hfirst
      simpa using hfirst
    rw [Text.squeeze_cons (by simp [isTail_of_isHead hc]), isIdentifier, hc, Bool.true_and,
      List.all_eq_true]
    intro e he
    rcases Text.of_mem_squeeze he with rfl | ⟨-, htail⟩
    · decide
    · simpa using htail

theorem typeName_eq_nil_iff : typeName s = [] ↔ ∀ c ∈ s, isHead c = false := by
  constructor
  · intro hnil c hc
    refine Bool.eq_false_iff.2 fun hhead => ?_
    have hidentifier := isIdentifier_typeName ⟨c, hc, hhead⟩
    rw [hnil] at hidentifier
    cases hidentifier
  · intro hnone
    have hdrop : (s.dropWhile fun c => !isHead c) = [] :=
      List.dropWhile_eq_nil_iff.2 fun c hc => by rw [hnone c hc]; rfl
    rw [typeName, hdrop]
    rfl

theorem typeName_cases (s : List Char) : typeName s = [] ∨ isIdentifier (typeName s) = true := by
  by_cases h : ∃ c ∈ s, isHead c = true
  · exact .inr (isIdentifier_typeName h)
  · refine .inl (typeName_eq_nil_iff.2 fun c hc => Bool.eq_false_iff.2 fun hhead => ?_)
    exact h ⟨c, hc, hhead⟩

theorem typeName_eq_self_iff : typeName s = s ↔ s = [] ∨ isIdentifier s = true := by
  constructor
  · intro heq
    rw [← heq]
    exact typeName_cases s
  · rintro (rfl | h)
    · rfl
    · exact typeName_of_isIdentifier h

/-- The name of a type is left alone when a name is made of it again. -/
theorem typeName_typeName (s : List Char) : typeName (typeName s) = typeName s :=
  typeName_eq_self_iff.2 (typeName_cases s)

end Identifier

/-! ## Parts of types -/

namespace TypeExpr

open Identifier

/-- What primitives are called, and identifiers. -/
def IsPartText (s : String) : Prop := s ∈ primitives.map (·.2) ∨ isIdentifier s.toList = true

/-- A type without type arguments: a primitive, or a model. -/
inductive IsPart : TypeExpr → Prop
  | primitive {p : String} (h : p ∈ primitives.map (·.2)) : IsPart (plain p)
  | model {name : String} (h : isIdentifier name.toList = true) : IsPart (ofModel name)

/-- A part, a part applied to another one, or the arrays of a part. -/
inductive Shaped : TypeExpr → Prop
  | part {t : TypeExpr} (h : t.IsPart) : Shaped t
  | applied {o i : TypeExpr} (outer : o.IsPart) (argument : i.IsPart) : Shaped (applied o i)
  | arrayOf {e : TypeExpr} (element : e.IsPart) : Shaped (arrayOf e)

/-- A part name, `A<B>` or `B[]` with part names `A` and `B`. -/
inductive IsTypeText : String → Prop
  | part {s : String} (h : IsPartText s) : IsTypeText s
  | applied {s t : String} (outer : IsPartText s) (argument : IsPartText t) :
      IsTypeText (s ++ "<" ++ t ++ ">")
  | arrayOf {s : String} (element : IsPartText s) : IsTypeText (s ++ "[]")

variable {t : TypeExpr}

theorem IsPart.isPartText (h : t.IsPart) : IsPartText t.type := by
  cases h with
  | primitive h => exact .inl h
  | model h => exact .inr h

theorem IsPart.imports (h : t.IsPart) : ∀ name ∈ t.imports, isIdentifier name.toList = true := by
  cases h with
  | primitive => exact fun name hname => absurd hname List.not_mem_nil
  | model h => exact List.forall_mem_singleton.2 h

theorem Shaped.isTypeText (h : t.Shaped) : IsTypeText t.type := by
  cases h with
  | part h => exact .part h.isPartText
  | applied outer argument => exact .applied outer.isPartText argument.isPartText
  | arrayOf element => exact .arrayOf element.isPartText

theorem Shaped.imports (h : t.Shaped) : ∀ name ∈ t.imports, isIdentifier name.toList = true := by
  cases h with
  | part h => exact h.imports
  | applied outer argument => exact List.forall_mem_append.2 ⟨outer.imports, argument.imports⟩
  | arrayOf element => exact element.imports

/-! ## What is read -/

theorem isPart_any : IsPart {} := .primitive (p := "any") (by decide)

theorem isPart_ofIdentifier {s : List Char} (h : s = [] ∨ isIdentifier s = true) :
    (ofIdentifier (String.ofList s)).IsPart := by
  unfold ofIdentifier
  split_ifs with hempty
  · exact isPart_any
  · split
    · rename_i p hp
      exact .primitive (mem_of_primitive? hp)
    · have hne : s ≠ [] := fun hnil => hempty (String.ofList_eq_empty_iff.2 hnil)
      exact .model (by rw [String.toList_ofList]; exact h.resolve_left hne)

theorem shaped_apply (outer inner : List Char) : (apply outer inner).Shaped := by
  have houter := isPart_ofIdentifier (typeName_cases outer)
  have hinner := isPart_ofIdentifier (typeName_cases inner)
  simp only [apply]
  split_ifs
  · exact .arrayOf hinner
  · exact .applied houter hinner

theorem shaped_ofBareName (s : List Char) : (ofBareName s).Shaped := by
  unfold ofBareName
  split
  · exact shaped_apply _ _
  · split
    · exact .part isPart_any
    · rename_i hne
      have hidentifier := (typeName_cases s).resolve_left hne
      exact .part (.model (by rw [String.toList_ofList]; exact hidentifier))

theorem shaped_ofName (d : Dialect) (name : String) (format : Node) :
    (ofName d name format).Shaped := by
  unfold ofName
  split_ifs
  · exact .part isPart_any
  · split
    · rename_i p hp
      exact .part (.primitive (mem_of_primitive? hp))
    · exact shaped_ofBareName _

/-- The name of a type is nothing or an identifier, and nothing only if no character of the text can
begin one. Just these texts are their own names, and so the name of a name is that name. Of every
text that stands as a type the written type is a primitive, an identifier, one of these applied to
another one, or arrays of one, and it depends on identifiers only. -/
theorem typeName_and_types :
    (∀ s : List Char,
      (typeName s = [] ∨ isIdentifier (typeName s) = true) ∧
        (typeName s = [] ↔ ∀ c ∈ s, isHead c = false) ∧
        (typeName s = s ↔ s = [] ∨ isIdentifier s = true) ∧
        typeName (typeName s) = typeName s) ∧
    ∀ (d : Dialect) (name : String) (format : Node),
      (∀ dependence ∈ (ofNode d (.text name) format).imports,
        isIdentifier dependence.toList = true) ∧
        IsTypeText (ofNode d (.text name) format).type := by
  refine ⟨fun s => ?_, fun d name format => ?_⟩
  · exact ⟨typeName_cases s, typeName_eq_nil_iff, typeName_eq_self_iff, typeName_typeName s⟩
  · have hshape : (ofNode d (.text name) format).Shaped := shaped_ofName d name format
    exact ⟨hshape.imports, hshape.isTypeText⟩

/-- An array of arrays, and what an encoded bracket and an encoded dot become. -/
example :
    (ofNode .v2 (.text "Array[array]") .null).type = "any[][]" ∧
      (ofNode .v3 (.text "#/components/schemas/Page%5BMy.Pet%5D") .null).type = "Page<My_Pet>" := by
  decide +kernel

end TypeExpr

end ApiModel
