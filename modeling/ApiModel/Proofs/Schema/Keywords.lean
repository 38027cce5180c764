import ApiModel.Proofs.Node.Related
import ApiModel.Schema.Builder

/-!
# The keywords of a schema

A schema is read keyword by keyword. Under most keywords the value counts as a whole
(`plainKeywords`), and what is made of those does not depend on anything else that a schema says.
Inner schemas stand under the other keywords: the schemas of items, of further properties, of
properties and of the members of a combination.
-/

namespace ApiModel

namespace Schema

open Node

/-- The keywords under which no inner schemas stand, in both dialects. -/
def sharedKeywords : List String :=
  ["$ref", "type", "enum", "x-enum-varnames", "x-enum-descriptions", "default", "required",
    "description", "deprecated", "readOnly"] ++ Constraint.all.map Constraint.keyword

/-- The keywords under which no inner schemas stand. -/
def plainKeywords (d : Dialect) : List String := d.nullableKeyword :: sharedKeywords

section Plain

variable {d : Dialect} {s t : Node} (h : SaysSame (plainKeywords d) s t)
include h

theorem field_plain {key : String} (hkey : key ∈ sharedKeywords) : s.field key = t.field key :=
  h.field (List.mem_cons_of_mem _ hkey)

theorem ref?_plain : s.ref? = t.ref? := h.ref? (List.mem_cons_of_mem _ (by decide))

theorem nullable_plain : s.field d.nullableKeyword = t.field d.nullableKeyword :=
  h.field List.mem_cons_self

theorem constraints_plain : Constraints.ofSchema s = Constraints.ofSchema t := by
  unfold Constraints.ofSchema
  refine List.filterMap_congr fun c _ => ?_
  rw [field_plain h (by cases c <;> decide)]

theorem default_plain (members : List EnumMember) :
    Default.ofSchema members s = Default.ofSchema members t := by
  have hvalue : s.get? "default" = t.get? "default" :=
    h "default" (List.mem_cons_of_mem _ (by decide))
  rw [Default.ofSchema, Default.ofSchema, hvalue, field_plain h (by decide)]

theorem withDefault_plain (m : Model) : m.withDefault s = m.withDefault t := by
  rw [Model.withDefault, Model.withDefault, default_plain h]

theorem requiredNames_plain : requiredNames s = requiredNames t := by
  rw [requiredNames, requiredNames, field_plain h (by decide)]

theorem extend_plain (members : List EnumMember) :
    Enumeration.extend s members = Enumeration.extend t members := by
  simp (disch := decide) only [Enumeration.extend, Enumeration.vendorTexts, field_plain h]

theorem propertyBase_plain (required : List Node) (name : String) :
    propertyBase required name s = propertyBase required name t := by
  simp (disch := decide) only [propertyBase, constraints_plain h, field_plain h]

end Plain

/-! ## Under one dialect -/

section Contexts

variable {ctx ctx' : Context} {s t : Node} (hdialect : ctx'.dialect = ctx.dialect)
  (h : SaysSame (plainKeywords ctx.dialect) s t)
include hdialect h

theorem base_plain (isDefinition : Bool) (name : String) :
    base ctx s isDefinition name = base ctx' t isDefinition name := by
  simp (disch := decide) only [base, hdialect, nullable_plain h, constraints_plain h, field_plain h]

theorem listedMembers_plain : listedMembers ctx s = listedMembers ctx' t := by
  simp (disch := decide) only [listedMembers, mayEnumerate, hdialect, extend_plain h, field_plain h]

theorem describedMembers_plain : describedMembers ctx s = describedMembers ctx' t := by
  simp (disch := decide) only [describedMembers, hdialect, field_plain h]

theorem reference_plain (ref : String) (b : Model) :
    reference ctx s ref b = reference ctx' t ref b := by
  simp only [reference, hdialect, default_plain h]

theorem named_plain (type : Node) (b : Model) : named ctx s type b = named ctx' t type b := by
  simp (disch := decide) only [named, hdialect, withDefault_plain h, field_plain h]

theorem referring_plain (ref : String) (isNullable : Bool) (b : Model) :
    referring ctx s ref isNullable b = referring ctx' t ref isNullable b := by
  simp only [referring, hdialect, default_plain h]

end Contexts

end Schema

end ApiModel
