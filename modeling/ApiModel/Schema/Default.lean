import ApiModel.Json.Writer
import ApiModel.Schema.Enumeration

/-!
# Defaults

The default of a schema becomes a literal of the target. Its declared type decides how it is
read; without one the value itself does. A default that does not fit its type is left out, with a
notice.
-/

namespace ApiModel

namespace Default

/-- How a default is read. -/
inductive Reading where
  | number
  | flag
  | text
  | tree
  /-- There is no literal for it. -/
  | none

/-- The reading for a declared type. -/
def Reading.ofType (type : String) : Reading :=
  if type = "int" ∨ type = "integer" ∨ type = "number" then number
  else if type = "boolean" then flag
  else if type = "string" then text
  else if type = "object" then tree
  else none

/-- The reading that a value calls for by itself. -/
def Reading.ofValue : Node → Reading
  | .bool _ => flag
  | .int _ | .float _ => number
  | .text _ => text
  | .list _ | .map _ => tree
  | _ => none

/-- The reading of a default. -/
def reading (type value : Node) : Reading :=
  match type.text?.filter (· ≠ "") with
  | some type => .ofType type
  | none => .ofValue value

/-- The member at the position that a value gives. -/
def memberAt? (members : List EnumMember) : Node → Option EnumMember
  | .int n => if 0 ≤ n then members[n.toNat]? else none
  | _ => none

/-- The literal of a number. -/
def numberText? : Node → Except DefaultProblem String
  | .scalar (.int n) => .ok (EnumMember.numberLiteral (.int n))
  | .scalar (.float x) => .ok (EnumMember.numberLiteral (.float x))
  | _ => .error .notNumber

/-- The literal of a text. -/
def quotedText? : Node → Except DefaultProblem String
  | .text s => .ok (EnumMember.textLiteral s)
  | _ => .error .notText

/-- The literal of a value; the default of an enumeration may be the position of a member. -/
def literal? (members : List EnumMember) (value : Node) :
    Reading → Except DefaultProblem (Option String)
  | .number =>
    match memberAt? members value with
    | some m => .ok (some m.value)
    | none => (numberText? value).map some
  | .flag => ((Json.write ⟨none, true⟩ value).mapError .unwritable).map some
  | .text => (quotedText? value).map some
  | .tree => ((Json.write ⟨some 4, true⟩ value).mapError .unwritable).map some
  | .none => .ok none

/-- The literal of the default of a schema whose enumeration has the given members. -/
def ofSchema (members : List EnumMember) (schema : Node) : Built (Option String) :=
  match schema.get? "default" with
  | none => pure none
  | some value =>
    if value.isNull then pure (some "null")
    else
      match literal? members value (reading (schema.field "type") value) with
      | .ok text => pure text
      | .error why => do
        Report.note (.unusableDefault value why)
        pure none

end Default

/-- The members that a default may name by position: those of an enumeration. -/
def Model.positionalMembers (m : Model) : List EnumMember :=
  if m.kind = .enum then m.members else []

/-- The model with the default of its schema. -/
def Model.withDefault (m : Model) (schema : Node) : Built Model := do
  pure { m with default := ← Default.ofSchema m.positionalMembers schema }

end ApiModel
