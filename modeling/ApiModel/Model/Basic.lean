import ApiModel.Model.Constraint
import ApiModel.TypeExpr

/-!
# Models

A `Model` is what becomes of a schema: a definition, a property, a member of a composition, the
element of an array. Containers show their element in `link`, unless it is a plain reference;
then the type of the reference is all there is.

The description and the constraints of a model come from the document as they are. A model is
`settled` when the constructor of a record accepts them: the description is a text, and every
constraint has a value that fits.
-/

namespace ApiModel

/-- A member of an enumeration: `value` is its literal, and `type` the primitive of it. -/
structure EnumMember where
  name : String
  value : String
  type : String
  description : Option String := none
  deriving DecidableEq, Repr, Inhabited

/-- What becomes of a schema. -/
structure Model extends TypeExpr where
  name : String := ""
  kind : ModelKind := .interface
  link : Option Model := none
  description : Node := .null
  deprecated : Bool := false
  isDefinition : Bool := false
  isReadOnly : Bool := false
  isRequired : Bool := false
  isNullable : Bool := false
  default : Option String := none
  members : List EnumMember := []
  enums : List Model := []
  properties : List Model := []
  constraints : Constraints := []
  deriving Inhabited

namespace Model

/-- The complaints about a description: it is a text, or there is none. -/
def descriptionComplaints (n : Node) : Nat := if n.isNull || n.text?.isSome then 0 else 1

/-- The complaints that stand in the way of a model. -/
def complaints (m : Model) : Nat := descriptionComplaints m.description + m.constraints.complaints

/-- The model with the values that its constraints make of what the document says. -/
def withFittingValues (m : Model) : Model := { m with constraints := m.constraints.settle }

/-- Refuse a record about which there are complaints. -/
def refuse (record : String) (complaints : Nat) : Built Unit :=
  if complaints = 0 then pure () else Report.fail (.rejected record complaints)

/-- The model that the record accepts. -/
def settle (m : Model) : Built Model := do
  refuse "Model" m.complaints
  pure m.withFittingValues

/-- The model with another type. -/
def withType (m : Model) (t : TypeExpr) : Model := { m with toTypeExpr := t }

end Model

end ApiModel
