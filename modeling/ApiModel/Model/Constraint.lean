import ApiModel.Model.Coercion

/-!
# Constraints

The keywords by which a schema limits its values. A model carries them along without looking at
them, but it accepts only values that fit the keyword; `Constraint.settle` says what becomes of a
value, and how many complaints a value that does not fit gives rise to.
-/

namespace ApiModel

/-- A keyword that limits the values of a schema. -/
inductive Constraint where
  | format
  | maximum
  | exclusiveMaximum
  | minimum
  | exclusiveMinimum
  | multipleOf
  | maxLength
  | minLength
  | pattern
  | maxItems
  | minItems
  | uniqueItems
  | maxProperties
  | minProperties
  deriving DecidableEq, Repr

namespace Constraint

/-- All constraints, in the order in which a model lists them. -/
def all : List Constraint :=
  [format, maximum, exclusiveMaximum, minimum, exclusiveMinimum, multipleOf, maxLength, minLength,
    pattern, maxItems, minItems, uniqueItems, maxProperties, minProperties]

/-- The keyword of a constraint. -/
def keyword : Constraint → String
  | format => "format"
  | maximum => "maximum"
  | exclusiveMaximum => "exclusiveMaximum"
  | minimum => "minimum"
  | exclusiveMinimum => "exclusiveMinimum"
  | multipleOf => "multipleOf"
  | maxLength => "maxLength"
  | minLength => "minLength"
  | pattern => "pattern"
  | maxItems => "maxItems"
  | minItems => "minItems"
  | uniqueItems => "uniqueItems"
  | maxProperties => "maxProperties"
  | minProperties => "minProperties"

/-- What becomes of a value, if it fits the constraint. -/
def fit? : Constraint → Node → Option Node
  | format, n | pattern, n => (Coercion.text? n).map .text
  | maximum, n | minimum, n | multipleOf, n => (Coercion.float? n).map .float
  | exclusiveMaximum, n | exclusiveMinimum, n => Coercion.bound? n
  | uniqueItems, n => (Coercion.flag? n).map .bool
  | maxLength, n | minLength, n | maxItems, n | minItems, n | maxProperties, n
  | minProperties, n => (Coercion.int? n).map .int

/-- How many complaints a value gives rise to that does not fit: one for each type it might have
had. -/
def complaints : Constraint → Nat
  | exclusiveMaximum | exclusiveMinimum => 2
  | _ => 1

end Constraint

/-- The constraints of a model with their values, in the order of `Constraint.all`. -/
abbrev Constraints := List (Constraint × Node)

namespace Constraints

/-- The constraints that a schema states, with their values as they stand there. -/
def ofSchema (schema : Node) : Constraints :=
  Constraint.all.filterMap fun c =>
    let value := schema.field c.keyword
    if value.isNull then none else some (c, value)

/-- The value of a constraint, and nothing if it is not stated. -/
def value (cs : Constraints) (c : Constraint) : Node := (cs.lookup c).getD .null

/-- The constraints of two lists; where both state one, the first list counts. -/
def override (cs others : Constraints) : Constraints :=
  Constraint.all.filterMap fun c =>
    ((cs.lookup c).or (others.lookup c)).map fun value => (c, value)

/-- The values that the constraints accept. -/
def settle (cs : Constraints) : Constraints :=
  cs.filterMap fun (c, value) => (c.fit? value).map fun v => (c, v)

/-- The complaints about the values that do not fit. -/
def complaints (cs : Constraints) : Nat :=
  cs.foldr (fun (c, value) n => (if (c.fit? value).isSome then 0 else c.complaints) + n) 0

end Constraints

end ApiModel
