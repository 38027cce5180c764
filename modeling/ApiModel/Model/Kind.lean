/-!
# Kinds of model

The closed set of what a model can be. Every decision of a template branches on it.
-/

namespace ApiModel

/-- What a model is. -/
inductive ModelKind where
  | interface
  | reference
  | generic
  | enum
  | array
  | dictionary
  | oneOf
  | anyOf
  | allOf
  deriving DecidableEq, Repr, Inhabited

namespace ModelKind

/-- The word for a kind. -/
def label : ModelKind → String
  | interface => "interface"
  | reference => "reference"
  | generic => "generic"
  | enum => "enum"
  | array => "array"
  | dictionary => "dictionary"
  | oneOf => "one-of"
  | anyOf => "any-of"
  | allOf => "all-of"

/-- All kinds. -/
def all : List ModelKind :=
  [interface, reference, generic, enum, array, dictionary, oneOf, anyOf, allOf]

/-- The kind with the given word. -/
def ofLabel? (word : String) : Option ModelKind := all.find? (·.label = word)

theorem ofLabel?_label (k : ModelKind) : ofLabel? k.label = some k := by
  cases k <;> decide

end ModelKind

end ApiModel
