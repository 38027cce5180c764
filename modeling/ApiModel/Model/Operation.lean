import ApiModel.Model.Basic

/-!
# Operations

What becomes of the paths of a document: parameters and responses, which are models with a place
and a few fields more, operations, the services that gather them, and the client that holds all.
-/

namespace ApiModel

/-- Where a parameter travels. -/
inductive ParameterPlace where
  | path
  | query
  | header
  | form
  | cookie
  | body
  deriving DecidableEq, Repr, Inhabited

namespace ParameterPlace

/-- The word for a place. -/
def label : ParameterPlace → String
  | path => "path"
  | query => "query"
  | header => "header"
  | form => "formData"
  | cookie => "cookie"
  | body => "body"

/-- The place with the given word. -/
def ofLabel? (word : String) : Option ParameterPlace :=
  [path, query, header, form, cookie, body].find? (·.label = word)

/-- The place that stands in a document. -/
def ofNode? (n : Node) : Option ParameterPlace := n.text?.bind ofLabel?

theorem ofLabel?_label (p : ParameterPlace) : ofLabel? p.label = some p := by
  cases p <;> decide

end ParameterPlace

/-- Where a result comes from. -/
inductive ResponsePlace where
  | response
  | header
  deriving DecidableEq, Repr, Inhabited

namespace ResponsePlace

/-- The word for a place. -/
def label : ResponsePlace → String
  | response => "response"
  | header => "header"

/-- The place with the given word. -/
def ofLabel? (word : String) : Option ResponsePlace := [response, header].find? (·.label = word)

theorem ofLabel?_label (p : ResponsePlace) : ofLabel? p.label = some p := by
  cases p <;> decide

end ResponsePlace

/-- A parameter of an operation: `prop` is its name on the wire. -/
structure Parameter extends Model where
  place : ParameterPlace
  prop : String := ""
  mediaType : Option String := none
  deriving Inhabited

/-- A response of an operation. -/
structure Response extends Model where
  place : ResponsePlace := .response
  code : Int
  deriving Inhabited

/-- Parameters in the order of their declaration, and sorted by their places. -/
structure Parameters where
  imports : List String := []
  parameters : List Parameter := []
  path : List Parameter := []
  query : List Parameter := []
  form : List Parameter := []
  cookie : List Parameter := []
  header : List Parameter := []
  body : Option Parameter := none
  deriving Inhabited

/-- An entry of the error table of an operation. -/
structure OperationError where
  code : Int
  description : String
  deriving DecidableEq, Repr, Inhabited

/-- What a method does on a path, filed under one tag. -/
structure Operation extends Parameters where
  service : String
  name : String
  summary : Option String := none
  description : Option String := none
  deprecated : Bool := false
  method : String
  url : String
  errors : List OperationError := []
  results : List Response := []
  responseHeader : Option String := none
  deriving Inhabited

/-- The operations of one tag, and the models they depend on. -/
structure Service where
  name : String
  operations : List Operation := []
  imports : List String := []
  deriving Inhabited

/-- Everything a document says about a client. -/
structure Client where
  version : String
  server : String
  models : List Model := []
  services : List Service := []
  deriving Inhabited

end ApiModel
