import ApiModel.Operation.Parameter
import ApiModel.Operation.Response

/-!
# From operations in a document to operations of a client

An operation joins the parameters of its path, its own parameters and the body of its request.
Its parameters are in the order of declaration, except that the required ones without a default
come first.
-/

namespace ApiModel

namespace Parameters

/-- Parameters after others. A body of the later ones replaces one of the earlier. -/
def append (a b : Parameters) : Parameters :=
  { imports := a.imports ++ b.imports
    parameters := a.parameters ++ b.parameters
    path := a.path ++ b.path
    query := a.query ++ b.query
    form := a.form ++ b.form
    cookie := a.cookie ++ b.cookie
    header := a.header ++ b.header
    body := b.body.or a.body }

instance : Append Parameters := ⟨append⟩

/-- Parameters and the body of a request after them. -/
def addBody (ps : Parameters) (body : Parameter) : Parameters :=
  let joined :=
    { ps with
      imports := ps.imports ++ body.imports
      parameters := ps.parameters ++ [body] }
  if body.place = .form then { joined with form := ps.form ++ [body] }
  else { joined with body := some body }

/-- Is the parameter required and without a default? -/
def isPressing (p : Parameter) : Bool := p.isRequired && p.default.isNone

/-- The required parameters without a default first, then the others. -/
def pressingFirst (ps : List Parameter) : List Parameter :=
  ps.filter isPressing ++ ps.filter fun p => !isPressing p

end Parameters

namespace Operation

/-- The parameters with the body of the request, if the operation has one that is an object. -/
def withRequestBody (ctx : Context) (node : Node) (ps : Parameters) : Built Parameters := do
  let body := node.field "requestBody"
  if ctx.dialect.negotiatesContent && body.isMap then
    let target ← Node.target ctx.document body
    if target.isMap then
      return ps.addBody (← Parameter.ofRequestBody ctx target)
  return ps

/-- The identifier of an operation, if it says one; an identifier that is no text is a fault. -/
def identifier? (node : Node) : Built (Option String) :=
  let id := node.field "operationId"
  if id.truthy then some <$> Report.ofOption .malformed id.text? else pure none

/-- The path as a text. Only an operation with an identifier can do without. -/
def pathText (url : Node) (id : Option String) : Built String :=
  match url.text?, id with
  | some text, _ => pure text
  | none, some _ => pure ""
  | none, none => Report.fail .malformed

/-- The complaints about the texts of an operation. -/
def complaints (url node : Node) : Nat :=
  Model.descriptionComplaints (node.field "summary").orNull +
    Model.descriptionComplaints (node.field "description").orNull +
    (if url.text?.isSome then 0 else 1)

/-- The operation that a method does on a path, filed under a tag. The parameters of the path
come before its own. -/
def ofNode (ctx : Context) (url : Node) (method tag : String) (node : Node)
    (pathParameters : Parameters) : Built Operation := do
  if !node.isMap then Report.fail .malformed
  let own ← Parameters.ofNode ctx (node.field "parameters")
  let ps ← withRequestBody ctx node (pathParameters ++ own)
  let responses ← Response.ofNodes ctx (node.field "responses")
  let results :=
    if (node.field "responses").isMap then Response.results ctx.dialect responses else []
  let id ← identifier? node
  let path ← pathText url id
  Model.refuse "Operation" (complaints url node)
  pure { ps with
    imports := ps.imports ++ results.flatMap (·.imports)
    parameters := Parameters.pressingFirst ps.parameters
    service := Identifier.serviceName tag
    name := Identifier.operationName path method id
    summary := (node.field "summary").orNull.text?
    description := (node.field "description").orNull.text?
    deprecated := (node.field "deprecated").isTrue
    method := String.ofList (Unicode.upper method.toList)
    url := path
    errors := Response.errors responses
    results
    responseHeader := Response.headerOf results }

end Operation

end ApiModel
