import ApiModel.Model.Operation

/-!
# Models as documents

A model as the mapping that templates and other programs see. The keys are fixed, and so is their
order; what a model does not have is nothing, or an empty list.
-/

namespace ApiModel

namespace Node

/-- An optional text. -/
def ofText? (s : Option String) : Node := (s.map text).getD null

/-- A list of texts. -/
def ofTexts (ss : List String) : Node := list (ss.map text)

/-- A moment in its sortable form, with `Z` for an offset of zero. -/
def momentText (t : Timestamp) : String :=
  if t.offset = some 0 then ({ t with offset := none } : Timestamp).iso "T" ++ "Z" else t.iso "T"

/-- A key as a text. -/
def keyText : Scalar → String
  | .bool true => "true"
  | .bool false => "false"
  | .timestamp t => momentText t
  | s => s.display

mutual

/-- A node without dates, and with text keys only. -/
def undated : Node → Node
  | scalar (.date d) => text d.iso
  | scalar (.timestamp t) => text (momentText t)
  | scalar s => scalar s
  | list items => list (undatedItems items)
  | map entries => map (undatedEntries entries)

/-- Nodes without dates. -/
def undatedItems : List Node → List Node
  | [] => []
  | n :: rest => n.undated :: undatedItems rest

/-- Entries without dates, under text keys. -/
def undatedEntries : List (Scalar × Node) → List (Scalar × Node)
  | [] => []
  | (k, v) :: rest => (.text (keyText k), v.undated) :: undatedEntries rest

end

end Node

/-- The fields of a member of an enumeration. -/
def EnumMember.toNode (m : EnumMember) : Node :=
  .record [("name", .text m.name), ("value", .text m.value), ("type", .text m.type),
    ("description", .ofText? m.description)]

/-- How the value of a constraint is shown: a limit of numbers is shown as a double, and the
number of items as an integer, whatever else the document says of them. Dates are shown as texts. -/
def Constraint.shown : Constraint → Node → Node
  | maximum, .int n | minimum, .int n | multipleOf, .int n =>
    ((Decimal.ofInt? n).map Node.float).getD (.int n)
  | maximum, .bool b | minimum, .bool b | multipleOf, .bool b => .float (if b then 1 else 0)
  | maxLength, .bool b | minLength, .bool b | maxItems, .bool b | minItems, .bool b
  | maxProperties, .bool b | minProperties, .bool b => .int (if b then 1 else 0)
  | _, n => n.undated

/-- The fields of the constraints: all of them, stated or not. -/
def Constraints.fields (cs : Constraints) : List (String × Node) :=
  Constraint.all.map fun c => (c.keyword, c.shown (cs.value c))

namespace Model

/-- The fields of a model, given what became of the models in it. -/
def fieldsWith (m : Model) (link : Node) (enums properties : List Node) : List (String × Node) :=
  [("name", .text m.name), ("export", .text m.kind.label), ("type", .text m.type),
    ("base", .text m.base), ("template", .ofText? m.template), ("link", link),
    ("description", m.description.undated), ("deprecated", .bool m.deprecated),
    ("isDefinition", .bool m.isDefinition), ("isReadOnly", .bool m.isReadOnly),
    ("isRequired", .bool m.isRequired), ("isNullable", .bool m.isNullable),
    ("default", .ofText? m.default), ("imports", .ofTexts m.imports),
    ("enum", .list (m.members.map EnumMember.toNode)), ("enums", .list enums),
    ("properties", .list properties)] ++ m.constraints.fields

mutual

/-- The fields of a model. -/
def fields : Model → List (String × Node)
  | m@{ link, enums, properties, .. } =>
    fieldsWith m (linkNode link) (nodes enums) (nodes properties)

/-- A link, or nothing. -/
def linkNode : Option Model → Node
  | none => .null
  | some m => .record (fields m)

/-- Models one after the other. -/
def nodes : List Model → List Node
  | [] => []
  | m :: rest => .record (fields m) :: nodes rest

end

/-- A model as a mapping. -/
def toNode (m : Model) : Node := .record m.fields

end Model

/-- A parameter as a mapping. -/
def Parameter.toNode (p : Parameter) : Node :=
  .record (p.toModel.fields ++
    [("in", .text p.place.label), ("prop", .text p.prop), ("mediaType", .ofText? p.mediaType)])

/-- A response as a mapping. -/
def Response.toNode (r : Response) : Node :=
  .record (r.toModel.fields ++ [("in", .text r.place.label), ("code", .int r.code)])

namespace Parameters

/-- A list of parameters. -/
def listNode (ps : List Parameter) : Node := .list (ps.map Parameter.toNode)

/-- The fields of sorted parameters. -/
def fields (p : Parameters) : List (String × Node) :=
  [("imports", .ofTexts p.imports), ("parameters", listNode p.parameters),
    ("parametersPath", listNode p.path), ("parametersQuery", listNode p.query),
    ("parametersForm", listNode p.form), ("parametersCookie", listNode p.cookie),
    ("parametersHeader", listNode p.header),
    ("parametersBody", (p.body.map Parameter.toNode).getD .null)]

/-- Sorted parameters as a mapping. -/
def toNode (p : Parameters) : Node := .record p.fields

end Parameters

/-- An entry of an error table as a mapping. -/
def OperationError.toNode (e : OperationError) : Node :=
  .record [("code", .int e.code), ("description", .text e.description)]

namespace Operation

/-- Is one of the parameters required? -/
def anyRequired (ps : List Parameter) : Node := .bool (ps.any (·.isRequired))

/-- An operation as a mapping. For each place it says whether a parameter is required there. -/
def toNode (o : Operation) : Node :=
  .record (o.toParameters.fields ++
    [("service", .text o.service), ("name", .text o.name), ("summary", .ofText? o.summary),
      ("description", .ofText? o.description), ("deprecated", .bool o.deprecated),
      ("method", .text o.method), ("path", .text o.url),
      ("errors", .list (o.errors.map OperationError.toNode)),
      ("results", .list (o.results.map Response.toNode)),
      ("responseHeader", .ofText? o.responseHeader),
      ("parametersPathRequired", anyRequired o.path),
      ("parametersQueryRequired", anyRequired o.query),
      ("parametersFormRequired", anyRequired o.form),
      ("parametersHeaderRequired", anyRequired o.header),
      ("parametersCookieRequired", anyRequired o.cookie)])

end Operation

/-- A service as a mapping. -/
def Service.toNode (s : Service) : Node :=
  .record [("name", .text s.name), ("operations", .list (s.operations.map Operation.toNode)),
    ("imports", .ofTexts s.imports)]

/-- A client as a mapping. -/
def Client.toNode (c : Client) : Node :=
  .record [("version", .text c.version), ("server", .text c.server),
    ("models", .list (c.models.map Model.toNode)),
    ("services", .list (c.services.map Service.toNode))]

end ApiModel
