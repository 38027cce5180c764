import ApiModel.Model.Operation
import ApiModel.Operation.Content
import ApiModel.Schema.Builder

/-!
# Parameters

A parameter is a model with a place. Its type comes from its schema or, where the dialect says
so, from keywords of its own. `ofNodes` sorts a list of parameters by their places; the body of
a request, where it is an object of its own, becomes a parameter by `ofRequestBody`.
-/

namespace ApiModel

namespace Parameter

/-- A parameter before its place is known: what stands in the document there, and the model. -/
structure Draft extends Model where
  location : Node
  prop : String
  mediaType : Option String := none

/-- The complaints about the place of a parameter. -/
def placeComplaints (location : Node) : Nat :=
  if (ParameterPlace.ofNode? location).isSome then 0 else 1

/-- The parameter that the record accepts. -/
def Draft.settle (p : Draft) : Built Parameter := do
  Model.refuse "OperationParameter" (p.complaints + placeComplaints p.location)
  match ParameterPlace.ofNode? p.location with
  | some place =>
    pure { p.toModel.withFittingValues with place, prop := p.prop, mediaType := p.mediaType }
  | none => Report.fail .malformed

/-- The parameter with another type. -/
def Draft.withType (p : Draft) (t : TypeExpr) : Draft := { p with toTypeExpr := t }

/-! ## From a schema -/

/-- A parameter whose schema is a reference. -/
def Draft.ofReference (d : Dialect) (schema : Node) (ref : String) (p : Draft) :
    Built Draft := do
  let default ← Default.ofSchema [] schema
  pure { p.withType (.ofRef d ref) with kind := .reference, default }

/-- A parameter with the model of its schema. -/
def Draft.ofModel (schema : Node) (p : Draft) (m : Model) : Draft :=
  { p.withType m.toTypeExpr with
    kind := m.kind
    link := m.link
    isReadOnly := m.isReadOnly
    isRequired := p.isRequired || m.isRequired
    isNullable := p.isNullable || m.isNullable
    default := m.default
    members := m.members
    enums := m.enums
    properties := m.properties
    constraints := (Constraints.ofSchema schema).override p.constraints }

/-- A parameter with the type of its schema. -/
def ofSchema (ctx : Context) (schema : Node) (p : Draft) : Built Parameter := do
  if !schema.isMap then Report.fail .malformed
  match schema.ref? with
  | some ref => (← p.ofReference ctx.dialect schema ref).settle
  | none => (p.ofModel schema (← Schema.model ctx schema false "")).settle

/-! ## From its own keywords -/

/-- A parameter that is an enumeration. Its default may name a member by position. -/
def enumeration (node : Node) (type : String) (members : List EnumMember) (p : Draft) :
    Built Parameter := do
  let settled ← { p.withType (.plain type) with kind := .enum, members }.settle
  pure { settled with toModel := ← settled.toModel.withDefault node }

/-- A parameter of a type that its own keywords name. -/
def typed (node : Node) (type : TypeExpr) (kind : ModelKind) (p : Draft) : Built Parameter := do
  let default ← Default.ofSchema [] node
  { p.withType type with kind, default }.settle

/-- The kind of container that a type with items is. -/
def containerKind? (type : Node) : Option ModelKind :=
  if type.isText "array" then some .array
  else if type.isText "object" then some .dictionary
  else none

/-- A parameter with members or items of its own. -/
def ofKeywords? (ctx : Context) (node : Node) (p : Draft) : Built (Option Parameter) := do
  let type := node.field "type"
  let listed ← Enumeration.extend node (← Enumeration.ofNode (node.field "enum"))
  if !listed.isEmpty then return some (← enumeration node "string" listed p)
  let described ←
    match Schema.isInteger type, (node.field "description").text? with
    | true, some description => Enumeration.ofDescription description
    | _, _ => pure []
  if !described.isEmpty then return some (← enumeration node "number" described p)
  let items := node.field "items"
  match containerKind? type, items.isMap with
  | some kind, true =>
    let element := TypeExpr.ofNode ctx.dialect (items.field "type") (items.field "format")
    return some (← typed node element kind p)
  | _, _ => return none

/-! ## From a parameter object -/

/-- What a parameter takes from its object whatever its type. -/
def draft (d : Dialect) (node : Node) : Draft :=
  let prop := ((node.get? "name").getD (.text "")).display
  { name := Identifier.parameterName prop
    prop
    location := node.field "in"
    description := (node.field "description").orNull
    deprecated := (node.field "deprecated").isTrue
    isRequired := (node.field "required").isTrue
    isNullable := (node.field d.nullableKeyword).isTrue
    constraints := if d.hasInlineTypes then .ofSchema node else [] }

/-- The schema of a parameter; a reference to another parameter is followed. -/
def schemaTarget (ctx : Context) (schema : Node) : Built Node :=
  match schema.ref? with
  | some ref =>
    if ref.startsWith ctx.dialect.parameterMark then Node.target ctx.document schema
    else pure schema
  | none => pure schema

/-- A parameter with the type of its schema, or of its type keyword, or of any type. -/
def ofSchemaOrType (ctx : Context) (node : Node) (p : Draft) : Built Parameter := do
  let schema := node.field "schema"
  let type := node.field "type"
  if schema.isMap then ofSchema ctx (← schemaTarget ctx schema) p
  else if ctx.dialect.hasInlineTypes && type.truthy then
    typed node (.ofNode ctx.dialect type (node.field "format")) .generic p
  else p.settle

/-- A parameter that is a reference itself. -/
def reference (d : Dialect) (ref : String) (p : Draft) : Built Parameter :=
  { p.withType (.ofRef d ref) with kind := .reference }.settle

/-- The parameter of a parameter object. -/
def ofNode (ctx : Context) (node : Node) : Built Parameter := do
  if !node.isMap then Report.fail .malformed
  let p := draft ctx.dialect node
  match node.ref? with
  | some ref => reference ctx.dialect ref p
  | none =>
    if ctx.dialect.hasInlineTypes then
      match ← ofKeywords? ctx node p with
      | some parameter => pure parameter
      | none => ofSchemaOrType ctx node p
    else ofSchemaOrType ctx node p

/-! ## From the body of a request -/

/-- The parameter of the body of a request: a form or a plain body, as its media type says. -/
def ofRequestBody (ctx : Context) (node : Node) : Built Parameter := do
  if !node.isMap then Report.fail .malformed
  let p : Draft :=
    { name := "requestBody"
      prop := "requestBody"
      location := .text ParameterPlace.body.label
      description := (node.field "description").orNull
      isRequired := (node.field "required").isTrue
      isNullable := (node.field ctx.dialect.nullableKeyword).isTrue }
  match ← Content.choose (node.field "content") with
  | none => p.settle
  | some (mediaType, schema) =>
    let p := { p with mediaType := some mediaType }
    if Content.formTypes.contains (Content.essence mediaType) then
      ofSchema ctx schema { p with
        name := "formData", prop := "formData", location := .text ParameterPlace.form.label }
    else ofSchema ctx schema p

end Parameter

namespace Parameters

/-- The name of the parameter that names the version: it is never a parameter of a model. -/
def versionName : String := "api-version"

/-- The parameter of an entry of a list of parameters, unless it names the version or has no
place. -/
def entry (ctx : Context) (node : Node) : Built (Option Parameter) := do
  let definition ← Node.target ctx.document node
  if !definition.isMap then return none
  let name := definition.field "name"
  let location := definition.field "in"
  if name.isText versionName then
    Report.note .versionParameter
    return none
  if (ParameterPlace.ofNode? location).isNone then
    Report.note (.unplacedParameter name location)
    return none
  return some (← Parameter.ofNode ctx definition)

/-- Parameters in order and sorted by their places; of several bodies the last one counts. -/
def sorted (ps : List Parameter) : Parameters :=
  let placed (place : ParameterPlace) := ps.filter (·.place = place)
  { imports := ps.flatMap (·.imports)
    parameters := ps
    path := placed .path
    query := placed .query
    form := placed .form
    cookie := placed .cookie
    header := placed .header
    body := (placed .body).getLast? }

/-- The parameters of a list of parameter objects and references. -/
def ofNode (ctx : Context) (node : Node) : Built Parameters := do
  if node.truthy then
    let members ← Report.ofOption .malformed node.members?
    pure (sorted (← members.mapM (entry ctx)).reduceOption)
  else pure {}

end Parameters

end ApiModel
