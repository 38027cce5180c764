import ApiModel.Schema.Context
import ApiModel.Schema.Default

/-!
# From schemas to models

The first rule that fits a schema decides what its model is:

  reference, enumeration, described enumeration, array, dictionary, composition, object,
  named type, anything.

The rules are functions of a `Builder`, which stands for the models of the schemas inside: the
elements of containers, the properties of objects, the members of compositions. `modelWithin`
closes the circle with a budget of levels, and `model` computes a budget that suffices for every
schema that does not contain itself. A schema can contain itself only through a composition that
requires properties of its members, because only there is a reference followed.
-/

namespace ApiModel

/-- How the models of inner schemas are made. -/
abbrev Builder := Node → Built Model

namespace Schema

/-- What a model takes from its schema whatever its kind. -/
def base (ctx : Context) (schema : Node) (isDefinition : Bool) (name : String) : Model :=
  { name
    description := (schema.field "description").orNull
    deprecated := (schema.field "deprecated").isTrue
    isDefinition
    isReadOnly := (schema.field "readOnly").isTrue
    isNullable := (schema.field ctx.dialect.nullableKeyword).isTrue
    constraints := .ofSchema schema }

/-! ## References and enumerations -/

/-- The model of a reference: it names its target and is not looked into. -/
def reference (ctx : Context) (schema : Node) (ref : String) (base : Model) : Built Model := do
  let default ← Default.ofSchema [] schema
  { base.withType (.ofRef ctx.dialect ref) with kind := .reference, default }.settle

/-- The model of an enumeration with the given members. -/
def enumeration (schema : Node) (type : String) (members : List EnumMember) (base : Model) :
    Built Model := do
  let m ← { base.withType (.plain type) with kind := .enum, members }.settle
  m.withDefault schema

/-- Is the type an integer type? -/
def isInteger (type : Node) : Bool := type.isText "int" || type.isText "integer"

/-- May the schema be an enumeration? Truth values are not, and integers with a description only
in some dialects. -/
def mayEnumerate (d : Dialect) (schema : Node) : Bool :=
  let type := schema.field "type"
  (schema.field "enum").truthy && !type.isText "boolean" &&
    (d.keepsDescribedIntegers || !(isInteger type && (schema.field "description").truthy))

/-- The members that a schema lists, named by the vendor keywords. -/
def listedMembers (ctx : Context) (schema : Node) : Built (List EnumMember) :=
  if mayEnumerate ctx.dialect schema then do
    Enumeration.extend schema (← Enumeration.ofNode (schema.field "enum"))
  else pure []

/-- The members that the description of an integer lists. -/
def describedMembers (ctx : Context) (schema : Node) : Built (List EnumMember) :=
  match ctx.dialect.hasDescribedEnums && isInteger (schema.field "type"),
    (schema.field "description").text? with
  | true, some description => Enumeration.ofDescription description
  | _, _ => pure []

/-! ## Containers -/

/-- The type of an element, and its model unless it is a plain reference. -/
def elementOf (build : Builder) (ctx : Context) (element : Node) :
    Built (TypeExpr × Option Model) :=
  match element.ref? with
  | some ref => pure (.ofRef ctx.dialect ref, none)
  | none => do
    let link ← build element.asMap
    pure (link.toTypeExpr, some link)

/-- The model of an array or dictionary. -/
def container (build : Builder) (ctx : Context) (schema element : Node) (kind : ModelKind)
    (base : Model) : Built Model := do
  let (type, link) ← elementOf build ctx element
  let m ← { base.withType type with kind, link }.settle
  m.withDefault schema

/-- The schema of the further properties of an object, if they make it a dictionary. -/
def furtherProperties? (d : Dialect) (schema : Node) : Option Node :=
  if (schema.field "type").isText "object" then
    match schema.field "additionalProperties" with
    | .map entries => some (.map entries)
    | .bool true => if d.hasOpenObjects then some (.map []) else none
    | _ => none
  else none

/-! ## Properties -/

/-- What a property takes from its schema and its parent whatever its kind. -/
def propertyBase (required : List Node) (name : String) (schema : Node) : Model :=
  { name := Identifier.propertyName name
    description := (schema.field "description").orNull
    deprecated := (schema.field "deprecated").isTrue
    isReadOnly := (schema.field "readOnly").isTrue
    isRequired := required.any (·.isText name)
    constraints := .ofSchema schema }

/-- The model of a property whose literal tells its schema from the other alternatives. -/
def discriminating (ctx : Context) (discriminator : Node) (parent : String) (isNullable : Bool)
    (base : Model) : Built Model :=
  let literal := (Discriminator.literal ctx.dialect discriminator parent).display
  { base.withType { type := "string", base := "'" ++ literal ++ "'" } with
    kind := .reference, isNullable }.settle

/-- The model of a property that is a reference. -/
def referring (ctx : Context) (schema : Node) (ref : String) (isNullable : Bool) (base : Model) :
    Built Model := do
  let default ← Default.ofSchema [] schema
  { base.withType (.ofRef ctx.dialect ref) with
    kind := .reference, isNullable, default }.settle

/-- The model of any other property: the model of its schema under the property's name. The
constraints stay as the document states them. -/
def embedded (build : Builder) (schema : Node) (isNullable : Bool) (base : Model) :
    Built Model := do
  let m ← build schema
  pure { m with
    name := base.name
    description := base.description
    deprecated := base.deprecated
    isDefinition := false
    isReadOnly := base.isReadOnly
    isRequired := base.isRequired
    isNullable := m.isNullable || isNullable
    constraints := base.constraints }

/-- The model of one property. -/
def property (build : Builder) (ctx : Context) (required : List Node)
    (discriminator : Option Node) (parent : String) (entry : Scalar × Node) : Built Model := do
  let (.text name, value) := entry | Report.fail .malformed
  let schema := value.asMap
  let base := propertyBase required name schema
  let isNullable := (schema.field ctx.dialect.nullableKeyword).isTrue
  match discriminator.filter (fun d => (d.field "propertyName").isText name), schema.ref? with
  | some d, _ => discriminating ctx d parent isNullable base
  | none, some ref => referring ctx schema ref isNullable base
  | none, none => embedded build schema isNullable base

/-- The names that a schema requires. -/
def requiredNames (schema : Node) : List Node :=
  match schema.field "required" with
  | .list names => names
  | _ => []

/-- The models of the properties of a schema, in order. -/
def properties (build : Builder) (ctx : Context) (schema : Node) (parent : String) :
    Built (List Model) :=
  match schema.field "properties" with
  | .map entries =>
    entries.mapM (property build ctx (requiredNames schema) (ctx.discriminator? parent) parent)
  | _ => pure []

/-- The imports of models. -/
def importsOf (models : List Model) : List String := models.flatMap (·.imports)

/-- The enumerations that models contain. -/
def nestedEnums (models : List Model) : List Model := models.flatMap (·.enums)

/-- The enumerations that properties are or contain. -/
def enumsOf (properties : List Model) : List Model :=
  properties.flatMap fun p => p.enums ++ if p.kind = .enum then [p] else []

/-! ## Compositions -/

/-- The keywords besides the type that give an object content. -/
def contentKeywords : List String := ["$ref", "properties", "additionalProperties", "enum"]

/-- Is a member of a composition an object of which nothing is said? -/
def isBareObject (member : Node) : Bool :=
  member.isMap && (member.field "type").isText "object" &&
    !contentKeywords.any fun k => (member.field k).truthy

/-- Does the model of a member add nothing to a composition? -/
def isEmptyMember (m : Model) : Bool :=
  m.kind != .dictionary && m.type == "any" && m.properties.isEmpty && m.enums.isEmpty

/-- The model of a member of a composition, unless it adds nothing. -/
def member (build : Builder) (kind : ModelKind) (name : String) (schema : Node) :
    Built (Option Model) := do
  if isBareObject schema then
    Report.note (.bareMember kind name)
    pure none
  else
    let m ← build schema
    if isEmptyMember m then
      Report.note (.emptyMember kind name)
      pure none
    else pure (some m)

/-- The properties that a composition requires although the member that declares them does
not. -/
def promotedFrom (build : Builder) (ctx : Context) (required : List Node) (member : Node) :
    Built (List Model) := do
  let m ← build (← Node.target ctx.document member)
  let wanted := m.properties.filter fun p => !p.isRequired && required.any (·.isText p.name)
  pure (wanted.map fun p => { p with isRequired := true })

/-- The properties that a composition promotes, member by member. -/
def promoted (build : Builder) (ctx : Context) (schema : Node) (members : List Node) :
    Built (List Model) := do
  match requiredNames schema with
  | [] => pure []
  | required => List.flatten <$> members.mapM (promotedFrom build ctx required)

/-- The properties that a composition declares itself. -/
def ownProperties (build : Builder) (ctx : Context) (schema : Node) (name : String) :
    Built (List Model) :=
  if (schema.field "properties").truthy then properties build ctx schema name else pure []

/-- The model that holds the properties of a composition. -/
def gathered : List Model → List Model
  | [] => []
  | properties => [{ name := "properties", kind := .interface, properties }]

/-- The model of a composition. Its properties are the members, and at the end one model that
holds what the composition says of properties itself. -/
def composition (build : Builder) (ctx : Context) (schema : Node) (members : List Node)
    (kind : ModelKind) (base : Model) : Built Model := do
  let kept := (← members.mapM (member build kind base.name)).reduceOption
  let lifted ← promoted build ctx schema members
  let own ← ownProperties build ctx schema base.name
  { base with
    kind
    imports := importsOf kept ++ importsOf lifted ++ importsOf own
    enums := nestedEnums kept ++ nestedEnums lifted ++ enumsOf own
    properties := kept ++ gathered (lifted ++ own) }.settle

/-- The first combination of a schema that has members: its kind and its members. -/
def combination? (d : Dialect) (schema : Node) : Option (ModelKind × List Node) :=
  d.combinations.findSome? fun (keyword, kind) =>
    match schema.field keyword with
    | .list (m :: ms) => some (kind, m :: ms)
    | _ => none

/-! ## Objects and other types -/

/-- The model of an object with properties. -/
def interface (build : Builder) (ctx : Context) (schema : Node) (name : String) (base : Model) :
    Built Model := do
  let own ← properties build ctx schema name
  let m ← { base with
    kind := .interface
    imports := importsOf own
    enums := enumsOf own
    properties := own }.settle
  m.withDefault schema

/-- The model of an object: a dictionary if it has no properties, where the dialect says so. -/
def object (build : Builder) (ctx : Context) (schema : Node) (name : String) (base : Model) :
    Built Model :=
  if ctx.dialect.hasBareObjects && !(schema.field "properties").truthy then
    container build ctx schema (.map []) .dictionary base
  else interface build ctx schema name base

/-- The model of a schema that only names its type. -/
def named (ctx : Context) (schema type : Node) (base : Model) : Built Model := do
  let m ← { base.withType (.ofNode ctx.dialect type (schema.field "format")) with
    kind := .generic
    isNullable := base.isNullable || TypeExpr.allowsNothing ctx.dialect type }.settle
  m.withDefault schema

/-- The model of a schema that is neither a reference nor an enumeration. -/
def structured (build : Builder) (ctx : Context) (schema : Node) (name : String) (base : Model) :
    Built Model :=
  let type := schema.field "type"
  let items := schema.field "items"
  if type.isText "array" && items.truthy then container build ctx schema items .array base
  else
    match furtherProperties? ctx.dialect schema, combination? ctx.dialect schema with
    | some element, _ => container build ctx schema element .dictionary base
    | none, some (kind, members) => composition build ctx schema members kind base
    | none, none =>
      if type.isText "object" then object build ctx schema name base
      else if type.truthy then named ctx schema type base
      else base.settle

/-! ## The dispatch -/

/-- The model of a schema, given how the models of inner schemas are made. -/
def modelStep (build : Builder) (ctx : Context) (isDefinition : Bool) (name : String)
    (node : Node) : Built Model := do
  let schema := node.asMap
  let base := base ctx schema isDefinition name
  match schema.ref? with
  | some ref => reference ctx schema ref base
  | none =>
    match ← listedMembers ctx schema with
    | m :: ms => enumeration schema "string" (m :: ms) base
    | [] =>
      match ← describedMembers ctx schema with
      | m :: ms => enumeration schema "number" (m :: ms) base
      | [] => structured build ctx schema name base

/-- The model of an inner schema, with at most so many levels below it. -/
def modelWithin (ctx : Context) : Nat → Builder
  | 0, _ => Report.fail .endless
  | levels + 1, schema => modelStep (modelWithin ctx levels) ctx false "" schema

/-- A number of levels that no schema exceeds unless it contains itself: every level is another
node of the document or of the schema, or the empty schema. -/
def levels (ctx : Context) (schema : Node) : Nat := ctx.document.count + schema.count + 2

/-- The model of a schema. -/
def model (ctx : Context) (schema : Node) (isDefinition : Bool) (name : String) : Built Model :=
  modelStep (modelWithin ctx (levels ctx schema)) ctx isDefinition name schema

end Schema

end ApiModel
