import ApiModel.Model.Checked
import ApiModel.Model.Operation

/-!
# Models from documents

The way back: a mapping with the fields of a model becomes the model, if every field has a value
that its type accepts. A field may be given under its name in camel case or in snake case, and
the first counts where both are there. Fields that nobody knows are passed over.

The recursion is on a budget of levels; the number of nodes of the mapping is enough.
-/

namespace ApiModel

namespace Validation

/-! ## Fields -/

/-- A name in snake case, for one in camel case. -/
def snakeCase (name : String) : String :=
  String.ofList (name.toList.flatMap fun c => if c.isUpper then ['_', c.toLower] else [c])

/-- The other name of a field: in snake case, and not a reserved word. -/
def otherName (name : String) : String := if name = "in" then "in_" else snakeCase name

/-- The value of a field under either of its names. -/
def field? (n : Node) (name : String) : Option Node :=
  (n.get? name).or (n.get? (otherName name))

/-- A field that may be missing, and then has the given value. -/
def optional {α : Type} (n : Node) (name : String) (missing : α) (read : Node → Checked α) :
    Checked α :=
  match field? n name with
  | some value => read value
  | none => pure missing

/-- A field that must be there. -/
def required {α : Type} [Inhabited α] (n : Node) (name : String) (read : Node → Checked α) :
    Checked α :=
  match field? n name with
  | some value => read value
  | none => Checked.refuse

/-! ## Types of fields -/

/-- A text. -/
def text (n : Node) : Checked String := Checked.ofOption (Coercion.text? n)

/-- A truth value. -/
def flag (n : Node) : Checked Bool := Checked.ofOption (Coercion.flag? n)

/-- An integer. -/
def integer (n : Node) : Checked Int := Checked.ofOption (Coercion.int? n)

/-- Nothing, or a value. -/
def nullable {α : Type} (read : Node → Checked α) (n : Node) : Checked (Option α) :=
  if n.isNull then pure none else some <$> read n

/-- A list of values. -/
def listOf {α : Type} (read : Node → Checked α) : Node → Checked (List α)
  | .list items => items.mapM read
  | _ => Checked.refuse

/-- A mapping, from which the given reader takes fields. -/
def mapping {α : Type} [Inhabited α] (read : Node → Checked α) (n : Node) : Checked α :=
  if n.isMap then read n else Checked.refuse

/-- A description: a text or nothing. -/
def description (n : Node) : Checked Node :=
  if Model.descriptionComplaints n = 0 then pure n else Checked.refuse

/-! ## Models -/

/-- A member of an enumeration. -/
def enumMember : Node → Checked EnumMember :=
  mapping fun n => do
    let name ← required n "name" text
    let value ← required n "value" text
    let type ← required n "type" text
    let description ← optional n "description" none (nullable text)
    pure { name, value, type, description }

/-- The constraint of a keyword, if it is stated. -/
def constraint (n : Node) (c : Constraint) : Checked (Option (Constraint × Node)) :=
  match field? n c.keyword with
  | none => pure none
  | some value =>
    if value.isNull then pure none
    else
      match c.fit? value with
      | some v => pure (some (c, v))
      | none => ⟨none, c.complaints⟩

/-- The constraints of a model. -/
def constraints (n : Node) : Checked Constraints := do
  pure (← Constraint.all.mapM (constraint n)).reduceOption

/-- The fields of a model, given how the models in it are read. -/
def modelFields (model : Node → Checked Model) (n : Node) : Checked Model := do
  let name ← optional n "name" "" text
  let kind ← optional n "export" .interface fun v =>
    Checked.ofOption (v.text?.bind ModelKind.ofLabel?)
  let type ← optional n "type" "any" text
  let base ← optional n "base" "any" text
  let template ← optional n "template" none (nullable text)
  let link ← optional n "link" none (nullable model)
  let description ← optional n "description" .null description
  let deprecated ← optional n "deprecated" false flag
  let isDefinition ← optional n "isDefinition" false flag
  let isReadOnly ← optional n "isReadOnly" false flag
  let isRequired ← optional n "isRequired" false flag
  let isNullable ← optional n "isNullable" false flag
  let default ← optional n "default" none (nullable text)
  let imports ← optional n "imports" [] (listOf text)
  let members ← optional n "enum" [] (listOf enumMember)
  let enums ← optional n "enums" [] (listOf model)
  let properties ← optional n "properties" [] (listOf model)
  let constraints ← constraints n
  pure { type, base, template, imports, name, kind, link, description, deprecated, isDefinition,
         isReadOnly, isRequired, isNullable, default, members, enums, properties, constraints }

/-- A model, of which at most so many levels are read. -/
def modelWithin : Nat → Node → Checked Model
  | 0, _ => Checked.refuse
  | levels + 1, n => mapping (modelFields (modelWithin levels)) n

/-- A model. -/
def model (n : Node) : Checked Model := modelWithin n.count n

/-! ## Operations -/

/-- A parameter. -/
def parameter : Node → Checked Parameter :=
  mapping fun n => do
    let m ← modelFields model n
    let place ← required n "in" fun v => Checked.ofOption (ParameterPlace.ofNode? v)
    let prop ← optional n "prop" "" text
    let mediaType ← optional n "mediaType" none (nullable text)
    pure { m with place, prop, mediaType }

/-- A response. -/
def response : Node → Checked Response :=
  mapping fun n => do
    let m ← modelFields model n
    let place ← optional n "in" .response fun v =>
      Checked.ofOption (v.text?.bind ResponsePlace.ofLabel?)
    let code ← required n "code" integer
    pure { m with place, code }

/-- The fields of sorted parameters. -/
def parametersFields (n : Node) : Checked Parameters := do
  let imports ← optional n "imports" [] (listOf text)
  let parameters ← optional n "parameters" [] (listOf parameter)
  let path ← optional n "parametersPath" [] (listOf parameter)
  let query ← optional n "parametersQuery" [] (listOf parameter)
  let form ← optional n "parametersForm" [] (listOf parameter)
  let cookie ← optional n "parametersCookie" [] (listOf parameter)
  let header ← optional n "parametersHeader" [] (listOf parameter)
  let body ← optional n "parametersBody" none (nullable parameter)
  pure { imports, parameters, path, query, form, cookie, header, body }

/-- Sorted parameters. -/
def parameters : Node → Checked Parameters := mapping parametersFields

/-- An entry of an error table. -/
def operationError : Node → Checked OperationError :=
  mapping fun n => do
    let code ← required n "code" integer
    let description ← required n "description" text
    pure { code, description }

/-- An operation. -/
def operation : Node → Checked Operation :=
  mapping fun n => do
    let ps ← parametersFields n
    let service ← required n "service" text
    let name ← required n "name" text
    let summary ← optional n "summary" none (nullable text)
    let description ← optional n "description" none (nullable text)
    let deprecated ← optional n "deprecated" false flag
    let method ← required n "method" text
    let url ← required n "path" text
    let errors ← optional n "errors" [] (listOf operationError)
    let results ← optional n "results" [] (listOf response)
    let responseHeader ← optional n "responseHeader" none (nullable text)
    pure { ps with service, name, summary, description, deprecated, method, url, errors,
                   results, responseHeader }

/-- A service. -/
def service : Node → Checked Service :=
  mapping fun n => do
    let name ← required n "name" text
    let operations ← optional n "operations" [] (listOf operation)
    let imports ← optional n "imports" [] (listOf text)
    pure { name, operations, imports }

/-- A client. -/
def client : Node → Checked Client :=
  mapping fun n => do
    let version ← required n "version" text
    let server ← required n "server" text
    let models ← optional n "models" [] (listOf model)
    let services ← optional n "services" [] (listOf service)
    pure { version, server, models, services }

/-- The value that a record accepts, or a fault that counts the complaints. -/
def accept {α : Type} (record : String) (read : Node → Checked α) (n : Node) : Except Fault α :=
  (read n).result.mapError (.rejected record)

end Validation

/-- The client that a mapping describes. -/
def Client.ofNode (n : Node) : Except Fault Client :=
  Validation.accept "Client" Validation.client n

end ApiModel
