import ApiModel.Model.Operation
import ApiModel.Operation.Content
import ApiModel.Schema.Builder

/-!
# Responses

A response has a status code and the model of its body; a response without a body may have a
header instead. From the responses of an operation come its results, which are the successful
ones without repetition, and its error table.
-/

namespace ApiModel

namespace Response

/-! ## Status codes -/

/-- Is the text a row of digits, with a sign if wanted? -/
def isWholeNumber (s : List Char) : Bool :=
  let digits := (Decimal.takeSign s).2
  !digits.isEmpty && digits.all Unicode.isDecimal

/-- The status code of a key: that of success for `default`, the absolute value of a number, and
none for anything else and for zero. A number with too many digits is a fault, and so is one that
stands between separators of information, which only trimming takes for white space. -/
def code? (key : String) : Built (Option Int) := do
  if key = "default" then pure (some 200)
  else if isWholeNumber (Text.trim key.toList) then do
    let n ← Report.ofOption .malformed (Decimal.readInt? (Text.trimSpacing key.toList))
    pure (if n = 0 then none else some n.natAbs)
  else pure none

/-! ## One response -/

/-- A response before its header is known to have a name: what stands in the document there, and
the model. -/
structure Draft extends Model where
  place : ResponsePlace := .response
  code : Int
  headerName : Node := .text ""

/-- The complaints about the name of a header. -/
def nameComplaints (name : Node) : Nat := if name.text?.isSome then 0 else 1

/-- The response that the record accepts. -/
def Draft.settle (r : Draft) : Built Response := do
  Model.refuse "OperationResponse" (r.complaints + nameComplaints r.headerName)
  pure { r.toModel.withFittingValues with
    name := r.headerName.text?.getD "", place := r.place, code := r.code }

/-- The response with another type. -/
def Draft.withType (r : Draft) (t : TypeExpr) : Draft := { r with toTypeExpr := t }

/-- A response with the model of its schema. -/
def Draft.ofModel (schema : Node) (r : Draft) (m : Model) : Draft :=
  { r.withType m.toTypeExpr with
    kind := m.kind
    link := m.link
    isReadOnly := m.isReadOnly
    isRequired := m.isRequired
    isNullable := m.isNullable
    members := m.members
    enums := m.enums
    properties := m.properties
    constraints := .ofSchema schema }

/-- A response whose schema is a reference. -/
def reference (d : Dialect) (ref : String) (r : Draft) : Built Response :=
  { r.withType (.ofRef d ref) with kind := .reference }.settle

/-- The schema of a response; a reference to another response is followed. -/
def schemaTarget (ctx : Context) (schema : Node) : Built Node :=
  match schema.ref? with
  | some ref =>
    if ref.startsWith ctx.dialect.responseMark then Node.target ctx.document schema
    else pure schema
  | none => pure schema

/-- A response with the type of its schema. -/
def ofSchema (ctx : Context) (schema : Node) (r : Draft) : Built Response := do
  let schema ← schemaTarget ctx schema
  if !schema.isMap then Report.fail .malformed
  match schema.ref? with
  | some ref => reference ctx.dialect ref r
  | none => (r.ofModel schema (← Schema.model ctx schema false "")).settle

/-- A response without a body: its first header if it has one. -/
def ofHeaders (headers : Node) (r : Draft) : Built Response :=
  match headers with
  | .map ((name, _) :: _) =>
    { r.withType (.plain "string") with
      kind := .generic, place := .header, headerName := .scalar name }.settle
  | _ => ({ r with kind := .generic } : Draft).settle

/-- The schema of the body of a response. -/
def bodySchema? (d : Dialect) (node : Node) : Built (Option Node) :=
  if d.negotiatesContent then do
    pure ((← Content.choose (node.field "content")).map (·.2))
  else
    let schema := node.field "schema"
    pure (if schema.isMap then some schema else none)

/-- The response of a response object. -/
def ofNode (ctx : Context) (node : Node) (code : Int) : Built Response := do
  let r : Draft := { code, description := (node.field "description").orNull }
  match ← bodySchema? ctx.dialect node with
  | some schema => ofSchema ctx schema r
  | none => ofHeaders (node.field "headers") r

/-! ## All responses of an operation -/

/-- The response of an entry, unless its key is no status code. -/
def entry (ctx : Context) (e : Scalar × Node) : Built (Option Response) := do
  match ← code? e.1.display with
  | none =>
    Report.note (.unusableCode e.1)
    pure none
  | some code =>
    let node ← Node.target ctx.document e.2
    pure (some (← ofNode ctx node.asMap code))

/-- Put a response behind those whose code is not greater. -/
def insertByCode (r : Response) : List Response → List Response
  | [] => [r]
  | s :: rest => if r.code < s.code then r :: s :: rest else s :: insertByCode r rest

/-- Responses sorted by their codes; those of one code keep their order. -/
def sortByCode (rs : List Response) : List Response :=
  rs.foldl (fun done r => insertByCode r done) []

/-- The responses of an operation, sorted by their codes. -/
def ofNodes (ctx : Context) (responses : Node) : Built (List Response) :=
  match responses with
  | .map entries => do pure (sortByCode (← entries.mapM (entry ctx)).reduceOption)
  | _ => pure []

/-! ## Results and errors -/

/-- Are two models of one type, and so are their links if both have one? -/
def sameType (a b : Model) : Bool :=
  a.type == b.type && a.base == b.base && a.template == b.template &&
    match a, b with
    | { link := some la, .. }, { link := some lb, .. } => sameType la lb
    | _, _ => true

/-- Is one result as good as another? -/
def sameResult (d : Dialect) (a b : Response) : Bool :=
  sameType a.toModel b.toModel && (!d.tellsCodesApart || a.code == b.code)

/-- Does the code say that there is a result? -/
def hasResult (r : Response) : Bool := 200 ≤ r.code && r.code < 300 && r.code != 204

/-- The result of an operation that has no other. -/
def nothing : Response :=
  { kind := .generic, type := "void", base := "void", code := 200 }

/-- Drop the results that are as good as a kept one. -/
def distinct (d : Dialect) (kept : List Response) : List Response → List Response
  | [] => kept
  | r :: rest =>
    if kept.any fun k => sameResult d k r then distinct d kept rest
    else distinct d (kept ++ [r]) rest

/-- The results of an operation: the successful responses, each once, or else nothing. -/
def results (d : Dialect) (responses : List Response) : List Response :=
  match responses.filter hasResult with
  | [] => [nothing]
  | found => distinct d [] found

/-- The error table of an operation: the codes from three hundred on that are described. -/
def errors (responses : List Response) : List OperationError :=
  responses.filterMap fun r =>
    match r.description with
    | .text s => if 300 ≤ r.code && s ≠ "" then some ⟨r.code, s⟩ else none
    | _ => none

/-- The name of the first result that comes from a header. -/
def headerOf (results : List Response) : Option String :=
  (results.find? (·.place = .header)).map (·.name)

end Response

end ApiModel
