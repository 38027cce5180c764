import ApiModel.Operation.Builder

/-!
# Services

Operations are filed under their tags, and the tags with one service name make one service. An
operation with several tags is built once for each of them. The services stand in the order in
which their first operations come.
-/

namespace ApiModel

namespace Operation

/-- The methods that a path may have, in the order in which they are visited. -/
def methods : List String := ["get", "put", "post", "delete", "options", "head", "patch"]

/-- The tag of an operation without tags. -/
def defaultTag : String := "Default"

/-- The tags of an operation, each once: the texts among what its keyword lists. -/
def tags (node : Node) : Built (List String) := do
  let value := node.field "tags"
  let members ← if value.truthy then Report.ofOption .malformed value.members? else pure []
  let distinct := (Node.texts members).eraseDups
  pure (if distinct.isEmpty then [defaultTag] else distinct)

end Operation

namespace Service

/-- File an operation under the service it names. -/
def file (services : List Service) (o : Operation) : List Service :=
  if services.any (·.name = o.service) then
    services.map fun s =>
      if s.name = o.service then
        { s with operations := s.operations ++ [o], imports := s.imports ++ o.imports }
      else s
  else services ++ [{ name := o.service, operations := [o], imports := o.imports }]

/-- The services of operations. -/
def ofOperations (operations : List Operation) : List Service := operations.foldl file []

/-- The notices about what else stands where methods are expected. -/
def noteOthers (url : Scalar) (entries : List (Scalar × Node)) : Built Unit :=
  entries.forM fun (key, value) =>
    if !value.isMap || key = .text "parameters" || Operation.methods.any (key = .text ·) then
      pure ()
    else Report.note (.unknownMethod key url)

/-- The operations of a method of a path: one for each tag. -/
def ofMethod (ctx : Context) (url : Scalar) (pathItem : Node) (ps : Parameters)
    (method : String) : Built (List Operation) := do
  let node := pathItem.field method
  if node.isMap then
    (← Operation.tags node).mapM fun tag => Operation.ofNode ctx (.scalar url) method tag node ps
  else pure []

/-- The operations of a path. -/
def ofPath (ctx : Context) (entry : Scalar × Node) : Built (List Operation) := do
  match entry.2 with
  | .map entries =>
    let ps ← Parameters.ofNode ctx (entry.2.field "parameters")
    noteOthers entry.1 entries
    List.flatten <$> Operation.methods.mapM (ofMethod ctx entry.1 entry.2 ps)
  | _ => pure []

/-- The services of a document. -/
def ofDocument (ctx : Context) : Built (List Service) := do
  let paths ←
    Report.ofOption .malformed ((ctx.document.field "paths").orElse (.map [])).entries?
  pure (ofOperations (← paths.mapM (ofPath ctx)).flatten)

end Service

end ApiModel
