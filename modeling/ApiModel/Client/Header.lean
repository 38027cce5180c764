import ApiModel.Schema.Context

/-!
# Version and server

What a document says about the client as a whole: the version of the API, without the letter that
often stands before it, and the address of its server, without slashes at the end.
-/

namespace ApiModel

namespace Client

/-- The version that a document gives. -/
def versionNode (document : Node) : Built Node := do
  let info := (document.field "info").orElse (.map [])
  if !info.isMap then Report.fail .malformed
  pure ((info.get? "version").getD (.text "1.0"))

/-- A version without the letter at its front. -/
def dropVersionLetter : List Char → List Char
  | c :: rest => if c == 'v' || c == 'V' then rest else c :: rest
  | [] => []

/-- The version of the API. -/
def versionOf (document : Node) : Built String := do
  pure (String.ofList (dropVersionLetter (← versionNode document).display.toList))

/-! ## Server -/

/-- An address without slashes at the end. -/
def dropSlashes (s : String) : String := String.ofList (Text.dropTail (· == '/') s.toList)

/-- The first of several nodes. -/
def first? : Node → Option Node
  | .list (n :: _) => some n
  | .text s => s.toList.head?.map fun c => .text (String.singleton c)
  | .map entries => Node.lookup (.int 0) entries
  | _ => none

/-- The address made of a scheme, a host and a base path; without a host only the base path. -/
def serverOfHost (document : Node) : Built String := do
  let host := document.field "host"
  let basePath := (document.field "basePath").orElse (.text "")
  if host.truthy then
    let schemes := (document.field "schemes").orElse (.list [.text "http"])
    let scheme ← Report.ofOption .malformed (first? schemes)
    pure (dropSlashes (scheme.display ++ "://" ++ host.display ++ basePath.display))
  else dropSlashes <$> Report.ofOption .malformed basePath.text?

/-- The text for a variable of an address: its default, else the variable itself. -/
def variableText (values : Node) (name : List Char) : List Char :=
  match ((values.field (String.ofList name)).get? "default") with
  | some value => value.display.toList
  | none => '\x7b' :: (name ++ ['\x7d'])

/-- Has the text a variable in braces? -/
def hasVariable : List Char → Bool
  | [] => false
  | c :: rest => (c == '\x7b' && (Text.braced? rest).isSome) || hasVariable rest

/-- The first entry of a list of servers, if it is a mapping. -/
def firstServer (servers : Node) : Built Node := do
  if servers.truthy then
    pure (← Report.ofOption .malformed (first? servers)).asMap
  else pure (.map [])

/-- The address of the first server, with the defaults of its variables. -/
def serverOfList (document : Node) : Built String := do
  let server ← firstServer (document.field "servers")
  let values := (server.field "variables").orElse (.map [])
  let url := ((server.field "url").orElse (.text "")).display.toList
  if !values.isMap && hasVariable url then Report.fail .malformed
  pure (dropSlashes (String.ofList (Text.replaceBraced (variableText values) url)))

/-- The address of the server. -/
def serverOf (ctx : Context) : Built String :=
  match ctx.dialect with
  | .v2 => serverOfHost ctx.document
  | .v3 => serverOfList ctx.document

end Client

end ApiModel
