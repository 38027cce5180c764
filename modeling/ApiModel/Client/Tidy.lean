import ApiModel.Model.Operation

/-!
# Tidying a client

Before a client is rendered it is put in order: imports stand once and sorted, without regard to
case, and no model imports itself; enumerations of one name stand once; and operations of one
name in a service are told apart by numbers. Only lists and names change.
-/

namespace ApiModel

namespace Tidy

/-- A name in small letters, by which it is sorted. -/
def sortKey (s : String) : String := String.ofList (Unicode.lower s.toList)

/-- Each name once. -/
def unique (names : List String) : List String := names.eraseDups

/-- Each name once, sorted without regard to case; names that differ in case only keep their
order. -/
def sortedImports (names : List String) : List String :=
  (unique names).mergeSort fun a b => !decide (sortKey b < sortKey a)

/-- The first item of each name. -/
def firstOfName {α : Type} (name : α → String) (items : List α) : List α :=
  items.foldl (fun kept x => if kept.any (fun k => name k = name x) then kept else kept ++ [x]) []

/-- A model in order. -/
def model (m : Model) : Model :=
  { m with
    imports := (sortedImports m.imports).filter (· ≠ m.name)
    members := firstOfName (·.name) m.members
    enums := firstOfName (·.name) m.enums }

/-- The models on which an operation depends. -/
def operationImports (o : Operation) : List String :=
  unique (o.imports ++ o.parameters.flatMap (·.imports) ++ o.results.flatMap (·.imports))

/-- A name with the number of its repetition; the first one has none. -/
def numbered (name : String) (index : Nat) : String :=
  if index = 0 then name else name ++ toString index

/-- Operations in order, after operations of the given names. -/
def operationsAfter (earlier : List String) : List Operation → List Operation
  | [] => []
  | o :: rest =>
    { o with name := numbered o.name (earlier.count o.name), imports := operationImports o } ::
      operationsAfter (o.name :: earlier) rest

/-- A service in order. -/
def service (s : Service) : Service :=
  let operations := operationsAfter [] s.operations
  { s with operations, imports := sortedImports (s.imports ++ operations.flatMap (·.imports)) }

/-- A client in order. -/
def client (c : Client) : Client :=
  { c with models := c.models.map model, services := c.services.map service }

end Tidy

end ApiModel
