import ApiModel.Dialect
import ApiModel.Identifier.Name
import ApiModel.Text.Percent

/-!
# Type expressions

The type that a schema names, as the target sees it: the full type, its outermost part, the inner
part of a generic type, and the models it depends on. `TypeExpr.ofName` reads one type name,
which is a primitive, a reference or a generic notation such as `Link[Pet]`; `TypeExpr.ofNode`
reads whatever stands in a document as a type.
-/

namespace ApiModel

/-- A type of the target. -/
structure TypeExpr where
  type : String := "any"
  base : String := "any"
  template : Option String := none
  imports : List String := []
  deriving DecidableEq, Repr, Inhabited

namespace TypeExpr

/-- The primitive types of documents and what they are called. -/
def primitives : List (String × String) :=
  [("file", "binary"), ("any", "any"), ("object", "any"), ("array", "any[]"),
    ("boolean", "boolean"), ("byte", "number"), ("int", "number"), ("integer", "number"),
    ("float", "number"), ("double", "number"), ("short", "number"), ("long", "number"),
    ("number", "number"), ("char", "string"), ("date", "string"), ("date-time", "string"),
    ("password", "string"), ("string", "string"), ("void", "void"), ("null", "null")]

/-- The primitive of a type name. The format `binary` makes every type binary. -/
def primitive? (name : String) (format : Node) : Option String :=
  if format.isText "binary" then some "binary" else primitives.lookup name

/-- A type without parts, which depends on nothing. -/
def plain (name : String) : TypeExpr := { type := name, base := name }

/-- A type that is a model of its own. -/
def ofModel (name : String) : TypeExpr := { type := name, base := name, imports := [name] }

/-- The type of an encoded name: nothing, a primitive or a model. -/
def ofIdentifier (name : String) : TypeExpr :=
  if name = "" then {}
  else
    match primitive? name .null with
    | some p => plain p
    | none => ofModel name

/-- The outer and the inner part of a generic notation: what stands before the first opening
bracket, and what stands between it and the closing bracket at the end. All is on one line, a
line feed at the very end aside. -/
def generic? (s : List Char) : Option (List Char × List Char) :=
  let outer := s.takeWhile (· != '[')
  match s.dropWhile (· != '['), outer.contains '\n' with
  | _ :: tail, false =>
    let body := Identifier.dropFinalBreak tail
    if body.getLast? = some ']' && !body.contains '\n' then some (outer, body.dropLast) else none
  | _, _ => none

/-- The type of a generic notation; an array is no generic type but a type with brackets. -/
def apply (outer inner : List Char) : TypeExpr :=
  let name := Identifier.typeName outer
  let o := ofIdentifier (String.ofList name)
  let i := ofIdentifier (String.ofList (Identifier.typeName inner))
  if Unicode.lower name == "array".toList then
    { type := i.type ++ "[]", base := i.type, imports := i.imports }
  else
    { type := o.type ++ "<" ++ i.type ++ ">"
      base := o.type
      template := some i.type
      imports := o.imports ++ i.imports }

/-- The type of a name without what stands before it in a reference. -/
def ofBareName (s : List Char) : TypeExpr :=
  match generic? s with
  | some (outer, inner) => apply outer inner
  | none =>
    match Identifier.typeName s with
    | [] => {}
    | name => ofModel (String.ofList name)

/-- The type of a type name or reference. -/
def ofName (d : Dialect) (name : String) (format : Node) : TypeExpr :=
  if name = "" then {}
  else
    match primitive? name format with
    | some p => plain p
    | none => ofBareName (Text.percentDecode (d.bareName name.toList))

/-- The type to which a reference leads. -/
def ofRef (d : Dialect) (ref : String) : TypeExpr := ofName d ref .null

/-- The alternatives of a list of types. Nothing is no alternative: it makes a type nullable. -/
def ofNames (names : List Node) (format : Node) : TypeExpr :=
  let mapped := ((Node.texts names).filter (· ≠ "null")).map fun name =>
    (primitive? name format).getD name
  plain (" | ".intercalate mapped)

/-- The type that stands in a document. What is neither a name nor a list of names is any
type. -/
def ofNode (d : Dialect) (type format : Node) : TypeExpr :=
  match type with
  | .text name => ofName d name format
  | .list names => if d.hasTypeLists then ofNames names format else {}
  | _ => {}

/-- Does a list of types allow nothing? -/
def allowsNothing (d : Dialect) : Node → Bool
  | .list names => d.hasTypeLists && names.any (·.isText "null")
  | _ => false

end TypeExpr

/-- The name of a schema: the same for its definition, for references to it, and for members of
alternatives. -/
def Dialect.schemaName (d : Dialect) (key : Node) : String :=
  Identifier.escapeReserved (TypeExpr.ofNode d key .null).base

end ApiModel
