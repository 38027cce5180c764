import ApiModel.Model.Kind
import ApiModel.Report
import ApiModel.Text.Cut

/-!
# Dialects

Documents come in two major versions that say the same things in different words. Whatever a
builder has to know about the version is a function of the `Dialect` here, named for the
capability it stands for.
-/

namespace ApiModel

/-- The major version of a document. -/
inductive Dialect where
  | v2
  | v3
  deriving DecidableEq, Repr

namespace Dialect

/-- The number of the version. -/
def number : Dialect → Nat
  | v2 => 2
  | v3 => 3

/-- What stands before the name in a reference to a definition. -/
def definitionMark : Dialect → String
  | v2 => "#/definitions/"
  | v3 => "#/components/schemas/"

/-- What stands before the name in a reference to a reusable parameter. -/
def parameterMark : Dialect → String
  | v2 => "#/parameters/"
  | v3 => "#/components/parameters/"

/-- What stands before the name in a reference to a reusable response. -/
def responseMark : Dialect → String
  | v2 => "#/responses/"
  | v3 => "#/components/responses/"

/-- Everything that may stand before the name in a reference. -/
def marks : Dialect → List String
  | v2 => [definitionMark v2, parameterMark v2, responseMark v2, "#/securityDefinitions/"]
  | v3 =>
    [definitionMark v3, responseMark v3, parameterMark v3, "#/components/examples/",
      "#/components/requestBodies/", "#/components/headers/", "#/components/securitySchemes/",
      "#/components/links/", "#/components/callbacks/"]

/-- The keywords that combine schemas, most important first, and the kind of model of each. -/
def combinations : Dialect → List (String × ModelKind)
  | v2 => [("allOf", .allOf)]
  | v3 => [("oneOf", .oneOf), ("anyOf", .anyOf), ("allOf", .allOf)]

/-- The keyword that makes a value nullable. -/
def nullableKeyword : Dialect → String
  | v2 => "x-nullable"
  | v3 => "nullable"

/-- Are bodies declared for each media type? -/
def negotiatesContent (d : Dialect) : Bool := d == v3

/-- Does an object that allows further properties of any kind count as a dictionary? -/
def hasOpenObjects (d : Dialect) : Bool := d == v3

/-- Does an object without properties count as a dictionary? -/
def hasBareObjects (d : Dialect) : Bool := d == v3

/-- May a type be a list of types? -/
def hasTypeLists (d : Dialect) : Bool := d == v3

/-- Do members of alternatives carry a literal that tells them apart? -/
def hasDiscriminators (d : Dialect) : Bool := d == v3

/-- May the members of an integer enumeration stand in its description? -/
def hasDescribedEnums (d : Dialect) : Bool := d == v2

/-- Does an integer enumeration stay one if it has a description? -/
def keepsDescribedIntegers (d : Dialect) : Bool := d == v2

/-- Do parameters declare their types themselves, without a schema? -/
def hasInlineTypes (d : Dialect) : Bool := d == v2

/-- Do results of one type but of different codes count as different? -/
def tellsCodesApart (d : Dialect) : Bool := d == v3

/-- What follows the first of some heads with which a text starts; else the whole text. -/
def dropFirstMark (s : List Char) : List String → List Char
  | [] => s
  | mark :: marks => (Text.after? mark.toList s).getD (dropFirstMark s marks)

/-- A reference without white space around it and without what stands before the name. -/
def bareName (d : Dialect) (s : List Char) : List Char :=
  dropFirstMark (Text.trim s) d.marks

/-! ## Detection -/

/-- What a document says about its version. -/
def marker (document : Node) : Node :=
  (document.field "swagger").orElse (document.field "openapi")

/-- A version marker as a text, if it is a text or a number. -/
def markerText? : Node → Option String
  | .text s => some s
  | .int n => some (Node.int n).display
  | .float x => some (Node.float x).display
  | _ => none

/-- The dialect that a marker names by its first character. -/
def ofMarker? (m : Node) : Option Dialect :=
  match (markerText? m).bind (·.toList.head?) with
  | some '2' => some v2
  | some '3' => some v3
  | _ => none

/-- The dialect of a document. -/
def ofDocument (document : Node) : Except Fault Dialect :=
  match document with
  | .map _ =>
    match ofMarker? (marker document) with
    | some d => .ok d
    | none => .error (.unsupportedVersion (marker document))
  | _ => .error .malformed

end Dialect

end ApiModel
