import ApiModel.Json.Writer
import ApiModel.Model.Kind

/-!
# Notices

What a document says and a model has no use for is left out silently, except for a notice. Each
notice is a record of what was left out and why; its wording, and the name of the part of the
program that speaks, are functions of that record.
-/

namespace ApiModel

/-- Why a default has no literal. -/
inductive DefaultProblem where
  | notNumber
  | notText
  | unwritable (why : Json.Fault)

/-- The wording of the reason, about the given value. -/
def DefaultProblem.message (value : Node) : DefaultProblem → String
  | notNumber => "not a number: " ++ value.literal
  | notText => "not a string: " ++ value.literal
  | unwritable why => why.message

/-- Something that was left out, or that is about to be done. -/
inductive Notice where
  | loading (spec : String)
  | duplicateMember (value : Node)
  | unusableDefault (value : Node) (why : DefaultProblem)
  | bareMember (kind : ModelKind) (model : String)
  | emptyMember (kind : ModelKind) (model : String)
  | versionParameter
  | unplacedParameter (name location : Node)
  | unusableCode (key : Scalar)
  | unknownMethod (key url : Scalar)

namespace Notice

/-- The part of the program that speaks. -/
def origin : Notice → String
  | loading _ => "specgen.commands"
  | duplicateMember _ | unusableDefault _ _ | bareMember _ _ | emptyMember _ _ =>
    "specgen.parser.schema"
  | versionParameter | unplacedParameter _ _ => "specgen.parser.parameters"
  | unusableCode _ => "specgen.parser.operations"
  | unknownMethod _ _ => "specgen.parser.services"

/-- The wording of a notice. -/
def message : Notice → String
  | loading spec => "Loading spec from " ++ spec
  | duplicateMember value => "Dropping duplicate enum value " ++ value.literal
  | unusableDefault value why => "Ignoring default " ++ value.literal ++ ": " ++ why.message value
  | bareMember kind model =>
    "Dropping bare object " ++ kind.label ++ " member of " ++ (Node.text model).literal
  | emptyMember kind model =>
    "Dropping empty " ++ kind.label ++ " member of " ++ (Node.text model).literal
  | versionParameter => "Skipping api-version parameter"
  | unplacedParameter name location =>
    "Ignoring parameter " ++ name.literal ++ " in " ++ location.literal
  | unusableCode key => "Dropping response with unparsable code " ++ key.literal
  | unknownMethod key url => "Ignoring " ++ key.literal ++ " on " ++ url.display

end Notice

end ApiModel
