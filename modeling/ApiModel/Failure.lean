import ApiModel.Fault
import ApiModel.Project
import ApiModel.Source.Fault
import ApiModel.Template.Library

/-!
# Failures

Everything that can keep the program from its answer, gathered from its parts. A failure that the
program foresees has a kind, and the kind has an exit code; a failure without a kind is
unexpected.
-/

namespace ApiModel

/-- The kinds of foreseen failure. -/
inductive FailureKind where
  | general
  | usage
  | specification
  | reference
  | version
  | rendering
  | configuration
  deriving DecidableEq, Repr

/-- The exit code of a kind. -/
def FailureKind.exitCode : FailureKind → Int
  | general | configuration => 1
  | usage => 2
  | specification | reference | version => 7
  | rendering => 8

/-- What keeps the program from its answer. -/
inductive Failure where
  | noSpec
  | noTemplates
  | document (fault : Fault)
  | source (fault : Source.Fault)
  | rendering (fault : Template.Fault)
  | project (fault : Project.Fault)
  /-- A failure that a caller words itself, with an exit code of its own if wanted. -/
  | stated (kind : FailureKind) (about : String) (exitCode : Option Int)

namespace Failure

/-- The kind of a failure, if it is foreseen. -/
def kind? : Failure → Option FailureKind
  | noSpec | noTemplates => some .usage
  | document (.unresolved _) => some .reference
  | document (.unsupportedVersion _) => some .version
  | document _ => none
  | source .unusable | source (.raised _) => none
  | source _ => some .specification
  | rendering .noContext | rendering (.raised _) => none
  | rendering _ => some .rendering
  | project fault => if fault.problem.isForeseen then some .configuration else none
  | stated kind _ _ => some kind

/-- The exit code of a failure. -/
def exitCode : Failure → Int
  | stated kind _ code => code.getD kind.exitCode
  | f => (f.kind?.map FailureKind.exitCode).getD 1

/-- The wording of a failure. -/
def message : Failure → String
  | noSpec => "No spec given. Pass SPEC, set SPECGEN_SPEC, or add it to specgen.json"
  | noTemplates =>
    "No template directory. Pass --templates, set SPECGEN_TEMPLATES, or add it to specgen.json"
  | document fault => fault.message
  | source fault => fault.message
  | rendering fault => fault.message
  | project fault => fault.message
  | stated .reference about _ => (Fault.unresolved about).message
  | stated _ about _ => about

end Failure

end ApiModel
