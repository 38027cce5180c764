import ApiModel.Folder
import ApiModel.Json.Reader
import ApiModel.Model.Dump
import ApiModel.Model.Validation

/-!
# Projects

A folder may hold a file with the settings of a project. What the file does not say, or says in
passing, is settled in this order: the command line first, then the environment, then the file,
then the defaults.
-/

namespace ApiModel

/-- The settings of a project. -/
structure Project where
  spec : Option String := none
  templates : Option String := none
  outputFormat : String := "auto"
  deriving DecidableEq, Repr, Inhabited

namespace Project

/-- The name of the file with the settings. -/
def fileName : String := "specgen.json"

/-- Why a file holds no settings. -/
inductive Problem where
  | unreadable (why : String)
  | notJson (error : Json.Error)
  | notMapping
  | rejected (count : Nat)
  /-- One of the values cannot be represented. -/
  | unusable
  /-- The file holds no text. -/
  | garbled (why : String)
  /-- Nobody may tell whether there is such a file. -/
  | hidden (why : String)

/-- A problem of the file at a path. -/
structure Fault where
  path : String
  problem : Problem

/-- The wording of a problem. -/
def Problem.message : Problem → String
  | unreadable why | garbled why | hidden why => why
  | notJson error => error.message
  | notMapping => "expected a JSON object"
  | rejected count => (ApiModel.Fault.rejected "ProjectConfig" count).message
  | unusable => "a value that cannot be represented"

/-- Is the problem counted as one of the settings? -/
def Problem.isForeseen : Problem → Bool
  | unusable | garbled _ | hidden _ => false
  | _ => true

/-- Is the problem that nobody may tell whether there is a file? -/
def Problem.isHidden : Problem → Bool
  | hidden _ => true
  | _ => false

/-- The wording of a fault. -/
def Fault.message (f : Fault) : String :=
  if f.problem.isForeseen then "Invalid project config at " ++ f.path ++ ": " ++ f.problem.message
  else f.problem.message

/-! ## The file -/

/-- The keys of the settings. -/
def keys : List String := ["spec", "templates", "output_format"]

/-- The number of keys that are no settings. -/
def unknownKeys (n : Node) : Nat :=
  ((n.entries?.getD []).filter fun e => !keys.any fun k => e.1 = .text k).length

/-- A setting that may be missing. -/
def setting {α : Type} (n : Node) (key : String) (missing : α) (read : Node → Checked α) :
    Checked α :=
  match n.get? key with
  | some value => read value
  | none => pure missing

/-- The settings of a mapping. Every unknown key is a complaint. -/
def ofNode : Node → Checked Project :=
  Validation.mapping fun n => do
    let spec ← setting n "spec" none (Validation.nullable Validation.text)
    let templates ← setting n "templates" none (Validation.nullable Validation.text)
    let outputFormat ← setting n "output_format" "auto" Validation.text
    (⟨(), unknownKeys n⟩ : Checked Unit)
    pure { spec, templates, outputFormat }

/-- The settings as a mapping. -/
def toNode (p : Project) : Node :=
  .record [("spec", .ofText? p.spec), ("templates", .ofText? p.templates),
    ("output_format", .text p.outputFormat)]

/-- The settings that a text holds. -/
def parse (text : String) : Except Problem Project :=
  match Json.read text with
  | .error e => .error (if e.problem = .hugeInteger then .unusable else .notJson e)
  | .ok n => if n.isMap then (ofNode n).result.mapError .rejected else .error .notMapping

/-- The settings that the content of a file holds. -/
def ofContent : Content → Except Problem Project
  | .text text => parse text
  | .refused why => .error (.unreadable why)
  | .garbled why => .error (.garbled why)

/-- The path of the file with the settings, as messages name it. -/
def pathIn (folder : Folder) : String := ((Path.ofText folder.location).follow [fileName]).text

/-- The settings of a folder; without a file the defaults. -/
def load (folder : Folder) : Except Fault Project :=
  match folder.entry { steps := [fileName] } with
  | .nothing | .folder => .ok {}
  | .file content => (ofContent content.unified).mapError (⟨pathIn folder, ·⟩)
  | .hidden why => .error ⟨pathIn folder, .hidden why⟩

/-! ## Precedence -/

/-- What the command line says. -/
structure Override where
  spec : Option String := none
  templates : Option String := none
  outputFormat : Option String := none

/-- The variables of the environment. -/
abbrev Environment := List (String × String)

/-- A variable of the environment that is not empty. -/
def setVariable? (env : Environment) (name : String) : Option String :=
  (env.lookup name).filter (· ≠ "")

/-- The settings that count. -/
def settle (env : Environment) (override : Override) (p : Project) : Project :=
  { spec := (override.spec.or (setVariable? env "SPECGEN_SPEC")).or p.spec
    templates := (override.templates.or (setVariable? env "SPECGEN_TEMPLATES")).or p.templates
    outputFormat := override.outputFormat.getD p.outputFormat }

/-- The settings that count in a folder. -/
def resolve (folder : Folder) (env : Environment) (override : Override) :
    Except Fault Project :=
  (load folder).map (settle env override)

end Project

end ApiModel
