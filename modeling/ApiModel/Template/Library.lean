import ApiModel.Template.Engine

/-!
# Templates in a folder

A library is a folder of templates with an engine for them. A template is rendered with the fields
of a mapping as its names.
-/

namespace ApiModel.Template

/-- Why a library yields no text. -/
inductive Fault where
  | noFolder (folder : String)
  | missing (template folder : String)
  | malformed (template why : String)
  | failed (template why : String)
  /-- What a template is to be rendered with is no mapping. -/
  | noContext
  /-- Something else was raised on the way, with these words. -/
  | raised (why : String)
  deriving Inhabited

/-- The wording of a fault. -/
def Fault.message : Fault → String
  | noFolder folder => "Template directory not found: " ++ folder
  | missing template folder => "Template '" ++ template ++ "' not found in " ++ folder
  | malformed template why => "Cannot load template '" ++ template ++ "': " ++ why
  | failed template why => "Failed to render '" ++ template ++ "': " ++ why
  | noContext => "a context that is no mapping"
  | raised why => why

/-- The fault of a template that the engine cannot load. -/
def LoadProblem.fault (template folder : String) : LoadProblem → Fault
  | missing => .missing template folder
  | malformed why => .malformed template why
  | raised why => .raised why

/-- The fault of a template that gives no text. -/
def RenderProblem.fault (template : String) : RenderProblem → Fault
  | failed why => .failed template why
  | raised why => .raised why

/-- A folder of templates, and the engine for them. -/
structure Library where
  folder : Folder
  path : Path
  engine : Engine

namespace Library

/-- The library at a path, with the given engine. -/
def openBy (engine : Engine) (folder : Folder) (path : String) : Except Fault Library :=
  let path := Path.ofText path
  match folder.entry path with
  | .folder => .ok ⟨folder, path, engine⟩
  | .hidden why => .error (.raised why)
  | .nothing | .file _ => .error (.noFolder path.text)

/-- The library at a path, with the basic engine. -/
def open? (folder : Folder) (path : String) : Except Fault Library := openBy .basic folder path

/-- The names of all templates, sorted. -/
def names (l : Library) : List String :=
  ((l.folder.below l.path).map fun steps => "/".intercalate steps).mergeSort
    fun a b => !decide (b < a)

/-- The names that the fields of a mapping are, the last of them first. -/
def bindings (entries : List (Scalar × Node)) : Variables :=
  entries.filterMap fun e =>
    match e.1 with
    | .text name => some (name, e.2)
    | _ => none

/-- Render a template with the fields of a mapping, and with further names before them. -/
def render (l : Library) (template : String) (context : Node) (extra : Variables) :
    Except Fault String := do
  let some entries := context.entries? | .error .noContext
  let loaded ← (l.engine.load l.folder l.path template).mapError (·.fault template l.path.text)
  (loaded (extra ++ bindings entries)).mapError (·.fault template)

end Library

end ApiModel.Template
