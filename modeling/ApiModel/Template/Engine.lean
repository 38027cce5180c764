import ApiModel.Folder
import ApiModel.Template.Render

/-!
# Template engines

An engine is asked for the template of a name in a folder, and a template for the text that it
gives with the values of names. Each of the two may fail in ways that the engine has words for,
and besides anything at all may be raised.

How templates are written is the engine's own matter. `Engine.basic` is a small one: it knows the
templates that are made of a `Piece` after the other, and finds everything else malformed.
-/

namespace ApiModel.Template

/-- Why an engine has no template of a name. -/
inductive LoadProblem where
  | missing
  | malformed (why : String)
  | raised (why : String)

/-- Why a template gives no text. -/
inductive RenderProblem where
  | failed (why : String)
  | raised (why : String)

/-- A template that has been loaded. -/
abbrev Loaded := Variables → Except RenderProblem String

/-- An engine: the template that it loads from the folder at a path by its name. -/
structure Engine where
  load : Folder → Path → String → Except LoadProblem Loaded

namespace Engine

/-- The text of the template of a name: that of a file in the folder. The name may not lead out of
it. -/
def textOf (folder : Folder) (path : Path) (name : String) : Except LoadProblem String :=
  let steps := Path.stepsOf name
  if steps.contains ".." then .error .missing
  else
    match folder.entry (path.follow steps) with
    | .file content =>
      match content.unified with
      | .text text => .ok text
      | .refused why | .garbled why => .error (.raised why)
    | _ => .error .missing

/-- What is reported of a problem in rendering. -/
def reported (p : Problem) : RenderProblem :=
  match p with
  | .notIterable => .raised p.message
  | _ => .failed p.message

/-- An engine for templates that are made of pieces. -/
def basic : Engine where
  load folder path name := do
    let text ← textOf folder path name
    match Piece.ofText? text with
    | none => .error (.malformed "its tags do not fit together")
    | some pieces => .ok fun vars => (Piece.renderAll vars pieces).mapError reported

end Engine

end ApiModel.Template
