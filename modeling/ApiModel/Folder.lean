import ApiModel.Text.Cut
import ApiModel.Unicode.Case

/-!
# Files and folders

A path leads to a file or a folder, from the folder in which a program works or from the root of
all folders. What is there is up to the system: a `Folder` says it for every path, also for one that
leads out of the folder. A file may be there and not be readable, or hold bytes that are no text,
and it may even be impossible to tell what is there.

On reading a path empty steps and single dots fall away, whereas a double dot stays: it leads back
only if there is a folder to lead back from. `Folder.ofFiles` is a system with some files and the
folders around them, and with nothing else.
-/

namespace ApiModel

/-! ## Paths -/

/-- A path: the slashes with which it starts if it starts at the root, and its steps. -/
structure Path where
  root : String := ""
  steps : List String
  deriving DecidableEq, Repr, Inhabited

namespace Path

/-- The slashes at the start of a path. Two of them are kept, and more are as good as one. -/
def rootOf (s : String) : String :=
  match s.toList.takeWhile (· == '/') with
  | [] => ""
  | ['/', '/'] => "//"
  | _ => "/"

/-- The steps between the slashes of a text. -/
def stepsOf (s : String) : List String :=
  ((Text.split '/' s.toList).map String.ofList).filter fun step => step ≠ "" ∧ step ≠ "."

/-- The path that a text names. -/
def ofText (s : String) : Path := { root := rootOf s, steps := stepsOf s }

/-- A path as a text; the path without steps is a dot. -/
def text (p : Path) : String :=
  if p.root = "" ∧ p.steps = [] then "." else p.root ++ "/".intercalate p.steps

/-- Does the path start at the root? -/
def isAbsolute (p : Path) : Bool := p.root ≠ ""

/-- A path with further steps. -/
def follow (p : Path) (steps : List String) : Path := { p with steps := p.steps ++ steps }

/-- What stands from the last dot of a name on, if something stands before and after it. -/
def nameSuffix (name : List Char) : List Char :=
  let extension := (name.reverse.takeWhile (· != '.')).reverse
  if extension.isEmpty || name.length ≤ extension.length + 1 then [] else '.' :: extension

/-- The suffix of the last step of a path, in small letters. -/
def suffix (p : Path) : String :=
  String.ofList (Unicode.lower (nameSuffix ((p.steps.getLast?).getD "").toList))

end Path

/-! ## What is at a path -/

/-- What reading a file or a stream yields. -/
inductive Content where
  | text (s : String)
  /-- It cannot be read, for the given reason. -/
  | refused (why : String)
  /-- It can be read, and is no text, for the given reason. -/
  | garbled (why : String)
  deriving Repr, Inhabited

instance : Coe String Content := ⟨.text⟩

/-- The content with every line ending as a line feed. -/
def Content.unified : Content → Content
  | text s => text (String.ofList (Text.unifyLineEnds s.toList))
  | c => c

/-- What is at a path. -/
inductive Entry where
  /-- Neither a folder nor a file. -/
  | nothing
  | folder
  | file (content : Content)
  /-- Nobody may tell what is there, for the given reason. -/
  | hidden (why : String)
  deriving Repr, Inhabited

/-- The folder in which a program works: its own path, and what is at every other path. -/
structure Folder where
  location : String
  entry : Path → Entry
  /-- The files in the folder at a path and in the folders inside it, by their steps from there. -/
  below : Path → List (List String)

/-! ## Systems with some files -/

/-- Files by their steps from the root, and the steps to the folder in use. -/
structure FileTree where
  home : List String
  files : List (List String × Content)

namespace FileTree

/-- Is there a folder at the given steps? -/
def hasFolder (t : FileTree) (place : List String) : Bool :=
  place.isPrefixOf t.home || t.files.any fun file => place.isPrefixOf file.1 && place != file.1

/-- Follow steps from a place. Only folders can be passed through, and above the root there is the
root again. -/
def walk (t : FileTree) (here : List String) : List String → Option (List String)
  | [] => some here
  | step :: rest =>
    if !t.hasFolder here then none
    else if step = ".." then walk t here.dropLast rest
    else walk t (here ++ [step]) rest

/-- The place to which a path leads. -/
def locate? (t : FileTree) (p : Path) : Option (List String) :=
  t.walk (if p.isAbsolute then [] else t.home) p.steps

/-- What is at a path. -/
def entry (t : FileTree) (p : Path) : Entry :=
  match t.locate? p with
  | none => .nothing
  | some place =>
    match t.files.lookup place with
    | some content => .file content
    | none => if t.hasFolder place then .folder else .nothing

/-- The files below a path, by their steps from there. -/
def below (t : FileTree) (p : Path) : List (List String) :=
  match t.locate? p with
  | none => []
  | some place =>
    t.files.filterMap fun file =>
      if place.isPrefixOf file.1 && place != file.1 then some (file.1.drop place.length) else none

end FileTree

/-- A folder among the given files, whose paths are texts. -/
def Folder.ofFiles (location : String) (files : List (String × String)) : Folder :=
  let home := Path.stepsOf location
  let place (path : Path) := if path.isAbsolute then path.steps else home ++ path.steps
  let tree : FileTree := { home, files := files.map fun f => (place (.ofText f.1), .text f.2) }
  { location, entry := tree.entry, below := tree.below }

end ApiModel
