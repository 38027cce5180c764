import ApiModel.Json.Reader
import ApiModel.Yaml.Cursor

/-!
# Why a source yields no document

A document is read from a text, and the text from a file, from the input or from the network.
Each of these can go wrong; `Source.Fault` says how, and its message names the source.
-/

namespace ApiModel.Source

/-- Why a source yields no document. -/
inductive Fault where
  | missingFile (path : String)
  | unreadableFile (path why : String)
  | emptyFile (path : String)
  | emptyInput
  | refused (status : Int) (url : String)
  | unreachable (url why : String)
  /-- The text holds something else than a mapping. -/
  | notMapping (source : String) (document : Node)
  | notJson (source : String) (error : Json.Error)
  /-- The text is not YAML, and not JSON either if it was read as such. -/
  | undecodable (source : String) (json : Option Json.Error)
  /-- The text is well formed, but one of its values cannot be represented. -/
  | unusable
  /-- Something else was raised on the way, with these words. -/
  | raised (why : String)
  deriving Inhabited

/-- What was found in place of a mapping. -/
def foundText (document : Node) : String :=
  if document.isNull then "empty document" else document.kindName

/-- The wording of a fault. -/
def Fault.message : Fault → String
  | missingFile path => "Spec file not found: " ++ path
  | unreadableFile path why => "Failed to read spec file " ++ path ++ ": " ++ why
  | emptyFile path => "Spec file is empty: " ++ path
  | emptyInput => "No input received from stdin"
  | refused status url => "HTTP " ++ toString status ++ " fetching spec from " ++ url
  | unreachable url why => "Failed to fetch spec from " ++ url ++ ": " ++ why
  | notMapping source document =>
    source ++ ": expected a mapping at the top level, got " ++ foundText document
  | notJson source error => source ++ ": invalid JSON: " ++ error.message
  | undecodable source json =>
    let errors := (json.map fun e => "JSON error: " ++ e.message).toList ++
      ["YAML error: not a single document"]
    source ++ ": failed to parse spec as JSON or YAML\n  " ++ "\n  ".intercalate errors
  | unusable => "a value that cannot be represented"
  | raised why => why

end ApiModel.Source
