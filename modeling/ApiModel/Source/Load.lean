import ApiModel.Folder
import ApiModel.Source.Reading

/-!
# Loading a document

A source is a hyphen for the input, an address of the network, or the path of a file. The suffix
of a file and the content type of a response give a hint what the text is.

That a file cannot be read is a fault of the source. That it holds no text is not foreseen, and
neither is anything that goes wrong with the input.
-/

namespace ApiModel.Source

/-- What the network answers to a request. -/
inductive Fetched where
  | response (status : Int) (contentType : String) (body : String)
  | failure (why : String)
  /-- Something was raised that is no failure of a request. -/
  | raised (why : String)

/-- Everything a document can be loaded from, and the reader of YAML. -/
structure Surroundings where
  folder : Folder
  input : Content
  fetch : String → Fetched
  yaml : Yaml.Reader := Yaml.read

/-- Is there nothing but white space? -/
def isBlank (s : String) : Bool := s.toList.all Unicode.isBlank

/-- The hint that the suffix of a file gives. -/
def hintOfSuffix (suffix : String) : Hint :=
  if suffix = ".json" then .json
  else if suffix = ".yaml" ∨ suffix = ".yml" then .yaml
  else .unknown

/-- The hint that a content type gives. -/
def hintOfContentType (contentType : String) : Hint :=
  let mentions (word : String) := Text.occursIn word.toList contentType.toList
  if mentions "json" then .json
  else if mentions "yaml" || mentions "yml" then .yaml
  else .unknown

section Loading

variable (yaml : Yaml.Reader)

/-- Load the document of a text that is not blank. -/
def loadText (blank : Fault) (hint : Hint) (source text : String) : Except Fault Node :=
  if isBlank text then .error blank else readBy yaml text hint source

/-- Load the document of a file. -/
def loadFile (folder : Folder) (path : Path) : Except Fault Node :=
  match folder.entry path with
  | .hidden why => .error (.raised why)
  | .nothing | .folder => .error (.missingFile path.text)
  | .file content =>
    match content.unified with
    | .refused why => .error (.unreadableFile path.text why)
    | .garbled why => .error (.raised why)
    | .text text =>
      loadText yaml (.emptyFile path.text) (hintOfSuffix path.suffix) path.text text

/-- Load the document of the input. -/
def loadInput : Content → Except Fault Node
  | .refused why | .garbled why => .error (.raised why)
  | .text text => loadText yaml .emptyInput .unknown "stdin" text

/-- Load the document of a response of the network. -/
def loadFetched (url : String) : Fetched → Except Fault Node
  | .raised why => .error (.raised why)
  | .failure why => .error (.unreachable url why)
  | .response status contentType body =>
    if 200 ≤ status && status < 300 then readBy yaml body (hintOfContentType contentType) url
    else .error (.refused status url)

end Loading

/-- Is the source an address of the network? -/
def isAddress (source : String) : Bool :=
  source.startsWith "http://" || source.startsWith "https://"

/-- Load a document. -/
def load (around : Surroundings) (source : String) : Except Fault Node :=
  if source = "-" then loadInput around.yaml around.input
  else if isAddress source then loadFetched around.yaml source (around.fetch source)
  else loadFile around.yaml around.folder (.ofText source)

end ApiModel.Source
