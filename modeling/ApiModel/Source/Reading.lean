import ApiModel.Source.Fault
import ApiModel.Yaml.Value

/-!
# Reading a document

A text is read as JSON first and as YAML second. Where a hint says what it is, only that is tried.
A text that is JSON is never taken for YAML, even if it does not hold a mapping.

The reader of YAML is a parameter: what is said of decoding holds for every reader that finds a
text to be a document, or no YAML, or YAML with a value that it cannot represent.
-/

namespace ApiModel.Source

/-- What a text is said to be. -/
inductive Hint where
  | json
  | yaml
  | unknown
  deriving DecidableEq, Repr, Inhabited

/-- The hint that a word gives. -/
def Hint.ofWord (word : String) : Hint :=
  if word = "json" then json else if word = "yaml" then yaml else unknown

/-- A document that is a mapping. -/
def requireMapping (source : String) (document : Yaml.Document) : Except Fault Yaml.Document :=
  if document.root.isMap then .ok document else .error (.notMapping source document.root)

section Decoding

variable (yaml : Yaml.Reader) (source text : String)

/-- Decode a text as YAML, after it has been found not to be JSON in the given way, if at all. -/
def decodeYaml (json : Option Json.Error) : Except Fault Yaml.Document :=
  match yaml text with
  | .ok document => requireMapping source document
  | .error .invalid => .error (.undecodable source json)
  | .error .unusable => .error .unusable

/-- Decode a text as JSON and, if it is none and may be something else, as YAML. No part of a JSON
text holds itself. -/
def decodeJson (hint : Hint) : Except Fault Yaml.Document :=
  match Json.read text with
  | .ok root => requireMapping source { root, loops := false }
  | .error e =>
    if e.problem = .hugeInteger then .error .unusable
    else if hint = .json then .error (.notJson source e)
    else decodeYaml yaml source text (some e)

end Decoding

/-- Decode a text, where YAML is what the given reader says it is. -/
def decode (yaml : Yaml.Reader) (text : String) (hint : Hint) (source : String) :
    Except Fault Yaml.Document :=
  if hint = .yaml then decodeYaml yaml source text none else decodeJson yaml source text hint

/-- Read a document as a tree. A mapping with a part that holds itself has no end. -/
def readBy (yaml : Yaml.Reader) (text : String) (hint : Hint) (source : String) :
    Except Fault Node := do
  let document ← decode yaml text hint source
  if document.loops then .error .unusable else .ok document.root

/-- Read a document as a tree with the reader of this library. -/
def read (text : String) (hint : Hint) (source : String) : Except Fault Node :=
  readBy Yaml.read text hint source

end ApiModel.Source
