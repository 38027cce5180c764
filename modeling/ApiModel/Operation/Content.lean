import ApiModel.Report
import ApiModel.Text.Cut

/-!
# Content

A body may be offered in several media types. `Content.choose` picks one that has a schema: the
best known one in the order of `mediaTypes`, or else the first. The parameters of a media type,
after its semicolon, do not count.
-/

namespace ApiModel.Content

/-- The media types that are preferred, best first. -/
def mediaTypes : List String :=
  ["application/json-patch+json", "application/json", "application/x-www-form-urlencoded",
    "text/json", "text/plain", "multipart/form-data", "multipart/mixed", "multipart/related",
    "multipart/batch"]

/-- The media types of forms. -/
def formTypes : List String := ["application/x-www-form-urlencoded", "multipart/form-data"]

/-- A media type without its parameters. -/
def essence (mediaType : String) : String :=
  String.ofList (Text.trim (Text.before ';' mediaType.toList))

/-- The entries whose schema is a mapping, with their schemas. -/
def withSchema (entries : List (Scalar × Node)) : List (Scalar × Node) :=
  entries.filterMap fun e =>
    let schema := e.2.field "schema"
    if schema.isMap then some (e.1, schema) else none

/-- An entry under a text key. -/
def textual? : Scalar × Node → Option (String × Node)
  | (.text key, schema) => some (key, schema)
  | _ => none

/-- The first candidate with the given essence. -/
def find? (candidates : List (String × Node)) (wanted : String) : Option (String × Node) :=
  candidates.find? fun c => essence c.1 = wanted

/-- The candidate of the best known media type, or else the first. -/
def best (candidates : List (String × Node)) : Option (String × Node) :=
  (mediaTypes.findSome? (find? candidates)).or candidates.head?

/-- The entries before the first key that is no text. -/
def textualHead : List (Scalar × Node) → List (String × Node)
  | (.text key, schema) :: rest => (key, schema) :: textualHead rest
  | _ => []

/-- The choice where some key is no text. The keys are gone through for the very best media type
first, and what is found before the key that is no text is the choice. -/
def bestBeforeForeign? (candidates : List (Scalar × Node)) : Option (String × Node) :=
  mediaTypes.head?.bind (find? (textualHead candidates))

/-- The media type and the schema that are picked, if there is a schema at all. A key that is no
text is a fault unless the choice falls before it. -/
def choose (content : Node) : Built (Option (String × Node)) :=
  match content with
  | .map entries =>
    let candidates := withSchema entries
    match candidates.mapM textual? with
    | some texts => pure (best texts)
    | none => some <$> Report.ofOption .malformed (bestBeforeForeign? candidates)
  | _ => pure none

end ApiModel.Content
