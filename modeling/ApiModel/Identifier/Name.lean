import ApiModel.Identifier.Camel

/-!
# Names

Every name in a model is made here from a name in a document: services, operations, parameters,
properties, members of enumerations, types. Two builders therefore never disagree on how a
document's name is spelled.
-/

namespace ApiModel.Identifier

/-! ## Bare identifiers -/

/-- The words that cannot stand alone as an identifier. -/
def reserved : List String :=
  ["arguments", "break", "case", "catch", "class", "const", "continue", "debugger", "default",
    "delete", "do", "else", "enum", "eval", "export", "extends", "false", "finally", "for",
    "function", "if", "implements", "import", "in", "instanceof", "interface", "let", "new",
    "null", "package", "private", "protected", "public", "return", "static", "super", "switch",
    "this", "throw", "true", "try", "typeof", "var", "void", "while", "with", "yield"]

/-- Put an underscore before a reserved word. -/
def escapeReserved (s : String) : String :=
  if reserved.contains s then "_" ++ s else s

/-- Can the character begin an identifier? -/
def isHead (c : Char) : Bool := isAsciiLetter c || c == '_' || c == '$'

/-- Can the character go on an identifier? -/
def isTail (c : Char) : Bool := Unicode.isWord c || c == '$'

/-- Is the text an identifier? -/
def isIdentifier : List Char → Bool
  | [] => false
  | c :: rest => isHead c && rest.all isTail

/-- A text without a line feed at its end. -/
def dropFinalBreak (s : List Char) : List Char :=
  if s.getLast? = some '\n' then s.dropLast else s

/-- The name of a property: in quotes unless it is an identifier, a line feed at its end
aside. -/
def propertyName (s : String) : String :=
  if isIdentifier (dropFinalBreak s.toList) then s else "'" ++ s ++ "'"

/-! ## Names in camel case -/

/-- A name from its first ASCII letter on, with a hyphen for every run of other characters than
those of words. -/
def clean (s : List Char) : List Char :=
  Text.squeeze (fun c => !(Unicode.isWord c || c == '-')) '-'
    (s.dropWhile fun c => !isAsciiLetter c)

/-- The name of the service of a tag. -/
def serviceName (tag : String) : String :=
  let name := camelCase true (clean tag.toList)
  if name.isEmpty then "Default" else String.ofList name

/-- The name of a parameter. -/
def parameterName (s : String) : String :=
  escapeReserved (String.ofList (camelCase false (clean s.toList)))

/-- The place of the version in a path. -/
def versionPlace : List Char := "\x7bapi-version\x7d".toList

/-- Does the place of the version occur on the last line of a segment of a path? -/
def carriesVersion (segment : List Char) : Bool :=
  Text.occursIn versionPlace (segment.reverse.takeWhile (· != '\n')).reverse

/-- A path without the segments that carry the version; the last segment stays. -/
def dropVersion (url : List Char) : List Char :=
  let segments := Text.split '/' url
  Text.join ['/']
    (segments.dropLast.filter (fun s => !carriesVersion s) ++ segments.getLast?.toList)

/-- The words of a path: its segments with hyphens between them, without the places of
parameters. -/
def pathWords (url : List Char) : List Char :=
  (Text.replaceBraced (fun _ => []) (dropVersion url)).map fun c => if c == '/' then '-' else c

/-- The name of an operation: from its identifier if it has one that is not empty, else from its
method and path. -/
def operationName (url method : String) (id : Option String) : String :=
  match id.filter (· ≠ "") with
  | some id => String.ofList (camelCase false (clean id.toList))
  | none => String.ofList (camelCase false (method.toList ++ '-' :: pathWords url.toList))

/-! ## Other names -/

/-- Put an underscore between a small ASCII letter and a capital one. -/
def splitCapitals : List Char → List Char
  | c :: d :: rest =>
    if 'a' ≤ c && c ≤ 'z' && 'A' ≤ d && d ≤ 'Z' then c :: '_' :: splitCapitals (d :: rest)
    else c :: splitCapitals (d :: rest)
  | s => s

/-- Put an underscore before a digit at the front. -/
def guardDigit : List Char → List Char
  | c :: rest => if Unicode.isDecimal c then '_' :: c :: rest else c :: rest
  | [] => []

/-- The name of the member of an enumeration with the given value: capitals, digits and
underscores. -/
def memberName (s : String) : String :=
  String.ofList <| Unicode.upper <| splitCapitals <| guardDigit <|
    Text.squeeze (fun c => !Unicode.isWord c) '_' s.toList

/-- The name of a type: an identifier, or nothing. -/
def typeName (s : List Char) : List Char :=
  Text.squeeze (fun c => !isTail c) '_' (s.dropWhile fun c => !isHead c)

end ApiModel.Identifier
