import ApiModel.Model.Basic

/-!
# Enumerations

The members of an enumeration come from the `enum` list of a schema, or from a description such
as `None=0,Some=1`. Only texts and numbers are members, and each value once. Vendor keywords may
give the members names and descriptions, matched by position.
-/

namespace ApiModel

namespace EnumMember

/-- A text in single quotes, with a backslash before each quote in it. -/
def textLiteral (s : String) : String :=
  String.ofList ('\x27' ::
    (s.toList.flatMap fun c => if c == '\x27' then ['\\', c] else [c]) ++ ['\x27'])

/-- A number without a fraction that is zero. As in `Scalar.display` no number is too long. -/
def numberLiteral : Scalar → String
  | .float x =>
    match Decimal.whole? x with
    | some n => toString n
    | none => (Scalar.float x).display
  | s => s.display

/-- The member of a text. -/
def ofText (s : String) : EnumMember :=
  { name := Identifier.memberName s, value := textLiteral s, type := "string" }

/-- The member of a number. -/
def ofNumber (s : Scalar) : EnumMember :=
  { name := "_" ++ numberLiteral s, value := numberLiteral s, type := "number" }

end EnumMember

/-! ## From a list of values -/

namespace Scalar

/-- Is the scalar a text or a number? -/
def isMember : Scalar → Bool
  | text _ | int _ | float _ => true
  | _ => false

/-- The member of an enumeration that a scalar stands for. -/
def toMember : Scalar → EnumMember
  | text s => .ofText s
  | s => .ofNumber s

end Scalar

namespace Enumeration

/-- The texts and numbers among some nodes. -/
def memberValues (values : List Node) : List Scalar :=
  values.filterMap fun
    | .scalar s => if s.isMember then some s else none
    | _ => none

/-- Drop the values that have been seen, with a notice for each. -/
def distinct (seen : List Scalar) : List Scalar → Built (List Scalar)
  | [] => pure []
  | s :: rest => do
    if seen.any (·.same s) then
      Report.note (.duplicateMember (.scalar s))
      distinct seen rest
    else
      pure (s :: (← distinct (seen ++ [s]) rest))

/-- The members of an `enum` list. What is no list has no members. -/
def ofNode : Node → Built (List EnumMember)
  | .list values => do pure ((← distinct [] (memberValues values)).map Scalar.toMember)
  | _ => pure []

/-! ## Vendor names and descriptions -/

/-- The text at a position, if there is one that is not empty. -/
def textAt? (texts : List String) (position : Nat) : Option String :=
  texts[position]?.filter (· ≠ "")

/-- Rename and describe members by their positions. -/
def annotate (names descriptions : List String) (members : List EnumMember) : List EnumMember :=
  members.mapIdx fun i m =>
    { m with
      name := (textAt? names i).getD m.name
      description := (textAt? descriptions i).or m.description }

/-- The texts of a keyword that lists texts; a node that cannot be gone through is a fault. -/
def vendorTexts (schema : Node) (keyword : String) : Built (List String) :=
  let value := schema.field keyword
  if value.truthy then
    Node.texts <$> Report.ofOption .malformed value.members?
  else pure []

/-- The members with the names and descriptions that the vendor keywords of a schema give. -/
def extend (schema : Node) (members : List EnumMember) : Built (List EnumMember) := do
  let names ← vendorTexts schema "x-enum-varnames"
  let descriptions ← vendorTexts schema "x-enum-descriptions"
  pure (annotate names descriptions members)

/-! ## From a description -/

/-- What has just been read of a description: a word, or a word, an equals sign and digits. -/
inductive Clause where
  | word (name : List Char)
  | pair (name digits : List Char)

/-- A character after something that is no word. -/
def Clause.begin (c : Char) : Clause := .word (if Unicode.isWord c then [c] else [])

/-- The pairs of a word and a number, joined by an equals sign, in a description. -/
def pairsFrom : Clause → List Char → List (List Char × List Char)
  | .word _, [] => []
  | .pair name digits, [] => if digits.isEmpty then [] else [(name, digits)]
  | .word name, c :: rest =>
    if Unicode.isWord c then pairsFrom (.word (name ++ [c])) rest
    else if c == '=' && !name.isEmpty then pairsFrom (.pair name []) rest
    else pairsFrom (.word []) rest
  | .pair name digits, c :: rest =>
    if c.isDigit then pairsFrom (.pair name (digits ++ [c])) rest
    else if digits.isEmpty then pairsFrom (.begin c) rest
    else (name, digits) :: pairsFrom (.begin c) rest

/-- Does a description begin with a pair? -/
def beginsWithPair (s : List Char) : Bool :=
  let name := s.takeWhile Unicode.isWord
  match s.dropWhile Unicode.isWord with
  | '=' :: d :: _ => !name.isEmpty && d.isDigit
  | _ => false

/-- The member of a pair; a number with too many digits is a fault. -/
def ofPair (pair : List Char × List Char) : Built EnumMember := do
  let n ← Report.ofOption .malformed (Decimal.readInt? pair.2)
  pure
    { name := Identifier.memberName (String.ofList pair.1), value := toString n, type := "number" }

/-- Members for the pairs whose names have not been seen. -/
def ofPairs (seen : List String) : List (List Char × List Char) → Built (List EnumMember)
  | [] => pure []
  | pair :: rest => do
    if seen.contains (Identifier.memberName (String.ofList pair.1)) then ofPairs seen rest
    else
      let m ← ofPair pair
      pure (m :: (← ofPairs (m.name :: seen) rest))

/-- The members that a description lists, if it begins with one. -/
def ofDescription (s : String) : Built (List EnumMember) :=
  if beginsWithPair s.toList then ofPairs [] (pairsFrom (.word []) s.toList) else pure []

end Enumeration

end ApiModel
