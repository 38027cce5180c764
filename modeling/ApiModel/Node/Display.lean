import ApiModel.Node
import ApiModel.Unicode.Half
import ApiModel.Unicode.Printable

/-!
# The text of a node

A node has two texts. As `display` it stands in a name or a message: a text is itself. As
`literal` it shows what kind of value it is: a text stands in quotes, with a backslash before
what would end it and with an escape for every character that cannot be shown. Inside lists and
mappings only literals stand.

The limit of `Decimal.maxDigits` digits is one of reading here. An integer beyond it, which a YAML
document can spell in hexadecimal digits, is displayed and written as JSON like any other, where a
program whose runtime limits writing too would end unexpectedly.
-/

namespace ApiModel

/-- The written form of a double: no exponent from one ten-thousandth up to sixteen digits, and
at least two digits in an exponent. -/
def plainLayout : Decimal.Layout :=
  { leastPoint := -3
    greatestPoint := 16
    exponentDigits := 2
    nan := "nan"
    infinity := "inf" }

namespace Text

/-- A character's code in hexadecimal digits, at least `width` of them. -/
def hex (width : Nat) (c : Char) : List Char :=
  Decimal.padZeros width (Nat.toDigits 16 (Unicode.codeOf c))

/-- A character of a literal between the given quotes. -/
def literalChar (quote c : Char) : List Char :=
  if c == quote || c == '\\' then ['\\', c]
  else if c == '\n' then ['\\', 'n']
  else if c == '\r' then ['\\', 'r']
  else if c == '\t' then ['\\', 't']
  else if Unicode.isPrintable c then [c]
  else if c.toNat < 0x100 then '\\' :: 'x' :: hex 2 c
  else if Unicode.codeOf c < 0x10000 then '\\' :: 'u' :: hex 4 c
  else '\\' :: 'U' :: hex 8 c

/-- A text in quotes: single ones, unless the text holds those and no double one. -/
def literal (s : List Char) : List Char :=
  let quote := if s.contains '\x27' && !s.contains '"' then '"' else '\x27'
  quote :: (s.flatMap (literalChar quote) ++ [quote])

end Text

namespace Scalar

/-- The scalar as it stands in a name or a message. -/
def display : Scalar → String
  | null => "None"
  | bool true => "True"
  | bool false => "False"
  | int n => toString n
  | float x => plainLayout.text x
  | text s => s
  | date d => d.iso
  | timestamp t => t.iso " "

/-- The scalar as it shows its kind. -/
def literal : Scalar → String
  | text s => String.ofList (Text.literal s.toList)
  | date d => d.literal
  | timestamp t => t.literal
  | s => s.display

end Scalar

namespace Node

mutual

/-- The node as it shows its kind. -/
def literal : Node → String
  | scalar s => s.literal
  | list items => "[" ++ ", ".intercalate (literalItems items) ++ "]"
  | map entries => "\x7b" ++ ", ".intercalate (literalEntries entries) ++ "\x7d"

/-- The literals of the items of a list. -/
def literalItems : List Node → List String
  | [] => []
  | n :: rest => n.literal :: literalItems rest

/-- The literals of entries: the key, a colon, the value. -/
def literalEntries : List (Scalar × Node) → List String
  | [] => []
  | (k, v) :: rest => (k.literal ++ ": " ++ v.literal) :: literalEntries rest

end

/-- The node as it stands in a name or a message. -/
def display : Node → String
  | scalar s => s.display
  | n => n.literal

end Node

end ApiModel
