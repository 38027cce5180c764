import ApiModel.Node.Display

/-!
# Writing JSON

A node is written on one line, or over several lines with an indent. Every text key stays a text;
a number or truth value as a key becomes the text of its JSON form. Dates are no JSON values, so
a tree that holds one cannot be written; `Fault` says what stood in the way. Integers are written
whatever their length.
-/

namespace ApiModel.Json

/-- The written form of a double in JSON. The words for infinity and NaN go beyond the standard,
and the reader accepts them. -/
def layout : Decimal.Layout :=
  { plainLayout with nan := "NaN", infinity := "Infinity" }

/-- How to write: the indent of each level, if any, and whether to escape all above ASCII. -/
structure Style where
  indent : Option Nat
  ascii : Bool

/-- Why a node has no JSON form. -/
inductive Fault where
  | value (kindName : String)
  | key (kindName : String)

/-- The wording of a fault. -/
def Fault.message : Fault → String
  | .value k => "Object of type " ++ k ++ " is not JSON serializable"
  | .key k => "keys must be str, int, float, bool or None, not " ++ k

/-! ## Texts -/

/-- A code of sixteen bits as an escape. -/
def escapeUnit (n : Nat) : List Char :=
  '\\' :: 'u' :: Decimal.padZeros 4 (Nat.toDigits 16 n)

/-- A character as one or two escapes of sixteen bits. -/
def escapeChar (c : Char) : List Char :=
  let n := Unicode.codeOf c
  if n < 0x10000 then escapeUnit n
  else
    escapeUnit (0xD800 + (n - 0x10000) / 0x400) ++ escapeUnit (0xDC00 + (n - 0x10000) % 0x400)

/-- A character inside of quotes. -/
def quotedChar (ascii : Bool) (c : Char) : List Char :=
  if c == '"' || c == '\\' then ['\\', c]
  else if c == '\n' then ['\\', 'n']
  else if c == '\r' then ['\\', 'r']
  else if c == '\t' then ['\\', 't']
  else if c == '\x08' then ['\\', 'b']
  else if c == '\x0c' then ['\\', 'f']
  else if c.toNat < 32 then escapeUnit c.toNat
  else if ascii && 127 ≤ c.toNat then escapeChar c
  else [c]

/-- A text in quotes. -/
def quoted (ascii : Bool) (s : String) : String :=
  String.ofList ('"' :: (s.toList.flatMap (quotedChar ascii) ++ ['"']))

/-! ## Scalars and keys -/

/-- The JSON form of a scalar. -/
def scalarText (ascii : Bool) : Scalar → Except Fault String
  | .null => pure "null"
  | .bool true => pure "true"
  | .bool false => pure "false"
  | .int n => pure (toString n)
  | .float x => pure (layout.text x)
  | .text s => pure (quoted ascii s)
  | s => throw (.value s.kindName)

/-- The JSON form of a key. -/
def keyText (ascii : Bool) : Scalar → Except Fault String
  | .text s => pure (quoted ascii s)
  | .date _ => throw (.key "date")
  | .timestamp _ => throw (.key "datetime")
  | s => do pure (quoted ascii (← scalarText ascii s))

/-! ## Trees -/

/-- A line break and the indent of a level; nothing when writing on one line. -/
def lineStart (style : Style) (level : Nat) : String :=
  match style.indent with
  | some n => "\n" ++ String.ofList (List.replicate (n * level) ' ')
  | none => ""

/-- Written parts between brackets, one to a line if there is an indent. -/
def bracketed (style : Style) (level : Nat) (opening closing : String) (parts : List String) :
    String :=
  let separator := if style.indent.isSome then "," else ", "
  opening ++ lineStart style (level + 1) ++
    (separator ++ lineStart style (level + 1)).intercalate parts ++
    lineStart style level ++ closing

mutual

/-- The JSON form of a node that starts on the given level. -/
def writeAt (style : Style) (level : Nat) : Node → Except Fault String
  | .scalar s => scalarText style.ascii s
  | .list [] => pure "[]"
  | .list items => do
    pure (bracketed style level "[" "]" (← writeItems style (level + 1) items))
  | .map [] => pure "\x7b\x7d"
  | .map entries => do
    pure (bracketed style level "\x7b" "\x7d" (← writeEntries style (level + 1) entries))

/-- The JSON forms of the items of a list. -/
def writeItems (style : Style) (level : Nat) : List Node → Except Fault (List String)
  | [] => pure []
  | n :: rest => do
    let first ← writeAt style level n
    pure (first :: (← writeItems style level rest))

/-- The JSON forms of entries. -/
def writeEntries (style : Style) (level : Nat) :
    List (Scalar × Node) → Except Fault (List String)
  | [] => pure []
  | (k, v) :: rest => do
    let key ← keyText style.ascii k
    let value ← writeAt style level v
    pure ((key ++ ": " ++ value) :: (← writeEntries style level rest))

end

/-- The JSON form of a node. -/
def write (style : Style) (n : Node) : Except Fault String := writeAt style 0 n

end ApiModel.Json
