import ApiModel.Decimal.Reading
import ApiModel.Node
import ApiModel.Unicode.Half

/-!
# Reading JSON

The reader goes through the text once, character by character, and stops at the first character
that cannot belong to a document. Its errors say what was missing and where; the place is an
offset in characters, and `Error.message` turns it into a line and a column.

Beyond the standard the reader accepts the words for NaN and infinity, and it refuses a mark of
the byte order at the start. The budget of the recursion is the length of the text: every level
of nesting takes at least one character. It is no limit on the depth, as the stack of a machine is.
-/

namespace ApiModel.Json

/-- What is wrong with a text that is no JSON document. -/
inductive Problem where
  | value
  | propertyName
  | colon
  | comma
  | unterminated
  | badEscape
  | badUnicodeEscape
  | controlCharacter
  | extraData
  | byteOrderMark
  /-- An integer with more digits than can be read. -/
  | hugeInteger
  deriving DecidableEq, Repr

/-- The wording of a problem. -/
def Problem.message : Problem → String
  | value => "Expecting value"
  | propertyName => "Expecting property name enclosed in double quotes"
  | colon => "Expecting ':' delimiter"
  | comma => "Expecting ',' delimiter"
  | unterminated => "Unterminated string starting at"
  | badEscape => "Invalid \\escape"
  | badUnicodeEscape => "Invalid \\uXXXX escape"
  | controlCharacter => "Invalid control character at"
  | extraData => "Extra data"
  | byteOrderMark => "Unexpected UTF-8 BOM (decode using utf-8-sig)"
  | hugeInteger => "Exceeds the limit for integer string conversion"

/-- A problem and its place, with the characters before it. -/
structure Error where
  problem : Problem
  offset : Nat
  line : Nat
  column : Nat
  deriving DecidableEq, Repr

/-- The wording of an error. -/
def Error.message (e : Error) : String :=
  e.problem.message ++ ": line " ++ toString e.line ++ " column " ++ toString e.column ++
    " (char " ++ toString e.offset ++ ")"

/-- A problem at an offset of a text: lines and columns are counted from one. -/
def Error.at (problem : Problem) (text : List Char) (offset : Nat) : Error :=
  let before := text.take offset
  { problem, offset
    line := before.count '\n' + 1
    column := (before.reverse.takeWhile (· != '\n')).length + 1 }

/-- A problem, and how many characters of the text were left where it was found. -/
structure Stop where
  problem : Problem
  left : Nat

/-- Stop in front of the given characters. -/
def stop {α : Type} (problem : Problem) (s : List Char) : Except Stop α :=
  throw ⟨problem, s.length⟩

/-- Skip white space. -/
def skip (s : List Char) : List Char := s.dropWhile Unicode.isJsonBlank

/-! ## Texts -/

/-- The character of a short escape. -/
def shortEscape? : Char → Option Char
  | '"' => some '"'
  | '\\' => some '\\'
  | '/' => some '/'
  | 'b' => some '\x08'
  | 'f' => some '\x0c'
  | 'n' => some '\n'
  | 'r' => some '\r'
  | 't' => some '\t'
  | _ => none

/-- Four hexadecimal digits at the start of a text. -/
def hexUnit? (s : List Char) : Option Nat :=
  let digits := s.take 4
  if digits.length == 4 && digits.all fun c => c.toNat < 128 then Decimal.readNat? 16 digits
  else none

/-- The code of an escape of sixteen bits, and what follows it. A high half takes the low half
behind it along, and the two are one character. -/
def unicodeEscape (s : List Char) : Except Stop (Char × List Char) :=
  match hexUnit? s with
  | none => stop .badUnicodeEscape ('u' :: s)
  | some high =>
    let rest := s.drop 4
    if rest.isEmpty then stop .badUnicodeEscape ('u' :: s)
    else if 0xD800 ≤ high && high < 0xDC00 then
      match rest with
      | '\\' :: 'u' :: tail =>
        if tail.length ≤ 4 then pure (Unicode.ofCode high, rest)
        else
          match hexUnit? tail with
          | none => stop .badUnicodeEscape ('u' :: tail)
          | some low =>
            if 0xDC00 ≤ low && low < 0xE000 then
              pure (Char.ofNat (0x10000 + (high - 0xD800) * 0x400 + (low - 0xDC00)), tail.drop 4)
            else pure (Unicode.ofCode high, rest)
      | _ => pure (Unicode.ofCode high, rest)
    else pure (Unicode.ofCode high, rest)

/-- The rest of a text up to its closing quote. `start` counts the characters from the opening
quote on, which is where a text without an end is reported. -/
def readText (start : Nat) : Nat → List Char → List Char → Except Stop (String × List Char)
  | 0, _, _ => throw ⟨.unterminated, start⟩
  | _ + 1, _, [] => throw ⟨.unterminated, start⟩
  | budget + 1, done, c :: s =>
    if c == '"' then pure (String.ofList done.reverse, s)
    else if c == '\\' then
      match s with
      | [] => throw ⟨.unterminated, start⟩
      | 'u' :: rest => do
        let (x, tail) ← unicodeEscape rest
        readText start budget (x :: done) tail
      | e :: rest =>
        match shortEscape? e with
        | some x => readText start budget (x :: done) rest
        | none => stop .badEscape (c :: s)
    else if c.toNat < 32 then stop .controlCharacter (c :: s)
    else readText start budget (c :: done) s

/-- A text whose opening quote has been read. -/
def text (s : List Char) : Except Stop (String × List Char) :=
  readText (s.length + 1) (s.length + 1) [] s

/-! ## Numbers -/

/-- The digits of an integer part: a single zero, or digits that start with another one. -/
def integerPart? : List Char → Option (List Char × List Char)
  | '0' :: s => some (['0'], s)
  | s =>
    let digits := s.takeWhile Char.isDigit
    if digits.isEmpty then none else some (digits, s.dropWhile Char.isDigit)

/-- The digits of a fraction, if one follows. -/
def fractionPart (s : List Char) : List Char × List Char :=
  match s with
  | '.' :: rest =>
    let digits := rest.takeWhile Char.isDigit
    if digits.isEmpty then ([], s) else (digits, rest.dropWhile Char.isDigit)
  | _ => ([], s)

/-- The power of ten, if one follows. -/
def exponentPart (s : List Char) : Option Int × List Char :=
  match s with
  | c :: rest =>
    if c == 'e' || c == 'E' then
      let (negative, tail) := Decimal.takeSign rest
      let digits := tail.takeWhile Char.isDigit
      match Decimal.readNat? 10 digits with
      | some n => (some (Decimal.withSign negative n), tail.dropWhile Char.isDigit)
      | none => (none, s)
    else (none, s)
  | [] => (none, s)

/-- A number. Without a fraction and a power of ten it is an integer. -/
def number (s : List Char) : Except Stop (Node × List Char) :=
  let (negative, body) :=
    match s with
    | '-' :: rest => (true, rest)
    | _ => (false, s)
  match integerPart? body with
  | none => stop .value s
  | some (whole, rest) =>
    let (fraction, rest) := fractionPart rest
    let (exponent, tail) := exponentPart rest
    if fraction.isEmpty && exponent.isNone then
      if Decimal.maxDigits < whole.length then stop .hugeInteger s
      else pure (.int (Decimal.withSign negative ((Decimal.readNat? 10 whole).getD 0)), tail)
    else
      let digits := (Decimal.readNat? 10 (whole ++ fraction)).getD 0
      pure (.float (Decimal.ofDigits negative digits (exponent.getD 0 - fraction.length)), tail)

/-! ## Values -/

/-- The words that stand for a value. -/
def words : List (String × Node) :=
  [("null", .null), ("true", .bool true), ("false", .bool false), ("NaN", .float (0 / 0)),
    ("Infinity", .float (1 / 0)), ("-Infinity", .float (-1 / 0))]

/-- The value of a word at the start of a text. -/
def word? (s : List Char) : Option (Node × List Char) :=
  words.findSome? fun (w, v) => (Text.after? w.toList s).map fun rest => (v, rest)

mutual

/-- A value. -/
def value : Nat → List Char → Except Stop (Node × List Char)
  | 0, s => stop .value s
  | budget + 1, s =>
    match s with
    | '"' :: rest => do
      let (t, tail) ← text rest
      pure (.text t, tail)
    | '{' :: rest =>
      match skip rest with
      | '}' :: tail => pure (.map [], tail)
      | tail => entries budget [] tail
    | '[' :: rest =>
      match skip rest with
      | ']' :: tail => pure (.list [], tail)
      | tail => items budget [] tail
    | s =>
      match word? s with
      | some found => pure found
      | none => number s

/-- The entries of a mapping, from the opening quote of a key on. -/
def entries : Nat → List (Scalar × Node) → List Char → Except Stop (Node × List Char)
  | 0, _, s => stop .propertyName s
  | budget + 1, done, s =>
    match s with
    | '"' :: rest => do
      let (key, tail) ← text rest
      match skip tail with
      | ':' :: tail =>
        let (v, tail) ← value budget (skip tail)
        let done := Node.insert (.text key) v done
        match skip tail with
        | '}' :: tail => pure (.map done, tail)
        | ',' :: tail => entries budget done (skip tail)
        | tail => stop .comma tail
      | tail => stop .colon tail
    | s => stop .propertyName s

/-- The items of a list, from the start of an item on. -/
def items : Nat → List Node → List Char → Except Stop (Node × List Char)
  | 0, _, s => stop .value s
  | budget + 1, done, s => do
    let (v, tail) ← value budget s
    let done := v :: done
    match skip tail with
    | ']' :: tail => pure (.list done.reverse, tail)
    | ',' :: tail => items budget done (skip tail)
    | tail => stop .comma tail

end

/-- The document of a text, which may hold nothing else. -/
def document (s : List Char) : Except Stop Node :=
  if s.head? == some (Char.ofNat 0xFEFF) then stop .byteOrderMark s
  else do
    let (v, tail) ← value (s.length + 1) (skip s)
    match skip tail with
    | [] => pure v
    | tail => stop .extraData tail

/-- Read a JSON text. -/
def read (s : String) : Except Error Node :=
  let text := s.toList
  (document text).mapError fun e => Error.at e.problem text (text.length - e.left)

end ApiModel.Json
