import ApiModel.Decimal.Reading
import ApiModel.Unicode.Half

/-!
# Tokens of expressions

What stands between the braces of a template: names, numbers, texts in quotes, and the marks of
the language. Reading goes on up to the two characters that close the braces.
-/

namespace ApiModel.Template

/-- A token of an expression. -/
inductive Token where
  | name (s : String)
  | number (n : Nat)
  | text (s : String)
  | dot
  | open
  | close
  | equals
  deriving DecidableEq, Repr

namespace Token

/-- The character that a backslash and a letter stand for in a text. -/
def escaped? : Char → Option Char
  | 'a' => some '\x07'
  | 'b' => some '\x08'
  | 't' => some '\t'
  | 'n' => some '\n'
  | 'v' => some '\x0b'
  | 'f' => some '\x0c'
  | 'r' => some '\r'
  | '\\' => some '\\'
  | '\x27' => some '\x27'
  | '"' => some '"'
  | _ => none

/-- What stands between quotes as it is written, up to the closing quote, and what follows. -/
def quoted? (quote : Char) : List Char → Option (List Char × List Char)
  | [] => none
  | '\\' :: c :: rest => (quoted? quote rest).map fun (s, after) => ('\\' :: c :: s, after)
  | c :: rest =>
    if c == quote then some ([], rest)
    else (quoted? quote rest).map fun (s, after) => (c :: s, after)

/-- The number of hexadecimal digits of an escape that names a code. -/
def codeDigits? : Char → Option Nat
  | 'x' => some 2
  | 'u' => some 4
  | 'U' => some 8
  | _ => none

/-- The character of a code in hexadecimal digits. -/
def coded? (digits : List Char) : Option Char := do
  if !digits.all fun c => c.toNat < 128 then none
  let code ← Decimal.readNat? 16 digits
  if code < 0x110000 then some (Unicode.ofCode code) else none

/-- The text that is written with escapes; a backslash that begins none stays. A line end behind a
backslash is no part of the text. -/
def unescaped? : List Char → Option (List Char)
  | [] => some []
  | '\\' :: c :: rest =>
    match escaped? c, codeDigits? c with
    | some d, _ => (unescaped? rest).map (d :: ·)
    | none, some n =>
      if rest.length < n then none
      else do
        let d ← coded? (rest.take n)
        (unescaped? (rest.drop n)).map (d :: ·)
    | none, none =>
      if c == '\n' then unescaped? rest
      else if '0' ≤ c && c ≤ '7' then
        let more := (rest.take 2).takeWhile fun d => '0' ≤ d && d ≤ '7'
        do
          let code ← Decimal.readNat? 8 (c :: more)
          (unescaped? (rest.drop more.length)).map (Char.ofNat code :: ·)
      else (unescaped? rest).map fun s => '\\' :: c :: s
  | c :: rest => (unescaped? rest).map (c :: ·)
termination_by s => s.length
decreasing_by all_goals (simp only [List.length_cons, List.length_drop]; omega)

/-- The first token of a text that does not begin with white space, and what follows it. -/
def next? : List Char → Option (Token × List Char)
  | '.' :: rest => some (dot, rest)
  | '[' :: rest => some (.open, rest)
  | ']' :: rest => some (close, rest)
  | '=' :: '=' :: rest => some (equals, rest)
  | c :: rest =>
    if c == '"' || c == '\x27' then
      (quoted? c rest).bind fun (s, after) =>
        (unescaped? s).map fun t => (text (String.ofList t), after)
    else if c.isDigit then
      (Decimal.readNat? 10 (c :: rest.takeWhile Char.isDigit)).map fun n =>
        (number n, rest.dropWhile Char.isDigit)
    else if Unicode.isWord c then
      some (name (String.ofList (c :: rest.takeWhile Unicode.isWord)),
        rest.dropWhile Unicode.isWord)
    else none
  | [] => none

/-- The tokens up to two closing characters, and what follows those. Every token takes a
character, so that the number of characters bounds the number of tokens. -/
def upTo? (a b : Char) : Nat → List Char → Option (List Token × List Char)
  | 0, _ => none
  | budget + 1, s =>
    match s.dropWhile Unicode.isBlank with
    | [] => none
    | c :: rest =>
      if c == a && rest.head? = some b then some ([], rest.drop 1)
      else do
        let (token, after) ← next? (c :: rest)
        let (tokens, tail) ← upTo? a b budget after
        pure (token :: tokens, tail)

end Token

end ApiModel.Template
