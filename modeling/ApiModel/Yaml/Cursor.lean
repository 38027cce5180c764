import ApiModel.Unicode.Half

/-!
# A place in a YAML text

A cursor is a place in a text: the characters from there on, and how many characters, lines and
columns lie before it. Indentation is structure in YAML, so every step keeps the column. Past the
end of the text the cursor shows the character zero, which no YAML text holds.
-/

namespace ApiModel.Yaml

/-- Why a text has no value. -/
inductive Fault where
  /-- The text is no YAML, or says something that YAML does not know. -/
  | invalid
  /-- The text is YAML, and one of its scalars is no value of the kind it is declared to be. -/
  | unusable
  deriving DecidableEq, Repr

/-- The character shown past the end. -/
def endMark : Char := '\x00'

/-- A character that ends a line. -/
def isBreak (c : Char) : Bool :=
  c == '\n' || c == '\r' || c.toNat == 0x85 || c.toNat == 0x2028 || c.toNat == 0x2029

/-- The end of the text or of a line. -/
def isBreakOrEnd (c : Char) : Bool := isBreak c || c == endMark

/-- A space, or the end of the text or of a line. -/
def isSpaceOrEnd (c : Char) : Bool := c == ' ' || isBreakOrEnd c

/-- A space or tab, or the end of the text or of a line. -/
def isBlankOrEnd (c : Char) : Bool := c == '\t' || isSpaceOrEnd c

/-- A space or tab. -/
def isSpaceOrTab (c : Char) : Bool := c == ' ' || c == '\t'

/-- An ASCII letter or digit, a hyphen or an underscore. -/
def isNameChar (c : Char) : Bool :=
  c.toNat < 128 && (c.isAlphanum || c == '-' || c == '_')

/-- A hexadecimal digit. -/
def isHexDigit (c : Char) : Bool :=
  c.isDigit || ('a' ≤ c && c ≤ 'f') || ('A' ≤ c && c ≤ 'F')

/-- A character that may stand in a YAML text. -/
def isAllowed (c : Char) : Bool :=
  let n := c.toNat
  n == 9 || n == 10 || n == 13 || (0x20 ≤ n && n ≤ 0x7E) || n == 0x85 ||
    (0xA0 ≤ n && n ≤ 0xD7FF) || (0xE000 ≤ n && n ≤ 0xFFFD) ||
    (0x10000 ≤ n && !Unicode.standsForHalf c)

/-- A place in a text. -/
structure Cursor where
  rest : List Char
  index : Nat
  line : Nat
  column : Nat

namespace Cursor

/-- The start of a text. -/
def start (s : List Char) : Cursor := ⟨s, 0, 0, 0⟩

/-- The character `k` places ahead. -/
def peek (c : Cursor) (k : Nat) : Char := (c.rest.drop k).headD endMark

/-- The next character. -/
def next (c : Cursor) : Char := c.rest.headD endMark

/-- The next characters, up to `k` of them. -/
def ahead (c : Cursor) (k : Nat) : List Char := c.rest.take k

/-- A bound on the steps that a walk through the rest can take. -/
def budget (c : Cursor) : Nat := c.rest.length + 1

/-- One character on. A carriage return before a line feed ends no line of its own, and a mark of
the byte order takes no column. -/
def step (c : Cursor) : Cursor :=
  match c.rest with
  | [] => c
  | x :: rest =>
    if isBreak x && !(x == '\r' && rest.head? == some '\n') then
      ⟨rest, c.index + 1, c.line + 1, 0⟩
    else if x.toNat == 0xFEFF then ⟨rest, c.index + 1, c.line, c.column⟩
    else ⟨rest, c.index + 1, c.line, c.column + 1⟩

/-- Some characters on. -/
def steps : Nat → Cursor → Cursor
  | 0, c => c
  | k + 1, c => steps k c.step

/-- The longest run of characters that satisfy `p`, and the place behind it. -/
def takeRun (p : Char → Bool) (c : Cursor) : List Char × Cursor :=
  let run := c.rest.takeWhile p
  (run, c.steps run.length)

/-- The place behind the longest run of characters that satisfy `p`. -/
def skipRun (p : Char → Bool) (c : Cursor) : Cursor := (c.takeRun p).2

/-- Skip spaces. -/
def skipSpaces (c : Cursor) : Cursor := c.skipRun (· == ' ')

/-- Skip spaces, but not past a column. -/
def skipIndent (column : Nat) (c : Cursor) : Cursor :=
  let spaces := (c.rest.takeWhile (· == ' ')).length
  c.steps (min spaces (column - c.column))

/-- Skip a comment up to the end of its line. -/
def skipComment (c : Cursor) : Cursor :=
  if c.next == '#' then c.skipRun (!isBreakOrEnd ·) else c

/-- A line break, as the character it stands for, and the place behind it. -/
def lineBreak? (c : Cursor) : Option (Char × Cursor) :=
  if c.ahead 2 == ['\r', '\n'] then some ('\n', c.steps 2)
  else if c.next == '\r' || c.next == '\n' || c.next.toNat == 0x85 then some ('\n', c.step)
  else if isBreak c.next then some (c.next, c.step)
  else none

/-- Skip a line break, if there is one. -/
def skipBreak (c : Cursor) : Cursor := (c.lineBreak?.map (·.2)).getD c

/-- Is the cursor in front of three marks that end or begin a document? -/
def atDocumentMark (c : Cursor) : Bool :=
  (c.ahead 3 == ['-', '-', '-'] || c.ahead 3 == ['.', '.', '.']) && isBlankOrEnd (c.peek 3)

end Cursor

end ApiModel.Yaml
