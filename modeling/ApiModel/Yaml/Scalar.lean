import ApiModel.Decimal.Reading
import ApiModel.Text.Percent
import ApiModel.Unicode.Half
import ApiModel.Yaml.Cursor

/-!
# The texts of YAML scalars

A scalar is written plain, between single or double quotes, or as a block. Each form has its own
rule for line breaks. In a plain or quoted scalar a single break is a space and further ones stay
breaks; in a block the lines are kept, or folded in the same way. Every function here starts at
the first character of its form, and gives the text and the place behind it.
-/

namespace ApiModel.Yaml

open Cursor

/-! ## Quoted scalars -/

/-- The character of a short escape between double quotes. -/
def shortEscape? : Char → Option Char
  | '0' => some '\x00'
  | 'a' => some '\x07'
  | 'b' => some '\x08'
  | 't' | '\t' => some '\t'
  | 'n' => some '\n'
  | 'v' => some '\x0b'
  | 'f' => some '\x0c'
  | 'r' => some '\r'
  | 'e' => some '\x1b'
  | ' ' => some ' '
  | '"' => some '"'
  | '\\' => some '\\'
  | '/' => some '/'
  | 'N' => some (Char.ofNat 0x85)
  | '_' => some (Char.ofNat 0xA0)
  | 'L' => some (Char.ofNat 0x2028)
  | 'P' => some (Char.ofNat 0x2029)
  | _ => none

/-- The number of hexadecimal digits of a long escape. -/
def longEscape? : Char → Option Nat
  | 'x' => some 2
  | 'u' => some 4
  | 'U' => some 8
  | _ => none

/-- The line breaks between two lines of a quoted scalar. -/
def quotedBreaks : Nat → Cursor → Except Fault (List Char × Cursor)
  | 0, _ => throw .invalid
  | budget + 1, c => do
    if c.atDocumentMark then throw .invalid
    let c := c.skipRun isSpaceOrTab
    match c.lineBreak? with
    | some (b, c) =>
      let (more, c) ← quotedBreaks budget c
      pure (b :: more, c)
    | none => pure ([], c)

/-- The white space inside of a quoted scalar: spaces stay, line breaks are folded. -/
def quotedSpaces (c : Cursor) : Except Fault (List Char × Cursor) := do
  let (spaces, c) := c.takeRun isSpaceOrTab
  if c.next == endMark then throw .invalid
  match c.lineBreak? with
  | some (b, c) =>
    let (breaks, c) ← quotedBreaks c.budget c
    let first := if b != '\n' then [b] else if breaks.isEmpty then [' '] else []
    pure (first ++ breaks, c)
  | none => pure (spaces, c)

/-- An escape between double quotes, behind its backslash. -/
def escape (c : Cursor) : Except Fault (List Char × Cursor) :=
  match shortEscape? c.next with
  | some x => pure ([x], c.step)
  | none =>
    match longEscape? c.next with
    | some n =>
      let c := c.step
      let digits := c.ahead n
      if digits.length == n && digits.all isHexDigit then
        let code := (Decimal.readNat? 16 digits).getD 0
        if code < 0x110000 then pure ([Unicode.ofCode code], c.steps n) else throw .unusable
      else throw .invalid
    | none =>
      if isBreak c.next then
        let c := c.skipBreak
        quotedBreaks c.budget c
      else throw .invalid

/-- The characters of a quoted scalar up to the next white space or to its end. -/
def quotedWord (double : Bool) : Nat → Cursor → Except Fault (List Char × Cursor)
  | 0, _ => throw .invalid
  | budget + 1, c => do
    let plain (x : Char) : Bool :=
      !(x == '\x27' || x == '"' || x == '\\' || isBlankOrEnd x)
    let (word, c) := c.takeRun plain
    let x := c.next
    let single := !double && x == '\x27' && c.peek 1 == '\x27'
    if single then
      let (more, c) ← quotedWord double budget (c.steps 2)
      pure (word ++ '\x27' :: more, c)
    else if (double && x == '\x27') || (!double && (x == '"' || x == '\\')) then
      let (more, c) ← quotedWord double budget c.step
      pure (word ++ x :: more, c)
    else if double && x == '\\' then
      let (escaped, c) ← escape c.step
      let (more, c) ← quotedWord double budget c
      pure (word ++ escaped ++ more, c)
    else pure (word, c)

/-- A quoted scalar behind its opening quote. -/
def quotedTail (double : Bool) (quote : Char) : Nat → Cursor → Except Fault (List Char × Cursor)
  | 0, _ => throw .invalid
  | budget + 1, c => do
    let (word, c) ← quotedWord double c.budget c
    if c.next == quote then pure (word, c.step)
    else
      let (spaces, c) ← quotedSpaces c
      let (more, c) ← quotedTail double quote budget c
      pure (word ++ spaces ++ more, c)

/-- A quoted scalar. -/
def quoted (c : Cursor) : Except Fault (String × Cursor) := do
  let (s, c) ← quotedTail (c.next == '"') c.next c.budget c.step
  pure (String.ofList s, c)

/-! ## Plain scalars -/

/-- Does a plain scalar end in front of the given place? Inside of brackets it ends at more
characters than outside. -/
def endsPlain (inFlow : Bool) (x next : Char) : Bool :=
  let flowMark (y : Char) : Bool := ",[]\x7b\x7d".toList.contains y
  isBlankOrEnd x ||
    (x == ':' && (isBlankOrEnd next || (inFlow && flowMark next))) ||
    (inFlow && (flowMark x || x == '?'))

/-- The characters of a plain scalar up to its end or to the next white space. -/
def plainWord (inFlow : Bool) : List Char → List Char
  | [] => []
  | x :: rest =>
    if endsPlain inFlow x (rest.headD endMark) then [] else x :: plainWord inFlow rest

/-- The line breaks behind a line of a plain scalar; none at the border of a document. -/
def plainBreaks : Nat → Cursor → Option (List Char) × Cursor
  | 0, c => (some [], c)
  | budget + 1, c =>
    if c.next == ' ' then plainBreaks budget c.step
    else
      match c.lineBreak? with
      | some (b, c) =>
        if c.atDocumentMark then (none, c)
        else
          let (more, c) := plainBreaks budget c
          (more.map (b :: ·), c)
      | none => (some [], c)

/-- The white space behind a word of a plain scalar: what it stands for, whether it holds a line
break, and the place behind it. -/
def plainSpaces (c : Cursor) : List Char × Bool × Cursor :=
  let (spaces, c) := c.takeRun (· == ' ')
  match c.lineBreak? with
  | some (b, c) =>
    if c.atDocumentMark then ([], true, c)
    else
      let (breaks?, c) := plainBreaks c.budget c
      match breaks? with
      | none => ([], true, c)
      | some breaks =>
        let first := if b != '\n' then [b] else if breaks.isEmpty then [' '] else []
        (first ++ breaks, true, c)
  | none => (spaces, false, c)

/-- The words of a plain scalar from the given white space on. The flag says whether a line break
has been passed since the last word. -/
def plainTail (inFlow : Bool) (indent : Int) :
    Nat → List Char → Bool → Cursor → List Char × Bool × Cursor
  | 0, _, broken, c => ([], broken, c)
  | budget + 1, spaces, broken, c =>
    let word := if c.next == '#' then [] else plainWord inFlow c.rest
    if word.isEmpty then ([], broken, c)
    else
      let c := c.steps word.length
      let (after, broken, c) := plainSpaces c
      if after.isEmpty || c.next == '#' || (!inFlow && (c.column : Int) < indent) then
        (spaces ++ word, broken, c)
      else
        let (more, broken, c) := plainTail inFlow indent budget after broken c
        (spaces ++ word ++ more, broken, c)

/-- A plain scalar, and whether the place behind it is on a later line. -/
def plain (inFlow : Bool) (indent : Int) (c : Cursor) : String × Bool × Cursor :=
  let (s, broken, c) := plainTail inFlow indent c.budget [] false c
  (String.ofList s, broken, c)

/-! ## Block scalars -/

/-- What happens to the line breaks at the end of a block. -/
inductive Chomp where
  | clip
  | strip
  | keep
  deriving DecidableEq

/-- The header of a block: the treatment of its end, and the indent if it is given. -/
def blockHeader (c : Cursor) : Except Fault (Chomp × Option Nat × Cursor) := do
  let chomp? (x : Char) : Option Chomp :=
    if x == '+' then some .keep else if x == '-' then some .strip else none
  let indent (c : Cursor) : Except Fault (Option Nat × Cursor) :=
    if c.next.isDigit then
      if c.next == '0' then throw .invalid else pure (some (c.next.toNat - 48), c.step)
    else pure (none, c)
  let (chomp, n, c) ←
    match chomp? c.next with
    | some chomp => do
      let (n, c) ← indent c.step
      pure (chomp, n, c)
    | none => do
      let (n, c) ← indent c
      match n, chomp? c.next with
      | some _, some chomp => pure (chomp, n, c.step)
      | _, _ => pure (Chomp.clip, n, c)
  if isSpaceOrEnd c.next then pure (chomp, n, c) else throw .invalid

/-- The rest of a line that may hold nothing but a comment. -/
def emptyLine (c : Cursor) : Except Fault Cursor :=
  let c := c.skipSpaces.skipComment
  if isBreakOrEnd c.next then pure c.skipBreak else throw .invalid

/-- The empty lines at the start of a block, and the widest indent among them. -/
def leadingBreaks : Nat → Nat → Cursor → List Char × Nat × Cursor
  | 0, widest, c => ([], widest, c)
  | budget + 1, widest, c =>
    if c.next == ' ' then
      let c := c.step
      leadingBreaks budget (max widest c.column) c
    else
      match c.lineBreak? with
      | some (b, c) =>
        let (more, widest, c) := leadingBreaks budget widest c
        (b :: more, widest, c)
      | none => ([], widest, c)

/-- The empty lines between two lines of a block. -/
def blockBreaks (indent : Nat) : Nat → Cursor → List Char × Cursor
  | 0, c => ([], c)
  | budget + 1, c =>
    let c := c.skipIndent indent
    match c.lineBreak? with
    | some (b, c) =>
      let (more, c) := blockBreaks indent budget c
      (b :: more, c)
    | none => ([], c)

/-- The lines of a block from the given line breaks on: their text, and the breaks at the end. -/
def blockLines (folded : Bool) (indent : Nat) :
    Nat → List Char → List Char → Cursor → List Char × List Char × List Char × Cursor
  | 0, last, breaks, c => ([], last, breaks, c)
  | budget + 1, last, breaks, c =>
    if c.column == indent && c.next != endMark then
      let leading := !isSpaceOrTab c.next
      let (line, c) := c.takeRun (!isBreakOrEnd ·)
      let (last', c) :=
        match c.lineBreak? with
        | some (b, c) => ([b], c)
        | none => ([], c)
      let (breaks', c) := blockBreaks indent c.budget c
      if c.column == indent && c.next != endMark then
        let glue :=
          if folded && last' == ['\n'] && leading && !isSpaceOrTab c.next then
            if breaks'.isEmpty then [' '] else []
          else last'
        let (more, last, breaks'', c) := blockLines folded indent budget last' breaks' c
        (breaks ++ line ++ glue ++ more, last, breaks'', c)
      else (breaks ++ line, last', breaks', c)
    else ([], last, breaks, c)

/-- A block scalar inside of a block with the given indent. -/
def block (outer : Int) (c : Cursor) : Except Fault (String × Cursor) := do
  let folded := c.next == '>'
  let (chomp, increment, c) ← blockHeader c.step
  let c ← emptyLine c
  let least := max 1 (outer + 1).toNat
  let (breaks, indent, c) :=
    match increment with
    | none =>
      let (breaks, widest, c) := leadingBreaks c.budget 0 c
      (breaks, max least widest, c)
    | some n =>
      let indent := least + n - 1
      let (breaks, c) := blockBreaks indent c.budget c
      (breaks, indent, c)
  let (lines, last, trailing, c) := blockLines folded indent c.budget [] breaks c
  let tail :=
    match chomp with
    | .strip => []
    | .clip => last
    | .keep => last ++ trailing
  pure (String.ofList (lines ++ tail), c)

/-! ## Tags and anchors -/

/-- A name of letters, digits, hyphens and underscores. -/
def name (c : Cursor) : Except Fault (String × Cursor) :=
  let (s, c) := c.takeRun isNameChar
  if s.isEmpty then throw .invalid else pure (String.ofList s, c)

/-- The name of an anchor or an alias, behind its mark. -/
def anchorName (c : Cursor) : Except Fault (String × Cursor) := do
  let (s, c) ← name c
  if isBlankOrEnd c.next || "?:,]\x7d%@\x60".toList.contains c.next then pure (s, c)
  else throw .invalid

/-- The handle of a tag: its marks and what stands between them. -/
def tagHandle (c : Cursor) : Except Fault (String × Cursor) :=
  if c.next != '!' then throw .invalid
  else if c.peek 1 == ' ' then pure ("!", c.step)
  else
    let (s, after) := c.step.takeRun isNameChar
    if after.next == '!' then pure (String.ofList ('!' :: (s ++ ['!'])), after.step)
    else throw .invalid

/-- A character that may stand in a tag as it is. -/
def isTagChar (c : Char) : Bool :=
  isNameChar c || ";/?:@&=+$,.!~*\x27()[]".toList.contains c

/-- The bytes of the escapes at the start of a tag's text. -/
def tagEscapes : List Char → Except Fault (List Nat × List Char)
  | '%' :: a :: b :: rest => do
    match Decimal.readNat? 16 [a, b] with
    | some n =>
      if isHexDigit a && isHexDigit b then
        let (more, rest) ← tagEscapes rest
        pure (n :: more, rest)
      else throw .invalid
    | none => throw .invalid
  | '%' :: _ => throw .invalid
  | rest => pure ([], rest)

/-- The text of a tag, with its escapes decoded. -/
def tagText : Nat → List Char → Except Fault (List Char)
  | 0, _ => throw .invalid
  | budget + 1, s =>
    match s with
    | [] => pure []
    | '%' :: _ => do
      let (bytes, rest) ← tagEscapes s
      match Text.decodeBytes? bytes with
      | some chars => pure (chars ++ (← tagText budget rest))
      | none => throw .invalid
    | c :: rest => do pure (c :: (← tagText budget rest))

/-- The text of a tag. -/
def tagUri (c : Cursor) : Except Fault (String × Cursor) := do
  let (s, c) := c.takeRun fun x => isTagChar x || x == '%'
  if s.isEmpty then throw .invalid
  pure (String.ofList (← tagText (s.length + 1) s), c)

/-- A tag: its handle, if it has one, and its text. -/
def tag (c : Cursor) : Except Fault ((Option String × String) × Cursor) := do
  let x := c.peek 1
  let (t, c) ←
    if x == '<' then do
      let (s, c) ← tagUri (c.steps 2)
      if c.next == '>' then pure ((none, s), c.step) else throw .invalid
    else if isBlankOrEnd x then pure ((none, "!"), c.step)
    else do
      let word := c.step.rest.takeWhile (!isSpaceOrEnd ·)
      let (handle, c) ← if word.contains '!' then tagHandle c else pure ("!", c.step)
      let (s, c) ← tagUri c
      pure ((some handle, s), c)
  if isSpaceOrEnd c.next then pure (t, c) else throw .invalid

end ApiModel.Yaml
