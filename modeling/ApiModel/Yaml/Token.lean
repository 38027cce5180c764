import ApiModel.Yaml.Scalar

/-!
# The tokens of a YAML text

Indentation is turned into tokens here: a column deeper than the current one opens a block, and a
shallower one closes blocks. That a mapping has begun shows only at the colon behind its first
key, so the place of every token that may turn out to be a key is kept, and the tokens that
announce the key are put in front of it when the colon comes. A key may not span lines, nor more
than `maxKeyLength` characters.
-/

namespace ApiModel.Yaml

/-- A token. The two kinds of block are opened by tokens of their own and closed by one. -/
inductive Token where
  | directive (name : String) (values : List String)
  | documentStart
  | documentEnd
  | blockSequence
  | blockMapping
  | blockEnd
  | flowSequence
  | flowSequenceEnd
  | flowMapping
  | flowMappingEnd
  | flowEntry
  | blockEntry
  | key
  | value
  | alias (name : String)
  | anchor (name : String)
  | tag (handle : Option String) (text : String)
  | scalar (text : String) (isPlain : Bool)
  | streamEnd
  deriving DecidableEq, Repr

/-- The greatest distance between the start of a key and its colon. -/
def maxKeyLength : Nat := 1024

/-- The place of a token that may turn out to be a key. -/
structure KeyPlace where
  /-- How many tokens come before it. -/
  number : Nat
  /-- Must it be a key, since nothing else may stand where it stands? -/
  required : Bool
  place : Cursor

/-- The state between two tokens. -/
structure Lexer where
  cursor : Cursor
  tokens : Array Token
  /-- How many brackets are open. -/
  flow : Nat
  /-- The column of the current block; -1 outside of all. -/
  indent : Int
  /-- The columns of the blocks around it. -/
  outer : List Int
  /-- May a key begin here? -/
  keyAllowed : Bool
  /-- The possible keys, at most one for each number of open brackets. -/
  keys : List (Nat × KeyPlace)

namespace Lexer

/-- The state at the start of a text. -/
def start (s : List Char) : Lexer :=
  { cursor := Cursor.start s, tokens := #[], flow := 0, indent := -1, outer := [],
    keyAllowed := true, keys := [] }

/-- Add a token. -/
def emit (l : Lexer) (t : Token) : Lexer := { l with tokens := l.tokens.push t }

/-- Put a token in front of the token with the given number. -/
def emitAt (l : Lexer) (number : Nat) (t : Token) : Lexer :=
  { l with tokens := l.tokens.extract 0 number ++ #[t] ++ l.tokens.extract number l.tokens.size }

/-- Go on from another place. -/
def moveTo (l : Lexer) (c : Cursor) : Lexer := { l with cursor := c }

/-- Is the place outside of all brackets? -/
def inBlock (l : Lexer) : Bool := l.flow == 0

/-! ## Blocks and possible keys -/

/-- Close the blocks that are deeper than a column. -/
def unwind (column : Int) (l : Lexer) : Lexer :=
  if l.inBlock then
    let closed := (l.indent :: l.outer).takeWhile (column < ·)
    let left := (l.indent :: l.outer).dropWhile (column < ·)
    { l with
      tokens := l.tokens ++ (closed.map fun _ => Token.blockEnd).toArray
      indent := left.headD (-1)
      outer := left.tail }
  else l

/-- Open a block at a column, if it is deeper than the current one: was it? -/
def deepen (column : Nat) (l : Lexer) : Bool × Lexer :=
  if l.indent < column then (true, { l with indent := column, outer := l.indent :: l.outer })
  else (false, l)

/-- Forget the possible keys that are too far away. -/
def dropStale (l : Lexer) : Except Fault Lexer :=
  let stale (k : KeyPlace) : Bool :=
    k.place.line != l.cursor.line || maxKeyLength < l.cursor.index - k.place.index
  if l.keys.any fun k => stale k.2 && k.2.required then throw .invalid
  else pure { l with keys := l.keys.filter fun k => !stale k.2 }

/-- The possible key for the current number of open brackets. -/
def pendingKey? (l : Lexer) : Option KeyPlace := l.keys.lookup l.flow

/-- Forget the possible key for the current number of open brackets. -/
def dropKey (l : Lexer) : Except Fault Lexer :=
  if (l.pendingKey?.map (·.required)).getD false then throw .invalid
  else pure { l with keys := l.keys.filter fun k => k.1 != l.flow }

/-- Keep the coming token as a possible key. -/
def saveKey (l : Lexer) : Except Fault Lexer :=
  if l.keyAllowed then do
    let required := l.inBlock && l.indent == l.cursor.column
    let place : KeyPlace := ⟨l.tokens.size, required, l.cursor⟩
    let l ← l.dropKey
    pure { l with keys := (l.flow, place) :: l.keys }
  else pure l

/-! ## Directives and documents -/

/-- The number of a version. -/
def versionNumber (c : Cursor) : Except Fault (String × Cursor) :=
  let (digits, c) := c.takeRun Char.isDigit
  if digits.isEmpty then throw .invalid else pure (String.ofList digits, c)

/-- The values of a directive, behind its name. -/
def directiveValues (name : String) (c : Cursor) : Except Fault (List String × Cursor) :=
  if name == "YAML" then do
    let (major, c) ← versionNumber c.skipSpaces
    if c.next != '.' then throw .invalid
    let (minor, c) ← versionNumber c.step
    if isSpaceOrEnd c.next then pure ([major, minor], c) else throw .invalid
  else if name == "TAG" then do
    let (handle, c) ← tagHandle c.skipSpaces
    if c.next != ' ' then throw .invalid
    let (text, c) ← tagUri c.skipSpaces
    if isSpaceOrEnd c.next then pure ([handle, text], c) else throw .invalid
  else pure ([], c.skipRun (!isBreakOrEnd ·))

/-- A directive. -/
def readDirective (l : Lexer) : Except Fault Lexer := do
  let l ← (l.unwind (-1)).dropKey
  let (n, c) ← name l.cursor.step
  if !isSpaceOrEnd c.next then throw .invalid
  let (values, c) ← directiveValues n c
  let c ← emptyLine c
  pure (({ l with keyAllowed := false }.emit (.directive n values)).moveTo c)

/-- The three marks that begin or end a document. -/
def readDocumentMark (t : Token) (l : Lexer) : Except Fault Lexer := do
  let l ← (l.unwind (-1)).dropKey
  pure (({ l with keyAllowed := false }.emit t).moveTo (l.cursor.steps 3))

/-- The end of the text. -/
def readEnd (l : Lexer) : Except Fault Lexer := do
  let l ← (l.unwind (-1)).dropKey
  pure ({ l with keyAllowed := false, keys := [] }.emit .streamEnd)

/-! ## Marks of structure -/

/-- An opening bracket. -/
def readOpening (t : Token) (l : Lexer) : Except Fault Lexer := do
  let l ← l.saveKey
  pure (({ l with flow := l.flow + 1, keyAllowed := true }.emit t).moveTo l.cursor.step)

/-- A closing bracket. -/
def readClosing (t : Token) (l : Lexer) : Except Fault Lexer := do
  if l.inBlock then throw .invalid
  let l ← l.dropKey
  pure (({ l with flow := l.flow - 1, keyAllowed := false }.emit t).moveTo l.cursor.step)

/-- A comma between brackets. -/
def readFlowEntry (l : Lexer) : Except Fault Lexer := do
  let l ← l.dropKey
  pure (({ l with keyAllowed := true }.emit .flowEntry).moveTo l.cursor.step)

/-- Open a block in front of a mark that may stand only where a key may. -/
def openBlock (t : Token) (l : Lexer) : Except Fault Lexer :=
  if l.inBlock then
    if l.keyAllowed then
      let (opened, l) := l.deepen l.cursor.column
      pure (if opened then l.emit t else l)
    else throw .invalid
  else pure l

/-- The hyphen in front of an item. -/
def readBlockEntry (l : Lexer) : Except Fault Lexer := do
  let l ← l.openBlock .blockSequence
  let l ← l.dropKey
  pure (({ l with keyAllowed := true }.emit .blockEntry).moveTo l.cursor.step)

/-- The question mark in front of a key. -/
def readKey (l : Lexer) : Except Fault Lexer := do
  let l ← l.openBlock .blockMapping
  let l ← l.dropKey
  pure (({ l with keyAllowed := l.inBlock }.emit .key).moveTo l.cursor.step)

/-- The colon in front of a value. -/
def readValue (l : Lexer) : Except Fault Lexer := do
  match l.pendingKey? with
  | some k =>
    let l := { l with keys := l.keys.filter fun p => p.1 != l.flow }
    let l := l.emitAt k.number .key
    let (opened, l) := if l.inBlock then l.deepen k.place.column else (false, l)
    let l := if opened then l.emitAt k.number .blockMapping else l
    pure (({ l with keyAllowed := false }.emit .value).moveTo l.cursor.step)
  | none =>
    let l ← l.openBlock .blockMapping
    let l ← l.dropKey
    pure (({ l with keyAllowed := l.inBlock }.emit .value).moveTo l.cursor.step)

/-! ## Contents -/

/-- Something that may be a key, read by the given function. -/
def readContent {α : Type} (read : Cursor → Except Fault (α × Cursor)) (token : α → Token)
    (l : Lexer) : Except Fault Lexer := do
  let l ← l.saveKey
  let (x, c) ← read l.cursor
  pure (({ l with keyAllowed := false }.emit (token x)).moveTo c)

/-- A block scalar, which is never a key. -/
def readBlockScalar (l : Lexer) : Except Fault Lexer := do
  let l ← l.dropKey
  let (s, c) ← block l.indent l.cursor
  pure (({ l with keyAllowed := true }.emit (.scalar s false)).moveTo c)

/-- A plain scalar. -/
def readPlain (l : Lexer) : Except Fault Lexer := do
  let l ← l.saveKey
  let (s, broken, c) := plain (!l.inBlock) (l.indent + 1) l.cursor
  pure (({ l with keyAllowed := broken }.emit (.scalar s true)).moveTo c)

/-- May a plain scalar begin here? -/
def startsPlain (l : Lexer) : Bool :=
  let x := l.cursor.next
  let marks := "-?:,[]\x7b\x7d#&*!|>\x27\"%@\x60".toList
  !(isBlankOrEnd x || marks.contains x) ||
    (!isBlankOrEnd (l.cursor.peek 1) && (x == '-' || (l.inBlock && (x == '?' || x == ':'))))

/-! ## One token, all tokens -/

/-- Skip spaces, comments and line breaks. Outside of brackets a key may begin on a new line. -/
def skipGap : Nat → Lexer → Lexer
  | 0, l => l
  | budget + 1, l =>
    let c := l.cursor.skipSpaces.skipComment
    match c.lineBreak? with
    | some (_, c) =>
      skipGap budget { l with cursor := c, keyAllowed := l.keyAllowed || l.inBlock }
    | none => l.moveTo c

/-- Skip a mark of the byte order at the very start. -/
def skipByteOrderMark (l : Lexer) : Lexer :=
  if l.cursor.index == 0 && l.cursor.next.toNat == 0xFEFF then l.moveTo l.cursor.step else l

/-- Read the token at the cursor. -/
def readToken (l : Lexer) : Except Fault Lexer :=
  let c := l.cursor
  let x := c.next
  let atMark (m : Char) : Bool := c.column == 0 && x == m && c.atDocumentMark
  let loose := isBlankOrEnd (c.peek 1)
  if x == endMark then l.readEnd
  else if x == '%' && c.column == 0 then l.readDirective
  else if atMark '-' then l.readDocumentMark .documentStart
  else if atMark '.' then l.readDocumentMark .documentEnd
  else if x == '[' then l.readOpening .flowSequence
  else if x == '{' then l.readOpening .flowMapping
  else if x == ']' then l.readClosing .flowSequenceEnd
  else if x == '}' then l.readClosing .flowMappingEnd
  else if x == ',' then l.readFlowEntry
  else if x == '-' && loose then l.readBlockEntry
  else if x == '?' && (!l.inBlock || loose) then l.readKey
  else if x == ':' && (!l.inBlock || loose) then l.readValue
  else if x == '*' then l.readContent (anchorName ·.step) .alias
  else if x == '&' then l.readContent (anchorName ·.step) .anchor
  else if x == '!' then l.readContent tag fun t => .tag t.1 t.2
  else if (x == '|' || x == '>') && l.inBlock then l.readBlockScalar
  else if x == '\x27' || x == '"' then l.readContent quoted fun s => .scalar s false
  else if l.startsPlain then l.readPlain
  else throw .invalid

/-- Read tokens up to the end of the text. -/
def run : Nat → Lexer → Except Fault (Array Token)
  | 0, _ => throw .invalid
  | budget + 1, l => do
    let l := skipGap l.cursor.budget l.skipByteOrderMark
    let l ← l.dropStale
    let l ← (l.unwind l.cursor.column).readToken
    if l.tokens.back? == some .streamEnd then pure l.tokens else run budget l

end Lexer

/-- The tokens of a text. -/
def tokens (s : List Char) : Except Fault (List Token) :=
  if s.all isAllowed then do
    pure (← Lexer.run (s.length + 2) (Lexer.start s)).toList
  else throw .invalid

end ApiModel.Yaml
