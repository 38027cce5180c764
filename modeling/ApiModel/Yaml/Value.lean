import ApiModel.Node
import ApiModel.Unicode.Case
import ApiModel.Yaml.Tree

/-!
# The values of a YAML document

A plain scalar is a value of the first kind whose written form it has: a truth value, a double,
an integer, nothing, a date or a timestamp; otherwise it is a text. A tag declares the kind
instead, and then a scalar that is no such value has none at all. A mapping that is declared to be
a scalar stands for the one under its key `=`. In a mapping the key `<<` merges other mappings in:
their entries come first, and those of the mapping itself win.

A document with several faults is judged by the shallowest of them, and of equally shallow ones
by the first.
-/

namespace ApiModel.Yaml

/-- The kinds of value that a tag can declare. -/
inductive Kind where
  | null
  | bool
  | int
  | float
  | text
  | timestamp
  | sequence
  | mapping
  | merge
  | defaultKey
  deriving DecidableEq

/-- The kind that a tag declares. -/
def Kind.ofTag? (tag : String) : Option Kind :=
  [("null", null), ("bool", bool), ("int", int), ("float", float), ("str", text),
    ("timestamp", timestamp), ("seq", sequence), ("map", mapping), ("merge", merge),
    ("value", defaultKey)].findSome? fun (n, k) =>
      if tag == "tag:yaml.org,2002:" ++ n then some k else none

/-! ## Written forms -/

/-- The text that is compared with the written forms: a line feed that ends it does not count. -/
def writtenForm (s : List Char) : List Char :=
  if s.getLast? = some '\n' then s.dropLast else s

/-- The words for truth values, in small letters. -/
def truthWords : List (String × Bool) :=
  [("yes", true), ("no", false), ("true", true), ("false", false), ("on", true), ("off", false)]

/-- The word in small letters, in capitals, or with a first capital. -/
def wordForms (w : String) : List String := [w, w.toUpper, w.capitalize]

/-- Is the text one of the forms of a word? -/
def isWordForm (words : List String) (s : String) : Bool :=
  words.any fun w => (wordForms w).contains s

/-- A digit or an underscore. -/
def isDigitOrMark (c : Char) : Bool := c.isDigit || c == '_'

/-- Parts from zero to fifty-nine, each behind a colon; and what follows them. -/
def sixtieths (s : List Char) : List Char × Nat :=
  match s with
  | ':' :: a :: b :: rest =>
    if a.isDigit && a ≤ '5' && b.isDigit then
      let (tail, n) := sixtieths rest
      (tail, n + 1)
    else if a.isDigit then
      let (tail, n) := sixtieths (b :: rest)
      (tail, n + 1)
    else (s, 0)
  | [':', a] => if a.isDigit then ([], 1) else (s, 0)
  | _ => (s, 0)
  termination_by s.length

/-- Is the text an integer: binary, octal, decimal, hexadecimal, or in sixtieths? -/
def looksInt (s : List Char) : Bool :=
  match (Decimal.takeSign s).2 with
  | ['0'] => true
  | '0' :: 'b' :: rest => !rest.isEmpty && rest.all fun c => c == '0' || c == '1' || c == '_'
  | '0' :: 'x' :: rest => !rest.isEmpty && rest.all fun c => isHexDigit c || c == '_'
  | '0' :: rest => rest.all fun c => ('0' ≤ c && c ≤ '7') || c == '_'
  | c :: rest =>
    if c.isDigit then
      let tail := rest.dropWhile isDigitOrMark
      tail.isEmpty || (sixtieths tail).1.isEmpty
    else false
  | [] => false

/-- Is the text a power of ten with its sign, or empty? -/
def looksExponent : List Char → Bool
  | [] => true
  | e :: sign :: digits =>
    (e == 'e' || e == 'E') && (sign == '+' || sign == '-') && !digits.isEmpty &&
      digits.all Char.isDigit
  | _ => false

/-- Is the text a double? It must hold a point. -/
def looksFloat (s : List Char) : Bool :=
  let body := (Decimal.takeSign s).2
  match body with
  | '.' :: rest =>
    let word := String.ofList rest
    ["inf", "Inf", "INF"].contains word ||
      (body.length == s.length &&
        (["nan", "NaN", "NAN"].contains word ||
          ((rest.head?.map Char.isDigit).getD false &&
            looksExponent (rest.dropWhile isDigitOrMark))))
  | c :: rest =>
    c.isDigit &&
      match rest.dropWhile isDigitOrMark with
      | '.' :: tail => looksExponent (tail.dropWhile isDigitOrMark)
      | tail =>
        match sixtieths tail with
        | ('.' :: tail, n) => 0 < n && tail.all isDigitOrMark
        | _ => false
  | [] => false

/-! ## Dates and timestamps -/

/-- A number of `least` to `most` digits at the start of a text. -/
def digitsBetween? (least most : Nat) (s : List Char) : Option (Nat × List Char) :=
  let digits := (s.take most).takeWhile Char.isDigit
  if digits.length < least then none
  else (Decimal.readNat? 10 digits).map fun n => (n, s.drop digits.length)

/-- The written parts of a time of day. -/
structure TimeParts where
  hour : Nat
  minute : Nat
  second : Nat
  fraction : List Char
  offset : Option Int

/-- The offset at the end of a time: none, the letter for zero, or hours and minutes. -/
def readOffset? (s : List Char) : Option (Option Int) :=
  match s.dropWhile isSpaceOrTab with
  | [] => if s.isEmpty then some none else none
  | ['Z'] => some (some 0)
  | sign :: rest =>
    if sign == '+' || sign == '-' then do
      let (hours, rest) ← digitsBetween? 1 2 rest
      let minutes ←
        match rest with
        | [] => some 0
        | ':' :: rest =>
          match digitsBetween? 2 2 rest with
          | some (m, []) => some m
          | _ => none
        | _ => none
      some (some (Decimal.withSign (sign == '-') (60 * hours + minutes)))
    else none

/-- A time of day with its offset. -/
def readTime? (s : List Char) : Option TimeParts := do
  let (hour, s) ← digitsBetween? 1 2 s
  let (minute, s) ← (Text.after? [':'] s).bind (digitsBetween? 2 2)
  let (second, s) ← (Text.after? [':'] s).bind (digitsBetween? 2 2)
  let (fraction, s) :=
    match s with
    | '.' :: rest => (rest.takeWhile Char.isDigit, rest.dropWhile Char.isDigit)
    | s => ([], s)
  let offset ← readOffset? s
  pure ⟨hour, minute, second, fraction, offset⟩

/-- The written parts of a date, and of a time behind it. The flag says whether month and day
have two digits each. -/
def readMoment? (s : List Char) : Option ((Nat × Nat × Nat) × Bool × Option TimeParts) := do
  let (year, rest) ← digitsBetween? 4 4 s
  let (month, rest) ← (Text.after? ['-'] rest).bind (digitsBetween? 1 2)
  let (day, rest) ← (Text.after? ['-'] rest).bind (digitsBetween? 1 2)
  let full := s.length - rest.length == 10
  match rest with
  | [] => pure ((year, month, day), full, none)
  | c :: tail =>
    let time ←
      if c == 'T' || c == 't' then readTime? tail
      else if isSpaceOrTab c then readTime? (tail.dropWhile isSpaceOrTab)
      else none
    pure ((year, month, day), full, some time)

/-- Is the text a date or a timestamp? -/
def looksMoment (s : List Char) : Bool :=
  match readMoment? s with
  | some (_, full, time) => full || time.isSome
  | none => false

/-- The kind of value of a plain scalar. -/
def Kind.ofPlain (s : String) : Kind :=
  let chars := writtenForm s.toList
  let word := String.ofList chars
  if isWordForm (truthWords.map (·.1)) word then bool
  else if looksFloat chars then float
  else if looksInt chars then int
  else if word == "<<" then merge
  else if s == "" || word == "~" || isWordForm ["null"] word then null
  else if looksMoment chars then timestamp
  else if word == "=" then defaultKey
  else text

/-! ## Scalars -/

/-- Remove the underscores between the digits of a number. -/
def dropMarks (s : List Char) : List Char := s.filter (· != '_')

/-- A number without the white space around it, with ASCII digits. -/
def numberText (s : List Char) : List Char := Decimal.asciiDigits (Text.trimSpacing s)

/-- An integer of a base, which may stand in front of it once more. -/
def readBased? (base : Nat) (s : List Char) : Option Int :=
  let (negative, body) := Decimal.takeSign (numberText s)
  let digits :=
    match base, body with
    | 2, '0' :: 'b' :: rest | 2, '0' :: 'B' :: rest => rest
    | 8, '0' :: 'o' :: rest | 8, '0' :: 'O' :: rest => rest
    | 16, '0' :: 'x' :: rest | 16, '0' :: 'X' :: rest => rest
    | _, body => body
  (Decimal.readNat? base digits).map (Decimal.withSign negative)

/-- A number in sixtieths from its parts, the greatest first. -/
def ofSixtieths (parts : List Int) : Int := parts.foldl (fun n d => n * 60 + d) 0

/-- A double in sixtieths from its parts, the least first, in units of the given size. None if a
unit is too great for a double. -/
def addSixtieths (unit : Nat) (sum : Float) : List Float → Option Float
  | [] => some sum
  | d :: rest => do addSixtieths (unit * 60) (sum + d * (← Decimal.ofInt? unit)) rest

/-- The integer of a text. -/
def intOf? (s : List Char) : Option Int :=
  let s := dropMarks s
  let (negative, body) := Decimal.takeSign s
  let size :=
    match body with
    | [] => none
    | ['0'] => some 0
    | '0' :: 'b' :: rest => readBased? 2 rest
    | '0' :: 'x' :: rest => readBased? 16 rest
    | '0' :: _ => readBased? 8 body
    | _ =>
      if body.contains ':' then
        ((Text.split ':' body).mapM fun part => Decimal.readInt? (numberText part)).map ofSixtieths
      else Decimal.readInt? (numberText body)
  size.map fun n => if negative then -n else n

/-- The double of a text. -/
def floatOf? (s : List Char) : Option Float :=
  let s := Unicode.lower (dropMarks s)
  let (negative, body) := Decimal.takeSign s
  let size : Option Float :=
    if body.isEmpty then none
    else if body == ".inf".toList then some (1 / 0)
    else if body == ".nan".toList then some (0 / 0)
    else if body.contains ':' then
      ((Text.split ':' body).mapM fun part => Decimal.readFloat? (numberText part)).bind
        fun parts => addSixtieths 1 0 parts.reverse
    else Decimal.readFloat? (numberText body)
  size.map fun x => if negative then -x else x

/-- The date or timestamp of a text. -/
def momentOf? (s : List Char) : Option Scalar := do
  let ((year, month, day), _, time) ← readMoment? (writtenForm s)
  let date ← Date.of? year month day
  match time with
  | none => pure (.date date)
  | some t =>
    let micro := (t.fraction ++ List.replicate 6 '0').take 6
    let inDay := (t.offset.map fun o => decide (o.natAbs < 1440)).getD true
    if t.hour < 24 && t.minute < 60 && t.second < 60 && inDay then
      pure (.timestamp ⟨date, t.hour, t.minute, t.second,
        (Decimal.readNat? 10 micro).getD 0, t.offset⟩)
    else none

/-- The value of a scalar of a kind. -/
def scalarOf (kind : Kind) (s : String) : Except Fault Scalar :=
  let orUnusable (v : Option Scalar) : Except Fault Scalar :=
    match v with
    | some x => pure x
    | none => throw .unusable
  match kind with
  | .null => pure .null
  | .bool => orUnusable ((truthWords.lookup s.toLower).map .bool)
  | .int => orUnusable ((intOf? s.toList).map .int)
  | .float => orUnusable ((floatOf? s.toList).map .float)
  | .text => pure (.text s)
  | .timestamp => orUnusable (momentOf? s.toList)
  | .sequence | .mapping | .merge | .defaultKey => throw .invalid

/-! ## Trees -/

/-- The tag of texts. -/
def textTag : String := "tag:yaml.org,2002:str"

/-- The kind that a node declares or shows. -/
def kindOf (tag : Option String) (shown : Kind) : Except Fault Kind :=
  match tag with
  | none => pure shown
  | some t =>
    match Kind.ofTag? t with
    | some k => pure k
    | none => throw .invalid

/-- The kind of a tree. Of a loop nothing can be said. -/
def Tree.kind : Tree → Except Fault Kind
  | .loop => throw .invalid
  | .scalar tag isPlain s => kindOf tag (if isPlain then Kind.ofPlain s else .text)
  | .sequence tag _ => kindOf tag .sequence
  | .mapping tag _ => kindOf tag .mapping

/-- Is the tree of the given kind? -/
def hasKind (kind : Kind) (t : Tree) : Bool := t.kind.toOption == some kind

/-- The same tree, declared to be a text. -/
def Tree.asText : Tree → Tree
  | .loop => .loop
  | .scalar _ isPlain s => .scalar (some textTag) isPlain s
  | .sequence _ items => .sequence (some textTag) items
  | .mapping _ entries => .mapping (some textTag) entries

/-- A key of an entry: the key for default values is the text of its sign. -/
def plainKey (k : Tree) : Tree := if hasKind .defaultKey k then k.asText else k

mutual

/-- The text of a tree that is declared to be a scalar: its own, or that of its default value. -/
def scalarText? : Tree → Option String
  | .scalar _ _ s => some s
  | .sequence .. | .loop => none
  | .mapping _ entries => defaultText? entries

/-- The text of the default value in a mapping. -/
def defaultText? : List (Tree × Tree) → Option String
  | [] => none
  | (k, v) :: rest => if hasKind .defaultKey k then scalarText? v else defaultText? rest

end

/-- The scalar of a kind that a tree is declared to be. A date has to be written as a scalar. -/
def scalarValue (kind : Kind) (t : Tree) : Except Fault Scalar :=
  match scalarText? t, t with
  | none, _ => throw .invalid
  | some s, .scalar .. => scalarOf kind s
  | some s, _ => if kind = .timestamp then throw .unusable else scalarOf kind s

mutual

/-- The entries of a mapping: first those merged in, then its own. -/
def mergeEntries :
    List (Tree × Tree) → Except Fault (List (Tree × Tree) × List (Tree × Tree))
  | [] => pure ([], [])
  | (k, v) :: rest => do
    if hasKind .merge k then
      let source ← mergeSource v
      let (merged, own) ← mergeEntries rest
      pure (source ++ merged, own)
    else
      let (merged, own) ← mergeEntries rest
      pure (merged, (plainKey k, v) :: own)

/-- The entries that a value to be merged in contributes. -/
def mergeSource : Tree → Except Fault (List (Tree × Tree))
  | .mapping _ entries => do
    let (merged, own) ← mergeEntries entries
    pure (merged ++ own)
  | .sequence _ items => mergeItems items
  | .loop => pure []
  | .scalar .. => throw .invalid

/-- The entries that a list of mappings contributes: an earlier mapping wins. -/
def mergeItems : List Tree → Except Fault (List (Tree × Tree))
  | [] => pure []
  | .mapping _ entries :: rest => do
    let (merged, own) ← mergeEntries entries
    let later ← mergeItems rest
    pure (later ++ merged ++ own)
  | .loop :: rest => mergeItems rest
  | _ => throw .invalid

end

/-- A fault, and how deep in the document it lies. -/
structure Flaw where
  depth : Nat
  fault : Fault

/-- The shallower of two results that went wrong, and of equally deep ones the first. -/
def both {α β γ : Type} (f : α → β → γ) : Except Flaw α → Except Flaw β → Except Flaw γ
  | .ok a, .ok b => .ok (f a b)
  | .ok _, .error e => .error e
  | .error e, .ok _ => .error e
  | .error e, .error e' => .error (if e'.depth < e.depth then e' else e)

/-- All results, or the flaw by which they are judged. -/
def every {α : Type} : List (Except Flaw α) → Except Flaw (List α)
  | [] => .ok []
  | r :: rest => both List.cons r (every rest)

/-- A fault at a depth. -/
def flawAt {α : Type} (depth : Nat) (r : Except Fault α) : Except Flaw α :=
  r.mapError fun e => ⟨depth, e⟩

/-- The scalar that a key is. A collection cannot be a key. -/
def keyOf (k : Tree) : Except Fault Scalar := do
  match ← k.kind with
  | .sequence | .mapping => throw .invalid
  | kind => scalarValue kind k

/-- The value of a tree whose parent lies at the given depth. A loop is nothing. -/
def toNode : Nat → Nat → Tree → Except Flaw Node
  | 0, depth, _ => .error ⟨depth, .unusable⟩
  | budget + 1, depth, t =>
    match t.kind, t with
    | _, .loop => .ok .null
    | .error e, _ => .error ⟨depth, e⟩
    | .ok .sequence, .sequence _ items =>
      (every (items.map (toNode budget depth.succ))).map .list
    | .ok .mapping, .mapping _ entries =>
      match mergeEntries entries with
      | .error e => .error ⟨depth.succ, e⟩
      | .ok (merged, own) =>
        (every ((merged ++ own).map fun (k, v) =>
          both Prod.mk (flawAt depth.succ (keyOf k)) (toNode budget depth.succ v))).map
            Node.ofEntries
    | .ok .sequence, _ | .ok .mapping, _ => .error ⟨depth.succ, .invalid⟩
    | .ok kind, t => (flawAt depth (scalarValue kind t)).map .scalar

/-- A document that has been read. -/
structure Document where
  /-- Its value, with nothing in place of every loop. -/
  root : Node
  /-- Does a part of the document hold itself? -/
  loops : Bool

/-- A reader of YAML texts. -/
abbrev Reader := String → Except Fault Document

/-- Read a YAML text. An empty text is nothing. Of the kinds that tags declare, those in `Kind` are
known. -/
def read (s : String) : Except Fault Document := do
  let ts ← tokens s.toList
  match ← Tree.ofTokens ts with
  | none => pure ⟨.null, false⟩
  | some t =>
    let root ← (toNode (4 * ts.length + 4) 0 t).mapError (·.fault)
    pure ⟨root, t.loops⟩

end ApiModel.Yaml
