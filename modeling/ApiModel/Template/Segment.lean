import ApiModel.Template.Token

/-!
# Segments

A template is cut into texts, printed expressions and tags; comments fall away. A tag or comment
that has a line to itself leaves no trace of that line: the white space before it is dropped, and
so is the line end after it.
-/

namespace ApiModel.Template

/-- A part of a template. -/
inductive Segment where
  | text (s : List Char)
  | print (tokens : List Token)
  | tag (tokens : List Token)
  deriving Repr

namespace Segment

/-- What an opening brace and the character after it begin. -/
inductive Opening where
  | print
  | tag
  | comment
  deriving DecidableEq

/-- What the character after an opening brace begins. -/
def opening? : Char → Option Opening
  | '\x7b' => some .print
  | '%' => some .tag
  | '#' => some .comment
  | _ => none

/-- The text up to the first opening, the opening, and what follows it. -/
def toOpening : List Char → List Char × Option (Opening × List Char)
  | [] => ([], none)
  | c :: rest =>
    match if c == '\x7b' then rest.head?.bind opening? else none with
    | some o => ([], some (o, rest.drop 1))
    | none =>
      let (head, found) := toOpening rest
      (c :: head, found)

/-- What follows the end of a comment. -/
def afterComment? : List Char → Option (List Char)
  | '#' :: '\x7d' :: rest => some rest
  | _ :: rest => afterComment? rest
  | [] => none

/-- A text without the white space after its last line end, if nothing else stands there. The
text may begin at the start of a line. -/
def trimLineStart (atLineStart : Bool) (text : List Char) : List Char :=
  let tail := (text.reverse.takeWhile (· != '\n')).reverse
  let head := text.take (text.length - tail.length)
  if (atLineStart || !head.isEmpty) && tail.all Unicode.isBlank then head else text

/-- Drop a line end, and say whether there was one. -/
def dropBreak : List Char → Bool × List Char
  | '\n' :: rest => (true, rest)
  | s => (false, s)

/-- A text in front of other segments, if it is not empty. -/
def consText (s : List Char) (segments : List Segment) : List Segment :=
  if s.isEmpty then segments else text s :: segments

/-- The segments of a template. Every opening takes characters, so that the length of the text
bounds their number. -/
def cut? : Nat → Bool → List Char → Option (List Segment)
  | 0, _, _ => none
  | budget + 1, atLineStart, s =>
    match toOpening s with
    | (head, none) => some (consText head [])
    | (head, some (.print, rest)) => do
      let (tokens, after) ← Token.upTo? '\x7d' '\x7d' (rest.length + 1) rest
      pure (consText head (print tokens :: (← cut? budget false after)))
    | (head, some (.tag, rest)) => do
      let (tokens, after) ← Token.upTo? '%' '\x7d' (rest.length + 1) rest
      let (broke, after) := dropBreak after
      pure (consText (trimLineStart atLineStart head) (tag tokens :: (← cut? budget broke after)))
    | (head, some (.comment, rest)) => do
      let (broke, after) := dropBreak (← afterComment? rest)
      pure (consText (trimLineStart atLineStart head) (← cut? budget broke after))

/-- The segments of a template. -/
def ofText? (s : String) : Option (List Segment) :=
  let chars := Text.unifyLineEnds s.toList
  cut? (chars.length + 1) true chars

end Segment

end ApiModel.Template
