import ApiModel.Node.Display
import ApiModel.Text.Cut
import ApiModel.Unicode.Case

/-!
# Marked-up text

A console that may use colours reads every text as markup. A tag stands in brackets: it begins with
a small letter, `#`, `/` or `@`, and ends at the next closing bracket. A tag opens a style, or calls
a handler if its name begins with `@`; with a slash in front it closes the last open tag of that
name, or without a name the last one. Backslashes before a tag escape it, two of them stand for
one. What is shown is the text without its tags.

Brackets around anything else are no tags. A tag that closes nothing is an error, and so are
arguments of a handler that cannot be read.
-/

namespace ApiModel.Output.Markup

/-- A tag that is open: its name, and what stands behind an equals sign. -/
structure Tag where
  name : List Char
  arguments : Option (List Char)

/-- What has been read of a text. -/
structure Reading where
  /-- The text that is shown. -/
  shown : List Char := []
  /-- The tags that are open, the last one first. -/
  opened : List Tag := []
  /-- The number of backslashes right before, or before the bracket. -/
  escapes : Nat := 0
  /-- What stands behind a bracket that may begin a tag. -/
  body : Option (List Char) := none
  /-- The number of characters that have been read. -/
  position : Nat := 0

/-- Does the character begin a tag? -/
def beginsTag (c : Char) : Bool := ('a' ≤ c && c ≤ 'z') || c == '#' || c == '/' || c == '@'

/-- Some backslashes. -/
def backslashes (n : Nat) : List Char := List.replicate n '\\'

/-- A name as it is compared with others. -/
def normalName (name : List Char) : List Char := Unicode.lower (Text.trim name)

/-! ## Handlers -/

/-- The number of parentheses that are open behind a text, given how many are before it. -/
def openParentheses : Nat → List Char → Nat
  | n, [] => n
  | n, c :: rest =>
    openParentheses (if c == '(' then n + 1 else if c == ')' then n - 1 else n) rest

/-- Why the arguments of a handler cannot be read. Only unclosed parentheses are looked for. -/
def argumentsFault? (arguments : List Char) : Option String :=
  let text := Text.trim arguments
  if 0 < openParentheses 0 text then
    some ("error parsing " ++ String.ofList (Text.literal text) ++ " in " ++
      String.ofList (Text.literal arguments) ++ "; \x27(\x27 was never closed")
  else none

/-! ## Tags -/

/-- Close a tag: its arguments are read if it calls a handler. -/
def Reading.close (r : Reading) (tag : Tag) (rest : List Tag) : Except String Reading :=
  match if tag.name.head? = some '@' then tag.arguments.bind argumentsFault? else none with
  | some why => .error why
  | none => .ok { r with opened := rest }

/-- The last open tag of a name, and the others. -/
def lastNamed? (name : List Char) : List Tag → Option (Tag × List Tag)
  | [] => none
  | tag :: rest =>
    if tag.name = name then some (tag, rest)
    else (lastNamed? name rest).map fun (found, others) => (found, tag :: others)

/-- Read a tag that begins at a position. -/
def Reading.tag (r : Reading) (position : Nat) (body : List Char) : Except String Reading :=
  let name := Text.before '=' body
  let arguments := match body.dropWhile (· != '=') with
    | _ :: arguments => some arguments
    | [] => none
  match name with
  | '/' :: closed =>
    let place := "\x27 at position " ++ toString position
    if (Text.trim closed).isEmpty then
      match r.opened with
      | tag :: rest => r.close tag rest
      | [] => .error ("closing tag \x27[/]" ++ place ++ " has nothing to close")
    else
      match lastNamed? (normalName closed) r.opened with
      | some (tag, rest) => r.close tag rest
      | none =>
        .error ("closing tag \x27[" ++ String.ofList body ++ "]" ++ place ++
          " doesn\x27t match any open tag")
  | _ => .ok { r with opened := ⟨normalName name, arguments⟩ :: r.opened }

/-! ## Reading -/

/-- Show some text. A backslash before a bracket is not shown. -/
def Reading.show (r : Reading) (text : List Char) : Reading :=
  { r with shown := r.shown ++ text, escapes := 0, body := none }

/-- What has been taken for the beginning of a tag is text. -/
def Reading.giveUp (r : Reading) (body : List Char) : Reading :=
  r.show (backslashes (r.escapes - 1) ++ '[' :: body)

/-- Read a character outside of tags. -/
def Reading.outside (r : Reading) (c : Char) : Reading :=
  if c == '\\' then { r with escapes := r.escapes + 1 }
  else if c == '[' then { r with body := some [] }
  else r.show (backslashes r.escapes ++ [c])

/-- Read the bracket that ends a tag, or the text in place of an escaped one. -/
def Reading.finishTag (r : Reading) (body : List Char) : Except String Reading :=
  let before := backslashes (r.escapes / 2)
  if r.escapes % 2 = 1 then .ok (r.show (before ++ '[' :: (body ++ [']'])))
  else (r.show before).tag (r.position - body.length - 1) body

/-- Read a bracket behind the beginning of a tag: only this one can begin a tag. -/
def Reading.restart (r : Reading) (body : List Char) : Reading :=
  let escapes := (body.reverse.takeWhile (· == '\\')).length
  { r.giveUp (body.take (body.length - escapes)) with escapes, body := some [] }

/-- Read a character, without counting it. -/
def Reading.take (r : Reading) (c : Char) : Except String Reading :=
  match r.body with
  | none => .ok (r.outside c)
  | some [] =>
    if beginsTag c then .ok { r with body := some [c] } else .ok ((r.giveUp []).outside c)
  | some body =>
    if c == ']' then r.finishTag body
    else if c == '[' then .ok (r.restart body)
    else .ok { r with body := some (body ++ [c]) }

/-- Read a character. -/
def Reading.step (r : Reading) (c : Char) : Except String Reading :=
  (r.take c).map fun r => { r with position := r.position + 1 }

/-- What is shown at the end of the text. -/
def Reading.finish (r : Reading) : List Char :=
  match r.body with
  | none => r.shown ++ backslashes r.escapes
  | some body => (r.giveUp body).shown

/-- What is shown of a marked-up text, or why it cannot be read. -/
def shown (s : String) : Except String String :=
  (s.toList.foldlM Reading.step {}).map fun r => String.ofList r.finish

end ApiModel.Output.Markup
