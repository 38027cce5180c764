import ApiModel.Template.Expr
import ApiModel.Template.Segment

/-!
# The tree of a template

Tags come in pairs with other pieces between them: a loop with its body and with what stands for
it when there is nothing to go through, and a choice with its two sides. `Piece.ofText?` reads a
whole template; a template whose tags do not fit together is none.
-/

namespace ApiModel.Template

/-- A piece of a template. -/
inductive Piece where
  | text (s : String)
  | print (e : Expr)
  | loop (target : String) (range : Expr) (body otherwise : List Piece)
  | choice (condition : Expr) (yes no : List Piece)
  deriving Inhabited

namespace Piece

/-- The tag that ended a row of pieces. -/
inductive Ending where
  | finish
  | endFor
  | endIf
  | otherwise
  | otherwiseIf (condition : Expr)

/-- What a tag does. -/
inductive Tag where
  | beginFor (target : String) (range : Expr)
  | beginIf (condition : Expr)
  | ending (e : Ending)

/-- Read a tag. -/
def tag? : List Token → Option Tag
  | .name "for" :: .name target :: .name "in" :: range =>
    if (Expr.constant? target).isSome || target = "loop" then none
    else (Expr.ofTokens? range).map (.beginFor target)
  | .name "if" :: condition => (Expr.ofTokens? condition).map .beginIf
  | .name "elif" :: condition => (Expr.ofTokens? condition).map fun e => .ending (.otherwiseIf e)
  | [.name "else"] => some (.ending .otherwise)
  | [.name "endfor"] => some (.ending .endFor)
  | [.name "endif"] => some (.ending .endIf)
  | _ => none

mutual

/-- Read pieces up to a tag that ends them, and what follows that tag. -/
def readRow : Nat → List Segment → Option (List Piece × Ending × List Segment)
  | 0, _ => none
  | _ + 1, [] => some ([], .finish, [])
  | budget + 1, .text s :: rest => do
    let (ps, e, after) ← readRow budget rest
    pure (text (String.ofList s) :: ps, e, after)
  | budget + 1, .print ts :: rest => do
    let expr ← Expr.ofTokens? ts
    let (ps, e, after) ← readRow budget rest
    pure (print expr :: ps, e, after)
  | budget + 1, .tag ts :: rest => do
    match ← tag? ts with
    | .ending e => pure ([], e, rest)
    | .beginFor target range =>
      let (body, otherwise, rest) ← readLoop budget rest
      let (ps, e, after) ← readRow budget rest
      pure (loop target range body otherwise :: ps, e, after)
    | .beginIf condition =>
      let (yes, no, rest) ← readChoice budget rest
      let (ps, e, after) ← readRow budget rest
      pure (choice condition yes no :: ps, e, after)

/-- Read the body of a loop and its other side. -/
def readLoop : Nat → List Segment → Option (List Piece × List Piece × List Segment)
  | 0, _ => none
  | budget + 1, segments => do
    let (body, e, rest) ← readRow budget segments
    match e with
    | .endFor => pure (body, [], rest)
    | .otherwise =>
      let (other, e, rest) ← readRow budget rest
      match e with
      | .endFor => pure (body, other, rest)
      | _ => none
    | _ => none

/-- Read the two sides of a choice. -/
def readChoice : Nat → List Segment → Option (List Piece × List Piece × List Segment)
  | 0, _ => none
  | budget + 1, segments => do
    let (yes, e, rest) ← readRow budget segments
    match e with
    | .endIf => pure (yes, [], rest)
    | .otherwise =>
      let (no, e, rest) ← readRow budget rest
      match e with
      | .endIf => pure (yes, no, rest)
      | _ => none
    | .otherwiseIf condition =>
      let (yes', no', rest) ← readChoice budget rest
      pure (yes, [choice condition yes' no'], rest)
    | _ => none

end

/-- The pieces of a template. -/
def ofText? (s : String) : Option (List Piece) := do
  let segments ← Segment.ofText? s
  match ← readRow (2 * segments.length + 2) segments with
  | (ps, .finish, _) => pure ps
  | _ => none

end Piece

end ApiModel.Template
