import ApiModel.Node
import ApiModel.Template.Token

/-!
# Expressions

The expressions of a template: names, constants, fields and items, negation, conjunction,
disjunction and equality, the last binding most tightly. `Expr.ofTokens?` reads exactly one
expression.
-/

namespace ApiModel.Template

/-- An expression. -/
inductive Expr where
  | constant (value : Node)
  | name (s : String)
  | field (e : Expr) (name : String)
  | item (e key : Expr)
  | equal (a b : Expr)
  | negate (e : Expr)
  | both (a b : Expr)
  | either (a b : Expr)
  deriving Inhabited

namespace Expr

/-- The constant that a name stands for. -/
def constant? (s : String) : Option Node :=
  if s = "true" ∨ s = "True" then some (.bool true)
  else if s = "false" ∨ s = "False" then some (.bool false)
  else if s = "none" ∨ s = "None" then some .null
  else none

/-- What a name stands for. -/
def ofName (s : String) : Expr :=
  match constant? s with
  | some n => constant n
  | none => name s

mutual

/-- Read a disjunction. -/
def readEither : Nat → List Token → Option (Expr × List Token)
  | 0, _ => none
  | budget + 1, ts => do
    let (a, rest) ← readBoth budget ts
    moreEither budget a rest

/-- Read the further parts of a disjunction. -/
def moreEither : Nat → Expr → List Token → Option (Expr × List Token)
  | 0, _, _ => none
  | budget + 1, a, .name "or" :: ts => do
    let (b, rest) ← readBoth budget ts
    moreEither budget (either a b) rest
  | _ + 1, a, ts => some (a, ts)

/-- Read a conjunction. -/
def readBoth : Nat → List Token → Option (Expr × List Token)
  | 0, _ => none
  | budget + 1, ts => do
    let (a, rest) ← readNegation budget ts
    moreBoth budget a rest

/-- Read the further parts of a conjunction. -/
def moreBoth : Nat → Expr → List Token → Option (Expr × List Token)
  | 0, _, _ => none
  | budget + 1, a, .name "and" :: ts => do
    let (b, rest) ← readNegation budget ts
    moreBoth budget (both a b) rest
  | _ + 1, a, ts => some (a, ts)

/-- Read a negation or an equation. -/
def readNegation : Nat → List Token → Option (Expr × List Token)
  | 0, _ => none
  | budget + 1, .name "not" :: ts => do
    let (e, rest) ← readNegation budget ts
    pure (negate e, rest)
  | budget + 1, ts => readEquation budget ts

/-- Read an equation or one of its sides. -/
def readEquation : Nat → List Token → Option (Expr × List Token)
  | 0, _ => none
  | budget + 1, ts => do
    let (a, rest) ← readOperand budget ts
    match rest with
    | .equals :: more =>
      let (b, rest) ← readOperand budget more
      pure (equal a b, rest)
    | rest => pure (a, rest)

/-- Read a name or constant with what follows it. Texts in a row are one. -/
def readOperand : Nat → List Token → Option (Expr × List Token)
  | 0, _ => none
  | budget + 1, .name s :: ts => moreFields budget (ofName s) ts
  | budget + 1, .text s :: .text t :: ts => readOperand budget (.text (s ++ t) :: ts)
  | budget + 1, .text s :: ts => moreFields budget (constant (.text s)) ts
  | budget + 1, .number n :: ts => moreFields budget (constant (.int n)) ts
  | _ + 1, _ => none

/-- Read the fields and items after an operand. -/
def moreFields : Nat → Expr → List Token → Option (Expr × List Token)
  | 0, _, _ => none
  | budget + 1, e, .dot :: .name s :: ts => moreFields budget (field e s) ts
  | budget + 1, e, .dot :: .number n :: ts => moreFields budget (item e (constant (.int n))) ts
  | budget + 1, e, .open :: ts => do
    let (key, rest) ← readEither budget ts
    match rest with
    | .close :: more => moreFields budget (item e key) more
    | _ => none
  | _ + 1, e, ts => some (e, ts)

end

/-- The expression that the tokens are; no token may be left over. -/
def ofTokens? (ts : List Token) : Option Expr := do
  let (e, rest) ← readEither (6 * ts.length + 6) ts
  if rest.isEmpty then pure e else none

end Expr

end ApiModel.Template
