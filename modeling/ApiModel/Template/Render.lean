import ApiModel.Node.Display
import ApiModel.Template.Piece

/-!
# Rendering

Rendering goes through the pieces of a template with the values of its names at hand. A name
without a value, and a field or item that is not there, end the rendering as soon as they are
used; a value that cannot be gone through does so, too.

Texts, numbers, lists and mappings have operations. A field with the name of an operation is the
operation, even if a mapping has a key of that name, which is then reached as an item.
-/

namespace ApiModel.Template

/-! ## Values of expressions -/

/-- What an expression stands for. An operation cannot be applied; it only says something. -/
inductive Value where
  | node (n : Node)
  | operation (owner : Node) (name : String)
  deriving Inhabited

/-- The kind of a node as messages name it. -/
def ownerText (owner : Node) : String :=
  if owner.isNull then "None" else owner.kindName ++ " object"

namespace Value

/-- The kind of a value as messages name it. -/
def ownerText : Value → String
  | node n => Template.ownerText n
  | operation .. => "builtin_function_or_method object"

/-- Does the value say something? -/
def truthy : Value → Bool
  | node n => n.truthy
  | operation .. => true

/-- The text of an operation. -/
def operationText (owner : Node) (name : String) : String :=
  "<built-in method " ++ name ++ " of " ++ Template.ownerText owner ++ ">"

/-- The text of a value. -/
def display : Value → String
  | node n => n.display
  | operation owner name => operationText owner name

/-- The text of a value that shows its kind. -/
def literal : Value → String
  | node n => n.literal
  | operation owner name => operationText owner name

/-- What a value yields when gone through one by one. -/
def members? : Value → Option (List Node)
  | node n => n.members?
  | operation .. => none

/-- Are the two values the same? -/
def same : Value → Value → Bool
  | node m, node n => m.same n
  | operation m s, operation n t => s == t && m.same n
  | _, _ => false

end Value

/-- Why a template cannot be rendered. -/
inductive Problem where
  | undefined (name : String)
  | noField (owner : Value) (name : String)
  | noItem (owner key : Value)
  /-- A loop over something that cannot be gone through. -/
  | notIterable
  deriving Inhabited

/-- The wording of a problem. -/
def Problem.message : Problem → String
  | undefined name => (Node.text name).literal ++ " is undefined"
  | noField owner name =>
    (Node.text owner.ownerText).literal ++ " has no attribute " ++ (Node.text name).literal
  | noItem owner key => owner.ownerText ++ " has no element " ++ key.literal
  | notIterable => "a value that cannot be gone through"

/-- The values of names, innermost first. -/
abbrev Variables := List (String × Node)

/-! ## Fields and items -/

/-- The operations of texts. -/
def textOperations : List String :=
  ["capitalize", "casefold", "center", "count", "encode", "endswith", "expandtabs", "find",
    "format", "format_map", "index", "isalnum", "isalpha", "isascii", "isdecimal", "isdigit",
    "isidentifier", "islower", "isnumeric", "isprintable", "isspace", "istitle", "isupper",
    "join", "ljust", "lower", "lstrip", "maketrans", "partition", "removeprefix",
    "removesuffix", "replace", "rfind", "rindex", "rjust", "rpartition", "rsplit", "rstrip",
    "split", "splitlines", "startswith", "strip", "swapcase", "title", "translate", "upper",
    "zfill"]

/-- The operations that a value has because of its kind. -/
def operations : Node → List String
  | .map _ =>
    ["clear", "copy", "fromkeys", "get", "items", "keys", "pop", "popitem", "setdefault",
      "update", "values"]
  | .list _ =>
    ["append", "clear", "copy", "count", "extend", "index", "insert", "pop", "remove", "reverse",
      "sort"]
  | .text _ => textOperations
  | .int _ | .bool _ =>
    ["as_integer_ratio", "bit_count", "bit_length", "conjugate", "from_bytes", "to_bytes"]
  | .float _ => ["as_integer_ratio", "conjugate", "fromhex", "hex", "is_integer"]
  | _ => []

/-- The part of a number with the given name. -/
def part? : Node → String → Option Node
  | .bool b, name => (integerPart? (if b then 1 else 0) name).map .int
  | .int n, name => (integerPart? n name).map .int
  | .float x, name =>
    if name = "real" then some (.float x) else if name = "imag" then some (.float 0) else none
  | _, _ => none
where
  /-- The part of an integer with the given name. -/
  integerPart? (n : Int) (name : String) : Option Int :=
    if name = "real" ∨ name = "numerator" then some n
    else if name = "imag" then some 0
    else if name = "denominator" then some 1
    else none

/-- What a node has under a name because of its kind. -/
def attribute? (owner : Node) (name : String) : Option Value :=
  if (operations owner).contains name then some (.operation owner name)
  else (part? owner name).map .node

/-- A position that a node gives. -/
def position? : Node → Option Nat
  | .int n => if 0 ≤ n then some n.toNat else none
  | .bool b => some (if b then 1 else 0)
  | _ => none

/-- The item of a list, the character of a text or the value of a mapping that a key gives. -/
def item? (owner key : Node) : Option Node :=
  match owner, key with
  | .map entries, .scalar k => Node.lookup k entries
  | .list items, k => (position? k).bind fun i => items[i]?
  | .text s, k => (position? k).bind fun i => (s.toList[i]?).map fun c => .text (String.singleton c)
  | _, _ => none

/-- A field of a node: what its kind has under the name, else what the node holds. -/
def field? (owner : Node) (name : String) : Option Value :=
  (attribute? owner name).or ((owner.get? name).map .node)

/-- An item of a node: what the node holds, else what its kind has under the name. -/
def itemOrAttribute? (owner key : Node) : Option Value :=
  ((item? owner key).map .node).or (key.text?.bind (attribute? owner))

/-- A field of a value. An operation has none. -/
def fieldOf (owner : Value) (name : String) : Except Problem Value :=
  let found :=
    match owner with
    | .node n => field? n name
    | .operation .. => none
  match found with
  | some value => .ok value
  | none => .error (.noField owner name)

/-- An item of a value. An operation has none, and is the key of none. -/
def itemOf (owner key : Value) : Except Problem Value :=
  let found :=
    match owner, key with
    | .node n, .node k => itemOrAttribute? n k
    | _, _ => none
  match found, key with
  | some value, _ => .ok value
  | none, .node (.text name) => .error (.noField owner name)
  | none, key => .error (.noItem owner key)

/-- The value of an expression. Of a conjunction and of a disjunction the second part counts only
if the first does not decide it. -/
def Expr.value (vars : Variables) : Expr → Except Problem Value
  | .constant n => .ok (.node n)
  | .name s =>
    match vars.lookup s with
    | some n => .ok (.node n)
    | none => .error (.undefined s)
  | .field e key => do fieldOf (← e.value vars) key
  | .item e key => do
    let owner ← e.value vars
    itemOf owner (← key.value vars)
  | .equal a b => do
    let x ← a.value vars
    pure (.node (.bool (x.same (← b.value vars))))
  | .negate e => do pure (.node (.bool !(← e.value vars).truthy))
  | .both a b => do
    let x ← a.value vars
    if x.truthy then b.value vars else pure x
  | .either a b => do
    let x ← a.value vars
    if x.truthy then pure x else b.value vars

/-! ## Pieces -/

/-- What a loop says of itself in its body. -/
def loopNode (index length : Nat) : Node :=
  .record [("index", .int (index + 1)), ("index0", .int index), ("first", .bool (index == 0)),
    ("last", .bool (index + 1 == length)), ("length", .int length)]

/-- The variables of the rounds of a loop. -/
def rounds (vars : Variables) (target : String) (items : List Node) : List Variables :=
  items.mapIdx fun i x => (target, x) :: ("loop", loopNode i items.length) :: vars

mutual

/-- Render one piece. -/
def Piece.render (vars : Variables) : Piece → Except Problem String
  | .text s => .ok s
  | .print e => (e.value vars).map Value.display
  | .choice condition yes no => do
    if (← condition.value vars).truthy then Piece.renderAll vars yes
    else Piece.renderAll vars no
  | .loop target range body otherwise => do
    match (← range.value vars).members? with
    | none => .error .notIterable
    | some [] => Piece.renderAll vars otherwise
    | some items =>
      let texts ← (rounds vars target items).mapM fun vars => Piece.renderAll vars body
      pure (String.join texts)

/-- Render pieces one after the other. -/
def Piece.renderAll (vars : Variables) : List Piece → Except Problem String
  | [] => .ok ""
  | p :: ps => do
    let s ← p.render vars
    pure (s ++ (← Piece.renderAll vars ps))

end

end ApiModel.Template
