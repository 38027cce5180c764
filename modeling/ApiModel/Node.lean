import ApiModel.Scalar

/-!
# Document trees

A document is a tree of lists and mappings over scalars. The entries of a mapping keep the order
in which the document gives them, and every reading of a document goes by that order. The tree
is recursive, so that the keys of a mapping are pairwise different is not part of the type: it
is what `insert` keeps.
-/

namespace ApiModel

/-- A node of a document. -/
inductive Node where
  | scalar (value : Scalar)
  | list (items : List Node)
  | map (entries : List (Scalar × Node))
  deriving Inhabited

namespace Node

@[match_pattern] abbrev null : Node := scalar .null
@[match_pattern] abbrev bool (b : Bool) : Node := scalar (.bool b)
@[match_pattern] abbrev int (n : Int) : Node := scalar (.int n)
@[match_pattern] abbrev float (x : Float) : Node := scalar (.float x)
@[match_pattern] abbrev text (s : String) : Node := scalar (.text s)

/-! ## Mappings -/

/-- The value of a key. -/
def lookup (key : Scalar) : List (Scalar × Node) → Option Node
  | [] => none
  | (k, v) :: rest => if k.sameKey key then some v else lookup key rest

/-- Give a key a value: in its place if the key is there, at the end otherwise. -/
def insert (key : Scalar) (value : Node) : List (Scalar × Node) → List (Scalar × Node)
  | [] => [(key, value)]
  | (k, v) :: rest =>
    if k.sameKey key then (k, value) :: rest else (k, v) :: insert key value rest

/-- The mapping that a sequence of entries leaves: a repeated key keeps its first place and
takes its last value. -/
def ofEntries (entries : List (Scalar × Node)) : Node :=
  map (entries.foldl (fun m e => insert e.1 e.2 m) [])

/-- A mapping with text keys. -/
def record (fields : List (String × Node)) : Node :=
  map (fields.map fun f => (.text f.1, f.2))

/-- The value of a text key in a list of entries. -/
def getText? (key : String) : List (Scalar × Node) → Option Node
  | [] => none
  | (.text k, v) :: rest => if k = key then some v else getText? key rest
  | _ :: rest => getText? key rest

/-- The value of a text key, if the node is a mapping that has it. -/
def get? (key : String) : Node → Option Node
  | map entries => getText? key entries
  | _ => none

/-- The value of a text key, and nothing if there is none. -/
def field (key : String) (n : Node) : Node := (n.get? key).getD null

/-! ## Kinds of node -/

/-- The text of a text node. -/
def text? : Node → Option String
  | text s => some s
  | _ => none

/-- The entries of a mapping. -/
def entries? : Node → Option (List (Scalar × Node))
  | map entries => some entries
  | _ => none

/-- Is the node a mapping? -/
def isMap (n : Node) : Bool := n.entries?.isSome

/-- Is the node the truth value yes? -/
def isTrue : Node → Bool
  | bool true => true
  | _ => false

/-- Is the node nothing? -/
def isNull : Node → Bool
  | null => true
  | _ => false

/-- Is the node the given text? -/
def isText (s : String) (n : Node) : Bool := n.text? = some s

/-- Does the node say something? Empty texts, lists and mappings do not, nor do zero and no. -/
def truthy : Node → Bool
  | scalar s => s.truthy
  | list items => !items.isEmpty
  | map entries => !entries.isEmpty

/-- The node, and nothing in place of a node that says nothing. -/
def orNull (n : Node) : Node := if n.truthy then n else null

/-- The node if it says something, else the other one. -/
def orElse (n other : Node) : Node := if n.truthy then n else other

/-- The word for the kind of node. -/
def kindName : Node → String
  | scalar s => s.kindName
  | list _ => "list"
  | map _ => "dict"

/-- The node itself if it is a mapping, else the empty mapping. -/
def asMap : Node → Node
  | map entries => map entries
  | _ => map []

/-- What a node yields when gone through one by one: the items of a list, the keys of a mapping,
the characters of a text. Other nodes cannot be gone through. -/
def members? : Node → Option (List Node)
  | list items => some items
  | map entries => some (entries.map fun e => scalar e.1)
  | text s => some (s.toList.map fun c => text (String.singleton c))
  | _ => none

/-- The texts among the nodes. -/
def texts (nodes : List Node) : List String := nodes.filterMap text?

/-! ## Equality -/

mutual

/-- Are the two nodes the same value? Numbers are compared by value, and the order of the entries
of a mapping does not count. -/
def same : Node → Node → Bool
  | scalar s, scalar t => s.same t
  | list xs, list ys => sameItems xs ys
  | map es, map fs => es.length == fs.length && sameEntries es fs
  | _, _ => false

/-- Are the nodes of the two lists pairwise the same? -/
def sameItems : List Node → List Node → Bool
  | [], [] => true
  | x :: xs, y :: ys => same x y && sameItems xs ys
  | _, _ => false

/-- Does the second list have the same value for each key of the first? -/
def sameEntries : List (Scalar × Node) → List (Scalar × Node) → Bool
  | [], _ => true
  | (k, v) :: rest, others =>
    (match lookup k others with
      | some w => same v w
      | none => false) && sameEntries rest others

end

/-! ## Size -/

mutual

/-- The number of nodes of a tree. -/
def count : Node → Nat
  | scalar _ => 1
  | list items => countAll items + 1
  | map entries => countValues entries + 1

/-- The number of nodes of a list of trees. -/
def countAll : List Node → Nat
  | [] => 0
  | n :: rest => n.count + countAll rest

/-- The number of nodes of the values of entries. -/
def countValues : List (Scalar × Node) → Nat
  | [] => 0
  | (_, n) :: rest => n.count + countValues rest

end

end Node

end ApiModel
