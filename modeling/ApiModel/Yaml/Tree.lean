import ApiModel.Yaml.Token

/-!
# The tree of a YAML document

Tokens are put together to a tree of scalars, sequences and mappings, each with a tag if one is
written. An alias stands for the tree of its anchor, which must come before it; inside of that
tree it is a loop. A text holds one document at most.

The budget of the recursion is the number of tokens: every call either reads a token or stands
for one that is missing between two others.
-/

namespace ApiModel.Yaml

/-- A node of a document. A scalar knows whether it was written plain. -/
inductive Tree where
  /-- A node around this place. -/
  | loop
  | scalar (tag : Option String) (isPlain : Bool) (text : String)
  | sequence (tag : Option String) (items : List Tree)
  | mapping (tag : Option String) (entries : List (Tree × Tree))

namespace Tree

/-- The scalar that stands where nothing is written. -/
def empty : Tree := scalar none true ""

mutual

/-- Does a part of the tree hold itself? -/
def loops : Tree → Bool
  | loop => true
  | scalar .. => false
  | sequence _ items => itemsLoop items
  | mapping _ entries => entriesLoop entries

/-- Does one of the trees hold itself? -/
def itemsLoop : List Tree → Bool
  | [] => false
  | t :: rest => t.loops || itemsLoop rest

/-- Does one of the entries hold itself? -/
def entriesLoop : List (Tree × Tree) → Bool
  | [] => false
  | (k, v) :: rest => k.loops || v.loops || entriesLoop rest

end

/-- Where the reading of the tokens stands. -/
structure Place where
  /-- The anchors so far, with their trees if those are complete. -/
  seen : List (String × Option Tree)
  rest : List Token

/-- Reading from the tokens. -/
abbrev Reading := StateT Place (Except Fault)

/-- What a document has declared: the text of each tag handle. -/
abbrev Handles := List (String × String)

/-- The handles that need no declaration. -/
def standardHandles : Handles := [("!", "!"), ("!!", "tag:yaml.org,2002:")]

/-- The full text of a tag. -/
def fullTag (handles : Handles) (handle : Option String) (text : String) : Except Fault String :=
  match handle with
  | none => pure text
  | some h =>
    match handles.lookup h with
    | some front => pure (front ++ text)
    | none => throw .invalid

/-- The next token. -/
def nextToken : Reading Token := do return (← get).rest.headD .streamEnd

/-- Pass the next token. -/
def pass : Reading Unit := modify fun p => { p with rest := p.rest.tail }

/-- Pass the next token, which must be the given one. -/
def expect (t : Token) : Reading Unit := do
  if (← nextToken) == t then pass else throw .invalid

/-- The tag and the anchor in front of a node, in either order. -/
def properties (hs : Handles) : Reading (Option String × Option String) := do
  match (← get).rest with
  | .anchor a :: .tag h t :: _ | .tag h t :: .anchor a :: _ =>
    pass
    pass
    pure (some (← fullTag hs h t), some a)
  | .anchor a :: _ =>
    pass
    pure (none, some a)
  | .tag h t :: _ =>
    pass
    pure (some (← fullTag hs h t), none)
  | _ => pure (none, none)

/-- Remember the tree of an anchor, none while it is incomplete. -/
def remember (anchor : Option String) (t : Option Tree) : Reading Unit :=
  match anchor with
  | some a => modify fun p => { p with seen := (a, t) :: p.seen }
  | none => pure ()

/-- The tree of an alias: a loop as long as the tree of its anchor is not complete. -/
def aliased (a : String) : Reading Tree := do
  match (← get).seen.lookup a with
  | some (some t) => pure t
  | some none => pure loop
  | none => throw .invalid

/-- A lone exclamation mark leaves the tag to the text of a scalar, as if it were plain. -/
def leaf (tag : Option String) (isPlain : Bool) (text : String) : Tree :=
  if tag == some "!" then scalar none true text else scalar tag isPlain text

/-- The tag of a collection; a lone exclamation mark is none. -/
def collectionTag (tag : Option String) : Option String := tag.filter (· != "!")

/-- Where a node stands: which blocks may begin there. -/
inductive Position where
  /-- Between brackets: none. -/
  | flow
  /-- In a block: any with an indent of its own. -/
  | block
  /-- Behind a key: also a sequence without an indent of its own. -/
  | value
  deriving DecidableEq

/-- Does a token end an item of a block sequence that is not written? -/
def endsItem (t : Token) : Bool := t == .blockEntry || t == .blockEnd

/-- Does a token end half an entry of a block mapping that is not written? -/
def endsHalf (t : Token) : Bool := t == .key || t == .value || t == .blockEnd

/-- Does a token end a value between brackets that is not written? -/
def endsFlowValue (closing t : Token) : Bool := t == .flowEntry || t == closing

/-- Pass the comma in front of an item between brackets, unless the item is the first. -/
def separator (first : Bool) : Reading Unit := do
  if !first then expect .flowEntry

mutual

/-- A node. -/
def node (hs : Handles) (p : Position) : Nat → Reading Tree
  | 0 => throw .invalid
  | budget + 1 => do
    if let .alias a ← nextToken then
      pass
      aliased a
    else
      let (tag, anchor) ← properties hs
      let seen := (← get).seen
      if (anchor.map fun a => (seen.lookup a).isSome).getD false then throw .invalid
      remember anchor none
      let t ← content hs p tag anchor.isSome budget
      remember anchor (some t)
      pure t

/-- A node behind its tag and anchor. -/
def content (hs : Handles) (p : Position) (tag : Option String) (anchored : Bool) :
    Nat → Reading Tree
  | 0 => throw .invalid
  | budget + 1 => do
    let next ← nextToken
    match next with
    | .scalar s isPlain =>
      pass
      pure (leaf tag (isPlain && tag.isNone) s)
    | .flowSequence =>
      pass
      return sequence (collectionTag tag) (← flowItems hs true budget)
    | .flowMapping =>
      pass
      return mapping (collectionTag tag) (← flowEntries hs true budget)
    | _ =>
      if next == .blockEntry && p == .value then
        return sequence (collectionTag tag) (← looseItems hs budget)
      else if next == .blockSequence && p != .flow then
        pass
        return sequence (collectionTag tag) (← blockItems hs budget)
      else if next == .blockMapping && p != .flow then
        pass
        return mapping (collectionTag tag) (← blockEntries hs budget)
      else if anchored || tag.isSome then pure (leaf tag tag.isNone "")
      else throw .invalid

/-- A node, or nothing if the next token ends the place. -/
def nodeUnless (ends : Token → Bool) (hs : Handles) (p : Position) : Nat → Reading Tree
  | 0 => throw .invalid
  | budget + 1 => do
    if ends (← nextToken) then pure empty else node hs p budget

/-- The value behind a key: nothing if there is no colon. -/
def valueOf (ends : Token → Bool) (hs : Handles) (p : Position) : Nat → Reading Tree
  | 0 => throw .invalid
  | budget + 1 => do
    if (← nextToken) == .value then
      pass
      nodeUnless ends hs p budget
    else pure empty

/-- The items of a block sequence. -/
def blockItems (hs : Handles) : Nat → Reading (List Tree)
  | 0 => throw .invalid
  | budget + 1 => do
    if (← nextToken) == .blockEntry then
      pass
      let item ← nodeUnless endsItem hs .block budget
      return item :: (← blockItems hs budget)
    else
      expect .blockEnd
      pure []

/-- The items of a sequence without an indent of its own. -/
def looseItems (hs : Handles) : Nat → Reading (List Tree)
  | 0 => throw .invalid
  | budget + 1 => do
    if (← nextToken) == .blockEntry then
      pass
      let item ← nodeUnless (fun t => endsItem t || endsHalf t) hs .block budget
      return item :: (← looseItems hs budget)
    else pure []

/-- The entries of a block mapping. Either half of an entry may be missing. -/
def blockEntries (hs : Handles) : Nat → Reading (List (Tree × Tree))
  | 0 => throw .invalid
  | budget + 1 => do
    if (← nextToken) == .key then
      pass
      let k ← nodeUnless endsHalf hs .value budget
      let v ← valueOf endsHalf hs .value budget
      return (k, v) :: (← blockEntries hs budget)
    else
      expect .blockEnd
      pure []

/-- The items of a sequence between brackets. An entry of a mapping may stand as an item. -/
def flowItems (hs : Handles) (first : Bool) : Nat → Reading (List Tree)
  | 0 => throw .invalid
  | budget + 1 => do
    let closing := Token.flowSequenceEnd
    if (← nextToken) != closing then separator first
    let next ← nextToken
    if next == closing then
      pass
      pure []
    else
      let item ←
        if next == .key then do
          pass
          let k ← nodeUnless (fun t => t == .value || endsFlowValue closing t) hs .flow budget
          let v ← valueOf (endsFlowValue closing) hs .flow budget
          pure (mapping none [(k, v)])
        else node hs .flow budget
      return item :: (← flowItems hs false budget)

/-- The entries of a mapping between brackets. A key may stand alone. -/
def flowEntries (hs : Handles) (first : Bool) : Nat → Reading (List (Tree × Tree))
  | 0 => throw .invalid
  | budget + 1 => do
    let closing := Token.flowMappingEnd
    if (← nextToken) != closing then separator first
    let next ← nextToken
    if next == closing then
      pass
      pure []
    else
      let entry ←
        if next == .key then do
          pass
          let k ← nodeUnless (fun t => t == .value || endsFlowValue closing t) hs .flow budget
          let v ← valueOf (endsFlowValue closing) hs .flow budget
          pure (k, v)
        else do
          let k ← node hs .flow budget
          pure (k, empty)
      return entry :: (← flowEntries hs false budget)

end

/-! ## Documents -/

/-- The directives in front of a document: was there a version, the handles, the tokens left. -/
def directives : Bool → Handles → List Token → Except Fault (Handles × List Token)
  | versioned, hs, .directive n values :: rest =>
    if n == "YAML" then
      if versioned || (Decimal.readNat? 10 (values.headD "").toList) != some 1 then
        throw .invalid
      else directives true hs rest
    else
      match n, values with
      | "TAG", [handle, text] =>
        if (hs.lookup handle).isSome then throw .invalid
        else directives versioned ((handle, text) :: hs) rest
      | _, _ => directives versioned hs rest
  | _, hs, ts => pure (hs, ts)

/-- The tokens behind the marks that end a document. -/
def skipEnds (ts : List Token) : List Token := ts.dropWhile (· == .documentEnd)

/-- Does a token end a document that holds nothing? -/
def endsDocument : Token → Bool
  | .directive .. | .documentStart | .documentEnd | .streamEnd => true
  | _ => false

/-- The tree of a document behind its start, when nothing may follow the document. -/
def document (hs : Handles) (ts : List Token) : Except Fault Tree := do
  let (t, place) ← (node hs .block (4 * ts.length + 4)).run ⟨[], ts⟩
  if skipEnds place.rest == [.streamEnd] then pure t else throw .invalid

/-- The tree of a document that must have a mark at its start; none at the end of the text. -/
def explicitDocument (ts : List Token) : Except Fault (Option Tree) := do
  let ts := skipEnds ts
  if ts == [.streamEnd] then pure none
  else
    let (declared, ts) ← directives false [] ts
    match ts with
    | .documentStart :: rest =>
      if endsDocument (rest.headD .streamEnd) then
        if skipEnds rest == [.streamEnd] then pure (some empty) else throw .invalid
      else pure (some (← document (declared ++ standardHandles) rest))
    | _ => throw .invalid

/-- The tree of the only document of a text; none if the text holds no document. -/
def ofTokens (ts : List Token) : Except Fault (Option Tree) := do
  match ts with
  | .directive .. :: _ | .documentStart :: _ | .streamEnd :: _ => explicitDocument ts
  | _ => pure (some (← document standardHandles ts))

end Tree

end ApiModel.Yaml
