import ApiModel.Report
import ApiModel.Text.Percent

/-!
# Pointers

A reference such as `#/definitions/Pet` is a path from the root of the document: keys and list
positions between slashes. In a key, `~1` stands for a slash and `~0` for a tilde, and percent
escapes are decoded after that. Empty steps are passed over, and so is every `#` at the front.

A step that leads nowhere is the fault of the whole reference.
-/

namespace ApiModel

namespace Pointer

/-- A step as it stands between two slashes, decoded. -/
def decodeStep (s : List Char) : List Char :=
  Text.percentDecode (Text.replacePair '~' '0' '~' (Text.replacePair '~' '1' '/' s))

/-- The steps of a reference. -/
def steps (ref : String) : List (List Char) :=
  ((Text.split '/' (ref.toList.dropWhile (· == '#'))).filter (!·.isEmpty)).map decodeStep

/-- Follow one step of a reference. A position in a list is a row of digits; a row that holds
digits without a decimal value is no position and no key, and nothing can be done with it. -/
def follow (ref : String) (n : Node) (step : List Char) : Except Fault Node :=
  match n with
  | .map entries =>
    match Node.getText? (String.ofList step) entries with
    | some value => .ok value
    | none => .error (.unresolved ref)
  | .list items =>
    if !step.isEmpty && step.all Unicode.isDigit then
      match Decimal.readInt? step with
      | none => .error .malformed
      | some position =>
        match items[position.toNat]? with
        | some item => .ok item
        | none => .error (.unresolved ref)
    else .error (.unresolved ref)
  | _ => .error (.unresolved ref)

/-- Follow the steps of a reference, one after the other. -/
def followAll (ref : String) (n : Node) : List (List Char) → Except Fault Node
  | [] => .ok n
  | step :: rest =>
    match follow ref n step with
    | .ok next => followAll ref next rest
    | .error e => .error e

/-- The node to which a reference leads. -/
def resolve (document : Node) (ref : String) : Except Fault Node :=
  followAll ref document (steps ref)

end Pointer

/-- The text of a node's reference, if the node is a mapping that has one. -/
def Node.ref? (n : Node) : Option String := (n.field "$ref").text?

/-- The node to which a reference leads; any other node stands for itself. -/
def Node.target (document n : Node) : Built Node :=
  match n.ref? with
  | some ref => .ofExcept (Pointer.resolve document ref)
  | none => pure n

end ApiModel
