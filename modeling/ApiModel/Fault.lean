import ApiModel.Node.Display

/-!
# Why a document yields no model

Building a model tolerates nearly everything: what cannot be used is left out. What remains are
the faults of this module: a reference that leads nowhere, a version that nobody knows, a value
that a record refuses, a value of a kind with which nothing can be done, and a schema that
contains itself without end.
-/

namespace ApiModel

/-- Why a document yields no model. -/
inductive Fault where
  /-- A reference leads to no node of the document. -/
  | unresolved (ref : String)
  /-- The version marker is missing or names no known major version. -/
  | unsupportedVersion (marker : Node)
  /-- A record refuses so many of the values it was given. -/
  | rejected (record : String) (count : Nat)
  /-- A node has a kind with which nothing can be done at its place. -/
  | malformed
  /-- A schema contains itself without end. -/
  | endless
  deriving Inhabited

/-- The wording of a fault. -/
def Fault.message : Fault → String
  | unresolved ref => "Could not find reference: \"" ++ ref ++ "\""
  | unsupportedVersion marker => "Unsupported Open API version: \"" ++ marker.display ++ "\""
  | rejected record count =>
    toString count ++ " validation error" ++ (if count = 1 then "" else "s") ++ " for " ++ record
  | malformed => "a value of an unsuitable kind"
  | endless => "a schema that contains itself without end"

end ApiModel
