import ApiModel.Date

/-!
# Scalars

The values without parts of a document: what the leaves and the keys of its mappings hold. Two
scalars may be the same value although they are written apart: numbers are compared by value,
and a truth value counts as zero or one.
-/

namespace ApiModel

/-- A value without parts. -/
inductive Scalar where
  | null
  | bool (value : Bool)
  | int (value : Int)
  | float (value : Float)
  | text (value : String)
  | date (value : Date)
  | timestamp (value : Timestamp)
  deriving DecidableEq

namespace Scalar

/-- Does the scalar say something? Nothing, no, zero and the empty text do not. -/
def truthy : Scalar → Bool
  | null => false
  | bool b => b
  | int n => n != 0
  | float x => x != 0
  | text s => s != ""
  | date _ | timestamp _ => true

/-- An integer or a truth value as a number. -/
def integer? : Scalar → Option Int
  | bool b => some (if b then 1 else 0)
  | int n => some n
  | _ => none

/-- Are the two scalars the same value? -/
def same (a b : Scalar) : Bool :=
  match a, b with
  | float x, float y => x == y
  | float x, s => (s.integer?.map fun n => Decimal.whole? x == some n).getD false
  | s, float y => (s.integer?.map fun n => Decimal.whole? y == some n).getD false
  | text s, text t => s == t
  | null, null => true
  | date d, date e => d == e
  | timestamp t, timestamp u => t == u
  | s, t =>
    match s.integer?, t.integer? with
    | some m, some n => m == n
    | _, _ => false

/-- Would the two scalars be one key of a mapping? NaN is one key, although it differs from
itself as a number. -/
def sameKey (a b : Scalar) : Bool := a == b || a.same b

/-- The word for the kind of value. -/
def kindName : Scalar → String
  | null => "NoneType"
  | bool _ => "bool"
  | int _ => "int"
  | float _ => "float"
  | text _ => "str"
  | date _ => "date"
  | timestamp _ => "datetime"

end Scalar

end ApiModel
