import ApiModel.Decimal.Reading
import ApiModel.Node

/-!
# Values for fields

A field of a model has a type, and a value of the document is accepted for it with some latitude:
a number may be given as a text, a truth value as a word. Each function here says which values a
type accepts and what becomes of them; what it does not accept is none.
-/

namespace ApiModel.Coercion

/-- Only a text is a text. -/
def text? (n : Node) : Option String := n.text?

/-! ## Truth values -/

/-- The words for yes. -/
def yesWords : List String := ["1", "on", "t", "true", "y", "yes"]

/-- The words for no. -/
def noWords : List String := ["0", "off", "f", "false", "n", "no"]

/-- The truth value of a word, in small or capital ASCII letters. -/
def flagWord? (s : String) : Option Bool :=
  let word := String.ofList (s.toList.map Char.toLower)
  if yesWords.contains word then some true
  else if noWords.contains word then some false
  else none

/-- A truth value, zero or one, or a word for one of them. -/
def flag? : Node → Option Bool
  | .bool b => some b
  | .int n => if n = 1 then some true else if n = 0 then some false else none
  | .float x => if x == 1 then some true else if x == 0 then some false else none
  | .text s => flagWord? s
  | _ => none

/-! ## Integers

An integer in a text may have a sign, zeros in front, underscores between its digits and a point
with zeros behind it. All of these are dropped, and what is left must be the integer as a
document writes it. A minus that follows zeros counts as the sign. -/

/-- A digit from one to nine. -/
def isLeadingDigit (c : Char) : Bool := '1' ≤ c && c ≤ '9'

/-- The rest of a number that begins with a zero: from its first other digit or a minus on, or
from the zero before its point on. -/
def afterZeros : List Char → Option (List Char)
  | [] => some ['0']
  | c :: rest =>
    if c == '0' then afterZeros rest
    else if c == '_' then (if rest.isEmpty || rest.head? = some '.' then none else afterZeros rest)
    else if isLeadingDigit c || c == '-' then some (c :: rest)
    else if c == '.' then some ('0' :: c :: rest)
    else none

/-- A number without zeros at its front. -/
def dropLeadingZeros : List Char → Option (List Char)
  | [] => none
  | c :: rest =>
    if c == '0' then afterZeros rest
    else if isLeadingDigit c then some (c :: rest)
    else none

/-- A number without a point and the zeros behind it, of which there must be one. -/
def dropZeroFraction (s : List Char) : List Char :=
  let fraction := (s.dropWhile (· != '.')).drop 1
  if !fraction.isEmpty && fraction.all (· == '0') then s.takeWhile (· != '.') else s

/-- A number without the underscores between its digits. -/
def dropMarks (s : List Char) : List Char :=
  if s.head? = some '_' || s.getLast? = some '_' || Text.occursIn ['_', '_'] s then s
  else s.filter (· != '_')

/-- An integer as a document writes it: digits with at most a minus in front, and no zero in front
of other digits. -/
def writtenInt? (s : List Char) : Option Int :=
  let (negative, digits) :=
    match s with
    | '-' :: rest => (true, rest)
    | rest => (false, rest)
  let isWritten := digits.all Char.isDigit && (digits == ['0'] || digits.head? != some '0')
  if isWritten && s.length ≤ Decimal.maxDigits then
    (Decimal.readNat? 10 digits).map (Decimal.withSign negative)
  else none

/-- The integer that a text holds. -/
def intText? (s : String) : Option Int := do
  let body := Text.trimSpacing s.toList
  let (sign, size) ←
    match body with
    | '+' :: '-' :: _ => none
    | '+' :: rest => some ([], rest)
    | '-' :: rest => some (['-'], rest)
    | rest => some ([], rest)
  writtenInt? (dropMarks (dropZeroFraction (sign ++ (← dropLeadingZeros size))))

/-- Does an integer lie between the bounds of those that may be given as a double? -/
def fitsWord (n : Int) : Bool := -0x8000000000000000 < n && n < 0x8000000000000000

/-- An integer, a truth value, a whole double or a text that holds an integer. -/
def int? : Node → Option Int
  | .bool b => some (if b then 1 else 0)
  | .int n => some n
  | .float x => (Decimal.whole? x).filter fitsWord
  | .text s => intText? s
  | _ => none

/-! ## Doubles -/

/-- The double that a text holds. -/
def floatText? (s : String) : Option Float :=
  (Decimal.readFloat? (Text.trimSpacing s.toList)).or (Decimal.readFloat? (dropMarks s.toList))

/-- A number, a truth value or a text that holds a number. -/
def float? : Node → Option Float
  | .bool b => some (if b then 1 else 0)
  | .int n => Decimal.ofInt? n
  | .float x => some x
  | .text s => floatText? s
  | _ => none

/-! ## Bounds -/

/-- A truth value stays one, a number becomes a double, and a text is taken for a truth value if
it can be. -/
def bound? : Node → Option Node
  | .bool b => some (.bool b)
  | .int n => (Decimal.ofInt? n).map .float
  | .float x => some (.float x)
  | .text s =>
    match flagWord? s with
    | some b => some (.bool b)
    | none => (floatText? s).map .float
  | _ => none

end ApiModel.Coercion
