import ApiModel.Decimal.Binary
import ApiModel.Text.Cut
import ApiModel.Unicode.Word

/-!
# Numbers from text

Integers and doubles as people write them: an optional sign, then digits, with one point and one
power of ten allowed in a double. White space around the number is the caller's matter.

An integer of more than `maxDigits` decimal digits is refused.
-/

namespace ApiModel.Decimal

/-- The most decimal digits an integer may have. -/
def maxDigits : Nat := 4300

/-- The value of a digit of a base up to sixteen. -/
def digitValue? (base : Nat) (c : Char) : Option Nat :=
  let n := c.toNat
  let value? :=
    if 'a' ≤ c && c ≤ 'f' then some (n - 87)
    else if 'A' ≤ c && c ≤ 'F' then some (n - 55)
    else Unicode.decimalValue? c
  value?.filter (· < base)

/-- The number with the given digits, most significant first. -/
def ofDigitValues (base : Nat) (values : List Nat) : Nat :=
  values.foldl (fun n d => n * base + d) 0

/-- A natural number: one or more digits of the base. -/
def readNat? (base : Nat) (s : List Char) : Option Nat :=
  if s.isEmpty then none else (s.mapM (digitValue? base)).map (ofDigitValues base)

/-- The text with the decimal digits of every script as ASCII digits. -/
def asciiDigits (s : List Char) : List Char :=
  s.map fun c => ((Unicode.decimalValue? c).map Nat.digitChar).getD c

/-- Split off a sign: is it a minus, and what follows. -/
def takeSign : List Char → Bool × List Char
  | '-' :: s => (true, s)
  | '+' :: s => (false, s)
  | s => (false, s)

/-- A number with a sign. -/
def withSign (negative : Bool) (n : Nat) : Int := if negative then -(n : Int) else n

/-- A decimal integer with an optional sign, of digits of any script. -/
def readInt? (s : List Char) : Option Int :=
  let (negative, digits) := takeSign s
  if maxDigits < digits.length then none
  else (readNat? 10 digits).map (withSign negative)

/-- The power of ten that ends a number: `e`, a sign if wanted, and digits. -/
def readExponent? : List Char → Option Int
  | [] => some 0
  | c :: s =>
    if c == 'e' || c == 'E' then
      let (negative, digits) := takeSign s
      if digits.all Char.isDigit then (readNat? 10 digits).map (withSign negative) else none
    else none

/-- A decimal number without a sign: digits with at most one point among them, at least one
digit, and a power of ten if wanted. -/
def readUnsigned? (negative : Bool) (s : List Char) : Option Float :=
  let whole := s.takeWhile Char.isDigit
  let rest := s.dropWhile Char.isDigit
  let (fraction, tail) :=
    match rest with
    | '.' :: r => (r.takeWhile Char.isDigit, r.dropWhile Char.isDigit)
    | r => ([], r)
  match readNat? 10 (whole ++ fraction), readExponent? tail with
  | some digits, some e => some (ofDigits negative digits (e - fraction.length))
  | _, _ => none

/-- A double: a decimal number, infinity or NaN, with an optional sign and in any case. -/
def readFloat? (s : List Char) : Option Float :=
  let (negative, body) := takeSign s
  let word := String.ofList (body.map Char.toLower)
  if word == "inf" || word == "infinity" then some (if negative then -(1 / 0) else 1 / 0)
  else if word == "nan" then some (0 / 0)
  else readUnsigned? negative body

end ApiModel.Decimal
