import ApiModel.Decimal.Binary

/-!
# The shortest decimal of a double

A double is written with the fewest digits that read back to it, and of those the digits nearest
to its value. The numbers that read back to `m · 2 ^ q` form an interval around it; its ends
belong to it when `m` is even. For one, two, and up to seventeen digits, the two neighbours of
the value on that decimal grid are tested against the interval, and the first grid with a hit
wins. Seventeen digits always suffice.

`Layout` holds the decisions of the written form, which are no part of the number.
-/

namespace ApiModel.Decimal

/-! ## Digits -/

/-- A positive double and the interval that rounds to it, as numerators over one denominator. -/
structure Interval where
  low : Nat
  value : Nat
  high : Nat
  denominator : Nat
  /-- Do the ends belong to the interval? -/
  closed : Bool

/-- The interval of `mantissa · 2 ^ exponent`. Below a power of two the doubles lie twice as
close, so the interval is shorter on that side. -/
def Interval.of (mantissa : Nat) (exponent : Int) : Interval :=
  let scale := exponent - 2
  let up := 1 <<< scale.toNat
  let below := if mantissa == 0x10000000000000 && leastExponent < exponent then 1 else 2
  { low := (4 * mantissa - below) * up
    value := 4 * mantissa * up
    high := (4 * mantissa + 2) * up
    denominator := 1 <<< (-scale).toNat
    closed := mantissa % 2 == 0 }

/-- Does `c · 10 ^ g`, as `c * unit` against numerators times `factor`, lie in the interval? -/
def Interval.holds (i : Interval) (factor unit c : Nat) : Bool :=
  if i.closed then i.low * factor ≤ c * unit && c * unit ≤ i.high * factor
  else i.low * factor < c * unit && c * unit < i.high * factor

/-- The multiple of `10 ^ g` in the interval that is nearest to the value; of two equally near
ones the even multiple. -/
def Interval.onGrid (i : Interval) (g : Int) : Option Nat :=
  let factor := Nat.pow 10 (-g).toNat
  let unit := i.denominator * Nat.pow 10 g.toNat
  let below := i.value * factor / unit
  let above := below + 1
  let toBelow := i.value * factor - below * unit
  let toAbove := above * unit - i.value * factor
  match i.holds factor unit below, i.holds factor unit above with
  | true, true =>
    if toBelow < toAbove || (toBelow == toAbove && below % 2 == 0) then some below
    else some above
  | true, false => some below
  | false, true => some above
  | false, false => none

/-- The least `k` with the value below `10 ^ k`. -/
def Interval.magnitude (i : Interval) : Int :=
  if i.denominator ≤ i.value then (Nat.toDigits 10 (i.value / i.denominator)).length
  else
    match (List.range 400).find? fun j => i.denominator ≤ i.value * Nat.pow 10 (j + 1) with
    | some j => -(j : Int)
    | none => 0

/-- A decimal number: its digits, and the power of ten of the place before the first digit. -/
structure Digits where
  digits : List Char
  point : Int
  deriving DecidableEq, Repr

/-- Drop the zeros at the end of a list of digits. -/
def dropZeros (digits : List Char) : List Char :=
  (digits.reverse.dropWhile (· == '0')).reverse

/-- The shortest digits of `mantissa · 2 ^ exponent`, for a mantissa above zero. -/
def shortest (mantissa : Nat) (exponent : Int) : Digits :=
  let i := Interval.of mantissa exponent
  let k := i.magnitude
  let hit := (List.range 17).findSome? fun n =>
    let g := k - (n + 1 : Nat)
    (i.onGrid g).map fun c => (Nat.toDigits 10 c, g)
  match hit with
  | some (digits, g) => ⟨dropZeros digits, digits.length + g⟩
  | none => ⟨['0'], 1⟩

/-! ## Written form -/

/-- The decisions of the written form of a double. -/
structure Layout where
  /-- The least `point` written without an exponent. -/
  leastPoint : Int
  /-- The greatest `point` written without an exponent. -/
  greatestPoint : Int
  /-- The least number of digits in an exponent. -/
  exponentDigits : Nat
  nan : String
  infinity : String

/-- Left-pad with zeros to a width. -/
def padZeros (width : Nat) (digits : List Char) : List Char :=
  List.replicate (width - digits.length) '0' ++ digits

/-- Lay out decimal digits. A whole number keeps one zero after the point. -/
def Layout.arrange (l : Layout) (d : Digits) : List Char :=
  let n : Int := d.digits.length
  if l.leastPoint ≤ d.point && d.point ≤ l.greatestPoint then
    if d.point ≤ 0 then '0' :: '.' :: (List.replicate (-d.point).toNat '0' ++ d.digits)
    else if n ≤ d.point then
      d.digits ++ List.replicate (d.point - n).toNat '0' ++ ['.', '0']
    else d.digits.take d.point.toNat ++ '.' :: d.digits.drop d.point.toNat
  else
    let e := d.point - 1
    let mark := if e < 0 then ['e', '-'] else ['e', '+']
    let tail := mark ++ padZeros l.exponentDigits (Nat.toDigits 10 e.natAbs)
    match d.digits with
    | [] => tail
    | [c] => c :: tail
    | c :: rest => c :: '.' :: (rest ++ tail)

/-- The text of a double. -/
def Layout.text (l : Layout) (x : Float) : String :=
  let signed (negative : Bool) (s : List Char) : String :=
    String.ofList (if negative then '-' :: s else s)
  match parts x with
  | .nan => l.nan
  | .infinite negative => signed negative l.infinity.toList
  | .finite negative m e =>
    if m == 0 then signed negative ['0', '.', '0']
    else signed negative (l.arrange (shortest m e))

end ApiModel.Decimal
