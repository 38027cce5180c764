/-!
# Doubles as exact numbers

A double is taken apart into its sign and a natural number times a power of two. What has to be
known exactly about a double, its whole value or its decimal digits, is computed on these parts
with natural numbers, so nothing is rounded on the way.
-/

namespace ApiModel.Decimal

/-- What a double stands for. -/
inductive Parts where
  | nan
  | infinite (negative : Bool)
  /-- The number `mantissa · 2 ^ exponent`, negated if `negative`. -/
  | finite (negative : Bool) (mantissa : Nat) (exponent : Int)
  deriving DecidableEq, Repr

/-- The least exponent of a double; it belongs to zero and to the smallest numbers. -/
def leastExponent : Int := -1074

/-- The parts of a double, read off its bits. -/
def parts (x : Float) : Parts :=
  let bits := x.toBits.toNat
  let negative := bits >>> 63 == 1
  let field := (bits >>> 52) % 0x800
  let fraction := bits % 0x10000000000000
  if field == 2047 then
    if fraction == 0 then .infinite negative else .nan
  else if field == 0 then .finite negative fraction leastExponent
  else .finite negative (fraction + 0x10000000000000) (Int.ofNat field - 1075)

/-- The integer that a double is, if it is one. -/
def whole? (x : Float) : Option Int :=
  match parts x with
  | .finite negative m e =>
    let signed (n : Nat) : Int := if negative then -(n : Int) else n
    if 0 ≤ e then some (signed (m <<< e.toNat))
    else
      let unit := 1 <<< (-e).toNat
      if m % unit == 0 then some (signed (m / unit)) else none
  | _ => none

/-- Is the double a number, neither infinite nor NaN? -/
def isFinite (x : Float) : Bool :=
  match parts x with
  | .finite .. => true
  | _ => false

/-- Digits and a power of ten as the nearest double.

The power is bounded before it is computed: with more than 400 places before the point a number
is infinite as a double, and with more than 400 zeros after the point it is zero. -/
def ofDigits (negative : Bool) (digits : Nat) (exponent : Int) : Float :=
  let places : Int := (Nat.toDigits 10 digits).length + exponent
  let size : Float :=
    if digits == 0 then 0
    else if 400 < places then 1 / 0
    else if places < -400 then 0
    else if exponent < 0 then Float.ofScientific digits true exponent.natAbs
    else Float.ofScientific digits false exponent.natAbs
  if negative then -size else size

/-- The nearest double of an integer; none if that is not finite. -/
def ofInt? (n : Int) : Option Float :=
  let x := ofDigits (n < 0) n.natAbs 0
  if isFinite x then some x else none

end ApiModel.Decimal
