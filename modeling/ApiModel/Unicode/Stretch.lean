/-!
# Stretches of code points

A Unicode property is a set of code points. The tables of this folder write such a set as a list
of stretches: every `step`-th code point from `first` to `last`. A step of two covers the
alphabets in which capital and small letters take turns.

The tables hold only code points above ASCII. The predicates that read them decide ASCII
directly, so that a statement about ASCII text never opens a table.
-/

namespace ApiModel.Unicode

/-- Every `step`-th code point from `first` to `last`, both included. -/
structure Stretch where
  first : Nat
  last : Nat
  step : Nat
  deriving DecidableEq, Repr

/-- Does the stretch hold the code point? -/
def Stretch.contains (s : Stretch) (code : Nat) : Bool :=
  s.first ≤ code && code ≤ s.last && (code - s.first) % s.step == 0

/-- Is the character in one of the stretches? -/
def inTable (table : List Stretch) (c : Char) : Bool :=
  table.any (·.contains c.toNat)

/-- Is the character in the ASCII range? -/
def isAscii (c : Char) : Bool := c.toNat < 128

end ApiModel.Unicode
