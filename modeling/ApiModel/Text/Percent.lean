import ApiModel.Decimal.Reading

/-!
# Percent escapes

A percent sign and two hexadecimal digits stand for a byte. A run of ASCII characters is decoded
to bytes and the bytes to characters; bytes that are no UTF-8 become the replacement character,
one for each part that cannot be continued. A percent sign without two digits stands for itself.
-/

namespace ApiModel.Text

/-! ## Bytes to characters -/

/-- The number of bytes of a character, its first bits, and the range of its second byte, all
read off its first byte. -/
def leadByte? (b : Nat) : Option (Nat × Nat × Nat × Nat) :=
  if 0xC2 ≤ b && b ≤ 0xDF then some (2, b - 0xC0, 0x80, 0xBF)
  else if b == 0xE0 then some (3, 0, 0xA0, 0xBF)
  else if b == 0xED then some (3, 0xD, 0x80, 0x9F)
  else if 0xE1 ≤ b && b ≤ 0xEF then some (3, b - 0xE0, 0x80, 0xBF)
  else if b == 0xF0 then some (4, 0, 0x90, 0xBF)
  else if 0xF1 ≤ b && b ≤ 0xF3 then some (4, b - 0xF0, 0x80, 0xBF)
  else if b == 0xF4 then some (4, 4, 0x80, 0x8F)
  else none

/-- The character that `n` further bytes complete, the first of them in the given range; and how
many of the bytes belong to it or to its broken beginning. -/
def continued (low high : Nat) : Nat → Nat → Nat → List Nat → Option Nat × Nat
  | 0, value, used, _ => (some value, used)
  | _ + 1, _, used, [] => (none, used)
  | n + 1, value, used, b :: rest =>
    if low ≤ b && b ≤ high then continued 0x80 0xBF n (value * 64 + (b - 0x80)) (used + 1) rest
    else (none, used)

/-- The first character of some bytes, if they begin with one, and how many bytes it takes. -/
def firstChar (b : Nat) (rest : List Nat) : Option Char × Nat :=
  if b < 0x80 then (some (Char.ofNat b), 1)
  else
    match leadByte? b with
    | none => (none, 1)
    | some (n, bits, low, high) =>
      let (code?, used) := continued low high (n - 1) bits 1 rest
      (code?.map Char.ofNat, used)

/-- Bytes as characters, none standing for a part that is no UTF-8. -/
def decodeParts : Nat → List Nat → List (Option Char)
  | _, [] => []
  | 0, _ => []
  | budget + 1, b :: rest =>
    let (c, used) := firstChar b rest
    c :: decodeParts budget (rest.drop (used - 1))

/-- Bytes as characters, with the replacement character for what is no UTF-8. -/
def decodeBytes (bytes : List Nat) : List Char :=
  (decodeParts bytes.length bytes).map (·.getD (Char.ofNat 0xFFFD))

/-- Bytes as characters, if they are UTF-8. -/
def decodeBytes? (bytes : List Nat) : Option (List Char) :=
  (decodeParts bytes.length bytes).mapM id

/-! ## Escapes -/

/-- The byte of two hexadecimal digits. -/
def hexByte? (a b : Char) : Option Nat :=
  if a.toNat < 128 && b.toNat < 128 then Decimal.readNat? 16 [a, b] else none

/-- The bytes of a run of ASCII characters. -/
def percentBytes : List Char → List Nat
  | [] => []
  | '%' :: a :: b :: rest =>
    match hexByte? a b with
    | some n => n :: percentBytes rest
    | none => '%'.toNat :: percentBytes (a :: b :: rest)
  | c :: rest => c.toNat :: percentBytes rest

/-- A text as its runs of ASCII characters and of others, in turn. -/
def asciiRuns : List Char → List (List Char)
  | [] => []
  | c :: rest =>
    match asciiRuns rest with
    | (d :: run) :: runs =>
      if (c.toNat < 128) == (d.toNat < 128) then (c :: d :: run) :: runs
      else [c] :: (d :: run) :: runs
    | runs => [c] :: runs

/-- Decode one run. -/
def decodeRun (run : List Char) : List Char :=
  if run.all fun c => c.toNat < 128 then decodeBytes (percentBytes run) else run

/-- Decode the percent escapes of a text. -/
def percentDecode (s : List Char) : List Char :=
  if s.contains '%' then (asciiRuns s).flatMap decodeRun else s

end ApiModel.Text
