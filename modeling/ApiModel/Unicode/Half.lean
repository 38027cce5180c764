/-!
# Halves of characters

Some formats write a character above the first plane as two halves of sixteen bits, and a text in
such a format can hold a half that stands alone. It is no character. Here it is held as one of
the last private characters, which no text is expected to use, and it is a half again when it is
written.
-/

namespace ApiModel.Unicode

/-- Is the code that of half a character? -/
def isHalf (code : Nat) : Bool := 0xD800 ≤ code && code < 0xE000

/-- The distance from the halves to the private characters that stand for them. -/
def halfShift : Nat := 0x102000

/-- The character of a code, or what stands for half a character. -/
def ofCode (code : Nat) : Char := Char.ofNat (if isHalf code then code + halfShift else code)

/-- Does the character stand for half a character? -/
def standsForHalf (c : Char) : Bool := 0xD800 + halfShift ≤ c.toNat

/-- The code that a character was made from. -/
def codeOf (c : Char) : Nat := if standsForHalf c then c.toNat - halfShift else c.toNat

/-- A half is kept: what stands for it has its code. -/
theorem codeOf_ofCode {code : Nat} (h : isHalf code = true) : codeOf (ofCode code) = code := by
  simp only [isHalf, Bool.and_eq_true, decide_eq_true_eq] at h
  have valid : (code + halfShift).isValidChar := Or.inr (by simp only [halfShift]; omega)
  have number : (ofCode code).toNat = code + halfShift := by
    have shifted : ofCode code = Char.ofNat (code + halfShift) := by simp [ofCode, isHalf, h]
    rw [shifted]
    exact congrArg Char.toNat (dif_pos valid)
  have stands : standsForHalf (ofCode code) = true := by
    simp only [standsForHalf, number, decide_eq_true_eq]
    omega
  simp [codeOf, stands, number]

end ApiModel.Unicode
