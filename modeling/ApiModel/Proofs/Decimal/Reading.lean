import ApiModel.Decimal.Reading
import Mathlib.Algebra.Group.Nat.Defs
import Mathlib.Data.List.Basic
import Mathlib.Data.List.Forall2
import Mathlib.Data.Nat.Digits.Defs

/-!
# Written numbers are read back

A row of digits of any script spells a number, and is read as this number if it is not too long.

**Theorem (`readInt?_eq_some_iff`).** A row of digits is read as a number exactly if it spells the
number and has at most `maxDigits` digits.

**Theorem (`readInt?_toDigits`).** The decimal digits of a natural number are read as the number if
there are not too many of them, and not at all otherwise.
-/

namespace ApiModel

namespace Unicode

theorem code_of_isDigit {c : Char} (h : c.isDigit = true) : 48 ≤ c.toNat ∧ c.toNat ≤ 57 :=
  Char.isDigit_iff_toNat.1 h

theorem isAscii_of_isDigit {c : Char} (h : c.isDigit = true) : isAscii c = true := by
  have hcode := code_of_isDigit h
  exact decide_eq_true (by omega)

theorem decimalValue?_of_isDigit {c : Char} (h : c.isDigit = true) :
    decimalValue? c = some (c.toNat - '0'.toNat) := by
  rw [decimalValue?, if_pos (isAscii_of_isDigit h), if_pos h]
  rfl

theorem isDigit_of_isDigit {c : Char} (h : c.isDigit = true) : isDigit c = true := by
  rw [isDigit, isDecimal, decimalValue?_of_isDigit h]
  rfl

theorem decimalValue?_lt {c : Char} {d : Nat} (h : decimalValue? c = some d) : d < 10 := by
  rw [decimalValue?] at h
  split_ifs at h with _ hdigit
  · have hcode := code_of_isDigit hdigit
    obtain rfl := Option.some.inj h
    omega
  · obtain ⟨_, -, rfl⟩ := Option.map_eq_some_iff.1 h
    exact Nat.mod_lt _ (by decide)

/-- Each decimal digit is a digit in the wider sense. -/
theorem isDigit_of_isDecimal {c : Char} (h : isDecimal c = true) : isDigit c = true :=
  Bool.or_eq_true_iff.2 (.inl h)

end Unicode

namespace Decimal

/-- The text is a row of decimal digits, of any script, that spells the number. -/
def Spells (s : List Char) (n : Nat) : Prop :=
  s ≠ [] ∧ ∃ values, List.Forall₂ (fun c d => Unicode.decimalValue? c = some d) s values ∧
    Nat.ofDigits 10 values.reverse = n

/-- The letters that are digits of larger bases are none of base ten. -/
theorem digitValue?_ten (c : Char) : digitValue? 10 c = Unicode.decimalValue? c := by
  have hsmall : ('a' ≤ c ∧ c ≤ 'f') = (97 ≤ c.toNat ∧ c.toNat ≤ 102) := rfl
  have hcapital : ('A' ≤ c ∧ c ≤ 'F') = (65 ≤ c.toNat ∧ c.toNat ≤ 70) := rfl
  have hletter (h : 65 ≤ c.toNat ∧ c.toNat ≤ 102) : Unicode.decimalValue? c = none := by
    have hascii : Unicode.isAscii c = true := decide_eq_true (by omega)
    have hdigit : ¬ c.isDigit = true := fun hdigit => by
      have := Unicode.code_of_isDigit hdigit
      omega
    rw [Unicode.decimalValue?, if_pos hascii, if_neg hdigit]
  simp only [digitValue?, Bool.and_eq_true, decide_eq_true_eq, hsmall, hcapital]
  split_ifs with h h
  · rw [hletter (by omega)]
    exact Option.filter_some_neg (by simp; omega)
  · rw [hletter (by omega)]
    exact Option.filter_some_neg (by simp; omega)
  · cases hvalue : Unicode.decimalValue? c with
    | none => rfl
    | some d => exact Option.filter_some_pos (by simpa using Unicode.decimalValue?_lt hvalue)

theorem mapM_digitValue?_eq_some {s : List Char} {values : List Nat} :
    s.mapM (digitValue? 10) = some values ↔
      List.Forall₂ (fun c d => Unicode.decimalValue? c = some d) s values := by
  induction s generalizing values with
  | nil =>
    rw [List.mapM_nil, List.forall₂_nil_left_iff, Option.pure_def, Option.some.injEq, eq_comm]
  | cons c s ih =>
    rw [List.mapM_cons, List.forall₂_cons_left_iff, digitValue?_ten]
    constructor
    · intro h
      obtain ⟨d, hd, h⟩ := Option.bind_eq_some_iff.1 h
      obtain ⟨rest, hrest, h⟩ := Option.bind_eq_some_iff.1 h
      exact ⟨d, rest, hd, ih.1 hrest, (Option.some.inj h).symm⟩
    · rintro ⟨d, rest, hd, hrest, rfl⟩
      rw [hd, ih.2 hrest]
      rfl

theorem ofDigitValues_eq (values : List Nat) :
    ofDigitValues 10 values = Nat.ofDigits 10 values.reverse := by
  rw [Nat.ofDigits_eq_foldr, List.foldr_reverse, ofDigitValues]
  simp only [Nat.cast_id, Nat.mul_comm, Nat.add_comm]

theorem readNat?_eq_some_iff {s : List Char} {n : Nat} :
    readNat? 10 s = some n ↔ Spells s n := by
  rw [readNat?, Spells]
  cases s with
  | nil => simp
  | cons c s =>
    rw [if_neg (by simp), Option.map_eq_some_iff, and_iff_right (List.cons_ne_nil c s)]
    simp only [mapM_digitValue?_eq_some, ofDigitValues_eq]

theorem Spells.unique {s : List Char} {m n : Nat} (hm : Spells s m) (hn : Spells s n) : m = n :=
  Option.some.inj ((readNat?_eq_some_iff.2 hm).symm.trans (readNat?_eq_some_iff.2 hn))

/-- Any row of decimal digits spells a number. -/
theorem exists_spells_iff {s : List Char} :
    (∃ n, Spells s n) ↔ s ≠ [] ∧ ∀ c ∈ s, Unicode.isDecimal c = true := by
  have hvalues : (∃ values, List.Forall₂ (fun c d => Unicode.decimalValue? c = some d) s values) ↔
      ∀ c ∈ s, Unicode.isDecimal c = true := by
    induction s with
    | nil => simp
    | cons c s ih =>
      rw [List.forall_mem_cons, ← ih, Unicode.isDecimal, Option.isSome_iff_exists]
      constructor
      · rintro ⟨_, hall⟩
        cases hall with
        | cons hd hrest => exact ⟨⟨_, hd⟩, ⟨_, hrest⟩⟩
      · rintro ⟨⟨d, hd⟩, ⟨values, hrest⟩⟩
        exact ⟨d :: values, .cons hd hrest⟩
  rw [← hvalues]
  constructor
  · rintro ⟨n, hne, values, hall, -⟩
    exact ⟨hne, values, hall⟩
  · rintro ⟨hne, values, hall⟩
    exact ⟨_, hne, values, hall, rfl⟩

/-- A row of digits has no sign. -/
theorem takeSign_of_digits {s : List Char} (h : s.all Unicode.isDigit = true) :
    takeSign s = (false, s) := by
  rw [List.all_eq_true] at h
  unfold takeSign
  split
  · exact absurd (h '-' List.mem_cons_self) (by decide)
  · exact absurd (h '+' List.mem_cons_self) (by decide)
  · rfl

/-- A row of digits is read as the number that it spells, unless it is too long. -/
theorem readInt?_eq_some_iff {s : List Char} (h : s.all Unicode.isDigit = true) {i : Int} :
    readInt? s = some i ↔ s.length ≤ maxDigits ∧ ∃ n : Nat, Spells s n ∧ i = n := by
  rw [readInt?, takeSign_of_digits h]
  dsimp only
  split_ifs with hlong
  · simp [Nat.not_le.2 hlong]
  · rw [Option.map_eq_some_iff, and_iff_right (Nat.not_lt.1 hlong)]
    simp only [readNat?_eq_some_iff, withSign, Bool.false_eq_true, if_false, eq_comm (b := i)]

/-- A row of digits is not read if one of them has no decimal value or there are too many. -/
theorem readInt?_eq_none_iff {s : List Char} (hne : s ≠ []) (h : s.all Unicode.isDigit = true) :
    readInt? s = none ↔ (∃ c ∈ s, Unicode.isDecimal c = false) ∨ maxDigits < s.length := by
  have hspells : (∃ n, Spells s n) ↔ ∀ c ∈ s, Unicode.isDecimal c = true := by
    rw [exists_spells_iff]
    exact and_iff_right hne
  have hsome : (∃ i, readInt? s = some i) ↔ s.length ≤ maxDigits ∧ ∃ n, Spells s n := by
    simp only [readInt?_eq_some_iff h]
    simp
  rw [← Option.not_isSome_iff_eq_none, Option.isSome_iff_exists, hsome, hspells, not_and_or,
    Nat.not_le, or_comm]
  simp

/-! ## The digits of a number -/

theorem isDigit_of_mem_digits {n : Nat} {c : Char} (h : c ∈ Nat.toDigits 10 n) :
    c.isDigit = true :=
  Nat.isDigit_of_mem_toDigits (by decide) (by decide) h

/-- The digits of a number spell the number. -/
theorem spells_toDigits (n : Nat) : Spells (Nat.toDigits 10 n) n := by
  refine ⟨Nat.toDigits_ne_nil, (Nat.toDigits 10 n).map fun c => c.toNat - '0'.toNat, ?_, ?_⟩
  · rw [List.forall₂_map_right_iff, List.forall₂_same]
    exact fun c hc => Unicode.decimalValue?_of_isDigit (isDigit_of_mem_digits hc)
  · have hvalue : ofDigitValues 10 ((Nat.toDigits 10 n).map fun c => c.toNat - '0'.toNat) =
        Nat.ofDigitChars 10 (Nat.toDigits 10 n) 0 := by
      rw [ofDigitValues, List.foldl_map, Nat.ofDigitChars]
      simp only [Nat.mul_comm]
    rw [← ofDigitValues_eq, hvalue, Nat.ofDigitChars_ten_toDigits]

/-- A number is read from its digits, unless there are too many of them. -/
theorem readInt?_toDigits (n : Nat) :
    readInt? (Nat.toDigits 10 n) = if n < 10 ^ maxDigits then some (n : Int) else none := by
  have hlength : (Nat.toDigits 10 n).length ≤ maxDigits ↔ n < 10 ^ maxDigits :=
    Nat.length_toDigits_le_iff (by decide) (by decide)
  have hdigits : (Nat.toDigits 10 n).all Unicode.isDigit = true :=
    List.all_eq_true.2 fun c hc => Unicode.isDigit_of_isDigit (isDigit_of_mem_digits hc)
  split_ifs with hshort
  · exact (readInt?_eq_some_iff hdigits).2 ⟨hlength.2 hshort, n, spells_toDigits n, rfl⟩
  · have hlong : maxDigits < (Nat.toDigits 10 n).length :=
      Nat.lt_of_not_le fun hle => hshort (hlength.1 hle)
    exact (readInt?_eq_none_iff Nat.toDigits_ne_nil hdigits).2 (.inr hlong)

end Decimal

end ApiModel
