import ApiModel.Proofs.Json.Readings

/-!
# Integers that are too long to read

An integer with more than `Decimal.maxDigits` digits is well formed, and yet the reader stops
there: it *stumbles*. Every other text is either read or found not to be a document.

**Theorem (`Stumbles.hasLongRow`).** The reader stumbles only at a text that holds so many digits in
a row.

**Theorem (`stumbles_row_iff`).** It stumbles at a row of digits alone exactly if there are so many.
-/

namespace ApiModel.Json

/-- The reader stops at an integer that is too long, before any fault of the text. -/
def Stumbles (s : String) : Prop := ∃ e, read s = .error e ∧ e.problem = .hugeInteger

theorem not_stumbles_of_ok {s : String} {n : Node} (h : read s = .ok n) : ¬ Stumbles s := by
  rintro ⟨e, hread, -⟩
  cases h.symm.trans hread

theorem stumbles_iff_of_error {s : String} {e : Error} (h : read s = .error e) :
    Stumbles s ↔ e.problem = .hugeInteger := by
  refine ⟨?_, fun hhuge => ⟨e, h, hhuge⟩⟩
  rintro ⟨e', hread, hhuge⟩
  cases h.symm.trans hread
  exact hhuge

instance (s : String) : Decidable (Stumbles s) :=
  match h : read s with
  | .ok _ => .isFalse (not_stumbles_of_ok h)
  | .error e => decidable_of_iff (e.problem = .hugeInteger) (stumbles_iff_of_error h).symm

/-- The reader stumbles only at a text that holds more digits in a row than an integer may have. -/
theorem Stumbles.hasLongRow {s : String} (h : Stumbles s) : HasLongRow s.toList := by
  obtain ⟨e, hread, hhuge⟩ := h
  exact hasLongRow_of_read hread hhuge

/-! ## Rows of digits -/

theorem ne_of_isDigit {c d : Char} (hc : c.isDigit) (hd : d.isDigit = false) : c ≠ d := by
  rintro rfl
  rw [hc] at hd
  cases hd

theorem skip_of_isDigit {c : Char} (hc : c.isDigit) (s : List Char) : skip (c :: s) = c :: s := by
  refine List.dropWhile_cons_of_neg fun hblank => ?_
  simp only [Unicode.isJsonBlank, Bool.or_eq_true, beq_iff_eq] at hblank
  rcases hblank with ((rfl | rfl) | rfl) | rfl <;> cases hc

theorem word?_of_isDigit {c : Char} (hc : c.isDigit) (s : List Char) : word? (c :: s) = none := by
  have hwords : ∀ w ∈ words, ∃ d rest, w.1.toList = d :: rest ∧ d.isDigit = false := by
    simp only [words, List.forall_mem_cons, List.not_mem_nil, false_implies, implies_true, and_true]
    exact ⟨⟨_, _, rfl, rfl⟩, ⟨_, _, rfl, rfl⟩, ⟨_, _, rfl, rfl⟩, ⟨_, _, rfl, rfl⟩, ⟨_, _, rfl, rfl⟩,
      ⟨_, _, rfl, rfl⟩⟩
  rw [word?, List.findSome?_eq_none_iff]
  intro w hw
  obtain ⟨d, rest, hlist, hd⟩ := hwords w hw
  rw [Option.map_eq_none_iff, ← Option.not_isSome_iff_eq_none, Option.isSome_iff_exists]
  rintro ⟨tail, hafter⟩
  rw [hlist] at hafter
  exact ne_of_isDigit hc hd (List.cons.inj (Text.after?_eq_some.1 hafter)).1

/-- What begins with a digit is read as a number. -/
theorem value_of_isDigit {c : Char} (hc : c.isDigit) (budget : Nat) (s : List Char) :
    value (budget + 1) (c :: s) = number (c :: s) := by
  unfold value
  split
  case h_4 => rw [word?_of_isDigit hc]
  all_goals
    rename_i heq
    exact absurd (List.cons.inj heq).1 (ne_of_isDigit hc rfl)

/-- Digits with no zero in front are the integer part of a number, if nothing else follows. -/
theorem integerPart?_row {row : List Char} (hdigits : ∀ c ∈ row, c.isDigit) (hne : row ≠ [])
    (hzero : row.head? ≠ some '0') : integerPart? row = some (row, []) := by
  unfold integerPart?
  split
  · exact absurd rfl hzero
  · rw [List.takeWhile_eq_self_iff.2 hdigits, List.dropWhile_eq_nil_iff.2 hdigits]
    exact if_neg (by simpa using hne)

theorem number_row {row : List Char} (hdigits : ∀ c ∈ row, c.isDigit) (hzero : row.head? ≠ some '0')
    (hlong : Decimal.maxDigits < row.length) : number row = stop .hugeInteger row := by
  have hne : row ≠ [] := List.ne_nil_of_length_pos (Nat.zero_lt_of_lt hlong)
  unfold number
  split
  rename_i negative body hsign
  have hbody : body = row := by
    split at hsign
    · have hminus := hdigits '-' List.mem_cons_self
      cases hminus
    · cases hsign
      rfl
  rw [hbody, integerPart?_row hdigits hne hzero]
  exact if_pos hlong

/-- The reader stumbles at a row of digits, with no zero in front, exactly if an integer may not
have so many. -/
theorem stumbles_row_iff {row : List Char} (hdigits : ∀ c ∈ row, c.isDigit)
    (hzero : row.head? ≠ some '0') :
    Stumbles (String.ofList row) ↔ Decimal.maxDigits < row.length := by
  constructor
  · intro h
    obtain ⟨digits, hinfix, -, hlong⟩ := h.hasLongRow
    rw [String.toList_ofList] at hinfix
    exact hlong.trans_le hinfix.length_le
  · intro hlong
    cases row with
    | nil => cases hlong
    | cons c s =>
      have hc := hdigits c List.mem_cons_self
      have hvalue : Json.value (s.length + 2) (c :: s) = stop .hugeInteger (c :: s) := by
        rw [value_of_isDigit hc, number_row hdigits hzero hlong]
      have hdocument : document (c :: s) = stop .hugeInteger (c :: s) := by
        rw [document, if_neg (by simpa using ne_of_isDigit hc (by decide)), skip_of_isDigit hc,
          List.length_cons, hvalue]
        rfl
      rw [← String.toList_ofList (l := c :: s)] at hdocument
      exact ⟨_, read_of_error hdocument, rfl⟩

end ApiModel.Json
