import ApiModel.Node.Display
import Mathlib.Tactic.SplitIfs

/-!
# What is displayed as a text

Numbers, dates and timestamps are displayed with digits and a few marks, nothing, the truth values
and the numbers that are no numbers as words, and lists and mappings in brackets.

**Theorem (`eq_text_of_display`).** A node that is displayed in none of these ways is the text as
which it is displayed.
-/

namespace ApiModel

/-- Is the character one of those with which numbers, dates and timestamps are written? -/
def isNumeral (c : Char) : Bool := c.isDigit || ['+', '-', '.', ':', ' ', 'e'].contains c

/-- Numbers, dates and timestamps are written with such characters only. -/
def IsNumeric (s : List Char) : Prop := ∀ c ∈ s, isNumeral c = true

instance (s : List Char) : Decidable (IsNumeric s) :=
  decidable_of_iff (s.all isNumeral = true) List.all_eq_true

namespace IsNumeric

variable {s t : List Char}

theorem nil : IsNumeric [] := fun _ hc => absurd hc List.not_mem_nil

theorem cons {c : Char} (hc : isNumeral c = true) (hs : IsNumeric s) : IsNumeric (c :: s) := by
  intro b hb
  rcases List.mem_cons.1 hb with rfl | hb
  · exact hc
  · exact hs b hb

theorem append (hs : IsNumeric s) (ht : IsNumeric t) : IsNumeric (s ++ t) := by
  intro c hc
  rcases List.mem_append.1 hc with hc | hc
  · exact hs c hc
  · exact ht c hc

theorem of_subset (ht : IsNumeric t) (h : s ⊆ t) : IsNumeric s := fun c hc => ht c (h hc)

theorem replicate {c : Char} (n : Nat) (hc : isNumeral c = true) :
    IsNumeric (List.replicate n c) := by
  intro b hb
  rwa [List.eq_of_mem_replicate hb]

theorem toDigits (n : Nat) : IsNumeric (Nat.toDigits 10 n) := by
  intro c hc
  rw [isNumeral, Nat.isDigit_of_mem_toDigits (by decide) (by decide) hc, Bool.true_or]

theorem padZeros {width : Nat} (hs : IsNumeric s) : IsNumeric (Decimal.padZeros width s) :=
  (replicate _ (by decide)).append hs

end IsNumeric

/-! ## Numbers -/

theorem isNumeric_int (n : Int) : IsNumeric (toString n).toList := by
  rw [Int.toString_eq_repr, Int.repr_eq_if]
  split_ifs
  · rw [Nat.toList_repr]
    exact .toDigits _
  · rw [String.toList_append, Nat.toList_repr]
    exact IsNumeric.append (by decide) (.toDigits _)

namespace Decimal

theorem isNumeric_shortest (mantissa : Nat) (exponent : Int) :
    IsNumeric (shortest mantissa exponent).digits := by
  have hdrop {digits : List Char} (h : IsNumeric digits) : IsNumeric (dropZeros digits) := by
    refine h.of_subset fun c hc => ?_
    rw [dropZeros, List.mem_reverse] at hc
    exact List.mem_reverse.1 ((List.dropWhile_sublist _).subset hc)
  simp only [shortest]
  split
  · rename_i digits g hhit
    obtain ⟨n, -, hn⟩ := List.exists_of_findSome?_eq_some hhit
    obtain ⟨c, -, hc⟩ := Option.map_eq_some_iff.1 hn
    obtain ⟨rfl, -⟩ := Prod.mk.inj hc
    exact hdrop (.toDigits c)
  · exact IsNumeric.cons (by decide) .nil

/-- Digits before an exponent, with a point behind the first one if more follow. -/
theorem isNumeric_scientific {digits tail : List Char} :
    IsNumeric digits → IsNumeric tail →
    IsNumeric (match digits with
      | [] => tail
      | [c] => c :: tail
      | c :: rest => c :: '.' :: (rest ++ tail)) := by
  intro h htail
  rcases digits with _ | ⟨c, _ | ⟨b, rest⟩⟩
  · exact htail
  · exact .cons (h c List.mem_cons_self) htail
  · exact .cons (h c List.mem_cons_self) (.cons (by decide)
      (.append (h.of_subset (List.subset_cons_self c _)) htail))

/-- However the digits are laid out, only numerals are added to them. -/
theorem isNumeric_arrange (l : Layout) {d : Digits} (h : IsNumeric d.digits) :
    IsNumeric (l.arrange d) := by
  have hzeros (n : Nat) : IsNumeric (List.replicate n '0') := .replicate n (by decide)
  have hexponent (n : Nat) : IsNumeric (padZeros l.exponentDigits (Nat.toDigits 10 n)) :=
    (IsNumeric.toDigits n).padZeros
  simp only [Layout.arrange]
  split_ifs
  · exact .cons (by decide) (.cons (by decide) ((hzeros _).append h))
  · exact (h.append (hzeros _)).append (by decide)
  · exact (h.of_subset (List.take_subset _ _)).append
      (.cons (by decide) (h.of_subset (List.drop_subset _ _)))
  · refine isNumeric_scientific h ?_
    exact IsNumeric.append (by decide) (hexponent _)
  · refine isNumeric_scientific h ?_
    exact IsNumeric.append (by decide) (hexponent _)

end Decimal

/-! ## Nodes -/

/-- The words for nothing, for the truth values, and for doubles that are no numbers. -/
def displayWords : List String := ["None", "True", "False", "nan", "inf", "-inf"]

theorem display_float (x : Float) :
    (Scalar.float x).display ∈ displayWords ∨ IsNumeric (Scalar.float x).display.toList := by
  show plainLayout.text x ∈ displayWords ∨ IsNumeric (plainLayout.text x).toList
  have hsigned (negative : Bool) {s : List Char} (h : IsNumeric s) :
      IsNumeric (String.ofList (if negative = true then '-' :: s else s)).toList := by
    rw [String.toList_ofList]
    split_ifs
    · exact .cons (by decide) h
    · exact h
  unfold Decimal.Layout.text
  cases Decimal.parts x with
  | nan => exact .inl (by decide)
  | infinite negative => cases negative <;> exact .inl (by decide)
  | finite negative m e =>
    right
    by_cases hm : (m == 0) = true
    · simp only [if_pos hm]
      exact hsigned negative (s := ['0', '.', '0']) (by decide)
    · simp only [if_neg hm]
      exact hsigned negative
        (Decimal.isNumeric_arrange plainLayout (Decimal.isNumeric_shortest m e))

theorem isNumeric_padded (width n : Nat) : IsNumeric (padded width n).toList := by
  rw [padded, String.toList_ofList]
  exact (IsNumeric.toDigits n).padZeros

theorem isNumeric_date (d : Date) : IsNumeric d.iso.toList := by
  simp only [Date.iso, String.toList_append]
  exact ((((isNumeric_padded _ _).append (by decide)).append (isNumeric_padded _ _)).append
    (by decide)).append (isNumeric_padded _ _)

theorem isNumeric_offset (minutes : Int) : IsNumeric (Timestamp.offsetText minutes).toList := by
  simp only [Timestamp.offsetText, String.toList_append]
  refine IsNumeric.append (.append (.append ?_ (isNumeric_padded _ _)) (by decide))
    (isNumeric_padded _ _)
  split_ifs <;> decide

theorem isNumeric_timestamp (t : Timestamp) : IsNumeric (t.iso " ").toList := by
  simp only [Timestamp.iso, String.toList_append]
  refine IsNumeric.append (.append ?_ ?_) ?_
  · exact ((((((isNumeric_date _).append (by decide)).append (isNumeric_padded _ _)).append
      (by decide)).append (isNumeric_padded _ _)).append (by decide)).append (isNumeric_padded _ _)
  · split_ifs
    · exact .nil
    · rw [String.toList_append]
      exact .append (by decide) (isNumeric_padded _ _)
  · cases t.offset with
    | none => exact .nil
    | some minutes => exact isNumeric_offset minutes

/-- A scalar is a text, or it is displayed as a word or with numerals. -/
theorem display_scalar (s : Scalar) :
    (∃ t, s = .text t) ∨ s.display ∈ displayWords ∨ IsNumeric s.display.toList := by
  cases s with
  | null => exact .inr (.inl (by decide))
  | bool b => cases b <;> exact .inr (.inl (by decide))
  | int n => exact .inr (.inr (isNumeric_int n))
  | float x => exact .inr (display_float x)
  | text t => exact .inl ⟨t, rfl⟩
  | date d => exact .inr (.inr (isNumeric_date d))
  | timestamp t => exact .inr (.inr (isNumeric_timestamp t))

/-- What is displayed as no word, with other characters than numerals, and without a bracket in
front, is a text. -/
theorem eq_text_of_display {n : Node} {w : String} (h : n.display = w) (hword : w ∉ displayWords)
    (hnumeric : ¬ IsNumeric w.toList) (hlist : w.toList.head? ≠ some '[')
    (hmap : w.toList.head? ≠ some '\x7b') : n = .text w := by
  cases n with
  | scalar s =>
    rcases display_scalar s with ⟨t, rfl⟩ | hs | hs
    · exact congrArg Node.text h
    · exact absurd (h ▸ hs) hword
    · exact absurd (h ▸ hs) hnumeric
  | list items =>
    refine absurd ?_ hlist
    rw [← h]
    simp only [Node.display, Node.literal, String.toList_append]
    rfl
  | map entries =>
    refine absurd ?_ hmap
    rw [← h]
    simp only [Node.display, Node.literal, String.toList_append]
    rfl

end ApiModel
