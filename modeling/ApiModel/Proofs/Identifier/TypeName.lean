import ApiModel.Proofs.Identifier.Letters
import ApiModel.Proofs.TypeExpr

/-!
# Identifiers as keys

The name of a definition is read from its key in many steps, each of which may take two texts to
one. An identifier is left alone by all of them but the last, which puts an underscore before a
reserved word.

**Theorem (`base_of_isIdentifier`).** A key that is an identifier and no primitive is read as it
stands.

**Theorem (`escapeReserved_eq_iff`).** Marking the reserved words takes two texts to one only if
one of them is reserved and the other one is what becomes of it.
-/

namespace ApiModel

/-! ## Reserved words -/

namespace Identifier

theorem escapeReserved_of_mem {s : String} (h : s ∈ reserved) : escapeReserved s = "_" ++ s :=
  if_pos (List.contains_iff_mem.2 h)

theorem escapeReserved_of_not_mem {s : String} (h : s ∉ reserved) : escapeReserved s = s :=
  if_neg fun hmem => h (List.contains_iff_mem.1 hmem)

/-- No reserved word begins with an underscore. -/
theorem not_mem_reserved (s : String) : "_" ++ s ∉ reserved := by
  have hfront : ∀ w ∈ reserved, w.toList.head? ≠ some '_' := by decide +kernel
  intro hmem
  refine hfront _ hmem ?_
  rw [String.toList_append]
  rfl

/-- The marked forms of two texts are one if the texts are, or one of them is the marked form of
the other. -/
theorem escapeReserved_eq_iff {s t : String} :
    escapeReserved s = escapeReserved t ↔
      s = t ∨ (s ∈ reserved ∧ t = "_" ++ s) ∨ (t ∈ reserved ∧ s = "_" ++ t) := by
  constructor
  · intro h
    by_cases hs : s ∈ reserved
    · by_cases ht : t ∈ reserved
      · rw [escapeReserved_of_mem hs, escapeReserved_of_mem ht, String.append_right_inj] at h
        exact .inl h
      · rw [escapeReserved_of_mem hs, escapeReserved_of_not_mem ht] at h
        exact .inr (.inl ⟨hs, h.symm⟩)
    · rw [escapeReserved_of_not_mem hs] at h
      by_cases ht : t ∈ reserved
      · rw [escapeReserved_of_mem ht] at h
        exact .inr (.inr ⟨ht, h⟩)
      · rw [escapeReserved_of_not_mem ht] at h
        exact .inl h
  · rintro (rfl | ⟨hs, rfl⟩ | ⟨ht, rfl⟩)
    · rfl
    · rw [escapeReserved_of_mem hs, escapeReserved_of_not_mem (not_mem_reserved s)]
    · rw [escapeReserved_of_mem ht, escapeReserved_of_not_mem (not_mem_reserved t)]

/-! ## Characters of identifiers -/

theorem not_isWord_of_isBlank {c : Char} (h : Unicode.isBlank c = true) :
    Unicode.isWord c = false := by
  have hblanks : ∀ n ∈ List.range' 9 5 ++ List.range' 28 5 ++ List.range' 0x2000 11 ++
      [0x85, 0xA0, 0x1680, 0x2028, 0x2029, 0x202F, 0x205F, 0x3000],
      Unicode.isWord (Char.ofNat n) = false := by decide +kernel
  have hword := hblanks c.toNat ?_
  · rwa [Char.ofNat_toNat] at hword
  · simp only [Unicode.isBlank, Unicode.isSpacing, Bool.or_eq_true, Bool.and_eq_true,
      decide_eq_true_eq, beq_iff_eq] at h
    simp only [List.mem_append, List.mem_range'_1, List.mem_cons, List.not_mem_nil, or_false]
    omega

theorem isTail_of_isHead {c : Char} (h : isHead c = true) : isTail c = true := by
  have hascii : Unicode.isAscii c = true := by
    simp only [isHead, Bool.or_eq_true, beq_iff_eq] at h
    rcases h with (h | rfl) | rfl
    · exact isAscii_of_isAsciiLetter h
    · rfl
    · rfl
  exact forall_ascii (P := fun c => isHead c = true → isTail c = true) (by decide +kernel) hascii h

theorem isTail_of_isIdentifier {s : List Char} (h : isIdentifier s = true) :
    ∀ c ∈ s, isTail c = true := by
  cases s with
  | nil => exact fun _ hmem => absurd hmem List.not_mem_nil
  | cons c rest =>
    obtain ⟨hhead, htail⟩ := Bool.and_eq_true_iff.1 h
    exact List.forall_mem_cons.2 ⟨isTail_of_isHead hhead, List.all_eq_true.1 htail⟩

theorem not_isBlank_of_isTail {c : Char} (h : isTail c = true) : Unicode.isBlank c = false := by
  refine Bool.eq_false_iff.2 fun hblank => ?_
  rw [isTail, not_isWord_of_isBlank hblank, Bool.false_or, beq_iff_eq] at h
  rw [h] at hblank
  cases hblank

theorem squeeze_of_all {p : Char → Bool} {mark : Char} {s : List Char}
    (h : ∀ c ∈ s, p c = false) : Text.squeeze p mark s = s := by
  suffices hgo : Text.squeeze.go p mark false s = s from hgo
  induction s with
  | nil => rfl
  | cons c s ih =>
    obtain ⟨hc, hs⟩ := List.forall_mem_cons.1 h
    rw [Text.squeeze.go, hc, if_neg Bool.false_ne_true, ih hs]

/-- An identifier is the name of a type as it stands. -/
theorem typeName_of_isIdentifier {s : List Char} (h : isIdentifier s = true) : typeName s = s := by
  have htail := isTail_of_isIdentifier h
  have hdrop : (s.dropWhile fun c => !isHead c) = s := by
    cases s with
    | nil => rfl
    | cons c rest =>
      obtain ⟨hhead, -⟩ := Bool.and_eq_true_iff.1 h
      exact List.dropWhile_cons_of_neg (by simp [hhead])
  rw [typeName, hdrop]
  exact squeeze_of_all fun c hc => by rw [htail c hc]; rfl

end Identifier

/-! ## Keys -/

namespace TypeExpr

open Identifier

theorem dropTail_eq_self {p : Char → Bool} {s : List Char} (h : ∀ c ∈ s, p c = false) :
    Text.dropTail p s = s := by
  induction s using List.reverseRecOn with
  | nil => rfl
  | append_singleton s c _ =>
    exact Text.dropTail_concat_of_neg (h c (List.mem_append_right _ List.mem_cons_self)) s

/-- Nothing is trimmed or dropped in front of a text without white space and slashes. -/
theorem bareName_eq_self (d : Dialect) {s : List Char}
    (h : ∀ c ∈ s, Unicode.isBlank c = false ∧ c ≠ '/') : d.bareName s = s := by
  have htrim : Text.trim s = s := by
    have hfront : s.dropWhile Unicode.isBlank = s := by
      cases s with
      | nil => rfl
      | cons c rest =>
        exact List.dropWhile_cons_of_neg (by simp [(h c List.mem_cons_self).1])
    rw [Text.trim, hfront, dropTail_eq_self fun c hc => (h c hc).1]
  have hmarks : ∀ mark ∈ d.marks, '/' ∈ mark.toList := by cases d <;> decide
  rw [Dialect.bareName, htrim]
  refine dropFirstMark_of_not_prefix fun mark hmark hfront => ?_
  exact (h '/' (hfront.subset (hmarks mark hmark))).2 rfl

theorem bareName_of_isIdentifier (d : Dialect) {s : List Char} (h : isIdentifier s = true) :
    d.bareName s = s := by
  refine bareName_eq_self d fun c hc => ?_
  have htail := isTail_of_isIdentifier h c hc
  refine ⟨not_isBlank_of_isTail htail, ?_⟩
  rintro rfl
  exact absurd htail (by decide)

theorem ofBareName_of_isIdentifier {s : List Char} (h : isIdentifier s = true) :
    ofBareName s = ofModel (String.ofList s) := by
  have htail := isTail_of_isIdentifier h
  have hgeneric : generic? s = none := by
    have hbracket : s.dropWhile (· != '[') = [] := by
      refine List.dropWhile_eq_nil_iff.2 fun c hc => ?_
      rw [bne_iff_ne]
      rintro rfl
      exact absurd (htail '[' hc) (by decide)
    rw [generic?, hbracket]
  rw [ofBareName, hgeneric]
  dsimp only
  rw [typeName_of_isIdentifier h]
  cases s with
  | nil => cases h
  | cons c rest => rfl

/-- A key that is an identifier and no primitive is read as it stands. -/
theorem base_of_isIdentifier (d : Dialect) {key : String} (h : isIdentifier key.toList = true)
    (hprimitive : primitives.lookup key = none) :
    (ofNode d (.text key) .null).base = key := by
  have hne : key ≠ "" := by
    rintro rfl
    cases h
  have hpercent : '%' ∉ key.toList := fun hmem =>
    absurd (isTail_of_isIdentifier h '%' hmem) (by decide)
  have hnone : primitive? key .null = none := hprimitive
  show (ofName d key .null).base = key
  rw [ofName, if_neg hne, hnone]
  show (ofBareName (Text.percentDecode (d.bareName key.toList))).base = key
  rw [bareName_of_isIdentifier d h, Text.percentDecode_of_not_mem hpercent,
    ofBareName_of_isIdentifier h, ofModel, String.ofList_toList]

end TypeExpr

end ApiModel
