import ApiModel.Text.Cut
import Mathlib.Data.List.Induction
import Mathlib.Data.List.TakeWhile

/-!
# Cutting texts

What the functions that cut texts give on a text that is put together from parts.
-/

namespace ApiModel.Text

/-! ## Tails -/

section DropTail

variable {p : Char → Bool} {c : Char}

theorem dropTail_concat_of_pos (hc : p c = true) (s : List Char) :
    dropTail p (s ++ [c]) = dropTail p s := by
  simp [dropTail, hc]

theorem dropTail_concat_of_neg (hc : p c = false) (s : List Char) :
    dropTail p (s ++ [c]) = s ++ [c] := by
  simp [dropTail, hc]

/-- What is dropped at the end of a text is not looked for before a character that stays. -/
theorem dropTail_append (hc : p c = false) (s t : List Char) :
    dropTail p ((s ++ [c]) ++ t) = (s ++ [c]) ++ dropTail p t := by
  induction t using List.reverseRecOn with
  | nil =>
    rw [List.append_nil, dropTail_concat_of_neg hc]
    exact (List.append_nil _).symm
  | append_singleton t a ih =>
    rw [← List.append_assoc]
    cases ha : p a with
    | true => rw [dropTail_concat_of_pos ha, dropTail_concat_of_pos ha, ih]
    | false => rw [dropTail_concat_of_neg ha, dropTail_concat_of_neg ha, List.append_assoc]

theorem mem_of_mem_dropTail {s : List Char} (h : c ∈ dropTail p s) : c ∈ s := by
  have hmem := (List.dropWhile_sublist p).subset (List.mem_reverse.1 h)
  exact List.mem_reverse.1 hmem

/-- A text is what is left of it, and the tail that was dropped. -/
theorem dropTail_append_takeWhile (p : Char → Bool) (s : List Char) :
    dropTail p s ++ (s.reverse.takeWhile p).reverse = s := by
  rw [dropTail, ← List.reverse_append, List.takeWhile_append_dropWhile, List.reverse_reverse]

/-- What is dropped of one character is so many times this character. -/
theorem exists_dropTail_append (c : Char) (s : List Char) :
    ∃ n, s = dropTail (· == c) s ++ List.replicate n c := by
  have hdropped : ∀ d ∈ (s.reverse.takeWhile (· == c)).reverse, d = c := by
    intro d hd
    simpa using List.mem_takeWhile_imp (List.mem_reverse.1 hd)
  refine ⟨(s.reverse.takeWhile (· == c)).reverse.length, ?_⟩
  rw [← List.eq_replicate_of_mem hdropped, dropTail_append_takeWhile]

/-- What is left of a text ends in a character that stays. -/
theorem getLast?_dropTail {s : List Char} (h : (dropTail p s).getLast? = some c) : p c = false := by
  rw [dropTail, List.getLast?_reverse] at h
  have hhead := List.head?_dropWhile_not p s.reverse
  rw [h] at hhead
  exact hhead

theorem mem_of_mem_trim {s : List Char} (h : c ∈ trim s) : c ∈ s :=
  (List.dropWhile_sublist _).subset (mem_of_mem_dropTail h)

end DropTail

/-! ## Pieces -/

theorem split_of_not_mem {sep : Char} {s : List Char} (h : sep ∉ s) : split sep s = [s] := by
  induction s with
  | nil => rfl
  | cons c s ih =>
    rw [List.mem_cons, not_or] at h
    rw [split, ih h.2, if_neg (by simpa using Ne.symm h.1)]

theorem split_append {sep : Char} {s : List Char} (h : sep ∉ s) (t : List Char) :
    split sep (s ++ sep :: t) = s :: split sep t := by
  induction s with
  | nil =>
    show split sep (sep :: t) = _
    rw [split, if_pos (by simp)]
  | cons c s ih =>
    rw [List.mem_cons, not_or] at h
    rw [List.cons_append, split, ih h.2, if_neg (by simpa using Ne.symm h.1)]

/-- Pieces that are put behind separators are found again. -/
theorem split_flatMap {sep : Char} {front : List Char} (hfront : sep ∉ front)
    {pieces : List (List Char)} (h : ∀ piece ∈ pieces, sep ∉ piece) :
    split sep (front ++ pieces.flatMap (sep :: ·)) = front :: pieces := by
  induction pieces generalizing front with
  | nil => rw [List.flatMap_nil, List.append_nil, split_of_not_mem hfront]
  | cons piece pieces ih =>
    rw [List.forall_mem_cons] at h
    rw [List.flatMap_cons, List.cons_append, split_append hfront, ih h.1 h.2]

theorem join_cons (sep piece : List Char) {pieces : List (List Char)} (h : pieces ≠ []) :
    join sep (piece :: pieces) = piece ++ sep ++ join sep pieces := by
  cases pieces with
  | nil => exact absurd rfl h
  | cons _ _ => rfl

theorem exists_of_append_eq {c : Char} {s t u v : List Char} (hc : c ∉ s)
    (h : s ++ t = u ++ c :: v) : ∃ w, u = s ++ w ∧ t = w ++ c :: v := by
  rcases List.append_eq_append_iff.1 h with ⟨w, rfl, rfl⟩ | ⟨w, rfl, heq⟩
  · exact ⟨w, rfl, rfl⟩
  · cases w with
    | nil => exact ⟨[], by simp, heq.symm⟩
    | cons d w =>
      obtain ⟨rfl, -⟩ := List.cons.inj heq
      exact absurd (List.mem_append_right u List.mem_cons_self) hc

/-- Two texts that are cut at the first occurrence of one character have the same parts. -/
theorem append_cons_inj {c : Char} {s t u v : List Char} (hs : c ∉ s) (hu : c ∉ u)
    (h : s ++ c :: t = u ++ c :: v) : s = u ∧ t = v := by
  obtain ⟨w, rfl, hw⟩ := exists_of_append_eq hs h
  cases w with
  | nil => exact ⟨(List.append_nil s).symm, (List.cons.inj hw).2⟩
  | cons d w =>
    obtain ⟨rfl, -⟩ := List.cons.inj hw
    exact absurd (List.mem_append_right s List.mem_cons_self) hu

/-- Pieces that are joined are found again. -/
theorem split_join {sep : Char} {pieces : List (List Char)} (hne : pieces ≠ [])
    (h : ∀ piece ∈ pieces, sep ∉ piece) : split sep (join [sep] pieces) = pieces := by
  induction pieces with
  | nil => exact absurd rfl hne
  | cons piece pieces ih =>
    obtain ⟨hpiece, hpieces⟩ := List.forall_mem_cons.1 h
    by_cases hnil : pieces = []
    · subst hnil
      exact split_of_not_mem hpiece
    · rw [join_cons [sep] piece hnil, List.append_assoc, List.singleton_append,
        split_append hpiece, ih hnil hpieces]

/-- Every piece but the last one has a separator behind it. -/
theorem join_concat (sep : Char) (pieces : List (List Char)) (last : List Char) :
    join [sep] (pieces ++ [last]) = pieces.flatMap (· ++ [sep]) ++ last := by
  induction pieces with
  | nil => rfl
  | cons piece pieces ih =>
    rw [List.cons_append, join_cons [sep] piece (by simp), ih, List.flatMap_cons,
      List.append_assoc (piece ++ [sep])]

theorem map_join (f : Char → Char) (sep : List Char) (pieces : List (List Char)) :
    (join sep pieces).map f = join (sep.map f) (pieces.map (·.map f)) := by
  induction pieces with
  | nil => rfl
  | cons piece pieces ih =>
    by_cases hnil : pieces = []
    · subst hnil
      rfl
    · rw [List.map_cons, join_cons sep piece hnil, join_cons _ _ (by simpa using hnil),
        List.map_append, List.map_append, ih]

theorem mem_of_mem_split {sep c : Char} {s piece : List Char} (h : piece ∈ split sep s)
    (hc : c ∈ piece) : c ∈ s := by
  induction s generalizing piece with
  | nil =>
    rw [split, List.mem_singleton] at h
    exact absurd (h ▸ hc) List.not_mem_nil
  | cons d s ih =>
    rw [split] at h
    split_ifs at h
    · rcases List.mem_cons.1 h with rfl | h
      · exact absurd hc List.not_mem_nil
      · exact List.mem_cons_of_mem d (ih h hc)
    · match hpieces : split sep s with
      | [] =>
        rw [hpieces, List.mem_singleton] at h
        exact List.mem_cons.2 (.inl (List.mem_singleton.1 (h ▸ hc)))
      | front :: pieces =>
        rw [hpieces, List.mem_cons] at h
        rw [hpieces] at ih
        rcases h with rfl | h
        · refine List.mem_cons.2 ((List.mem_cons.1 hc).imp_right fun hc => ?_)
          exact ih List.mem_cons_self hc
        · exact List.mem_cons_of_mem d (ih (List.mem_cons_of_mem front h) hc)

theorem of_mem_join {sep : List Char} {c : Char} {pieces : List (List Char)}
    (h : c ∈ join sep pieces) : c ∈ sep ∨ ∃ piece ∈ pieces, c ∈ piece := by
  induction pieces with
  | nil => cases h
  | cons piece pieces ih =>
    by_cases hpieces : pieces = []
    · subst hpieces
      exact .inr ⟨piece, List.mem_cons_self, h⟩
    · rw [join_cons sep piece hpieces, List.mem_append, List.mem_append] at h
      rcases h with (h | h) | h
      · exact .inr ⟨piece, List.mem_cons_self, h⟩
      · exact .inl h
      · exact (ih h).imp_right fun ⟨other, hother, hc⟩ =>
          ⟨other, List.mem_cons_of_mem piece hother, hc⟩

/-! ## Marks -/

theorem of_mem_squeeze {p : Char → Bool} {mark c : Char} {s : List Char}
    (h : c ∈ squeeze p mark s) : c = mark ∨ (c ∈ s ∧ p c = false) := by
  suffices hgo : ∀ inRun, c ∈ squeeze.go p mark inRun s → c = mark ∨ (c ∈ s ∧ p c = false) from
    hgo false h
  clear h
  induction s with
  | nil => exact fun _ h => absurd h List.not_mem_nil
  | cons d s ih =>
    intro inRun h
    have hrest {inRun : Bool} (h : c ∈ squeeze.go p mark inRun s) :
        c = mark ∨ (c ∈ d :: s ∧ p c = false) :=
      (ih inRun h).imp_right fun ⟨hmem, hc⟩ => ⟨List.mem_cons_of_mem d hmem, hc⟩
    rw [squeeze.go] at h
    split_ifs at h with hd
    · exact hrest h
    · exact (List.mem_cons.1 h).elim .inl hrest
    · rcases List.mem_cons.1 h with rfl | h
      · exact .inr ⟨List.mem_cons_self, Bool.eq_false_iff.2 hd⟩
      · exact hrest h

theorem squeeze_cons {p : Char → Bool} {mark c : Char} (hc : p c = false) (s : List Char) :
    squeeze p mark (c :: s) = c :: squeeze p mark s := by
  rw [squeeze, squeeze.go, if_neg (by simp [hc])]
  rfl

theorem squeeze_ne_nil {p : Char → Bool} {mark : Char} {s : List Char} (h : s ≠ []) :
    squeeze p mark s ≠ [] := by
  cases s with
  | nil => exact absurd rfl h
  | cons c s =>
    rw [squeeze, squeeze.go]
    split_ifs
    · contradiction
    · exact List.cons_ne_nil _ _
    · exact List.cons_ne_nil _ _

/-! ## Heads and pairs -/

theorem after?_eq_some {head s rest : List Char} :
    after? head s = some rest ↔ s = head ++ rest := by
  induction head generalizing s with
  | nil => simp [after?]
  | cons h head ih =>
    cases s with
    | nil => simp [after?]
    | cons c s =>
      by_cases hc : h = c
      · simp [after?, hc, ih]
      · simp [after?, hc, Ne.symm hc]

theorem isSome_after?_iff {head s : List Char} : (after? head s).isSome ↔ head <+: s := by
  rw [Option.isSome_iff_exists]
  exact exists_congr fun rest => after?_eq_some.trans eq_comm

theorem occursIn_iff {part s : List Char} : occursIn part s = true ↔ part <:+: s := by
  induction s with
  | nil => rw [occursIn, List.isEmpty_iff, List.infix_nil]
  | cons c s ih => rw [occursIn, Bool.or_eq_true, isSome_after?_iff, ih, List.infix_cons_iff]

/-- What occurs after the last `mark` of a text occurs with no `mark` behind it. -/
theorem infix_after_last_iff {mark : Char} {part s : List Char} (h : mark ∉ part) :
    part <:+: (s.reverse.takeWhile (· != mark)).reverse ↔
      ∃ front back, s = front ++ part ++ back ∧ mark ∉ back := by
  have hfree : ∀ c ∈ s.reverse.takeWhile (· != mark), c ≠ mark :=
    fun c hc => bne_iff_ne.1 (List.mem_takeWhile_imp (p := (· != mark)) hc)
  constructor
  · rintro ⟨front, back, heq⟩
    refine ⟨dropTail (· != mark) s ++ front, back, ?_, fun hmem => ?_⟩
    · rw [List.append_assoc, List.append_assoc, ← List.append_assoc front, heq,
        dropTail_append_takeWhile]
    · refine hfree mark (List.mem_reverse.1 ?_) rfl
      rw [← heq]
      exact List.mem_append_right _ hmem
  · rintro ⟨front, back, rfl, hback⟩
    have hkept : ∀ c ∈ (part ++ back).reverse, (c != mark) = true := by
      intro c hc
      rw [bne_iff_ne]
      rintro rfl
      exact (List.mem_append.1 (List.mem_reverse.1 hc)).elim h hback
    rw [List.append_assoc, List.reverse_append, List.takeWhile_append_of_pos hkept,
      List.reverse_append, List.reverse_reverse]
    exact (List.prefix_append part back).isInfix.trans (List.suffix_append _ _).isInfix

theorem replacePair_cons {a b c x : Char} (hx : x ≠ a) (s : List Char) :
    replacePair a b c (x :: s) = x :: replacePair a b c s := by
  cases s with
  | nil => rfl
  | cons y s => simp [replacePair, hx]

/-! ## Braces -/

section Braces

variable {s t inner rest : List Char} {c : Char} {f : List Char → List Char}

theorem braced?_eq_some : braced? s = some (inner, rest) ↔
    s = inner ++ '\x7d' :: rest ∧ '\x7d' ∉ inner ∧ '\n' ∉ inner := by
  induction s generalizing inner with
  | nil => simp [braced?]
  | cons c s ih =>
    by_cases hbrace : c = '\x7d'
    · subst hbrace
      cases inner with
      | nil => simp [braced?, eq_comm]
      | cons d inner =>
        refine iff_of_false (by simp [braced?]) ?_
        rintro ⟨heq, hinner, -⟩
        exact hinner (List.mem_cons.2 (.inl (List.cons.inj heq).1))
    · by_cases hbreak : c = '\n'
      · subst hbreak
        refine iff_of_false (by simp [braced?]) ?_
        rintro ⟨heq, -, hinner⟩
        cases inner with
        | nil => exact hbrace (List.cons.inj heq).1
        | cons d inner => exact hinner (List.mem_cons.2 (.inl (List.cons.inj heq).1))
      · cases inner with
        | nil => simp [braced?, hbrace, hbreak]
        | cons d inner =>
          have hstep : braced? (c :: s) = (braced? s).map fun p => (c :: p.1, p.2) := by
            rw [braced?, if_neg (by simpa using hbrace), if_neg (by simpa using hbreak)]
          rw [hstep, Option.map_eq_some_iff, Prod.exists]
          constructor
          · rintro ⟨inner', rest', hs, heq⟩
            cases heq
            obtain ⟨rfl, hinner, hline⟩ := ih.1 hs
            exact ⟨rfl, List.not_mem_cons_of_ne_of_not_mem (Ne.symm hbrace) hinner,
              List.not_mem_cons_of_ne_of_not_mem (Ne.symm hbreak) hline⟩
          · rintro ⟨heq, hinner, hline⟩
            obtain ⟨rfl, rfl⟩ := List.cons.inj heq
            exact ⟨inner, rest, ih.2 ⟨rfl, fun h => hinner (List.mem_cons_of_mem _ h),
              fun h => hline (List.mem_cons_of_mem _ h)⟩, rfl⟩

/-- A line feed before the closing brace leaves the opening one alone. -/
theorem braced?_of_break (h : '\x7d' ∉ s) (hbreak : '\n' ∈ s) : braced? (s ++ t) = none := by
  induction s with
  | nil => cases hbreak
  | cons c s ih =>
    rw [List.mem_cons, not_or] at h
    rw [List.cons_append, braced?, if_neg (by simpa using Ne.symm h.1)]
    split_ifs with hc
    · rfl
    · have hne : '\n' ≠ c := fun heq => hc (beq_iff_eq.2 heq.symm)
      rw [ih h.2 ((List.mem_cons.1 hbreak).resolve_left hne)]
      rfl

theorem replaceBraced_cons (h : c ≠ '\x7b' ∨ braced? s = none) :
    replaceBraced f (c :: s) = c :: replaceBraced f s := by
  rw [replaceBraced]
  split_ifs with hc
  · have hnone : braced? s = none := h.resolve_left fun hne => hne (by simpa using hc)
    split
    · rename_i hsome
      rw [hnone] at hsome
      cases hsome
    · rfl
  · rfl

/-- A text without braces stays as it is. -/
theorem replaceBraced_append (h : '\x7b' ∉ s) :
    replaceBraced f (s ++ t) = s ++ replaceBraced f t := by
  induction s with
  | nil => rfl
  | cons c s ih =>
    rw [List.mem_cons, not_or] at h
    rw [List.cons_append, replaceBraced_cons (.inl (Ne.symm h.1)), ih h.2, List.cons_append]

/-- What stands in braces on one line is replaced. -/
theorem replaceBraced_braced (h : '\x7d' ∉ inner) (hbreak : '\n' ∉ inner) :
    replaceBraced f ('\x7b' :: (inner ++ '\x7d' :: rest)) = f inner ++ replaceBraced f rest := by
  have hsome : braced? (inner ++ '\x7d' :: rest) = some (inner, rest) :=
    braced?_eq_some.2 ⟨rfl, h, hbreak⟩
  rw [replaceBraced, if_pos (by simp)]
  split
  · rename_i heq
    rw [hsome] at heq
    cases heq
    rfl
  · rename_i heq
    rw [hsome] at heq
    cases heq

/-- Where what stands in braces is left out, nothing is added. -/
theorem mem_of_mem_replaceBraced (h : c ∈ replaceBraced (fun _ => []) s) : c ∈ s := by
  induction s using replaceBraced.induct with
  | case1 => rw [replaceBraced] at h; cases h
  | case2 d s hd inner rest heq _ ih =>
    obtain ⟨rfl, hbrace, hbreak⟩ := braced?_eq_some.1 heq
    obtain rfl : d = '\x7b' := by simpa using hd
    rw [replaceBraced_braced hbrace hbreak, List.nil_append] at h
    simp [ih h]
  | case3 d s _ hnone ih =>
    rw [replaceBraced_cons (.inr hnone), List.mem_cons] at h
    exact List.mem_cons.2 (h.imp_right ih)
  | case4 d s hd ih =>
    rw [replaceBraced_cons (.inl (by simpa using hd)), List.mem_cons] at h
    exact List.mem_cons.2 (h.imp_right ih)

end Braces

end ApiModel.Text
