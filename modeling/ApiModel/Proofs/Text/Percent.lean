import ApiModel.Text.Percent

/-!
# Decoding percent escapes character by character

Percent escapes are decoded run by run. What that comes to, for ASCII, is said by two equations:
any character but a percent sign stands for itself, and an escape of an ASCII character stands
for this character.

**Theorem (`percentDecode_escapePercent`).** A text whose percent signs are escaped is decoded to
the text.
-/

namespace ApiModel.Text

/-! ## Bytes -/

theorem decodeBytes_cons {b : Nat} (hb : b < 0x80) (bytes : List Nat) :
    decodeBytes (b :: bytes) = Char.ofNat b :: decodeBytes bytes := by
  have hfirst : firstChar b bytes = (some (Char.ofNat b), 1) := by rw [firstChar, if_pos hb]
  simp only [decodeBytes, List.length_cons, decodeParts, hfirst, Nat.sub_self, List.drop_zero,
    List.map_cons, Option.getD_some]

theorem percentBytes_cons {c : Char} (hc : c ≠ '%') (s : List Char) :
    percentBytes (c :: s) = c.toNat :: percentBytes s := by
  cases s with
  | nil => simp [percentBytes]
  | cons a s =>
    cases s with
    | nil => simp [percentBytes]
    | cons b s => simp [percentBytes, hc]

theorem percentBytes_escape {a b : Char} {n : Nat} (h : hexByte? a b = some n) (s : List Char) :
    percentBytes ('%' :: a :: b :: s) = n :: percentBytes s := by
  rw [percentBytes, h]

/-! ## Runs -/

/-- Put a character before the first run, or make it a run of its own. -/
def addToRuns (c : Char) : List (List Char) → List (List Char)
  | (d :: run) :: runs =>
    if (c.toNat < 128) == (d.toNat < 128) then (c :: d :: run) :: runs
    else [c] :: (d :: run) :: runs
  | runs => [c] :: runs

theorem asciiRuns_cons (c : Char) (s : List Char) :
    asciiRuns (c :: s) = addToRuns c (asciiRuns s) := by
  rw [asciiRuns]
  rcases asciiRuns s with _ | ⟨_ | ⟨d, run⟩, runs⟩ <;> rfl

/-- All characters of a run are ASCII, or none is. -/
def IsRun (run : List Char) : Prop :=
  (∀ c ∈ run, c.toNat < 128) ∨ ∀ c ∈ run, 128 ≤ c.toNat

theorem isRun_singleton (c : Char) : IsRun [c] := by
  by_cases hc : c.toNat < 128
  · exact .inl fun d hd => by rwa [List.mem_singleton.1 hd]
  · exact .inr fun d hd => by rw [List.mem_singleton.1 hd]; omega

theorem addToRuns_same {c d : Char} (h : c.toNat < 128 ↔ d.toNat < 128) (run : List Char)
    (runs : List (List Char)) :
    addToRuns c ((d :: run) :: runs) = (c :: d :: run) :: runs := by
  simp [addToRuns, h]

theorem addToRuns_apart {c d : Char} (h : ¬ (c.toNat < 128 ↔ d.toNat < 128)) (run : List Char)
    (runs : List (List Char)) :
    addToRuns c ((d :: run) :: runs) = [c] :: (d :: run) :: runs := by
  simp [addToRuns, h]

theorem isRun_asciiRuns {s run : List Char} (h : run ∈ asciiRuns s) : IsRun run := by
  induction s generalizing run with
  | nil => simp [asciiRuns] at h
  | cons c s ih =>
    rw [asciiRuns_cons] at h
    rcases hruns : asciiRuns s with _ | ⟨_ | ⟨d, first⟩, runs⟩
    · rw [hruns] at h
      rw [List.mem_singleton.1 h]
      exact isRun_singleton c
    · rw [hruns] at h ih
      rcases List.mem_cons.1 h with rfl | h
      · exact isRun_singleton c
      · exact ih h
    · rw [hruns] at h ih
      by_cases hsame : c.toNat < 128 ↔ d.toNat < 128
      · rw [addToRuns_same hsame] at h
        rcases List.mem_cons.1 h with rfl | h
        · rcases ih List.mem_cons_self with hascii | hother
          · have hd := hascii d List.mem_cons_self
            exact .inl (List.forall_mem_cons.2 ⟨hsame.2 hd, hascii⟩)
          · have hd := hother d List.mem_cons_self
            exact .inr (List.forall_mem_cons.2 ⟨by omega, hother⟩)
        · exact ih (List.mem_cons_of_mem _ h)
      · rw [addToRuns_apart hsame] at h
        rcases List.mem_cons.1 h with rfl | h
        · exact isRun_singleton c
        · exact ih h

/-! ## Runs, decoded -/

theorem decodeRun_ascii {run : List Char} (h : ∀ c ∈ run, c.toNat < 128) :
    decodeRun run = decodeBytes (percentBytes run) :=
  if_pos (List.all_eq_true.2 fun c hc => decide_eq_true (h c hc))

theorem decodeRun_other {c : Char} {run : List Char} (h : 128 ≤ c.toNat) :
    decodeRun (c :: run) = c :: run := by
  refine if_neg fun hall => ?_
  have := of_decide_eq_true (List.all_eq_true.1 hall c List.mem_cons_self)
  omega

/-- The runs of a text, decoded. -/
def decodeRuns (s : List Char) : List Char := (asciiRuns s).flatMap decodeRun

/-- An ASCII character begins a run of ASCII characters, which may go on what was there. -/
theorem addToRuns_ascii {c : Char} (hc : c.toNat < 128) {runs : List (List Char)}
    (h : ∀ run ∈ runs, IsRun run) :
    ∃ run rest, addToRuns c runs = (c :: run) :: rest ∧ (∀ d ∈ run, d.toNat < 128) ∧
      decodeRun run ++ rest.flatMap decodeRun = runs.flatMap decodeRun := by
  rcases runs with _ | ⟨_ | ⟨d, first⟩, runs⟩
  · exact ⟨[], [], rfl, by simp, rfl⟩
  · exact ⟨[], [] :: runs, rfl, by simp, rfl⟩
  · by_cases hd : d.toNat < 128
    · refine ⟨d :: first, runs, addToRuns_same (iff_of_true hc hd) _ _, ?_, rfl⟩
      rcases h _ List.mem_cons_self with hascii | hother
      · exact hascii
      · have := hother d List.mem_cons_self
        omega
    · refine ⟨[], (d :: first) :: runs, addToRuns_apart (fun hsame => hd (hsame.1 hc)) _ _, ?_, rfl⟩
      simp

/-- Another character stands for itself, whatever it is added to. -/
theorem decodeRuns_addToRuns {c : Char} (hc : 128 ≤ c.toNat) (runs : List (List Char)) :
    (addToRuns c runs).flatMap decodeRun = c :: runs.flatMap decodeRun := by
  have halone : decodeRun [c] = [c] := decodeRun_other hc
  rcases runs with _ | ⟨_ | ⟨d, first⟩, runs⟩
  · exact congrArg (· ++ _) halone
  · exact congrArg (· ++ _) halone
  · by_cases hd : d.toNat < 128
    · have hapart : ¬ (c.toNat < 128 ↔ d.toNat < 128) := by omega
      rw [addToRuns_apart hapart, List.flatMap_cons, halone]
      rfl
    · have hsame : c.toNat < 128 ↔ d.toNat < 128 := by omega
      rw [addToRuns_same hsame, List.flatMap_cons, List.flatMap_cons, decodeRun_other hc,
        decodeRun_other (Nat.le_of_not_lt hd), List.cons_append]

theorem decodeRuns_cons {c : Char} (hc : c ≠ '%') (s : List Char) :
    decodeRuns (c :: s) = c :: decodeRuns s := by
  by_cases hascii : c.toNat < 128
  · obtain ⟨run, rest, hruns, hrun, hrest⟩ :=
      addToRuns_ascii hascii (fun _ => isRun_asciiRuns (s := s))
    rw [decodeRuns, asciiRuns_cons, hruns, List.flatMap_cons,
      decodeRun_ascii (List.forall_mem_cons.2 ⟨hascii, hrun⟩), percentBytes_cons hc,
      decodeBytes_cons hascii, Char.ofNat_toNat, ← decodeRun_ascii hrun, List.cons_append, hrest]
    rfl
  · rw [decodeRuns, asciiRuns_cons, decodeRuns_addToRuns (Nat.le_of_not_lt hascii)]
    rfl

theorem hexByte?_ascii {a b : Char} {n : Nat} (h : hexByte? a b = some n) :
    a.toNat < 128 ∧ b.toNat < 128 := by
  unfold hexByte? at h
  split at h
  · rename_i hascii
    simpa using hascii
  · simp at h

theorem decodeRuns_escape {a b : Char} {n : Nat} (h : hexByte? a b = some n) (hn : n < 0x80)
    (s : List Char) : decodeRuns ('%' :: a :: b :: s) = Char.ofNat n :: decodeRuns s := by
  obtain ⟨ha, hb⟩ := hexByte?_ascii h
  have hpercent : '%'.toNat < 128 := by decide
  obtain ⟨run, rest, hruns, hrun, hrest⟩ := addToRuns_ascii hb (fun _ => isRun_asciiRuns (s := s))
  have hall : ∀ c ∈ '%' :: a :: b :: run, c.toNat < 128 := by
    simpa only [List.forall_mem_cons] using ⟨hpercent, ha, hb, hrun⟩
  rw [decodeRuns, asciiRuns_cons, asciiRuns_cons, asciiRuns_cons, hruns,
    addToRuns_same (iff_of_true ha hb), addToRuns_same (iff_of_true hpercent ha),
    List.flatMap_cons, decodeRun_ascii hall, percentBytes_escape h, decodeBytes_cons hn,
    ← decodeRun_ascii hrun, List.cons_append, hrest]
  rfl

/-! ## Texts -/

theorem percentDecode_of_not_mem {s : List Char} (h : '%' ∉ s) : percentDecode s = s :=
  if_neg (by simpa using h)

/-- Decoding a text is decoding its runs, also where there is nothing to decode. -/
theorem percentDecode_eq_decodeRuns (s : List Char) : percentDecode s = decodeRuns s := by
  by_cases hmem : '%' ∈ s
  · exact if_pos (by simpa using hmem)
  · rw [percentDecode_of_not_mem hmem]
    induction s with
    | nil => rfl
    | cons c s ih =>
      rw [List.mem_cons, not_or] at hmem
      rw [decodeRuns_cons (Ne.symm hmem.1), ← ih hmem.2]

/-- Any character but a percent sign stands for itself. -/
theorem percentDecode_cons {c : Char} (hc : c ≠ '%') (s : List Char) :
    percentDecode (c :: s) = c :: percentDecode s := by
  simp only [percentDecode_eq_decodeRuns, decodeRuns_cons hc]

/-- An escape of an ASCII character stands for the character. -/
theorem percentDecode_escape {a b : Char} {n : Nat} (h : hexByte? a b = some n) (hn : n < 0x80)
    (s : List Char) : percentDecode ('%' :: a :: b :: s) = Char.ofNat n :: percentDecode s := by
  simp only [percentDecode_eq_decodeRuns, decodeRuns_escape h hn]

/-! ## Escaped percent signs -/

/-- A text with its percent signs escaped. -/
def escapePercent (s : List Char) : List Char :=
  s.flatMap fun c => if c = '%' then ['%', '2', '5'] else [c]

theorem escapePercent_append (s t : List Char) :
    escapePercent (s ++ t) = escapePercent s ++ escapePercent t :=
  List.flatMap_append

theorem escapePercent_cons {c : Char} (hc : c ≠ '%') (s : List Char) :
    escapePercent (c :: s) = c :: escapePercent s := by
  rw [escapePercent, List.flatMap_cons, if_neg hc]
  rfl

/-- Escaped percent signs are decoded, and nothing else is taken for an escape. -/
theorem percentDecode_escapePercent (s : List Char) : percentDecode (escapePercent s) = s := by
  induction s with
  | nil => rfl
  | cons c s ih =>
    by_cases hc : c = '%'
    · have hbyte : hexByte? '2' '5' = some '%'.toNat := rfl
      subst hc
      show percentDecode ('%' :: '2' :: '5' :: escapePercent s) = _
      rw [percentDecode_escape hbyte (by decide), ih, Char.ofNat_toNat]
    · rw [escapePercent_cons hc, percentDecode_cons hc, ih]

end ApiModel.Text
