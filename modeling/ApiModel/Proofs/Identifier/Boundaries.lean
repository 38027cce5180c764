import ApiModel.Proofs.Identifier.Letters
import Mathlib.Data.List.Induction

/-!
# Where capitals begin a word

Before all becomes small, a hyphen is put wherever capitals show that a word begins. Whether one
does is a matter of three characters: a capital begins a word if a small letter stands before it, or
if it stands between a capital and a small letter (`beginsWord`).

The hyphens can be put in on the spot (`Walk`): a cursor goes along the text, remembers the case of
the last two characters, and inserts a hyphen before the character that it passes or before the one
behind it. The text grows while it is walked along, but a hyphen is always inserted behind the
cursor, so every step brings the end nearer by one character (`ahead_step`).

**Theorem (`markBoundaries_eq_hyphenated`).** The walk along an ASCII text of `n` characters ends
after `n` steps, and leaves the text with a hyphen before each place where a word begins and nowhere
else.

What the walk will leave can be told at every step (`ComesTo`): the text behind the cursor, and what
`markBoundariesFrom` makes of the last character and the rest.
-/

namespace ApiModel.Identifier

/-! ## Walks -/

/-- A walk along a text that is changed on the way. -/
structure Walk where
  text : List Char
  place : Nat := 0
  trail : CaseTrail := {}

namespace Walk

/-- Pass a character. A hyphen goes before it, or before the character in front of it. -/
def pass (w : Walk) (c : Char) : Walk :=
  if w.trail.afterSmall && Unicode.isUpper c then
    { text := w.text.insertIdx w.place '-'
      place := w.place + 2
      trail := ⟨false, true, w.trail.afterCapital⟩ }
  else if w.trail.afterCapital && w.trail.afterTwoCapitals && Unicode.isLower c then
    { text := w.text.insertIdx (w.place - 1) '-'
      place := w.place + 2
      trail := ⟨true, false, w.trail.afterCapital⟩ }
  else
    { text := w.text
      place := w.place + 1
      trail := ⟨isSmallOfPair c, isCapitalOfPair c, w.trail.afterCapital⟩ }

/-- One step: pass the character at the place. At the end of the text there is none. -/
def step? (w : Walk) : Option Walk := w.text[w.place]?.map w.pass

/-- The second walk is reached from the first one in so many steps. -/
inductive Steps : Nat → Walk → Walk → Prop
  | refl {w : Walk} : Steps 0 w w
  | step {n : Nat} {w w' w'' : Walk} : w.step? = some w' → Steps n w' w'' → Steps (n + 1) w w''

/-- The number of characters that are still to be passed. -/
def ahead (w : Walk) : Nat := w.text.length - w.place

variable {w w' : Walk} {n : Nat} {t : List Char}

/-! ### The end of a walk -/

theorem step?_eq_none : w.step? = none ↔ w.ahead = 0 := by
  rw [step?, Option.map_eq_none_iff, List.getElem?_eq_none_iff, ahead, Nat.sub_eq_zero_iff_le]

/-- A step inserts one character at most, and goes on by one character more. -/
theorem ahead_step (h : w.step? = some w') : w'.ahead + 1 = w.ahead := by
  obtain ⟨c, hc, rfl⟩ := Option.map_eq_some_iff.1 h
  obtain ⟨hlt, -⟩ := List.getElem?_eq_some_iff.1 hc
  have hbefore : (w.text.insertIdx w.place '-').length = w.text.length + 1 :=
    List.length_insertIdx_of_le_length (by omega) _
  have hbehind : (w.text.insertIdx (w.place - 1) '-').length = w.text.length + 1 :=
    List.length_insertIdx_of_le_length (by omega) _
  unfold pass ahead
  split_ifs <;> dsimp only <;> omega

/-- Every walk ends, from whatever place. -/
theorem exists_end (w : Walk) : ∃ w', Steps w.ahead w w' ∧ w'.step? = none := by
  induction hn : w.ahead generalizing w with
  | zero => exact ⟨w, .refl, step?_eq_none.2 hn⟩
  | succ n ih =>
    cases hstep : w.step? with
    | none => rw [step?_eq_none.1 hstep] at hn; cases hn
    | some next =>
      have hahead : next.ahead = n := Nat.succ.inj ((ahead_step hstep).trans hn)
      obtain ⟨w', hsteps, hend⟩ := ih next hahead
      exact ⟨w', .step hstep hsteps, hend⟩

/-! ### What a walk leaves -/

/-- What a walk will leave: before the first step all is still to be marked, later the text up to
the last character is done. -/
inductive ComesTo : Walk → List Char → Prop
  | front (s : List Char) : ComesTo { text := s } (markBoundaries s)
  | behind {w : Walk} {done rest : List Char} {c : Char} (text : w.text = done ++ c :: rest)
      (place : w.place = done.length + 1) :
      ComesTo w (done ++ markBoundariesFrom w.trail [c] rest)

theorem insertIdx_length (s t : List Char) (c : Char) :
    (s ++ t).insertIdx s.length c = s ++ c :: t := by
  induction s with
  | nil => exact List.insertIdx_zero
  | cons d s ih => exact (List.insertIdx_succ_cons).trans (congrArg (d :: ·) ih)

open ComesTo in
theorem comesTo_step (h : w.ComesTo t) (hstep : w.step? = some w') : w'.ComesTo t := by
  obtain ⟨d, hd, rfl⟩ := Option.map_eq_some_iff.1 hstep
  cases h with
  | front s =>
    cases s with
    | nil => cases hd
    | cons c rest =>
      obtain rfl : c = d := Option.some.inj hd
      exact @behind (pass { text := c :: rest } c) [] rest c rfl rfl
  | @behind _ done rest c htext hplace =>
    have hnext : w.text[w.place]? = rest.head? := by
      rw [htext, hplace, List.getElem?_append_right (Nat.le_succ _), List.head?_eq_getElem?]
      simp
    cases rest with
    | nil => rw [hnext] at hd; cases hd
    | cons e rest =>
      obtain rfl : e = d := Option.some.inj (hnext.symm.trans hd)
      have hbefore : w.text.insertIdx w.place '-' = (done ++ [c, '-']) ++ e :: rest := by
        have hlength : w.place = (done ++ [c]).length := by simp [hplace]
        have hsplit : done ++ c :: e :: rest = (done ++ [c]) ++ e :: rest := by simp
        rw [htext, hlength, hsplit, insertIdx_length]
        simp
      have hbehind : w.text.insertIdx (w.place - 1) '-' = (done ++ ['-', c]) ++ e :: rest := by
        rw [htext, hplace, Nat.add_sub_cancel, insertIdx_length]
        simp
      rw [markBoundariesFrom, pass]
      split_ifs with hsmall hcapitals
      · have hdone := behind (w := ⟨_, w.place + 2, ⟨false, true, w.trail.afterCapital⟩⟩) hbefore
          (by simp [hplace])
        rw [List.append_assoc] at hdone
        exact hdone
      · have hcapital : w.trail.afterCapital = true := by
          simp only [Bool.and_eq_true] at hcapitals
          exact hcapitals.1.1
        have hdone := behind (w := ⟨_, w.place + 2, ⟨true, false, true⟩⟩) hbehind
          (by simp [hplace])
        rw [List.append_assoc] at hdone
        rw [hcapital]
        exact hdone
      · have hsame : w.text = (done ++ [c]) ++ e :: rest := htext.trans (by simp)
        have hdone := behind
          (w := ⟨_, w.place + 1, ⟨isSmallOfPair e, isCapitalOfPair e, w.trail.afterCapital⟩⟩) hsame
          (by simp [hplace])
        rw [List.append_assoc] at hdone
        exact hdone

theorem comesTo_steps (h : w.ComesTo t) (hsteps : Steps n w w') : w'.ComesTo t := by
  induction hsteps with
  | refl => exact h
  | step hstep _ ih => exact ih (comesTo_step h hstep)

/-- At its end a walk has left what it comes to. -/
theorem text_eq_of_comesTo (h : w.ComesTo t) (hend : w.step? = none) : w.text = t := by
  have hahead := step?_eq_none.1 hend
  cases h with
  | front s =>
    obtain rfl : s = [] := List.length_eq_zero_iff.1 hahead
    rfl
  | @behind _ done rest c htext hplace =>
    have hlength : rest.length = 0 := by
      rw [ahead, htext, hplace, List.length_append, List.length_cons] at hahead
      omega
    obtain rfl : rest = [] := List.length_eq_zero_iff.1 hlength
    rw [htext, markBoundariesFrom]

end Walk

/-! ## Places where a word begins -/

/-- A word begins at a capital that follows a small letter, or that stands between a capital and a
small letter. -/
def beginsWord (s : List Char) : Nat → Bool
  | 0 => false
  | k + 1 =>
    s[k + 1]?.any Char.isUpper &&
      (s[k]?.any Char.isLower || (s[k]?.any Char.isUpper && s[k + 2]?.any Char.isLower))

/-- A text with a hyphen before every place where a word begins. -/
def hyphenated (s : List Char) : List Char :=
  s.zipIdx.flatMap fun (c, k) => if beginsWord s k then ['-', c] else [c]

/-- Does a word begin with a character that has the given neighbours? -/
def opensWord (before : Option Char) (c : Char) (after : Option Char) : Bool :=
  c.isUpper && (before.any Char.isLower || (before.any Char.isUpper && after.any Char.isLower))

/-- The rest of a text with its hyphens, behind the given character. -/
def hyphenatedFrom (before : Option Char) : List Char → List Char
  | [] => []
  | c :: rest =>
    (if opensWord before c rest.head? then ['-', c] else [c]) ++ hyphenatedFrom (some c) rest

theorem beginsWord_append (front : List Char) (c : Char) (rest : List Char) :
    beginsWord (front ++ c :: rest) front.length = opensWord front.getLast? c rest.head? := by
  induction front using List.reverseRecOn with
  | nil => simp [beginsWord, opensWord]
  | append_singleton front b _ =>
    have hat (k : Nat) : (front ++ [b] ++ c :: rest)[front.length + k]? = (b :: c :: rest)[k]? := by
      rw [List.append_assoc, List.getElem?_append_right (Nat.le_add_right _ _),
        Nat.add_sub_cancel_left]
      rfl
    rw [List.length_append, List.length_singleton, beginsWord, hat 1, hat 2]
    have hlast := hat 0
    rw [Nat.add_zero] at hlast
    rw [hlast, List.getLast?_concat]
    simp [opensWord, List.head?_eq_getElem?]

/-- Whether a word begins somewhere can be seen from both neighbours. -/
theorem hyphenated_eq_hyphenatedFrom (s : List Char) : hyphenated s = hyphenatedFrom none s := by
  suffices hfrom : ∀ front rest, s = front ++ rest →
      ((rest.zipIdx front.length).flatMap fun (c, k) => if beginsWord s k then ['-', c] else [c]) =
        hyphenatedFrom front.getLast? rest from hfrom [] s rfl
  intro front rest heq
  induction rest generalizing front with
  | nil => rfl
  | cons c rest ih =>
    have hrest := ih (front ++ [c]) (heq.trans (by simp))
    rw [List.getLast?_concat, List.length_append, List.length_singleton] at hrest
    rw [List.zipIdx_cons, List.flatMap_cons, hrest, hyphenatedFrom, ← beginsWord_append, ← heq]

/-! ## What the trail says -/

/-- The case of an ASCII character is that of Unicode. -/
theorem case_of_isAscii {c : Char} (hc : Unicode.isAscii c = true) :
    (Unicode.isUpper c = c.isUpper ∧ Unicode.isLower c = c.isLower) ∧
      isSmallOfPair c = c.isLower ∧ isCapitalOfPair c = c.isUpper ∧
      (c.isUpper = true → c.isLower = false) :=
  forall_ascii
    (P := fun c => (Unicode.isUpper c = c.isUpper ∧ Unicode.isLower c = c.isLower) ∧
      isSmallOfPair c = c.isLower ∧ isCapitalOfPair c = c.isUpper ∧
      (c.isUpper = true → c.isLower = false))
    (by decide +kernel) hc

/-- The trail tells the case of the last character and of the one before. -/
structure CaseTrail.Recalls (trail : CaseTrail) (before : Option Char) (last : Char) : Prop where
  small : trail.afterSmall = last.isLower
  capital : trail.afterCapital = last.isUpper
  capitals : trail.afterTwoCapitals = before.any Char.isUpper

/-- The character held back gets a hyphen of the second kind if it needs one: whether it follows a
small letter was known when it was read. -/
theorem markBoundariesFrom_eq {trail : CaseTrail} {before : Option Char} {last : Char}
    {s : List Char} (h : IsAscii (last :: s)) (htrail : trail.Recalls before last) :
    markBoundariesFrom trail [last] s =
      (if before.any Char.isUpper && last.isUpper && s.head?.any Char.isLower then ['-'] else []) ++
        last :: hyphenatedFrom (some last) s := by
  induction s generalizing trail before last with
  | nil => simp [markBoundariesFrom, hyphenatedFrom]
  | cons c s ih =>
    obtain ⟨hlast, hs⟩ := List.forall_mem_cons.1 h
    obtain ⟨hc, -⟩ := List.forall_mem_cons.1 hs
    obtain ⟨⟨hupper, hlower⟩, hsmall, hcapital, hc⟩ := case_of_isAscii hc
    obtain ⟨-, -, -, hlast⟩ := case_of_isAscii hlast
    have hnext (trail : CaseTrail) (htrail : trail.Recalls (some last) c) :
        markBoundariesFrom trail [c] s =
          (if last.isUpper && c.isUpper && s.head?.any Char.isLower then ['-'] else []) ++
            c :: hyphenatedFrom (some c) s := ih hs htrail
    rw [markBoundariesFrom, hupper, hlower, hsmall, hcapital, htrail.small, htrail.capital,
      htrail.capitals, hyphenatedFrom, opensWord]
    by_cases hfirst : last.isLower = true ∧ c.isUpper = true
    · obtain ⟨hlastLower, hcUpper⟩ := hfirst
      have hlastUpper : last.isUpper = false :=
        Bool.eq_false_iff.2 fun hupper => by simp [hlast hupper] at hlastLower
      have hrest :
          markBoundariesFrom ⟨false, true, false⟩ [c] s = c :: hyphenatedFrom (some c) s := by
        simpa [hlastUpper] using
          hnext ⟨false, true, false⟩ ⟨(hc hcUpper).symm, hcUpper.symm, hlastUpper.symm⟩
      simp [hrest, hlastLower, hlastUpper, hcUpper]
    · by_cases hsecond : (last.isUpper = true ∧ before.any Char.isUpper = true) ∧ c.isLower = true
      · obtain ⟨⟨hlastUpper, hbefore⟩, hcLower⟩ := hsecond
        have hcUpper : c.isUpper = false :=
          Bool.eq_false_iff.2 fun hupper => by simp [hc hupper] at hcLower
        have hrest :
            markBoundariesFrom ⟨true, false, true⟩ [c] s = c :: hyphenatedFrom (some c) s := by
          simpa [hcUpper] using
            hnext ⟨true, false, true⟩ ⟨hcLower.symm, hcUpper.symm, hlastUpper.symm⟩
        simp [hrest, hlastUpper, hbefore, hcLower, hcUpper]
      · have hopen : (c.isUpper &&
            (last.isLower || (last.isUpper && s.head?.any Char.isLower))) =
              (last.isUpper && c.isUpper && s.head?.any Char.isLower) := by
          revert hfirst
          cases last.isLower <;> cases c.isUpper <;> simp
        have hnone : ¬ (before.any Char.isUpper && last.isUpper && c.isLower) = true := by
          simpa [and_comm, and_assoc] using hsecond
        rw [if_neg (by simpa using hfirst), if_neg (by simpa [and_assoc] using hsecond),
          hnext ⟨c.isLower, c.isUpper, last.isUpper⟩ ⟨rfl, rfl, rfl⟩, List.head?_cons,
          Option.any_some, if_neg hnone, Option.any_some, Option.any_some, hopen]
        split_ifs <;> rfl

/-- The first character never gets a hyphen. -/
theorem markBoundaries_cons {c : Char} {s : List Char} (h : IsAscii (c :: s)) :
    markBoundaries (c :: s) = c :: hyphenatedFrom (some c) s := by
  obtain ⟨hc, -⟩ := List.forall_mem_cons.1 h
  obtain ⟨-, hsmall, hcapital, -⟩ := case_of_isAscii hc
  have htrail : CaseTrail.Recalls ⟨isSmallOfPair c, isCapitalOfPair c, false⟩ none c :=
    ⟨hsmall, hcapital, rfl⟩
  simpa [markBoundaries, markBoundariesFrom] using markBoundariesFrom_eq h htrail

/-- The walk along an ASCII text ends, after as many steps as the text has characters, and leaves
the text with a hyphen before exactly those places where a word begins. -/
theorem markBoundaries_eq_hyphenated {s : List Char} (h : IsAscii s) :
    (∃ w, Walk.Steps s.length { text := s } w ∧ w.step? = none ∧ w.text = markBoundaries s) ∧
      markBoundaries s = hyphenated s := by
  constructor
  · obtain ⟨w, hsteps, hend⟩ := Walk.exists_end { text := s }
    have htext : w.text = markBoundaries s :=
      Walk.text_eq_of_comesTo (Walk.comesTo_steps (.front s) hsteps) hend
    exact ⟨w, hsteps, hend, htext⟩
  · rw [hyphenated_eq_hyphenatedFrom]
    cases s with
    | nil => rfl
    | cons c s =>
      rw [markBoundaries_cons h, hyphenatedFrom, opensWord]
      simp

theorem markBoundaries_eq_hyphenated_requests :
    IsAscii "myXMLHttpRequests".toList ∧
      (∃ w, Walk.Steps 17 { text := "myXMLHttpRequests".toList } w ∧ w.step? = none ∧
        w.text = "my-XML-Http-Requests".toList) ∧
      hyphenated "myXMLHttpRequests".toList = "my-XML-Http-Requests".toList := by
  have h : IsAscii "myXMLHttpRequests".toList := by decide +kernel
  have hmarked : markBoundaries "myXMLHttpRequests".toList = "my-XML-Http-Requests".toList := by
    decide +kernel
  obtain ⟨⟨w, hsteps, hend, htext⟩, hrule⟩ := markBoundaries_eq_hyphenated h
  exact ⟨h, ⟨w, hsteps, hend, htext.trans hmarked⟩, hrule.symm.trans hmarked⟩

end ApiModel.Identifier
