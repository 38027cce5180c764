import ApiModel.Identifier.Name
import Mathlib.Data.List.Nodup
import Mathlib.Data.List.TakeWhile
import Mathlib.Tactic.SplitIfs

/-!
# Letters of names

A name in camel case is made by moving separators and changing small letters into capitals and
back. What goes through all of it untouched are the letters and digits in their order, as long as
capitals and small letters are not told apart.

**Theorem (`letters_serviceName`).** The name of the service of an ASCII tag has the letters and
digits of the tag from its first letter on.

Every step of the making is shown to keep the `trace` of a text, of the letters and digits or of any
other kind of characters to which no separator belongs. Beyond ASCII nothing of the kind is true: a
capital may have a small form of two letters, and the small form of the Kelvin sign is a k.
-/

namespace ApiModel.Identifier

/-- The ASCII letters and digits of a text, the letters small. -/
def letters (s : List Char) : List Char := (s.filter Char.isAlphanum).map Char.toLower

/-- The characters of one kind in a text, letters small. -/
def trace (keep : Char → Bool) (s : List Char) : List Char := (s.filter keep).map Char.toLower

/-- Are all characters ASCII? -/
def IsAscii (s : List Char) : Prop := ∀ c ∈ s, Unicode.isAscii c = true

instance (s : List Char) : Decidable (IsAscii s) := List.decidableBAll _ s

/-- The text is ASCII and has the given letters and digits. -/
structure Spells (w s : List Char) : Prop where
  ascii : IsAscii s
  spelled : letters s = w

/-- The text is ASCII and leaves the given trace. -/
structure Traces (keep : Char → Bool) (w s : List Char) : Prop where
  ascii : IsAscii s
  traced : trace keep s = w

/-- A kind of characters to which no separator belongs, and a letter whatever its case is. -/
structure IsCaseless (keep : Char → Bool) : Prop where
  toLower {c : Char} : Unicode.isAscii c = true → trace keep [c.toLower] = trace keep [c]
  toUpper {c : Char} : Unicode.isAscii c = true → trace keep [c.toUpper] = trace keep [c]
  separator {c : Char} : isSeparator c = true → keep c = false

/-! ## Single characters -/

/-- What holds of the first 128 characters holds of ASCII. -/
theorem forall_ascii {P : Char → Prop} (h : ∀ n < 128, P (Char.ofNat n)) {c : Char}
    (hc : Unicode.isAscii c = true) : P c := by
  have hP := h c.toNat (of_decide_eq_true hc)
  rwa [Char.ofNat_toNat] at hP

theorem isAscii_toLower {c : Char} (hc : Unicode.isAscii c = true) :
    Unicode.isAscii c.toLower = true :=
  forall_ascii (P := fun c => Unicode.isAscii c.toLower = true) (by decide +kernel) hc

theorem isAscii_toUpper {c : Char} (hc : Unicode.isAscii c = true) :
    Unicode.isAscii c.toUpper = true :=
  forall_ascii (P := fun c => Unicode.isAscii c.toUpper = true) (by decide +kernel) hc

theorem not_isAlphanum_of_isBlank {c : Char} (hc : Unicode.isAscii c = true)
    (h : Unicode.isBlank c = true) : c.isAlphanum = false :=
  forall_ascii (P := fun c => Unicode.isBlank c = true → c.isAlphanum = false)
    (by decide +kernel) hc h

theorem not_isAlphanum_of_not_isWord {c : Char} (hc : Unicode.isAscii c = true)
    (h : Unicode.isWord c = false) : c.isAlphanum = false :=
  forall_ascii (P := fun c => Unicode.isWord c = false → c.isAlphanum = false)
    (by decide +kernel) hc h

theorem isAscii_of_isAsciiLetter {c : Char} (h : isAsciiLetter c = true) :
    Unicode.isAscii c = true := by
  have hle : c ≤ 'z' := by
    simp only [isAsciiLetter, Bool.or_eq_true, Bool.and_eq_true, decide_eq_true_eq] at h
    rcases h with ⟨-, h⟩ | ⟨-, h⟩
    · exact h
    · exact Char.le_trans h (by decide)
  exact decide_eq_true (Nat.lt_of_le_of_lt (UInt32.le_iff_toNat_le.1 hle) (by decide))

theorem letters_of_isAsciiLetter {c : Char} (h : isAsciiLetter c = true) : letters [c] ≠ [] :=
  forall_ascii (P := fun c => isAsciiLetter c = true → letters [c] ≠ []) (by decide +kernel)
    (isAscii_of_isAsciiLetter h) h

theorem isAscii_of_isSeparator {c : Char} (h : isSeparator c = true) :
    Unicode.isAscii c = true := by
  simp only [isSeparator, Bool.or_eq_true, beq_iff_eq] at h
  rcases h with ((rfl | rfl) | rfl) | rfl <;> rfl

theorem caseless_isAlphanum : IsCaseless Char.isAlphanum where
  toLower := forall_ascii
    (P := fun c => trace Char.isAlphanum [c.toLower] = trace Char.isAlphanum [c])
    (by decide +kernel)
  toUpper := forall_ascii
    (P := fun c => trace Char.isAlphanum [c.toUpper] = trace Char.isAlphanum [c])
    (by decide +kernel)
  separator h := forall_ascii (P := fun c => isSeparator c = true → c.isAlphanum = false)
    (by decide +kernel) (isAscii_of_isSeparator h) h

/-! ## Texts -/

section Trace

variable {keep : Char → Bool} {w s t : List Char} {c : Char}

theorem trace_append (s t : List Char) : trace keep (s ++ t) = trace keep s ++ trace keep t := by
  simp only [trace, List.filter_append, List.map_append]

theorem trace_cons (c : Char) (s : List Char) :
    trace keep (c :: s) = trace keep [c] ++ trace keep s :=
  trace_append [c] s

theorem trace_eq_nil (h : ∀ c ∈ s, keep c = false) : trace keep s = [] := by
  rw [trace, List.filter_eq_nil_iff.2 fun c hc => by rw [h c hc]; exact Bool.false_ne_true,
    List.map_nil]

theorem traces_self (h : IsAscii s) : Traces keep (trace keep s) s := ⟨h, rfl⟩

theorem Traces.append {u v : List Char} (hs : Traces keep u s) (ht : Traces keep v t) :
    Traces keep (u ++ v) (s ++ t) :=
  ⟨List.forall_mem_append.2 ⟨hs.ascii, ht.ascii⟩, by rw [trace_append, hs.traced, ht.traced]⟩

/-- What is dropped in front leaves no trace. -/
theorem Traces.dropWhile {p : Char → Bool} (h : Traces keep w s)
    (hp : ∀ c, Unicode.isAscii c = true → p c = true → keep c = false) :
    Traces keep w (s.dropWhile p) := by
  obtain ⟨hascii, rfl⟩ := h
  refine ⟨fun c hc => hascii c ((List.dropWhile_sublist p).subset hc), ?_⟩
  have hfront : trace keep (s.takeWhile p) = [] := trace_eq_nil fun c hc =>
    hp c (hascii c ((List.takeWhile_sublist p).subset hc)) (List.mem_takeWhile_imp hc)
  calc trace keep (s.dropWhile p)
      = trace keep (s.takeWhile p) ++ trace keep (s.dropWhile p) := by rw [hfront, List.nil_append]
    _ = trace keep s := by rw [← trace_append, List.takeWhile_append_dropWhile]

theorem Traces.reverse (h : Traces keep w s) : Traces keep w.reverse s.reverse := by
  obtain ⟨hascii, rfl⟩ := h
  exact ⟨fun c hc => hascii c (List.mem_reverse.1 hc), by simp [trace]⟩

/-- What is replaced by hyphens leaves no trace. -/
theorem traces_squeeze {p : Char → Bool} (hkeep : IsCaseless keep) (h : IsAscii s)
    (hp : ∀ c, Unicode.isAscii c = true → p c = true → keep c = false) :
    Traces keep (trace keep s) (Text.squeeze p '-' s) := by
  have hhyphen {w t : List Char} (ht : Traces keep w t) : Traces keep w ('-' :: t) := by
    have hnone : trace keep ['-'] = [] :=
      trace_eq_nil (List.forall_mem_singleton.2 (hkeep.separator rfl))
    exact ⟨List.forall_mem_cons.2 ⟨rfl, ht.ascii⟩, by
      rw [trace_cons, hnone, List.nil_append, ht.traced]⟩
  suffices hgo : ∀ inRun, Traces keep (trace keep s) (Text.squeeze.go p '-' inRun s) from hgo false
  induction s with
  | nil => exact fun _ => traces_self h
  | cons c s ih =>
    intro inRun
    obtain ⟨hc, hs⟩ := List.forall_mem_cons.1 h
    have hmark (hpc : p c = true) : trace keep [c] = [] :=
      trace_eq_nil (List.forall_mem_singleton.2 (hp c hc hpc))
    rw [trace_cons, Text.squeeze.go]
    split_ifs with hpc
    · rw [hmark hpc]
      exact ih hs true
    · rw [hmark hpc]
      exact hhyphen (ih hs true)
    · exact (traces_self (s := [c]) (List.forall_mem_singleton.2 hc)).append (ih hs false)

end Trace

/-! ## The steps of camel case -/

/-- The small form of an ASCII text, character by character. -/
theorem lower_eq_map {s : List Char} (h : IsAscii s) : Unicode.lower s = s.map Char.toLower := by
  suffices hfrom : ∀ before, Unicode.lowerFrom before s = s.map Char.toLower from hfrom []
  induction s with
  | nil => exact fun _ => rfl
  | cons c s ih =>
    intro before
    obtain ⟨hc, hs⟩ := List.forall_mem_cons.1 h
    have hsigma : (c == Unicode.capitalSigma) = false := by
      refine beq_false_of_ne fun heq => ?_
      rw [heq] at hc
      cases hc
    rw [Unicode.lowerFrom, hsigma, ih hs, Unicode.lowerChar, if_pos hc]
    rfl

/-- The words of a text in small letters, with separators between them. -/
def smallWords (s : List Char) : List Char :=
  Unicode.lower ((if Unicode.lower s == s then s else markBoundaries s).dropWhile isSeparator)

/-- A text of two characters or more is split into words, and these are joined. -/
theorem camelCase_cases (pascal : Bool) (s : List Char) :
    (Text.trim s = [] ∧ camelCase pascal s = []) ∨
      (∃ c, Text.trim s = [c] ∧
        camelCase pascal s = if pascal then Unicode.upperChar c else Unicode.lower [c]) ∨
      (2 ≤ (Text.trim s).length ∧
        camelCase pascal s = capitalAfterDigits false (joinWords
          (if pascal then capitalizeFirst (smallWords (Text.trim s))
          else smallWords (Text.trim s)))) := by
  unfold camelCase
  split
  · rename_i hnil
    exact .inl ⟨hnil, rfl⟩
  · rename_i c hsingle
    exact .inr (.inl ⟨c, hsingle, rfl⟩)
  · rename_i hnil hsingle
    refine .inr (.inr ⟨?_, rfl⟩)
    match htrim : Text.trim s with
    | [] => exact absurd htrim hnil
    | [c] => exact absurd htrim (hsingle c)
    | _ :: _ :: _ => exact Nat.le_add_left 2 _

theorem isSeparator_of_mem_looseSeparators {run : List Char}
    (h : ∀ c ∈ run, isSeparator c = true) : ∀ c ∈ looseSeparators run, isSeparator c = true := by
  have htail : ∀ c ∈ (run.reverse.takeWhile (· != '_')).reverse, isSeparator c = true :=
    fun c hc => h c (List.mem_reverse.1 ((List.takeWhile_sublist _).subset (List.mem_reverse.1 hc)))
  rw [looseSeparators]
  split_ifs
  · exact List.forall_mem_cons.2 ⟨rfl, htail⟩
  · exact h

/-! ## What camel case keeps -/

namespace IsCaseless

variable {keep : Char → Bool} (hkeep : IsCaseless keep) {w s run pending : List Char} {c : Char}

include hkeep

/-- Separators leave no trace. -/
theorem traces_nil (h : ∀ c ∈ s, isSeparator c = true) : Traces keep [] s :=
  ⟨fun c hc => isAscii_of_isSeparator (h c hc), trace_eq_nil fun c hc => hkeep.separator (h c hc)⟩

theorem cons_hyphen (h : Traces keep w s) : Traces keep w ('-' :: s) :=
  (hkeep.traces_nil (s := ['-']) (by simp [isSeparator])).append h

theorem lowerChar (hc : Unicode.isAscii c = true) :
    Traces keep (trace keep [c]) (Unicode.lowerChar c) := by
  rw [Unicode.lowerChar, if_pos hc]
  exact ⟨List.forall_mem_singleton.2 (isAscii_toLower hc), hkeep.toLower hc⟩

theorem upperChar (hc : Unicode.isAscii c = true) :
    Traces keep (trace keep [c]) (Unicode.upperChar c) := by
  rw [Unicode.upperChar, if_pos hc]
  exact ⟨List.forall_mem_singleton.2 (isAscii_toUpper hc), hkeep.toUpper hc⟩

theorem lower (h : Traces keep w s) : Traces keep w (Unicode.lower s) := by
  obtain ⟨hascii, rfl⟩ := h
  rw [lower_eq_map hascii]
  induction s with
  | nil => exact traces_self hascii
  | cons c s ih =>
    obtain ⟨hc, hs⟩ := List.forall_mem_cons.1 hascii
    rw [trace_cons]
    refine Traces.append (t := s.map Char.toLower) ⟨?_, hkeep.toLower hc⟩ (ih hs)
    exact List.forall_mem_singleton.2 (isAscii_toLower hc)

theorem markBoundariesFrom (hpending : IsAscii pending) (h : IsAscii s) (trail : CaseTrail) :
    Traces keep (trace keep pending ++ trace keep s) (markBoundariesFrom trail pending s) := by
  induction s generalizing trail pending with
  | nil =>
    rw [Identifier.markBoundariesFrom]
    exact ⟨hpending, (List.append_nil _).symm⟩
  | cons c s ih =>
    obtain ⟨hc, hs⟩ := List.forall_mem_cons.1 h
    have hrest (trail : CaseTrail) :
        Traces keep (trace keep [c] ++ trace keep s) (Identifier.markBoundariesFrom trail [c] s) :=
      ih (List.forall_mem_singleton.2 hc) hs trail
    rw [trace_cons, Identifier.markBoundariesFrom]
    split_ifs
    · exact (traces_self hpending).append (hkeep.cons_hyphen (hrest _))
    · exact hkeep.cons_hyphen ((traces_self hpending).append (hrest _))
    · exact (traces_self hpending).append (hrest _)

theorem markBoundaries (h : Traces keep w s) : Traces keep w (markBoundaries s) := by
  obtain ⟨hascii, rfl⟩ := h
  exact hkeep.markBoundariesFrom (fun _ hmem => absurd hmem List.not_mem_nil) hascii {}

theorem smallWords (h : Traces keep w s) : Traces keep w (smallWords s) := by
  have hmarked :
      Traces keep w (if Unicode.lower s == s then s else Identifier.markBoundaries s) := by
    split_ifs
    · exact h
    · exact hkeep.markBoundaries h
  exact hkeep.lower (hmarked.dropWhile fun c _ hc => hkeep.separator hc)

theorem joinWordsFrom (hrun : ∀ c ∈ run, isSeparator c = true) (h : IsAscii s) :
    Traces keep (trace keep s) (joinWordsFrom run s) := by
  induction s generalizing run with
  | nil => exact traces_self h
  | cons c s ih =>
    obtain ⟨hc, hs⟩ := List.forall_mem_cons.1 h
    have hrest : Traces keep (trace keep s) (Identifier.joinWordsFrom [] s) :=
      ih (fun _ hmem => absurd hmem List.not_mem_nil) hs
    have hself : Traces keep (trace keep [c]) [c] := traces_self (List.forall_mem_singleton.2 hc)
    rw [trace_cons, Identifier.joinWordsFrom]
    split_ifs with hseparator
    · have hnone := hkeep.traces_nil (s := [c]) (List.forall_mem_singleton.2 hseparator)
      rw [hnone.traced, List.nil_append]
      exact ih (List.forall_mem_append.2 ⟨hrun, List.forall_mem_singleton.2 hseparator⟩) hs
    · exact hself.append hrest
    · exact (hkeep.upperChar hc).append hrest
    · have hloose := hkeep.traces_nil (isSeparator_of_mem_looseSeparators hrun)
      exact hloose.append (hself.append hrest)

theorem capitalAfterDigits (h : IsAscii s) (afterDigit : Bool) :
    Traces keep (trace keep s) (capitalAfterDigits afterDigit s) := by
  induction s generalizing afterDigit with
  | nil => exact traces_self h
  | cons c s ih =>
    obtain ⟨hc, hs⟩ := List.forall_mem_cons.1 h
    rw [trace_cons, Identifier.capitalAfterDigits]
    refine Traces.append ?_ (ih hs _)
    split_ifs
    · exact hkeep.upperChar hc
    · exact traces_self (List.forall_mem_singleton.2 hc)

theorem capitalizeFirst (h : Traces keep w s) : Traces keep w (capitalizeFirst s) := by
  obtain ⟨hascii, rfl⟩ := h
  cases s with
  | nil => exact traces_self hascii
  | cons c s =>
    obtain ⟨hc, hs⟩ := List.forall_mem_cons.1 hascii
    rw [trace_cons]
    exact (hkeep.upperChar hc).append (traces_self hs)

theorem joined (h : Traces keep w s) :
    Traces keep w (Identifier.capitalAfterDigits false (joinWords s)) := by
  obtain ⟨hascii, rfl⟩ := h
  have hjoined : Traces keep (trace keep s) (joinWords s) :=
    hkeep.joinWordsFrom (fun _ hmem => absurd hmem List.not_mem_nil) hascii
  rw [← hjoined.traced]
  exact hkeep.capitalAfterDigits hjoined.ascii false

/-- A name in camel case leaves the trace of the text without the white space around it. -/
theorem camelCase (h : Traces keep w (Text.trim s)) (pascal : Bool) :
    Traces keep w (camelCase pascal s) := by
  rcases camelCase_cases pascal s with ⟨hnil, heq⟩ | ⟨c, hsingle, heq⟩ | ⟨-, heq⟩
  · rwa [heq, ← hnil]
  · rw [heq]
    rw [hsingle] at h
    split_ifs
    · obtain ⟨hascii, rfl⟩ := h
      exact hkeep.upperChar (hascii c List.mem_cons_self)
    · exact hkeep.lower h
  · rw [heq]
    refine hkeep.joined ?_
    split_ifs
    · exact hkeep.capitalizeFirst (hkeep.smallWords h)
    · exact hkeep.smallWords h

end IsCaseless

/-! ## Names of services -/

theorem Spells.traces {w s : List Char} (h : Spells w s) : Traces Char.isAlphanum w s :=
  ⟨h.ascii, h.spelled⟩

theorem Traces.spells {w s : List Char} (h : Traces Char.isAlphanum w s) : Spells w s :=
  ⟨h.ascii, h.traced⟩

/-- White space has no letters. -/
theorem Spells.trim {w s : List Char} (h : Spells w s) : Spells w (Text.trim s) := by
  have hblank (c : Char) := not_isAlphanum_of_isBlank (c := c)
  have hback := ((h.traces.dropWhile hblank).reverse.dropWhile hblank).reverse
  rw [List.reverse_reverse] at hback
  exact hback.spells

/-- A name in camel case has the letters of the text. -/
theorem spells_camelCase {w s : List Char} (h : Spells w s) (pascal : Bool) :
    Spells w (camelCase pascal s) :=
  (caseless_isAlphanum.camelCase h.trim.traces pascal).spells

/-- What is cleaned away has no letters. -/
theorem spells_clean {s : List Char} (h : IsAscii s) :
    Spells (letters (s.dropWhile fun c => !isAsciiLetter c)) (clean s) := by
  have htail : IsAscii (s.dropWhile fun c => !isAsciiLetter c) :=
    fun c hc => h c ((List.dropWhile_sublist _).subset hc)
  refine (traces_squeeze caseless_isAlphanum htail fun c hc hmark => ?_).spells
  simp only [Bool.not_eq_true', Bool.or_eq_false_iff] at hmark
  exact not_isAlphanum_of_not_isWord hc hmark.1

/-- The letters and digits of a tag from its first letter on, and those of the default tag if it
has none. -/
def serviceLetters (tag : String) : List Char :=
  let w := letters (tag.toList.dropWhile fun c => !isAsciiLetter c)
  if w.isEmpty then "default".toList else w

theorem isAsciiLetter_of_dropWhile {c : Char} {s t : List Char}
    (h : (s.dropWhile fun c => !isAsciiLetter c) = c :: t) : isAsciiLetter c = true := by
  have hhead := List.head?_dropWhile_not (fun c => !isAsciiLetter c) s
  rw [h] at hhead
  simpa using hhead

/-- A text that has no letters from its first letter on is cleaned away. -/
theorem clean_eq_nil {s : List Char}
    (h : letters (s.dropWhile fun c => !isAsciiLetter c) = []) : clean s = [] := by
  rw [clean]
  cases hdrop : s.dropWhile fun c => !isAsciiLetter c with
  | nil => rfl
  | cons c t =>
    have hletters : letters [c] ++ letters t = [] := by
      rw [hdrop] at h
      exact (trace_cons c t).symm.trans h
    exact absurd (List.append_eq_nil_iff.1 hletters).1
      (letters_of_isAsciiLetter (isAsciiLetter_of_dropWhile hdrop))

/-- The name of the service of an ASCII tag has the letters of the tag. -/
theorem letters_serviceName {tag : String} (h : IsAscii tag.toList) :
    letters (serviceName tag).toList = serviceLetters tag := by
  have hcamel := (spells_camelCase (spells_clean h) true).spelled
  rw [serviceName, serviceLetters]
  split_ifs with hname hnone hnone
  · rfl
  · rw [List.isEmpty_iff.1 hname] at hcamel
    exact absurd (List.isEmpty_iff.2 hcamel.symm) hnone
  · rw [clean_eq_nil (List.isEmpty_iff.1 hnone)] at hname
    exact absurd rfl hname
  · rw [String.toList_ofList, hcamel]

/-- ASCII tags that differ in their letters name different services. -/
theorem nodup_serviceNames {tags : List String} (hascii : ∀ tag ∈ tags, IsAscii tag.toList)
    (h : (tags.map serviceLetters).Nodup) : (tags.map serviceName).Nodup := by
  have hspelled : (tags.map serviceName).map (fun name => letters name.toList) =
      tags.map serviceLetters := by
    rw [List.map_map]
    refine List.map_congr_left fun tag htag => ?_
    rw [Function.comp_apply, letters_serviceName (hascii tag htag)]
  rw [← hspelled] at h
  exact h.of_map

end ApiModel.Identifier
