import ApiModel.Operation.Service
import ApiModel.Proofs.Identifier.Letters
import ApiModel.Proofs.Text.Cut

/-!
# When the name of an operation is a name

The name of an operation comes from its identifier, or from its method and path if it has none.
Camel case takes away white space at the ends and separators, and nothing else: a character that is
neither letter nor digit stays in the name. Such characters are replaced in an identifier before,
but not in a path.

**Theorem (`isName_operationName_iff`).** The name of an operation with an ASCII identifier is a
letter with letters and digits behind it exactly if the identifier has a letter. The name that is
made from a method and an ASCII path is one exactly if the words of the path are letters, digits and
separators.

Camel case keeps everything but separators (`caseless_isSolid`), so both texts, the one before and
the one after it, have characters in them that are no part of a name, or neither has.
-/

namespace ApiModel.Identifier

/-- A letter, and letters and digits behind it, all of them ASCII. -/
def IsName : List Char → Prop
  | [] => False
  | c :: rest => isAsciiLetter c = true ∧ ∀ d ∈ rest, d.isAlphanum = true

instance : DecidablePred IsName
  | [] => inferInstanceAs (Decidable False)
  | _ :: rest => @instDecidableAnd _ _ _ (List.decidableBAll _ rest)

/-- No separator. -/
def isSolid (c : Char) : Bool := !isSeparator c

/-- An ASCII letter or digit, or a separator: what joining words leaves nothing else of. -/
def isJoinable (c : Char) : Bool := c.isAlphanum || isSeparator c

/-- Are all characters joinable? -/
def AllJoinable (s : List Char) : Prop := ∀ c ∈ s, isJoinable c = true

instance (s : List Char) : Decidable (AllJoinable s) := List.decidableBAll _ s

/-! ## Characters -/

theorem caseless_isSolid : IsCaseless isSolid where
  toLower := forall_ascii (P := fun c => trace isSolid [c.toLower] = trace isSolid [c])
    (by decide +kernel)
  toUpper := forall_ascii (P := fun c => trace isSolid [c.toUpper] = trace isSolid [c])
    (by decide +kernel)
  separator h := by rw [isSolid, h]; rfl

/-- A letter is one of all scripts too, and no white space. -/
theorem isAlphanum_of_isAsciiLetter {c : Char} (h : isAsciiLetter c = true) :
    c.isAlphanum = true ∧ Unicode.isWord c = true ∧ Unicode.isBlank c = false :=
  forall_ascii
    (P := fun c => isAsciiLetter c = true →
      c.isAlphanum = true ∧ Unicode.isWord c = true ∧ Unicode.isBlank c = false)
    (by decide +kernel) (isAscii_of_isAsciiLetter h) h

theorem isAsciiLetter_toLower {c : Char} (hc : Unicode.isAscii c = true) :
    isAsciiLetter c.toLower = isAsciiLetter c :=
  forall_ascii (P := fun c => isAsciiLetter c.toLower = isAsciiLetter c) (by decide +kernel) hc

/-- So is a digit, and their capitals are letters and digits. -/
theorem isLetterOrDigit_of_isAlphanum {c : Char} (hc : Unicode.isAscii c = true)
    (h : c.isAlphanum = true) :
    isLetterOrDigit c = true ∧ isSolid c = true ∧
      ∀ d ∈ Unicode.upperChar c, d.isAlphanum = true := by
  rw [← List.all_eq_true]
  exact forall_ascii
    (P := fun c => c.isAlphanum = true → isLetterOrDigit c = true ∧ isSolid c = true ∧
      (Unicode.upperChar c).all Char.isAlphanum = true)
    (by decide +kernel) hc h

/-- Joinable is what is a separator or has a small letter or digit. -/
theorem isJoinable_iff {c : Char} (hc : Unicode.isAscii c = true) :
    (isJoinable c = true ↔ (isSolid c = true → c.toLower.isAlphanum = true)) ∧
      (Unicode.isWord c = true ∨ c = '-' → isJoinable c = true) :=
  forall_ascii
    (P := fun c => (isJoinable c = true ↔ (isSolid c = true → c.toLower.isAlphanum = true)) ∧
      (Unicode.isWord c = true ∨ c = '-' → isJoinable c = true))
    (by decide +kernel) hc

theorem isAlphanum_of_isJoinable {c : Char} (h : isJoinable c = true)
    (hseparator : ¬ isSeparator c = true) : c.isAlphanum = true :=
  (Bool.or_eq_true_iff.1 h).resolve_right hseparator

theorem isJoinable_of_isAsciiLetter {c : Char} (h : isAsciiLetter c = true) :
    isJoinable c = true := by
  rw [isJoinable, (isAlphanum_of_isAsciiLetter h).1, Bool.true_or]

/-! ## Texts -/

section Joinable

variable {s t run : List Char} {c : Char}

/-- Whether a text is joinable can be seen from what is no separator in it. -/
theorem isJoinable_iff_trace (h : IsAscii s) :
    AllJoinable s ↔ ∀ c ∈ trace isSolid s, c.isAlphanum = true := by
  rw [trace, List.forall_mem_map]
  refine ⟨fun hs c hc => ?_, fun hs c hc => ?_⟩
  · obtain ⟨hmem, hsolid⟩ := List.mem_filter.1 hc
    exact (isJoinable_iff (h c hmem)).1.1 (hs c hmem) hsolid
  · exact (isJoinable_iff (h c hc)).1.2 fun hsolid => hs c (List.mem_filter.2 ⟨hc, hsolid⟩)

theorem isJoinable_of_traces (hs : IsAscii s) (h : Traces isSolid (trace isSolid s) t)
    (hjoinable : AllJoinable s) : AllJoinable t := by
  rw [isJoinable_iff_trace h.ascii, h.traced]
  exact (isJoinable_iff_trace hs).1 hjoinable

theorem trace_of_isAlphanum (h : IsAscii s) (hs : ∀ c ∈ s, c.isAlphanum = true) :
    trace isSolid s = s.map Char.toLower := by
  have hsolid : ∀ c ∈ s, isSolid c = true :=
    fun c hc => (isLetterOrDigit_of_isAlphanum (h c hc) (hs c hc)).2.1
  rw [trace, List.filter_eq_self.2 hsolid]

theorem IsName.isAlphanum (h : IsName s) : ∀ c ∈ s, c.isAlphanum = true := by
  cases s with
  | nil => cases h
  | cons c s => exact List.forall_mem_cons.2 ⟨(isAlphanum_of_isAsciiLetter h.1).1, h.2⟩

/-- Joining words leaves letters and digits only. -/
theorem isAlphanum_joinWordsFrom (h : IsAscii s) (hs : AllJoinable s) :
    ∀ c ∈ joinWordsFrom run s, c.isAlphanum = true := by
  induction s generalizing run with
  | nil => exact fun c hc => absurd hc List.not_mem_nil
  | cons c s ih =>
    obtain ⟨hc, hrest⟩ := List.forall_mem_cons.1 h
    obtain ⟨hjoinable, hrestJoinable⟩ := List.forall_mem_cons.1 hs
    rw [joinWordsFrom]
    split_ifs with hseparator hrun hletter
    · exact ih hrest hrestJoinable
    · have halphanum := isAlphanum_of_isJoinable hjoinable hseparator
      exact List.forall_mem_cons.2 ⟨halphanum, ih hrest hrestJoinable⟩
    · have halphanum := isAlphanum_of_isJoinable hjoinable hseparator
      exact List.forall_mem_append.2
        ⟨(isLetterOrDigit_of_isAlphanum hc halphanum).2.2, ih hrest hrestJoinable⟩
    · have halphanum := isAlphanum_of_isJoinable hjoinable hseparator
      exact absurd (isLetterOrDigit_of_isAlphanum hc halphanum).1 hletter

theorem isAlphanum_capitalAfterDigits (h : IsAscii s) (hs : ∀ c ∈ s, c.isAlphanum = true)
    (afterDigit : Bool) : ∀ c ∈ capitalAfterDigits afterDigit s, c.isAlphanum = true := by
  induction s generalizing afterDigit with
  | nil => exact fun c hc => absurd hc List.not_mem_nil
  | cons c s ih =>
    obtain ⟨hc, hrest⟩ := List.forall_mem_cons.1 h
    obtain ⟨halphanum, hrestAlphanum⟩ := List.forall_mem_cons.1 hs
    rw [capitalAfterDigits, List.forall_mem_append]
    refine ⟨?_, ih hrest hrestAlphanum _⟩
    split_ifs
    · exact (isLetterOrDigit_of_isAlphanum hc halphanum).2.2
    · exact List.forall_mem_singleton.2 halphanum

/-- Of letters, digits and separators behind a letter, letters and digits are left. -/
theorem isAlphanum_camelCase (h : IsAscii (Text.trim s)) (htrim : Text.trim s = c :: t)
    (hletter : isAsciiLetter c = true) (hs : AllJoinable (Text.trim s)) (pascal : Bool) :
    ∀ c ∈ camelCase pascal s, c.isAlphanum = true := by
  rcases camelCase_cases pascal s with ⟨hnil, -⟩ | ⟨d, hsingle, heq⟩ | ⟨-, heq⟩
  · rw [hnil] at htrim
    cases htrim
  · obtain ⟨rfl, -⟩ := List.cons.inj (htrim.symm.trans hsingle)
    rw [hsingle] at h
    rw [heq]
    split_ifs
    · exact (isLetterOrDigit_of_isAlphanum (isAscii_of_isAsciiLetter hletter)
        (isAlphanum_of_isAsciiLetter hletter).1).2.2
    · have hlower : isAsciiLetter c.toLower = true := by
        rwa [isAsciiLetter_toLower (isAscii_of_isAsciiLetter hletter)]
      rw [lower_eq_map h]
      exact List.forall_mem_singleton.2 (isAlphanum_of_isAsciiLetter hlower).1
  · have hwords : Traces isSolid (trace isSolid (Text.trim s)) (smallWords (Text.trim s)) :=
      caseless_isSolid.smallWords (traces_self h)
    have hheaded : Traces isSolid (trace isSolid (Text.trim s))
        (if pascal then capitalizeFirst (smallWords (Text.trim s))
          else smallWords (Text.trim s)) := by
      split_ifs
      · exact caseless_isSolid.capitalizeFirst hwords
      · exact hwords
    have hrun : ∀ c ∈ ([] : List Char), isSeparator c = true := fun _ h => absurd h List.not_mem_nil
    have hascii := (caseless_isSolid.joinWordsFrom hrun hheaded.ascii).ascii
    rw [heq]
    exact isAlphanum_capitalAfterDigits hascii
      (isAlphanum_joinWordsFrom hheaded.ascii (isJoinable_of_traces h hheaded hs)) false

/-- What comes of a text that begins with a letter is a name if the text has letters, digits and
separators only. -/
theorem isName_camelCase_iff (h : IsAscii (Text.trim s)) (htrim : Text.trim s = c :: t)
    (hletter : isAsciiLetter c = true) (pascal : Bool) :
    IsName (camelCase pascal s) ↔ AllJoinable (Text.trim s) := by
  have hcamel := caseless_isSolid.camelCase (traces_self h) pascal
  constructor
  · intro hname
    rw [isJoinable_iff_trace h, ← hcamel.traced, ← isJoinable_iff_trace hcamel.ascii]
    exact fun c hc => Bool.or_eq_true_iff.2 (.inl (hname.isAlphanum c hc))
  · intro hs
    have halphanum := isAlphanum_camelCase h htrim hletter hs pascal
    have hascii : IsAscii [c] := List.forall_mem_singleton.2 (isAscii_of_isAsciiLetter hletter)
    have hsmall : (camelCase pascal s).map Char.toLower = c.toLower :: trace isSolid t := by
      rw [← trace_of_isAlphanum hcamel.ascii halphanum, hcamel.traced, htrim, trace_cons,
        trace_of_isAlphanum hascii
          (List.forall_mem_singleton.2 (isAlphanum_of_isAsciiLetter hletter).1)]
      rfl
    match hresult : camelCase pascal s with
    | [] => rw [hresult] at hsmall; cases hsmall
    | d :: rest =>
      rw [hresult] at halphanum hcamel hsmall
      obtain ⟨hd, -⟩ := List.cons.inj hsmall
      obtain ⟨hdAscii, -⟩ := List.forall_mem_cons.1 hcamel.ascii
      refine ⟨?_, (List.forall_mem_cons.1 halphanum).2⟩
      rw [← isAsciiLetter_toLower hdAscii, hd,
        isAsciiLetter_toLower (isAscii_of_isAsciiLetter hletter)]
      exact hletter

end Joinable

/-! ## Names from identifiers -/

theorem trim_cons_of_isAsciiLetter {c : Char} (h : isAsciiLetter c = true) (s : List Char) :
    Text.trim (c :: s) = c :: Text.dropTail Unicode.isBlank s := by
  have hblank := (isAlphanum_of_isAsciiLetter h).2.2
  rw [Text.trim, List.dropWhile_cons_of_neg (by simp [hblank])]
  exact Text.dropTail_append hblank [] s

theorem isJoinable_clean {s : List Char} (h : IsAscii s) : AllJoinable (clean s) := by
  intro c hc
  rcases Text.of_mem_squeeze hc with rfl | ⟨hmem, hword⟩
  · rfl
  · rw [Bool.not_eq_false', Bool.or_eq_true, beq_iff_eq] at hword
    exact (isJoinable_iff (h c ((List.dropWhile_sublist _).subset hmem))).2 hword

/-- The first letter of a text is in front when the text is cleaned. -/
theorem exists_trim_clean {s t : List Char} {c : Char}
    (h : (s.dropWhile fun c => !isAsciiLetter c) = c :: t) : ∃ u, Text.trim (clean s) = c :: u := by
  have hletter := isAsciiLetter_of_dropWhile h
  have hword : Unicode.isWord c = true := (isAlphanum_of_isAsciiLetter hletter).2.1
  rw [clean, h, Text.squeeze_cons (by rw [hword]; rfl)]
  exact ⟨_, trim_cons_of_isAsciiLetter hletter _⟩

theorem isAscii_trim_clean {s : List Char} (h : IsAscii s) : IsAscii (Text.trim (clean s)) :=
  fun c hc => (spells_clean h).ascii c (Text.mem_of_mem_trim hc)

/-- A text gives a name if it has a letter. -/
theorem isName_clean_iff {s : List Char} (h : IsAscii s) (pascal : Bool) :
    IsName (camelCase pascal (clean s)) ↔ ∃ c ∈ s, isAsciiLetter c = true := by
  match hdrop : s.dropWhile fun c => !isAsciiLetter c with
  | [] =>
    have hnone : ∀ c ∈ s, isAsciiLetter c = false := by
      simpa using List.dropWhile_eq_nil_iff.1 hdrop
    rw [clean, hdrop]
    refine iff_of_false (fun hname => hname) ?_
    rintro ⟨c, hc, hletter⟩
    rw [hnone c hc] at hletter
    cases hletter
  | c :: t =>
    have hletter := isAsciiLetter_of_dropWhile hdrop
    have hc : c ∈ s := (List.dropWhile_sublist _).subset (hdrop ▸ List.mem_cons_self)
    obtain ⟨u, htrim⟩ := exists_trim_clean hdrop
    have hjoinable : AllJoinable (Text.trim (clean s)) :=
      fun d hd => isJoinable_clean h d (Text.mem_of_mem_trim hd)
    exact iff_of_true
      ((isName_camelCase_iff (isAscii_trim_clean h) htrim hletter pascal).2 hjoinable)
      ⟨c, hc, hletter⟩

/-! ## Names from methods and paths -/

theorem isAscii_pathWords {url : List Char} (h : IsAscii url) : IsAscii (pathWords url) := by
  intro c hc
  obtain ⟨d, hd, rfl⟩ := List.mem_map.1 hc
  split_ifs with hslash
  · rfl
  · rcases Text.of_mem_join (Text.mem_of_mem_replaceBraced hd) with hd | ⟨segment, hsegment, hd⟩
    · obtain rfl := List.mem_singleton.1 hd
      rfl
    · have hpiece : segment ∈ Text.split '/' url := by
        rcases List.mem_append.1 hsegment with hkept | hlast
        · exact (List.dropLast_sublist _).subset (List.mem_of_mem_filter hkept)
        · exact List.mem_of_getLast? (Option.mem_toList.1 hlast)
      exact h d (Text.mem_of_mem_split hpiece hd)

/-- Every method is a word of letters. -/
theorem exists_letter_of_mem_methods {method : String} (h : method ∈ Operation.methods) :
    ∃ c m, method.toList = c :: m ∧ isAsciiLetter c = true ∧ ∀ d ∈ m, isAsciiLetter d = true := by
  have hmethods : ∀ method ∈ Operation.methods,
      method.toList ≠ [] ∧ method.toList.all isAsciiLetter = true := by decide +kernel
  obtain ⟨hne, hletters⟩ := hmethods method h
  obtain ⟨c, m, heq⟩ := List.exists_cons_of_ne_nil hne
  rw [heq, List.all_eq_true, List.forall_mem_cons] at hletters
  exact ⟨c, m, heq, hletters⟩

/-- Of the words of a path the white space behind them goes, and the rest has to be joinable. -/
theorem isName_route_iff {method : String} (hmethod : method ∈ Operation.methods) {w : List Char}
    (h : IsAscii w) :
    IsName (camelCase false (method.toList ++ '-' :: w)) ↔
      AllJoinable (Text.dropTail Unicode.isBlank w) := by
  obtain ⟨c, m, heq, hletter, hletters⟩ := exists_letter_of_mem_methods hmethod
  have htrim : Text.trim (method.toList ++ '-' :: w) =
      c :: (m ++ '-' :: Text.dropTail Unicode.isBlank w) := by
    rw [heq, List.cons_append, trim_cons_of_isAsciiLetter hletter]
    have htail := Text.dropTail_append (p := Unicode.isBlank) (c := '-') rfl m w
    rw [List.append_assoc, List.append_assoc] at htail
    exact congrArg (c :: ·) htail
  have hascii : IsAscii (Text.trim (method.toList ++ '-' :: w)) := by
    intro d hd
    have hmem := Text.mem_of_mem_trim hd
    rw [heq, List.mem_append, List.mem_cons, List.mem_cons] at hmem
    rcases hmem with (rfl | hmem) | rfl | hmem
    · exact isAscii_of_isAsciiLetter hletter
    · exact isAscii_of_isAsciiLetter (hletters d hmem)
    · rfl
    · exact h d hmem
  have hword : ∀ d ∈ m, isJoinable d = true :=
    fun d hd => isJoinable_of_isAsciiLetter (hletters d hd)
  rw [isName_camelCase_iff hascii htrim hletter false, htrim, AllJoinable, List.forall_mem_cons,
    List.forall_mem_append, List.forall_mem_cons]
  exact ⟨fun hs => hs.2.2.2, fun hs => ⟨isJoinable_of_isAsciiLetter hletter, hword, rfl, hs⟩⟩

/-- The name of an operation is a letter with letters and digits behind it exactly if its identifier
has a letter, or it has none and the words of the path are letters, digits and separators, white
space behind them aside. -/
theorem isName_operationName_iff {url method : String} {id : Option String}
    (hurl : IsAscii url.toList) (hmethod : method ∈ Operation.methods)
    (hid : ∀ name ∈ id, IsAscii name.toList) :
    IsName (operationName url method id).toList ↔
      match id.filter (· ≠ "") with
      | some name => ∃ c ∈ name.toList, isAsciiLetter c = true
      | none => AllJoinable (Text.dropTail Unicode.isBlank (pathWords url.toList)) := by
  rw [operationName]
  match hname : id.filter (· ≠ "") with
  | some name =>
    have hmem : name ∈ id := (Option.filter_eq_some_iff.1 hname).1
    refine Iff.trans ?_ (isName_clean_iff (hid name hmem) false)
    dsimp only
    rw [String.toList_ofList]
  | none =>
    refine Iff.trans ?_ (isName_route_iff hmethod (isAscii_pathWords hurl))
    dsimp only
    rw [String.toList_ofList]

theorem isName_operationName_pets :
    IsAscii "/pets/\x7bid\x7d/photo-1".toList ∧ "post" ∈ Operation.methods ∧
      (∀ name ∈ (none : Option String), IsAscii name.toList) ∧
      IsName (operationName "/pets/\x7bid\x7d/photo-1" "post" none).toList := by
  have hurl : IsAscii "/pets/\x7bid\x7d/photo-1".toList := by decide +kernel
  have hmethod : "post" ∈ Operation.methods := by decide
  have hid : ∀ name ∈ (none : Option String), IsAscii name.toList := fun _ h => nomatch h
  refine ⟨hurl, hmethod, hid, (isName_operationName_iff hurl hmethod hid).2 ?_⟩
  show AllJoinable (Text.dropTail Unicode.isBlank (pathWords "/pets/\x7bid\x7d/photo-1".toList))
  decide +kernel

/-- Not every operation has a name: of an identifier without letters nothing is left, and of a path
what is no separator stays. -/
theorem not_all_operations_named :
    ¬ ∀ (url method : String) (id : Option String), IsAscii url.toList →
      url.toList.head? = some '/' → method ∈ Operation.methods →
      (∀ name ∈ id, IsAscii name.toList) → IsName (operationName url method id).toList := by
  intro h
  have hname := h "/pets" "get" (some "123") (by decide +kernel) (by decide +kernel) (by decide)
    (by decide +kernel)
  revert hname
  decide +kernel

example : camelCase false ("post".toList ++ '-' :: pathWords "/pets/\x7bid\x7d:archive".toList) =
    "postPets-:archive".toList := by
  decide +kernel

end ApiModel.Identifier
