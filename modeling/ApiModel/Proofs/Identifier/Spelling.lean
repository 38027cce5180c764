import ApiModel.Proofs.Identifier.Boundaries
import ApiModel.Proofs.Identifier.OperationName
import ApiModel.Proofs.Identifier.TypeName

/-!
# How names are spelled

Names of services and of parameters are camel case of a cleaned text, names of enumeration members
are words in capitals with underscores between them. Whatever the text is, so long as it is ASCII,
the names are spelled as generated code needs them.

**Theorem (`spelling_of_names`).** The name of a service is a capital with letters and digits behind
it. The name of a parameter is a small letter with letters and digits behind it, an underscore and
such a name, or nothing if the text has no letter; it is never a reserved word. The name of a member
is capitals, digits and underscores, at least one of them, with no digit in front.

That a name in camel case is letters and digits is known (`isName_clean_iff`); here its first letter
is followed from stage to stage (`head?_camelCase`). No stage removes it, since the text is cleaned
up to its first letter, and none puts anything before it.
-/

namespace ApiModel.Identifier

variable {s t : List Char} {c : Char}

/-- A name that begins with a capital. -/
def IsCapitalName (s : List Char) : Prop := IsName s ∧ s.head?.any Char.isUpper = true

/-- A name that begins with a small letter. -/
def IsSmallName (s : List Char) : Prop := IsName s ∧ s.head?.any Char.isLower = true

/-- No reserved word, and a name that begins with a small letter, with an underscore in front or
not, or nothing. -/
structure IsParameterName (s : String) : Prop where
  spelled : s = "" ∨ IsSmallName s.toList ∨ ∃ name, s.toList = '_' :: name ∧ IsSmallName name
  unreserved : s ∉ reserved

/-- Capitals, digits and underscores, with no digit in front. -/
structure IsMemberName (s : List Char) : Prop where
  nonempty : s ≠ []
  alphabet : ∀ c ∈ s, c.isUpper = true ∨ c.isDigit = true ∨ c = '_'
  front : s.head?.any Char.isDigit = false

instance : DecidablePred IsCapitalName :=
  fun s => inferInstanceAs (Decidable (IsName s ∧ s.head?.any Char.isUpper = true))

/-! ## The first letter in camel case -/

theorem not_isSeparator_of_isAsciiLetter (h : isAsciiLetter c = true) : isSeparator c = false :=
  forall_ascii (P := fun c => isAsciiLetter c = true → isSeparator c = false) (by decide +kernel)
    (isAscii_of_isAsciiLetter h) h

/-- What is no separator stays in front of the joined words. -/
theorem head?_joinWords (hc : isSeparator c = false) (s : List Char) :
    (capitalAfterDigits false (joinWords (c :: s))).head? = some c := by
  have hjoined : joinWords (c :: s) = c :: joinWordsFrom [] s := by
    rw [joinWords, joinWordsFrom, hc]
    rfl
  rw [hjoined, capitalAfterDigits]
  rfl

/-- The words in small letters begin with the first letter. -/
theorem head?_smallWords (h : IsAscii (c :: s)) (hletter : isAsciiLetter c = true) :
    ∃ u, smallWords (c :: s) = c.toLower :: u := by
  have hmarked : ∃ u, IsAscii (c :: u) ∧
      (if Unicode.lower (c :: s) == c :: s then c :: s else markBoundaries (c :: s)) = c :: u := by
    split_ifs
    · exact ⟨s, h, rfl⟩
    · refine ⟨_, ?_, markBoundaries_cons h⟩
      rw [← markBoundaries_cons h]
      exact (caseless_isSolid.markBoundaries (traces_self h)).ascii
  obtain ⟨u, hu, hmarked⟩ := hmarked
  rw [smallWords, hmarked,
    List.dropWhile_cons_of_neg (by simp [not_isSeparator_of_isAsciiLetter hletter]),
    lower_eq_map hu]
  exact ⟨_, rfl⟩

/-- A name in camel case begins with the first letter of the text. -/
theorem head?_camelCase (h : IsAscii (Text.trim s)) (htrim : Text.trim s = c :: t)
    (hletter : isAsciiLetter c = true) (pascal : Bool) :
    (camelCase pascal s).head? = some (if pascal then c.toUpper else c.toLower) := by
  have hc := isAscii_of_isAsciiLetter hletter
  rcases camelCase_cases pascal s with ⟨hnil, -⟩ | ⟨d, hsingle, heq⟩ | ⟨-, heq⟩
  · rw [hnil] at htrim
    cases htrim
  · obtain ⟨rfl, -⟩ := List.cons.inj (htrim.symm.trans hsingle)
    rw [hsingle] at h
    rw [heq, Unicode.upperChar, if_pos hc, lower_eq_map h]
    cases pascal <;> rfl
  · rw [htrim] at h heq
    obtain ⟨u, hwords⟩ := head?_smallWords h hletter
    have hlower : isSeparator c.toLower = false :=
      not_isSeparator_of_isAsciiLetter (by rwa [isAsciiLetter_toLower hc])
    have hupper : c.toLower.toUpper = c.toUpper ∧ isSeparator c.toUpper = false :=
      forall_ascii
        (P := fun c => isAsciiLetter c = true →
          c.toLower.toUpper = c.toUpper ∧ isSeparator c.toUpper = false)
        (by decide +kernel) hc hletter
    rw [heq, hwords]
    cases pascal with
    | false => exact head?_joinWords hlower u
    | true =>
      rw [if_pos rfl, if_pos rfl, capitalizeFirst, Unicode.upperChar,
        if_pos (isAscii_toLower hc), hupper.1]
      exact head?_joinWords hupper.2 u

/-- The name that a text gives, if it has a letter, begins with that letter. -/
theorem head?_camelCase_clean (h : IsAscii s) (hletter : ∃ c ∈ s, isAsciiLetter c = true)
    (pascal : Bool) : ∃ c, isAsciiLetter c = true ∧
      (camelCase pascal (clean s)).head? = some (if pascal then c.toUpper else c.toLower) := by
  obtain ⟨d, hd, hletter⟩ := hletter
  match hdrop : s.dropWhile fun c => !isAsciiLetter c with
  | [] =>
    have hnone := List.dropWhile_eq_nil_iff.1 hdrop d hd
    rw [hletter] at hnone
    cases hnone
  | c :: t =>
    have hc := isAsciiLetter_of_dropWhile hdrop
    obtain ⟨u, htrim⟩ := exists_trim_clean hdrop
    exact ⟨c, hc, head?_camelCase (isAscii_trim_clean h) htrim hc pascal⟩

theorem isUpper_toUpper_of_isAsciiLetter (h : isAsciiLetter c = true) :
    c.toUpper.isUpper = true ∧ c.toLower.isLower = true :=
  forall_ascii
    (P := fun c => isAsciiLetter c = true → c.toUpper.isUpper = true ∧ c.toLower.isLower = true)
    (by decide +kernel) (isAscii_of_isAsciiLetter h) h

theorem isCapitalName_camelCase (h : IsAscii s) (hletter : ∃ c ∈ s, isAsciiLetter c = true) :
    IsCapitalName (camelCase true (clean s)) := by
  obtain ⟨c, hc, hhead⟩ := head?_camelCase_clean h hletter true
  refine ⟨(isName_clean_iff h true).2 hletter, ?_⟩
  rw [hhead]
  exact (isUpper_toUpper_of_isAsciiLetter hc).1

theorem isSmallName_camelCase (h : IsAscii s) (hletter : ∃ c ∈ s, isAsciiLetter c = true) :
    IsSmallName (camelCase false (clean s)) := by
  obtain ⟨c, hc, hhead⟩ := head?_camelCase_clean h hletter false
  refine ⟨(isName_clean_iff h false).2 hletter, ?_⟩
  rw [hhead]
  exact (isUpper_toUpper_of_isAsciiLetter hc).2

theorem camelCase_clean_eq_nil (h : ¬ ∃ c ∈ s, isAsciiLetter c = true) (pascal : Bool) :
    camelCase pascal (clean s) = [] := by
  have hdrop : (s.dropWhile fun c => !isAsciiLetter c) = [] := by
    refine List.dropWhile_eq_nil_iff.2 fun c hc => ?_
    rw [Bool.not_eq_true', Bool.eq_false_iff]
    exact fun hletter => h ⟨c, hc, hletter⟩
  rw [clean, hdrop]
  rfl

/-! ## Services and parameters -/

theorem isCapitalName_serviceName {tag : String} (h : IsAscii tag.toList) :
    IsCapitalName (serviceName tag).toList := by
  rw [serviceName]
  by_cases hletter : ∃ c ∈ tag.toList, isAsciiLetter c = true
  · have hname := isCapitalName_camelCase h hletter
    have hne : (camelCase true (clean tag.toList)).isEmpty = false := by
      cases hcamel : camelCase true (clean tag.toList) with
      | nil => rw [hcamel] at hname; exact hname.1.elim
      | cons c t => rfl
    rw [if_neg (by simp [hne]), String.toList_ofList]
    exact hname
  · rw [camelCase_clean_eq_nil hletter]
    decide +kernel

theorem escapeReserved_not_mem (s : String) : escapeReserved s ∉ reserved := by
  by_cases h : s ∈ reserved
  · rw [escapeReserved_of_mem h]
    exact not_mem_reserved s
  · rwa [escapeReserved_of_not_mem h]

/-- A name is marked by one underscore if it is reserved, and left alone otherwise. -/
theorem toList_escapeReserved (s : String) :
    (escapeReserved s).toList = s.toList ∨ (escapeReserved s).toList = '_' :: s.toList := by
  by_cases h : s ∈ reserved
  · rw [escapeReserved_of_mem h, String.toList_append]
    exact .inr rfl
  · rw [escapeReserved_of_not_mem h]
    exact .inl rfl

theorem parameterName_of_not_letter {v : String}
    (h : ¬ ∃ c ∈ v.toList, isAsciiLetter c = true) : parameterName v = "" := by
  rw [parameterName, camelCase_clean_eq_nil h]
  decide +kernel

/-- Of a text with a letter the name is a small one, marked or not. -/
theorem parameterName_of_letter {v : String} (h : IsAscii v.toList)
    (hletter : ∃ c ∈ v.toList, isAsciiLetter c = true) :
    IsSmallName (parameterName v).toList ∨
      ∃ name, (parameterName v).toList = '_' :: name ∧ IsSmallName name := by
  have hname := isSmallName_camelCase h hletter
  have hescaped := toList_escapeReserved (String.ofList (camelCase false (clean v.toList)))
  rw [String.toList_ofList] at hescaped
  rcases hescaped with heq | heq
  · exact .inl (heq.symm ▸ hname)
  · exact .inr ⟨_, heq, hname⟩

theorem isParameterName_parameterName {v : String} (h : IsAscii v.toList) :
    IsParameterName (parameterName v) := by
  refine ⟨?_, escapeReserved_not_mem _⟩
  by_cases hletter : ∃ c ∈ v.toList, isAsciiLetter c = true
  · exact .inr (parameterName_of_letter h hletter)
  · exact .inl (parameterName_of_not_letter hletter)

theorem parameterName_eq_empty_iff {v : String} (h : IsAscii v.toList) :
    parameterName v = "" ↔ ¬ ∃ c ∈ v.toList, isAsciiLetter c = true := by
  refine ⟨fun hempty hletter => ?_, parameterName_of_not_letter⟩
  have hname := parameterName_of_letter h hletter
  rw [hempty] at hname
  obtain hname | ⟨name, heq, -⟩ := hname
  · exact hname.1
  · cases heq

/-! ## Members of enumerations -/

/-- The capital form of an ASCII text, character by character. -/
theorem upper_eq_map (h : IsAscii s) : Unicode.upper s = s.map Char.toUpper := by
  induction s with
  | nil => rfl
  | cons c s ih =>
    obtain ⟨hc, hs⟩ := List.forall_mem_cons.1 h
    have hupper : Unicode.upperChar c = [c.toUpper] := if_pos hc
    rw [Unicode.upper, List.flatMap_cons, hupper, List.map_cons, ← ih hs]
    rfl

theorem guardDigit_ne_nil (h : s ≠ []) : guardDigit s ≠ [] := by
  cases s with
  | nil => exact absurd rfl h
  | cons c s =>
    rw [guardDigit]
    split_ifs <;> exact List.cons_ne_nil _ _

theorem of_mem_guardDigit (h : c ∈ guardDigit s) : c = '_' ∨ c ∈ s := by
  cases s with
  | nil => cases h
  | cons d s =>
    rw [guardDigit] at h
    split_ifs at h
    · exact List.mem_cons.1 h
    · exact .inr h

/-- No digit stands in front of a guarded text. -/
theorem head?_guardDigit (s : List Char) : (guardDigit s).head?.any Unicode.isDecimal = false := by
  cases s with
  | nil => rfl
  | cons c s =>
    rw [guardDigit]
    split_ifs with hc
    · rfl
    · exact Bool.eq_false_iff.2 hc

theorem head?_splitCapitals (s : List Char) : (splitCapitals s).head? = s.head? := by
  fun_cases splitCapitals s <;> rfl

theorem of_mem_splitCapitals (h : c ∈ splitCapitals s) : c = '_' ∨ c ∈ s := by
  fun_induction splitCapitals s with
  | case1 d e rest _ ih =>
    rcases List.mem_cons.1 h with rfl | h
    · exact .inr List.mem_cons_self
    · rcases List.mem_cons.1 h with rfl | h
      · exact .inl rfl
      · exact (ih h).imp_right (List.mem_cons_of_mem d)
  | case2 d e rest _ ih =>
    rcases List.mem_cons.1 h with rfl | h
    · exact .inr List.mem_cons_self
    · exact (ih h).imp_right (List.mem_cons_of_mem d)
  | case3 s _ => exact .inr h

/-- Word characters in capitals. -/
theorem toUpper_of_isWord (hc : Unicode.isAscii c = true) :
    (Unicode.isWord c = true →
      c.toUpper.isUpper = true ∨ c.toUpper.isDigit = true ∨ c.toUpper = '_') ∧
    c.toUpper.isDigit = Unicode.isDecimal c :=
  forall_ascii
    (P := fun c => (Unicode.isWord c = true →
        c.toUpper.isUpper = true ∨ c.toUpper.isDigit = true ∨ c.toUpper = '_') ∧
      c.toUpper.isDigit = Unicode.isDecimal c)
    (by decide +kernel) hc

theorem isMemberName_memberName {v : String} (h : IsAscii v.toList) (hne : v ≠ "") :
    IsMemberName (memberName v).toList := by
  let squeezed := Text.squeeze (fun c => !Unicode.isWord c) '_' v.toList
  let words := splitCapitals (guardDigit squeezed)
  have hlist : v.toList ≠ [] := by simpa using hne
  have halphabet : ∀ c ∈ words, Unicode.isAscii c = true ∧ Unicode.isWord c = true := by
    intro c hc
    rcases of_mem_splitCapitals hc with rfl | hc
    · exact ⟨rfl, rfl⟩
    · rcases of_mem_guardDigit hc with rfl | hc
      · exact ⟨rfl, rfl⟩
      · rcases Text.of_mem_squeeze hc with rfl | ⟨hmem, hword⟩
        · exact ⟨rfl, rfl⟩
        · exact ⟨h c hmem, by simpa using hword⟩
  have hhead : words.head? = (guardDigit squeezed).head? := head?_splitCapitals _
  have hname : (memberName v).toList = words.map Char.toUpper := by
    rw [memberName, String.toList_ofList]
    exact upper_eq_map fun c hc => (halphabet c hc).1
  rw [hname]
  constructor
  case nonempty =>
    rw [ne_eq, List.map_eq_nil_iff, ← List.head?_eq_none_iff, hhead, List.head?_eq_none_iff]
    exact guardDigit_ne_nil (Text.squeeze_ne_nil hlist)
  case alphabet =>
    rw [List.forall_mem_map]
    intro c hc
    obtain ⟨hascii, hword⟩ := halphabet c hc
    exact (toUpper_of_isWord hascii).1 hword
  case front =>
    have hfront := head?_guardDigit squeezed
    rw [← hhead] at hfront
    rw [List.head?_map]
    cases hwords : words with
    | nil => rfl
    | cons c rest =>
      rw [hwords] at hfront halphabet
      obtain ⟨hascii, -⟩ := halphabet c List.mem_cons_self
      exact (toUpper_of_isWord hascii).2.trans hfront

/-! ## All names -/

/-- The name of a service begins with a capital. The name of a parameter begins with a small
letter, or with one underscore before it, or is empty; it is empty only for a text without letters,
and never a reserved word. The name of a member is capitals, digits and underscores and does not
begin with a digit. -/
theorem spelling_of_names {v : String} (h : IsAscii v.toList) :
    IsCapitalName (serviceName v).toList ∧
      (IsParameterName (parameterName v) ∧
        (parameterName v = "" ↔ ¬ ∃ c ∈ v.toList, isAsciiLetter c = true)) ∧
      (v ≠ "" → IsMemberName (memberName v).toList) :=
  ⟨isCapitalName_serviceName h,
    ⟨isParameterName_parameterName h, parameterName_eq_empty_iff h⟩,
    isMemberName_memberName h⟩

theorem spelling_of_names_requests :
    IsAscii "2nd HTTPRequest-id".toList ∧ "2nd HTTPRequest-id" ≠ "" ∧
      IsCapitalName "NdHttpRequestId".toList ∧ IsParameterName "ndHttpRequestId" ∧
      IsMemberName "_2ND_HTTPREQUEST_ID".toList := by
  have h : IsAscii "2nd HTTPRequest-id".toList := by decide +kernel
  have hne : "2nd HTTPRequest-id" ≠ "" := by decide
  have hservice : serviceName "2nd HTTPRequest-id" = "NdHttpRequestId" := by decide +kernel
  have hparameter : parameterName "2nd HTTPRequest-id" = "ndHttpRequestId" := by decide +kernel
  have hmember : memberName "2nd HTTPRequest-id" = "_2ND_HTTPREQUEST_ID" := by decide +kernel
  obtain ⟨hcapital, ⟨hname, -⟩, hmemberName⟩ := spelling_of_names h
  rw [hservice] at hcapital
  rw [hparameter] at hname
  rw [hmember] at hmemberName
  exact ⟨h, hne, hcapital, hname, hmemberName hne⟩

example : parameterName "default" = "_default" ∧ parameterName "42" = "" := by decide +kernel

end ApiModel.Identifier
