import ApiModel.Proofs.Identifier.OperationName
import ApiModel.Proofs.Identifier.Segments

/-!
# The place of the version in a path

The name of an operation is made from the segments of its path that do not hold the place of the
version.

**Theorem (`operationName_eq_iff`).** The name of an operation is the one without the segments that
hold the version exactly if each such segment but the last one has the version on its last line, and
the last one, should it be such a segment, leaves nothing in a name.

Two things set the two names apart. A line feed hides the version in front of it, and the segment
stays. And the last segment always stays: whether something is seen of it is a matter of what stands
in it beside the places.
-/

namespace ApiModel.Identifier

/-! ## Separators at the end -/

section Separators

variable {s t run pending : List Char}

theorem caseless_of_isSeparator {c : Char} (h : isSeparator c = true) :
    c.toLower = c ∧ Unicode.isUpper c = false ∧ Unicode.isLower c = false := by
  simp only [isSeparator, Bool.or_eq_true, beq_iff_eq] at h
  rcases h with ((rfl | rfl) | rfl) | rfl <;> decide +kernel

theorem lower_append (hs : IsAscii s) (h : ∀ c ∈ t, isSeparator c = true) :
    Unicode.lower (s ++ t) = Unicode.lower s ++ t := by
  have hascii : IsAscii (s ++ t) :=
    List.forall_mem_append.2 ⟨hs, fun c hc => isAscii_of_isSeparator (h c hc)⟩
  have hself : t.map Char.toLower = t :=
    (List.map_congr_left fun c hc => (caseless_of_isSeparator (h c hc)).1).trans (List.map_id t)
  rw [lower_eq_map hascii, lower_eq_map hs, List.map_append, hself]

theorem markBoundariesFrom_separators (h : ∀ c ∈ t, isSeparator c = true) (trail : CaseTrail) :
    markBoundariesFrom trail pending t = pending ++ t := by
  induction t generalizing trail pending with
  | nil => rw [markBoundariesFrom, List.append_nil]
  | cons c t ih =>
    obtain ⟨hc, ht⟩ := List.forall_mem_cons.1 h
    obtain ⟨-, hupper, hlower⟩ := caseless_of_isSeparator hc
    rw [markBoundariesFrom, hupper, hlower, Bool.and_false, Bool.and_false,
      if_neg Bool.false_ne_true, if_neg Bool.false_ne_true, ih ht, List.singleton_append]

theorem markBoundariesFrom_append (h : ∀ c ∈ t, isSeparator c = true) (trail : CaseTrail) :
    markBoundariesFrom trail pending (s ++ t) = markBoundariesFrom trail pending s ++ t := by
  induction s generalizing trail pending with
  | nil => rw [List.nil_append, markBoundariesFrom_separators h, markBoundariesFrom]
  | cons c s ih =>
    rw [List.cons_append, markBoundariesFrom, markBoundariesFrom]
    split_ifs
    · rw [ih, List.append_assoc, List.cons_append]
    · rw [ih, List.cons_append, List.append_assoc]
    · rw [ih, List.append_assoc]

theorem joinWordsFrom_separators (h : ∀ c ∈ t, isSeparator c = true) :
    joinWordsFrom run t = [] := by
  induction t generalizing run with
  | nil => rfl
  | cons c t ih =>
    obtain ⟨hc, ht⟩ := List.forall_mem_cons.1 h
    rw [joinWordsFrom, if_pos hc, ih ht]

theorem joinWordsFrom_append (h : ∀ c ∈ t, isSeparator c = true) :
    joinWordsFrom run (s ++ t) = joinWordsFrom run s := by
  induction s generalizing run with
  | nil => rw [List.nil_append, joinWordsFrom_separators h, joinWordsFrom]
  | cons c s ih => simp only [List.cons_append, joinWordsFrom, ih]

/-- Separators at the end of a text are gone when its words are joined. -/
theorem joinWords_smallWords_append (hs : IsAscii s) (h : ∀ c ∈ t, isSeparator c = true) :
    joinWords (smallWords (s ++ t)) = joinWords (smallWords s) := by
  have hmarked : (if Unicode.lower (s ++ t) == s ++ t then s ++ t else markBoundaries (s ++ t)) =
      (if Unicode.lower s == s then s else markBoundaries s) ++ t := by
    rw [lower_append hs h, markBoundaries, markBoundariesFrom_append h, ← markBoundaries,
      apply_ite (· ++ t)]
    simp
  have hascii : IsAscii (if Unicode.lower s == s then s else markBoundaries s) := by
    split_ifs
    · exact hs
    · exact (caseless_isSolid.markBoundaries (traces_self hs)).ascii
  rw [smallWords, smallWords, hmarked, List.dropWhile_append]
  generalize (if Unicode.lower s == s then s else markBoundaries s) = marked at hascii
  split_ifs with hempty
  · rw [List.isEmpty_iff.1 hempty, List.dropWhile_eq_nil_iff.2 h]
  · have hfront : IsAscii (marked.dropWhile isSeparator) :=
      fun c hc => hascii c ((List.dropWhile_sublist _).subset hc)
    rw [lower_append hfront h]
    exact joinWordsFrom_append h

/-- Separators at the end of a text of two characters or more are not seen in camel case. -/
theorem camelCase_of_trim_eq_append (hs : IsAscii (Text.trim s)) (hlen : 2 ≤ (Text.trim s).length)
    (h : ∀ c ∈ t, isSeparator c = true) {u : List Char} (hu : Text.trim u = Text.trim s ++ t) :
    camelCase false u = camelCase false s := by
  have hlong {v : List Char} (hv : 2 ≤ (Text.trim v).length) :
      camelCase false v = capitalAfterDigits false (joinWords (smallWords (Text.trim v))) := by
    rcases camelCase_cases false v with ⟨hnil, -⟩ | ⟨c, hsingle, -⟩ | ⟨-, heq⟩
    · rw [hnil] at hv
      cases hv
    · rw [hsingle] at hv
      exact absurd hv (Nat.not_succ_le_self 1)
    · exact heq
  have hlenu : 2 ≤ (Text.trim u).length := by
    rw [hu, List.length_append]
    exact Nat.le_add_right_of_le hlen
  rw [hlong hlen, hlong hlenu, hu, joinWords_smallWords_append hs h]

end Separators

/-! ## What is seen of the version -/

/-- The white space at the end of a text. -/
def blankTail (s : List Char) : List Char := (s.reverse.takeWhile Unicode.isBlank).reverse

/-- Nothing but spaces are at the end of what stays of the last segment. -/
def EndsInSpaces (segments : List (List Piece)) : Prop :=
  ∀ segment ∈ segments.getLast?, ∀ c ∈ blankTail (leftover segment), c = ' '

/-- Nothing is seen of the segments of a path that hold the version. -/
structure Unseen (init : List (List Piece)) (last : List Piece) : Prop where
  /-- A segment that holds it holds it on its last line. -/
  early : ∀ segment ∈ init, holdsVersion segment = true → EndsWithVersion segment
  /-- If the last segment holds it, only separators stay of it, white space at its end aside. -/
  late : holdsVersion last = true →
    ∀ c ∈ Text.dropTail Unicode.isBlank (leftover last), isSeparator c = true
  /-- And the white space at the end of what stays before it is spaces. -/
  before : holdsVersion last = true →
    EndsInSpaces (init.filter fun segment => !holdsVersion segment)

/-- What is no separator in segments. -/
def solid (segments : List (List Piece)) : List Char :=
  segments.flatMap fun segment => trace isSolid (leftover segment)

/-- What stays of segments that have another one behind them. -/
def lead (segments : List (List Piece)) : List Char :=
  (segments.map leftover).flatMap (· ++ ['-'])

section Words

variable {segments init : List (List Piece)} {last : List Piece} {m s t v w : List Char}

theorem dropTail_append_blankTail (s : List Char) :
    Text.dropTail Unicode.isBlank s ++ blankTail s = s :=
  Text.dropTail_append_takeWhile Unicode.isBlank s

theorem trim_append_hyphen (m w : List Char) :
    Text.trim (m ++ '-' :: w) =
      m.dropWhile Unicode.isBlank ++ '-' :: Text.dropTail Unicode.isBlank w := by
  have hfront : (m ++ '-' :: w).dropWhile Unicode.isBlank =
      m.dropWhile Unicode.isBlank ++ '-' :: w := by
    rw [List.dropWhile_append]
    split_ifs with hempty
    · rw [List.isEmpty_iff.1 hempty]
      rfl
    · rfl
  rw [Text.trim, hfront]
  have htail := Text.dropTail_append (p := Unicode.isBlank) (c := '-') rfl
    (m.dropWhile Unicode.isBlank) w
  rwa [List.append_assoc, List.append_assoc] at htail

theorem trace_lead : trace isSolid (lead segments) = solid segments := by
  induction segments with
  | nil => rfl
  | cons segment segments ih =>
    have hhyphen : trace isSolid ['-'] = [] := by decide
    rw [lead, solid, List.map_cons, List.flatMap_cons, List.flatMap_cons, trace_append,
      trace_append, hhyphen, List.append_nil, ← lead, ← solid, ih]

/-- The white space at the end of the last segment is dropped, and that of no other. -/
theorem dropTail_lead (segments : List (List Piece)) (s : List Char) :
    Text.dropTail Unicode.isBlank (lead segments ++ s) =
      lead segments ++ Text.dropTail Unicode.isBlank s := by
  rcases List.eq_nil_or_concat segments with rfl | ⟨init, last, rfl⟩
  · rfl
  · have hlead : lead (init.concat last) = (lead init ++ leftover last) ++ ['-'] := by
      simp [lead]
    rw [hlead]
    exact Text.dropTail_append rfl _ s

theorem trace_dropTail_length_le (s : List Char) :
    (trace isSolid (Text.dropTail Unicode.isBlank s)).length ≤ (trace isSolid s).length := by
  conv_rhs => rw [← Text.dropTail_append_takeWhile Unicode.isBlank s, trace_append]
  rw [List.length_append]
  exact Nat.le_add_right _ _

theorem trace_eq_nil_iff : trace isSolid s = [] ↔ ∀ c ∈ s, isSeparator c = true := by
  rw [trace, List.map_eq_nil_iff, List.filter_eq_nil_iff]
  simp [isSolid]

theorem isSeparator_iff_of_isBlank {c : Char} (h : Unicode.isBlank c = true) :
    isSeparator c = true ↔ c = ' ' := by
  refine ⟨fun hseparator => ?_, fun hc => hc ▸ rfl⟩
  simp only [isSeparator, Bool.or_eq_true, beq_iff_eq] at hseparator
  rcases hseparator with ((rfl | rfl) | rfl) | rfl
  · cases h
  · cases h
  · cases h
  · rfl

/-- Nothing solid is dropped exactly if all that is dropped is spaces. -/
theorem trace_dropTail_eq_iff :
    trace isSolid (Text.dropTail Unicode.isBlank s) = trace isSolid s ↔
      ∀ c ∈ blankTail s, c = ' ' := by
  have hsplit : trace isSolid s =
      trace isSolid (Text.dropTail Unicode.isBlank s) ++ trace isSolid (blankTail s) := by
    rw [← trace_append, dropTail_append_blankTail]
  have hblank : ∀ c ∈ blankTail s, (isSeparator c = true ↔ c = ' ') := fun c hc =>
    isSeparator_iff_of_isBlank (List.mem_takeWhile_imp (List.mem_reverse.1 hc))
  rw [hsplit, List.self_eq_append_right, trace_eq_nil_iff]
  exact forall₂_congr hblank

theorem isAscii_trim_append_hyphen (hm : IsAscii m) (hw : IsAscii w) :
    IsAscii (Text.trim (m ++ '-' :: w)) :=
  fun c hc => (List.forall_mem_append.2 ⟨hm, List.forall_mem_cons.2 ⟨rfl, hw⟩⟩)
    c (Text.mem_of_mem_trim hc)

/-- Names that are equal come from words in which the same is no separator. -/
theorem trace_of_camelCase_eq (hm : IsAscii m) (hv : IsAscii v) (hw : IsAscii w)
    (h : camelCase false (m ++ '-' :: v) = camelCase false (m ++ '-' :: w)) :
    trace isSolid (Text.dropTail Unicode.isBlank v) =
      trace isSolid (Text.dropTail Unicode.isBlank w) := by
  have hmv := isAscii_trim_append_hyphen hm hv
  have hmw := isAscii_trim_append_hyphen hm hw
  have htrace := (caseless_isSolid.camelCase (traces_self hmv) false).traced
  rw [h, (caseless_isSolid.camelCase (traces_self hmw) false).traced, trim_append_hyphen,
    trim_append_hyphen, trace_append, trace_append, trace_cons, trace_cons '-']
    at htrace
  exact (List.append_cancel_left (List.append_cancel_left htrace)).symm

/-- Words that differ in separators at the end make the same name. -/
theorem camelCase_eq_of_append (hm : IsAscii m) (hw : IsAscii w)
    (hmethod : ∃ c ∈ m, Unicode.isBlank c = false) (ht : ∀ c ∈ t, isSeparator c = true)
    (h : Text.dropTail Unicode.isBlank v = Text.dropTail Unicode.isBlank w ++ t) :
    camelCase false (m ++ '-' :: v) = camelCase false (m ++ '-' :: w) := by
  have htrim : Text.trim (m ++ '-' :: v) = Text.trim (m ++ '-' :: w) ++ t := by
    rw [trim_append_hyphen, trim_append_hyphen, h, List.append_assoc, List.cons_append]
  have hfront : m.dropWhile Unicode.isBlank ≠ [] := by
    obtain ⟨c, hc, hblank⟩ := hmethod
    intro hnil
    have hall := List.dropWhile_eq_nil_iff.1 hnil c hc
    rw [hblank] at hall
    cases hall
  have hlen : 2 ≤ (Text.trim (m ++ '-' :: w)).length := by
    have hpos := List.length_pos_iff.2 hfront
    rw [trim_append_hyphen, List.length_append, List.length_cons]
    omega
  exact camelCase_of_trim_eq_append (isAscii_trim_append_hyphen hm hw) hlen ht htrim

theorem isAscii_lead (h : ∀ segment ∈ segments, ∀ piece ∈ segment, piece.IsPlain) :
    IsAscii (lead segments) := by
  intro c hc
  obtain ⟨s, hs, hc⟩ := List.mem_flatMap.1 hc
  obtain ⟨segment, hsegment, rfl⟩ := List.mem_map.1 hs
  rcases List.mem_append.1 hc with hc | hc
  · exact isAscii_leftover (h segment hsegment) c hc
  · obtain rfl := List.mem_singleton.1 hc
    rfl

end Words

/-! ## Counting what stays -/

section Count

variable {α β : Type} {l : List α} {p q : α → Bool} {f : α → List β}

/-- What is selected in addition adds its length. -/
theorem length_flatMap_filter (f : α → List β) (h : ∀ a ∈ l, p a = true → q a = true) :
    ((l.filter q).flatMap f).length =
      ((l.filter p).flatMap f).length + ((l.filter fun a => q a && !p a).flatMap f).length := by
  have hp : (l.filter q).filter p = l.filter p := by
    rw [List.filter_filter]
    refine List.filter_congr fun a ha => ?_
    rw [Bool.eq_iff_iff, Bool.and_eq_true]
    exact and_iff_left_of_imp (h a ha)
  have hperm := (List.filter_append_perm p (l.filter q)).flatMap_right f
  rw [List.flatMap_append, hp, List.filter_filter] at hperm
  simpa only [List.length_append, Bool.and_comm] using hperm.length_eq.symm

/-- What is selected in addition is empty if no length is gained by it. -/
theorem eq_nil_of_length_le (h : ∀ a ∈ l, p a = true → q a = true)
    (hlen : ((l.filter q).flatMap f).length ≤ ((l.filter p).flatMap f).length) :
    ∀ a ∈ l, q a = true → p a = false → f a = [] := by
  intro a ha hq hp
  rw [length_flatMap_filter f h] at hlen
  have hnil : (l.filter fun a => q a && !p a).flatMap f = [] :=
    List.length_eq_zero_iff.1 (by omega)
  exact List.flatMap_eq_nil_iff.1 hnil a (List.mem_filter.2 ⟨ha, by rw [hq, hp]; rfl⟩)

end Count

/-! ## The name without the version -/

section Name

variable {method : String} {segments init : List (List Piece)} {last : List Piece}

/-- The words of segments. -/
def words (segments : List (List Piece)) : List Char := Text.join ['-'] (segments.map leftover)

theorem words_concat (init : List (List Piece)) (last : List Piece) :
    words (init ++ [last]) = lead init ++ leftover last := by
  rw [words, List.map_append]
  exact Text.join_concat '-' (init.map leftover) (leftover last)

theorem isAscii_words (h : ∀ segment ∈ segments, ∀ piece ∈ segment, piece.IsPlain) :
    IsAscii (words segments) := by
  rcases List.eq_nil_or_concat segments with rfl | ⟨init, last, rfl⟩
  · exact fun c hc => absurd hc List.not_mem_nil
  · rw [List.concat_eq_append] at h ⊢
    obtain ⟨hinit, hlast⟩ := List.forall_mem_append.1 h
    rw [words_concat]
    exact List.forall_mem_append.2
      ⟨isAscii_lead hinit, isAscii_leftover (List.forall_mem_singleton.1 hlast)⟩

theorem trace_words (segments : List (List Piece)) :
    trace isSolid (words segments) = solid segments := by
  rcases List.eq_nil_or_concat segments with rfl | ⟨init, last, rfl⟩
  · rfl
  · rw [List.concat_eq_append, words_concat, trace_append, trace_lead, solid, solid,
      List.flatMap_append, List.flatMap_singleton]

theorem trace_dropTail_words_iff :
    trace isSolid (Text.dropTail Unicode.isBlank (words segments)) = solid segments ↔
      EndsInSpaces segments := by
  rcases List.eq_nil_or_concat segments with rfl | ⟨init, last, rfl⟩
  · exact iff_of_true rfl fun _ h => nomatch h
  · rw [← trace_words, List.concat_eq_append, words_concat, dropTail_lead, trace_append,
      trace_append, List.append_cancel_left_eq, trace_dropTail_eq_iff, EndsInSpaces,
      List.getLast?_concat]
    simp

/-- In front of another segment, the end of the words gets separators. -/
theorem exists_lead_eq (h : EndsInSpaces segments) :
    ∃ t, (∀ c ∈ t, isSeparator c = true) ∧
      lead segments = Text.dropTail Unicode.isBlank (words segments) ++ t := by
  rcases List.eq_nil_or_concat segments with rfl | ⟨init, last, rfl⟩
  · exact ⟨[], fun c hc => absurd hc List.not_mem_nil, rfl⟩
  · rw [List.concat_eq_append] at h ⊢
    have hspaces : ∀ c ∈ blankTail (leftover last), c = ' ' :=
      h last (by rw [List.getLast?_concat]; rfl)
    refine ⟨blankTail (leftover last) ++ ['-'], ?_, ?_⟩
    · refine List.forall_mem_append.2 ⟨fun c hc => ?_, List.forall_mem_singleton.2 rfl⟩
      rw [hspaces c hc]
      rfl
    · calc lead (init ++ [last])
          = lead init ++ (leftover last ++ ['-']) := by simp [lead]
        _ = lead init ++ ((Text.dropTail Unicode.isBlank (leftover last) ++
              blankTail (leftover last)) ++ ['-']) := by rw [dropTail_append_blankTail]
        _ = Text.dropTail Unicode.isBlank (words (init ++ [last])) ++
              (blankTail (leftover last) ++ ['-']) := by
          rw [words_concat, dropTail_lead, List.append_assoc, List.append_assoc]

theorem kept_of_not_holdsVersion (h : ∀ segment ∈ init, ∀ piece ∈ segment, piece.IsPlain) :
    ∀ segment ∈ init, (!holdsVersion segment) = true →
      (!carriesVersion (written segment)) = true := by
  intro segment hsegment hholds
  rw [Bool.not_eq_true'] at hholds ⊢
  rw [Bool.eq_false_iff, Ne, carriesVersion_written_iff (h segment hsegment)]
  intro hends
  rw [hends.holdsVersion] at hholds
  cases hholds

theorem length_solid_le (h : ∀ segment ∈ init, ∀ piece ∈ segment, piece.IsPlain) :
    (solid (init.filter fun segment => !holdsVersion segment)).length ≤
      (solid (init.filter fun segment => !carriesVersion (written segment))).length := by
  rw [solid, solid, length_flatMap_filter _ (kept_of_not_holdsVersion h)]
  exact Nat.le_add_right _ _

/-- If no more stays of the segments that are kept than of those without the version, the version
is on the last line of all that hold it. -/
theorem early_of_length_le (h : ∀ segment ∈ init, ∀ piece ∈ segment, piece.IsPlain)
    (hlen : (solid (init.filter fun segment => !carriesVersion (written segment))).length ≤
      (solid (init.filter fun segment => !holdsVersion segment)).length) :
    ∀ segment ∈ init, holdsVersion segment = true → EndsWithVersion segment := by
  intro segment hsegment hholds
  by_contra hends
  have hkept : (!carriesVersion (written segment)) = true := by
    rwa [Bool.not_eq_true', Bool.eq_false_iff, Ne, carriesVersion_written_iff (h segment hsegment)]
  have hnil : trace isSolid (leftover segment) = [] :=
    eq_nil_of_length_le (kept_of_not_holdsVersion h) hlen segment hsegment hkept
      (by rw [hholds]; rfl)
  exact absurd (trace_eq_nil_iff.1 hnil '\n' (break_mem_of_holdsVersion hholds hends)) (by decide)

theorem filter_eq_of_early (h : ∀ segment ∈ init, ∀ piece ∈ segment, piece.IsPlain)
    (hearly : ∀ segment ∈ init, holdsVersion segment = true → EndsWithVersion segment) :
    init.filter (fun segment => !carriesVersion (written segment)) =
      init.filter fun segment => !holdsVersion segment := by
  refine List.filter_congr fun segment hsegment => congrArg (!·) ?_
  rw [Bool.eq_iff_iff, carriesVersion_written_iff (h segment hsegment)]
  exact ⟨EndsWithVersion.holdsVersion, hearly segment hsegment⟩

theorem plain_filter {p : List Piece → Bool}
    (h : ∀ segment ∈ init, ∀ piece ∈ segment, piece.IsPlain) :
    ∀ segment ∈ init.filter p, ∀ piece ∈ segment, piece.IsPlain :=
  fun segment hsegment => h segment (List.mem_of_mem_filter hsegment)

/-- Where the last segment does not hold the version, all depends on the segments before it. -/
theorem camelCase_words_iff_of_last {m : List Char} (hm : IsAscii m)
    (h : ∀ segment ∈ init ++ [last], ∀ piece ∈ segment, piece.IsPlain) :
    camelCase false (m ++ '-' :: words (kept init last)) =
        camelCase false
          (m ++ '-' :: words (init.filter (fun segment => !holdsVersion segment) ++ [last])) ↔
      ∀ segment ∈ init, holdsVersion segment = true → EndsWithVersion segment := by
  obtain ⟨hinit, hlast⟩ := List.forall_mem_append.1 h
  constructor
  · intro heq
    have htrace := trace_of_camelCase_eq hm
      (isAscii_words (List.forall_mem_append.2 ⟨plain_filter hinit, hlast⟩))
      (isAscii_words (List.forall_mem_append.2 ⟨plain_filter hinit, hlast⟩)) heq
    rw [words_concat, words_concat, dropTail_lead, dropTail_lead, trace_append, trace_append,
      trace_lead, trace_lead] at htrace
    exact early_of_length_le hinit (congrArg List.length (List.append_cancel_right htrace)).le
  · intro hearly
    rw [kept, filter_eq_of_early hinit hearly]

/-- Where it does, something is seen of it unless only separators stay, and of the end of what stays
before it unless that ends in spaces. -/
theorem camelCase_words_iff {m : List Char} (hm : IsAscii m)
    (hblank : ∃ c ∈ m, Unicode.isBlank c = false)
    (h : ∀ segment ∈ init ++ [last], ∀ piece ∈ segment, piece.IsPlain) :
    camelCase false (m ++ '-' :: words (kept init last)) =
        camelCase false
          (m ++ '-' :: words (init.filter fun segment => !holdsVersion segment)) ↔
      (∀ segment ∈ init, holdsVersion segment = true → EndsWithVersion segment) ∧
        (∀ c ∈ Text.dropTail Unicode.isBlank (leftover last), isSeparator c = true) ∧
        EndsInSpaces (init.filter fun segment => !holdsVersion segment) := by
  obtain ⟨hinit, hlast⟩ := List.forall_mem_append.1 h
  have hrest := isAscii_words (plain_filter (p := fun segment => !holdsVersion segment) hinit)
  constructor
  · intro heq
    have htrace := trace_of_camelCase_eq hm
      (isAscii_words (List.forall_mem_append.2 ⟨plain_filter hinit, hlast⟩)) hrest heq
    rw [words_concat, dropTail_lead, trace_append, trace_lead] at htrace
    have hlen := congrArg List.length htrace
    have hshort := trace_dropTail_length_le
      (words (init.filter fun segment => !holdsVersion segment))
    have hmore := length_solid_le hinit
    rw [trace_words] at hshort
    rw [List.length_append] at hlen
    have hearly := early_of_length_le hinit (by omega)
    have hnil : trace isSolid (Text.dropTail Unicode.isBlank (leftover last)) = [] :=
      List.length_eq_zero_iff.1 (by omega)
    rw [hnil, List.append_nil, filter_eq_of_early hinit hearly] at htrace
    exact ⟨hearly, trace_eq_nil_iff.1 hnil, trace_dropTail_words_iff.1 htrace.symm⟩
  · rintro ⟨hearly, hlate, hends⟩
    obtain ⟨t, ht, hlead⟩ := exists_lead_eq hends
    have happend : ∀ c ∈ t ++ Text.dropTail Unicode.isBlank (leftover last), isSeparator c = true :=
      List.forall_mem_append.2 ⟨ht, hlate⟩
    refine camelCase_eq_of_append hm hrest hblank happend ?_
    rw [kept, filter_eq_of_early hinit hearly, words_concat, dropTail_lead, hlead,
      List.append_assoc]

/-- The name of an operation is the one without the segments that hold the version exactly if
nothing is seen of them. -/
theorem operationName_eq_iff (hmethod : IsAscii method.toList)
    (hblank : ∃ c ∈ method.toList, Unicode.isBlank c = false)
    (h : ∀ segment ∈ init ++ [last], ∀ piece ∈ segment, piece.IsPlain) :
    operationName (String.ofList (path (init ++ [last]))) method none =
        operationName (String.ofList (path
          ((init ++ [last]).filter fun segment => !holdsVersion segment))) method none ↔
      Unseen init last := by
  obtain ⟨hinit, hlast⟩ := List.forall_mem_append.1 h
  have hrest : ∀ segment ∈ (init ++ [last]).filter fun segment => !holdsVersion segment,
      (∀ piece ∈ segment, piece.IsPlain) ∧ holdsVersion segment = false := by
    intro segment hsegment
    obtain ⟨hmem, hnone⟩ := List.mem_filter.1 hsegment
    exact ⟨h segment hmem, by simpa using hnone⟩
  have hwords := pathWords_of_not_holdsVersion (fun segment hs => (hrest segment hs).1)
    (fun segment hs => (hrest segment hs).2)
  show String.ofList _ = String.ofList _ ↔ _
  rw [String.ofList_inj, String.toList_ofList, String.toList_ofList, pathWords_path h, hwords,
    ← words, ← words, List.filter_append]
  cases hholds : holdsVersion last with
  | true =>
    have hdropped : [last].filter (fun segment => !holdsVersion segment) = [] := by
      simp [hholds]
    rw [hdropped, List.append_nil, camelCase_words_iff hmethod hblank h]
    exact ⟨fun ⟨hearly, hlate, hends⟩ => ⟨hearly, fun _ => hlate, fun _ => hends⟩,
      fun hunseen => ⟨hunseen.early, hunseen.late hholds, hunseen.before hholds⟩⟩
  | false =>
    have hkept : [last].filter (fun segment => !holdsVersion segment) = [last] := by
      simp [hholds]
    rw [hkept, camelCase_words_iff_of_last hmethod h]
    refine ⟨fun hearly => ⟨hearly, fun hlate => ?_, fun hlate => ?_⟩, fun hunseen => hunseen.early⟩
    all_goals
      rw [hholds] at hlate
      cases hlate

end Name

/-- The segments of `/api/v{api-version}/pets/{id}` in front of the last one. -/
def petsPath : List (List Piece) :=
  [[], [.text "api".toList], [.text ['v'], versionPiece], [.text "pets".toList]]

/-- Its last segment. -/
def petSegment : List Piece := [.place "id".toList]

theorem operationName_eq_pets :
    IsAscii "delete".toList ∧ (∃ c ∈ "delete".toList, Unicode.isBlank c = false) ∧
      (∀ segment ∈ petsPath ++ [petSegment], ∀ piece ∈ segment, piece.IsPlain) ∧
      operationName (String.ofList (path (petsPath ++ [petSegment]))) "delete" none =
        operationName (String.ofList (path ((petsPath ++ [petSegment]).filter
          fun segment => !holdsVersion segment))) "delete" none := by
  have hmethod : IsAscii "delete".toList := by decide +kernel
  have hblank : ∃ c ∈ "delete".toList, Unicode.isBlank c = false := ⟨'d', by decide, by decide⟩
  have hplain : ∀ segment ∈ petsPath ++ [petSegment], ∀ piece ∈ segment,
      piece.IsPlain := by decide +kernel
  have hlast : ¬ holdsVersion petSegment = true := by decide
  have hearly : ∀ segment ∈ petsPath, holdsVersion segment = true → EndsWithVersion segment := by
    intro segment hmem hholds
    rcases List.mem_cons.1 hmem with rfl | hmem
    · cases hholds
    rcases List.mem_cons.1 hmem with rfl | hmem
    · exact absurd hholds (by decide)
    rcases List.mem_cons.1 hmem with rfl | hmem
    · exact ⟨[.text ['v']], [], rfl, by decide⟩
    · rw [List.mem_singleton.1 hmem] at hholds
      exact absurd hholds (by decide)
  refine ⟨hmethod, hblank, hplain, (operationName_eq_iff hmethod hblank hplain).2 ?_⟩
  exact ⟨hearly, fun hlate => absurd hlate hlast, fun hlate => absurd hlate hlast⟩

/-- Not every segment that holds the version is left out of a name: the last one stays. -/
theorem not_all_version_segments_dropped :
    ¬ ∀ (method : String) (segments : List (List Piece)), method ∈ Operation.methods →
      (∀ segment ∈ segments, ∀ piece ∈ segment, piece.IsPlain) →
      operationName (String.ofList (path segments)) method none =
        operationName (String.ofList (path
          (segments.filter fun segment => !holdsVersion segment))) method none := by
  intro h
  have heq := h "get" [[], [.text "pets".toList], [.text ['v'], versionPiece]] (by decide)
    (by decide +kernel)
  have hname := congrArg String.toList heq
  revert hname
  decide +kernel

end ApiModel.Identifier
