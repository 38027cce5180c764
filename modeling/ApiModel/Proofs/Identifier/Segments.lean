import ApiModel.Proofs.Identifier.Letters
import ApiModel.Proofs.Text.Cut

/-!
# Segments of paths

A path is written as segments with slashes between them, a segment as texts and places of
parameters. What cuts a path does so by its characters; here it is said by its segments.

* The segments that are dropped from a path are those that hold the place of the version on their
  last line, the last segment aside (`carriesVersion_written_iff`).
* The words of a path are what stays of the other segments when their places are gone, with hyphens
  between them (`pathWords_path`). A place with a line feed in it stays.
-/

namespace ApiModel.Identifier

/-- A part of a segment: a text, or the place of a parameter. -/
inductive Piece where
  | text (s : List Char)
  | place (name : List Char)
  deriving DecidableEq

namespace Piece

/-- The part as it is written. -/
def written : Piece → List Char
  | text s => s
  | place name => '\x7b' :: (name ++ ['\x7d'])

/-- What stays of the part in a name: a place goes if it is on one line. -/
def leftover : Piece → List Char
  | text s => s
  | place name => if '\n' ∈ name then (place name).written else []

/-- ASCII, and without slashes and braces of its own. A text may hold a closing brace. -/
def IsPlain : Piece → Prop
  | text s => IsAscii s ∧ '/' ∉ s ∧ '\x7b' ∉ s
  | place name => IsAscii name ∧ '/' ∉ name ∧ '\x7b' ∉ name ∧ '\x7d' ∉ name

instance : DecidablePred IsPlain
  | text s => inferInstanceAs (Decidable (IsAscii s ∧ '/' ∉ s ∧ '\x7b' ∉ s))
  | place name =>
    inferInstanceAs (Decidable (IsAscii name ∧ '/' ∉ name ∧ '\x7b' ∉ name ∧ '\x7d' ∉ name))

end Piece

/-- The place of the version. -/
def versionPiece : Piece := .place "api-version".toList

/-- A segment as it is written. -/
def written (segment : List Piece) : List Char := segment.flatMap Piece.written

/-- What stays of a segment in a name. -/
def leftover (segment : List Piece) : List Char := segment.flatMap Piece.leftover

/-- A path as it is written. -/
def path (segments : List (List Piece)) : List Char := Text.join ['/'] (segments.map written)

/-- Does the segment hold the place of the version? -/
def holdsVersion (segment : List Piece) : Bool := segment.contains versionPiece

/-- The segment holds the place of the version on its last line. -/
def EndsWithVersion (segment : List Piece) : Prop :=
  ∃ front back, segment = front ++ versionPiece :: back ∧ '\n' ∉ written back

/-! ## Parts -/

section Piece

variable {piece : Piece} {segment front : List Piece} {c : Char}

theorem Piece.not_slash (h : piece.IsPlain) : '/' ∉ piece.written := by
  cases piece with
  | text s => exact h.2.1
  | place name =>
    have hname := h.2.1
    simp [Piece.written, hname]

theorem Piece.isAscii (h : piece.IsPlain) : IsAscii piece.written := by
  cases piece with
  | text s => exact h.1
  | place name =>
    have hclosing : IsAscii ['\x7d'] := List.forall_mem_singleton.2 rfl
    exact List.forall_mem_cons.2 ⟨rfl, List.forall_mem_append.2 ⟨h.1, hclosing⟩⟩

theorem Piece.mem_written_of_mem_leftover (h : c ∈ piece.leftover) : c ∈ piece.written := by
  cases piece with
  | text s => exact h
  | place name =>
    rw [Piece.leftover] at h
    split_ifs at h
    · exact h
    · cases h

/-- A line feed stays, whatever it stands in. -/
theorem Piece.break_mem_leftover (h : '\n' ∈ piece.written) : '\n' ∈ piece.leftover := by
  cases piece with
  | text s => exact h
  | place name =>
    have hname : '\n' ∈ name := by simpa [Piece.written] using h
    rwa [Piece.leftover, if_pos hname]

theorem written_cons : written (piece :: segment) = piece.written ++ written segment :=
  List.flatMap_cons

theorem leftover_cons : leftover (piece :: segment) = piece.leftover ++ leftover segment :=
  List.flatMap_cons

theorem not_slash_written (h : ∀ piece ∈ segment, piece.IsPlain) : '/' ∉ written segment := by
  intro hmem
  obtain ⟨piece, hpiece, hc⟩ := List.mem_flatMap.1 hmem
  exact Piece.not_slash (h piece hpiece) hc

theorem mem_written_of_mem_leftover (h : c ∈ leftover segment) : c ∈ written segment := by
  obtain ⟨piece, hpiece, hc⟩ := List.mem_flatMap.1 h
  exact List.mem_flatMap.2 ⟨piece, hpiece, Piece.mem_written_of_mem_leftover hc⟩

theorem break_mem_leftover (h : '\n' ∈ written segment) : '\n' ∈ leftover segment := by
  obtain ⟨piece, hpiece, hc⟩ := List.mem_flatMap.1 h
  exact List.mem_flatMap.2 ⟨piece, hpiece, Piece.break_mem_leftover hc⟩

theorem isAscii_leftover (h : ∀ piece ∈ segment, piece.IsPlain) : IsAscii (leftover segment) := by
  intro c hc
  obtain ⟨piece, hpiece, hc⟩ := List.mem_flatMap.1 (mem_written_of_mem_leftover hc)
  exact Piece.isAscii (h piece hpiece) c hc

/-- The place of a parameter goes, and what follows it is read on its own. -/
theorem Piece.replaceBraced_written (h : piece.IsPlain) (t : List Char) :
    Text.replaceBraced (fun _ => []) (piece.written ++ t) =
      piece.leftover ++ Text.replaceBraced (fun _ => []) t := by
  cases piece with
  | text s => exact Text.replaceBraced_append h.2.2
  | place name =>
    obtain ⟨-, -, hopen, hclose⟩ := h
    rw [Piece.leftover]
    split_ifs with hbreak
    · have hnone : Text.braced? (name ++ ['\x7d'] ++ t) = none := by
        rw [List.append_assoc]
        exact Text.braced?_of_break hclose hbreak
      have hplain : '\x7b' ∉ name ++ ['\x7d'] := by simp [hopen]
      rw [Piece.written, List.cons_append, Text.replaceBraced_cons (.inr hnone),
        Text.replaceBraced_append hplain, List.cons_append]
    · rw [Piece.written, List.cons_append, List.append_assoc, List.singleton_append]
      exact Text.replaceBraced_braced hclose hbreak

theorem replaceBraced_written (h : ∀ piece ∈ segment, piece.IsPlain) (t : List Char) :
    Text.replaceBraced (fun _ => []) (written segment ++ t) =
      leftover segment ++ Text.replaceBraced (fun _ => []) t := by
  induction segment with
  | nil => rfl
  | cons piece segment ih =>
    obtain ⟨hpiece, hsegment⟩ := List.forall_mem_cons.1 h
    rw [written_cons, leftover_cons, List.append_assoc, List.append_assoc,
      Piece.replaceBraced_written hpiece, ih hsegment]

end Piece

/-! ## Occurrences of the version -/

section Version

variable {segment : List Piece}

/-- Where a place is read in a segment, it is a part of the segment. -/
theorem exists_piece_of_written {name s t : List Char} (hname : '\x7d' ∉ name)
    (h : ∀ piece ∈ segment, piece.IsPlain)
    (heq : written segment = s ++ '\x7b' :: (name ++ '\x7d' :: t)) :
    ∃ front back, segment = front ++ .place name :: back ∧ t = written back := by
  induction segment generalizing s with
  | nil => simp [written] at heq
  | cons piece segment ih =>
    obtain ⟨hpiece, hsegment⟩ := List.forall_mem_cons.1 h
    have hlater {u : List Char} (hu : written segment = u ++ '\x7b' :: (name ++ '\x7d' :: t)) :
        ∃ front back, piece :: segment = front ++ .place name :: back ∧ t = written back := by
      obtain ⟨front, back, rfl, rfl⟩ := ih hsegment hu
      exact ⟨piece :: front, back, rfl, rfl⟩
    rw [written_cons] at heq
    cases piece with
    | text text =>
      obtain ⟨u, -, hu⟩ := Text.exists_of_append_eq hpiece.2.2 heq
      exact hlater hu
    | place other =>
      obtain ⟨-, -, hopen, hclose⟩ := hpiece
      cases s with
      | nil =>
        rw [Piece.written, List.cons_append, List.append_assoc, List.singleton_append] at heq
        obtain ⟨rfl, rfl⟩ := Text.append_cons_inj hclose hname (List.cons.inj heq).2
        exact ⟨[], segment, rfl, rfl⟩
      | cons c s =>
        have hplain : '\x7b' ∉ other ++ ['\x7d'] := by simp [hopen]
        obtain ⟨u, -, hu⟩ := Text.exists_of_append_eq hplain (List.cons.inj heq).2
        exact hlater hu

theorem carriesVersion_written_iff (h : ∀ piece ∈ segment, piece.IsPlain) :
    carriesVersion (written segment) = true ↔ EndsWithVersion segment := by
  rw [carriesVersion, Text.occursIn_iff, Text.infix_after_last_iff (by decide)]
  constructor
  · rintro ⟨s, t, heq, hbreak⟩
    rw [List.append_assoc] at heq
    have hclose : '\x7d' ∉ "api-version".toList := by decide
    obtain ⟨front, back, rfl, rfl⟩ := exists_piece_of_written hclose h heq
    exact ⟨front, back, rfl, hbreak⟩
  · rintro ⟨front, back, rfl, hbreak⟩
    refine ⟨written front, written back, ?_, hbreak⟩
    rw [written, List.flatMap_append, List.flatMap_cons, List.append_assoc]
    rfl

theorem EndsWithVersion.holdsVersion (h : EndsWithVersion segment) :
    holdsVersion segment = true := by
  obtain ⟨front, back, rfl, -⟩ := h
  exact List.contains_iff_mem.2 (List.mem_append_right front List.mem_cons_self)

/-- A segment that holds the version, but not on its last line, has a line feed in what stays. -/
theorem break_mem_of_holdsVersion (h : holdsVersion segment = true)
    (hends : ¬ EndsWithVersion segment) : '\n' ∈ leftover segment := by
  obtain ⟨front, back, rfl⟩ := List.append_of_mem (List.contains_iff_mem.1 h)
  have hback : '\n' ∈ written back := by
    by_contra hbreak
    exact hends ⟨front, back, rfl, hbreak⟩
  rw [leftover, List.flatMap_append, List.flatMap_cons]
  exact List.mem_append_right _ (List.mem_append_right _ (break_mem_leftover hback))

end Version

/-! ## The words of a path -/

section Path

variable {segments : List (List Piece)}

theorem replaceBraced_path (h : ∀ segment ∈ segments, ∀ piece ∈ segment, piece.IsPlain) :
    Text.replaceBraced (fun _ => []) (path segments) = Text.join ['/'] (segments.map leftover) := by
  induction segments with
  | nil => rw [path, List.map_nil, Text.join, Text.replaceBraced]; rfl
  | cons segment segments ih =>
    obtain ⟨hsegment, hsegments⟩ := List.forall_mem_cons.1 h
    by_cases hnil : segments = []
    · subst hnil
      have hall := replaceBraced_written hsegment []
      rw [List.append_nil, Text.replaceBraced, List.append_nil] at hall
      exact hall
    · have hslash (t : List Char) : Text.replaceBraced (fun _ => []) ('/' :: t) =
          '/' :: Text.replaceBraced (fun _ => []) t :=
        Text.replaceBraced_cons (.inl (by decide))
      rw [path, List.map_cons, List.map_cons, Text.join_cons _ _ (by simpa using hnil),
        Text.join_cons _ _ (by simpa using hnil), List.append_assoc, List.singleton_append,
        replaceBraced_written hsegment, hslash, List.append_assoc, List.singleton_append,
        ← ih hsegments, path]

theorem split_path (hne : segments ≠ [])
    (h : ∀ segment ∈ segments, ∀ piece ∈ segment, piece.IsPlain) :
    Text.split '/' (path segments) = segments.map written := by
  refine Text.split_join (by simpa using hne) ?_
  rw [List.forall_mem_map]
  exact fun segment hsegment => not_slash_written (h segment hsegment)

/-- The segments that a name is made from. -/
def kept (init : List (List Piece)) (last : List Piece) : List (List Piece) :=
  init.filter (fun segment => !carriesVersion (written segment)) ++ [last]

theorem dropVersion_path {init : List (List Piece)} {last : List Piece}
    (h : ∀ segment ∈ init ++ [last], ∀ piece ∈ segment, piece.IsPlain) :
    dropVersion (path (init ++ [last])) = path (kept init last) := by
  rw [dropVersion, split_path (by simp) h]
  simp only [List.map_append, List.map_cons, List.map_nil, List.dropLast_concat, List.filter_map,
    List.getLast?_concat, Option.toList_some, path, kept]
  rfl

theorem map_leftover (h : ∀ segment ∈ segments, ∀ piece ∈ segment, piece.IsPlain) :
    (segments.map leftover).map (·.map fun c => if c == '/' then '-' else c) =
      segments.map leftover := by
  rw [List.map_map]
  refine List.map_congr_left fun segment hsegment => ?_
  have hself : ∀ c ∈ leftover segment, (if c == '/' then '-' else c) = c := by
    intro c hc
    rw [if_neg]
    rintro hslash
    rw [beq_iff_eq] at hslash
    exact not_slash_written (h segment hsegment) (hslash ▸ mem_written_of_mem_leftover hc)
  exact (List.map_congr_left hself).trans (List.map_id _)

/-- The words of a path are what stays of the segments that are kept. -/
theorem pathWords_path {init : List (List Piece)} {last : List Piece}
    (h : ∀ segment ∈ init ++ [last], ∀ piece ∈ segment, piece.IsPlain) :
    pathWords (path (init ++ [last])) = Text.join ['-'] ((kept init last).map leftover) := by
  have hkept : ∀ segment ∈ kept init last, ∀ piece ∈ segment, piece.IsPlain := by
    intro segment hsegment
    refine h segment ?_
    rcases List.mem_append.1 hsegment with hinit | hlast
    · exact List.mem_append_left _ (List.mem_of_mem_filter hinit)
    · exact List.mem_append_right _ hlast
  rw [pathWords, dropVersion_path h, replaceBraced_path hkept, Text.map_join, map_leftover hkept]
  rfl

/-- Of a path in which no segment holds the version, all segments are kept. -/
theorem pathWords_of_not_holdsVersion
    (h : ∀ segment ∈ segments, ∀ piece ∈ segment, piece.IsPlain)
    (hnone : ∀ segment ∈ segments, holdsVersion segment = false) :
    pathWords (path segments) = Text.join ['-'] (segments.map leftover) := by
  rcases List.eq_nil_or_concat segments with rfl | ⟨init, last, rfl⟩
  · rw [pathWords, show dropVersion (path []) = [] from rfl, Text.replaceBraced]
    rfl
  · rw [List.concat_eq_append] at h hnone ⊢
    rw [pathWords_path h, kept, List.filter_eq_self.2]
    intro segment hsegment
    have hmem : segment ∈ init ++ [last] := List.mem_append_left _ hsegment
    rw [Bool.not_eq_true', Bool.eq_false_iff]
    intro hcarries
    have hholds := ((carriesVersion_written_iff (h segment hmem)).1 hcarries).holdsVersion
    rw [hnone segment hmem] at hholds
    cases hholds

end Path

end ApiModel.Identifier
