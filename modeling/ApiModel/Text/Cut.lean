import ApiModel.Unicode.Blank

/-!
# Cutting and joining texts

Texts are lists of characters here, and every function is a plain recursion on the list. A text
is cut at a separator into the pieces between its occurrences, so that joining the pieces with
the separator gives the text back.
-/

namespace ApiModel.Text

/-- Drop the longest tail whose characters all satisfy `p`. -/
def dropTail (p : Char → Bool) (s : List Char) : List Char :=
  (s.reverse.dropWhile p).reverse

/-- Remove white space at both ends. -/
def trim (s : List Char) : List Char :=
  dropTail Unicode.isBlank (s.dropWhile Unicode.isBlank)

/-- Remove the white space that may surround a number. -/
def trimSpacing (s : List Char) : List Char :=
  dropTail Unicode.isSpacing (s.dropWhile Unicode.isSpacing)

/-- The pieces of a text between the occurrences of a separator. -/
def split (sep : Char) : List Char → List (List Char)
  | [] => [[]]
  | c :: rest =>
    if c == sep then [] :: split sep rest
    else
      match split sep rest with
      | piece :: pieces => (c :: piece) :: pieces
      | [] => [[c]]

/-- The pieces, with a separator between each two. -/
def join (sep : List Char) : List (List Char) → List Char
  | [] => []
  | [piece] => piece
  | piece :: pieces => piece ++ sep ++ join sep pieces

/-- What follows `head` in a text that starts with it. -/
def after? : List Char → List Char → Option (List Char)
  | [], s => some s
  | _ :: _, [] => none
  | h :: head, c :: s => if h == c then after? head s else none

/-- Replace every occurrence of the two characters `a` and `b`, in this order, by `c`. -/
def replacePair (a b c : Char) : List Char → List Char
  | x :: y :: rest =>
    if x == a && y == b then c :: replacePair a b c rest
    else x :: replacePair a b c (y :: rest)
  | s => s

/-- Does a text occur inside another? -/
def occursIn (part : List Char) : List Char → Bool
  | [] => part.isEmpty
  | c :: rest => (after? part (c :: rest)).isSome || occursIn part rest

/-- The text before the first occurrence of a separator: the whole text if there is none. -/
def before (sep : Char) (s : List Char) : List Char :=
  s.takeWhile (· != sep)

/-- Every line ending, one or two characters long, as a line feed. -/
def unifyLineEnds (s : List Char) : List Char :=
  (replacePair '\r' '\n' '\n' s).map fun c => if c == '\r' then '\n' else c

/-- Replace every maximal run of characters that satisfy `p` by one mark. -/
def squeeze (p : Char → Bool) (mark : Char) (s : List Char) : List Char := go false s
where
  /-- The rest of a text, after a run or not. -/
  go (inRun : Bool) : List Char → List Char
    | [] => []
    | c :: rest =>
      if p c then (if inRun then go true rest else mark :: go true rest) else c :: go false rest

/-- Split off what stands in braces at the front, the opening brace being gone: the text up to
the nearest closing brace of the same line, and what follows that brace. -/
def braced? : List Char → Option (List Char × List Char)
  | [] => none
  | c :: rest =>
    if c == '\x7d' then some ([], rest)
    else if c == '\n' then none
    else (braced? rest).map fun (inner, after) => (c :: inner, after)

theorem length_of_braced? {s inner rest : List Char} (h : braced? s = some (inner, rest)) :
    rest.length < s.length := by
  induction s generalizing inner with
  | nil => simp [braced?] at h
  | cons c s ih =>
    unfold braced? at h
    split at h
    · simp_all
    · split at h
      · simp at h
      · simp only [Option.map_eq_some_iff, Prod.mk.injEq, Prod.exists] at h
        obtain ⟨a, b, hab, _, rfl⟩ := h
        have := ih hab
        simp only [List.length_cons]
        omega

/-- Replace everything that stands in braces, braces included, by what `f` makes of it. -/
def replaceBraced (f : List Char → List Char) : List Char → List Char
  | [] => []
  | c :: rest =>
    if c == '\x7b' then
      match h : braced? rest with
      | some (inner, after) =>
        have := length_of_braced? h
        f inner ++ replaceBraced f after
      | none => c :: replaceBraced f rest
    else c :: replaceBraced f rest
termination_by s => s.length

end ApiModel.Text
