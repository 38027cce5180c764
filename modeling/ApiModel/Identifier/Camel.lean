import ApiModel.Text.Cut
import ApiModel.Unicode.Case
import ApiModel.Unicode.Word

/-!
# Camel case

A name of several words becomes one word. The words are told apart in two ways: by separators
and by capitals. `markBoundaries` puts a hyphen where capitals show a new word, before a capital
that follows a small letter and before the last capital of a run that goes on in small letters.
Then all becomes small, `joinWords` removes the separators and capitalises what follows them,
and `capitalAfterDigits` capitalises what follows a row of digits.
-/

namespace ApiModel.Identifier

/-- A separator of words. -/
def isSeparator (c : Char) : Bool := c == '_' || c == '.' || c == '-' || c == ' '

/-- An ASCII letter. -/
def isAsciiLetter (c : Char) : Bool := ('a' ≤ c && c ≤ 'z') || ('A' ≤ c && c ≤ 'Z')

/-- A letter or digit of any script. -/
def isLetterOrDigit (c : Char) : Bool := Unicode.isWord c && c != '_'

/-- Is the character a small letter with a capital? -/
def isSmallOfPair (c : Char) : Bool := Unicode.lowerChar c == [c] && Unicode.upperChar c != [c]

/-- Is the character a capital with a small letter? -/
def isCapitalOfPair (c : Char) : Bool := Unicode.upperChar c == [c] && Unicode.lowerChar c != [c]

/-- What the characters before a place say about it. -/
structure CaseTrail where
  afterSmall : Bool := false
  afterCapital : Bool := false
  /-- Is the character before the last a capital as well? -/
  afterTwoCapitals : Bool := false

/-- Put a hyphen at every boundary that capitals show. The last character waits in `pending`,
because the next one may show that a word begins with it. -/
def markBoundariesFrom (trail : CaseTrail) (pending : List Char) : List Char → List Char
  | [] => pending
  | c :: rest =>
    if trail.afterSmall && Unicode.isUpper c then
      pending ++ '-' :: markBoundariesFrom ⟨false, true, trail.afterCapital⟩ [c] rest
    else if trail.afterCapital && trail.afterTwoCapitals && Unicode.isLower c then
      '-' :: (pending ++ markBoundariesFrom ⟨true, false, true⟩ [c] rest)
    else
      pending ++
        markBoundariesFrom ⟨isSmallOfPair c, isCapitalOfPair c, trail.afterCapital⟩ [c] rest

/-- Put a hyphen at every boundary that capitals show. -/
def markBoundaries (s : List Char) : List Char := markBoundariesFrom {} [] s

/-- What is left of a row of separators before a character that is neither letter nor digit: an
underscore that is not the first of the row ends a word, and what follows the last such one
stays. -/
def looseSeparators (run : List Char) : List Char :=
  let tail := (run.reverse.takeWhile (· != '_')).reverse
  if tail.length + 1 < run.length then '_' :: tail else run

/-- Remove the separators, and capitalise the letter or digit after each row of them. The row
that has just been read waits in `run`. -/
def joinWordsFrom (run : List Char) : List Char → List Char
  | [] => []
  | c :: rest =>
    if isSeparator c then joinWordsFrom (run ++ [c]) rest
    else if run.isEmpty then c :: joinWordsFrom [] rest
    else if isLetterOrDigit c then Unicode.upperChar c ++ joinWordsFrom [] rest
    else looseSeparators run ++ c :: joinWordsFrom [] rest

/-- Remove the separators, and capitalise what follows each row of them. -/
def joinWords (s : List Char) : List Char := joinWordsFrom [] s

/-- Capitalise every character of a word that follows a digit. -/
def capitalAfterDigits (afterDigit : Bool) : List Char → List Char
  | [] => []
  | c :: rest =>
    (if afterDigit && Unicode.isWord c then Unicode.upperChar c else [c]) ++
      capitalAfterDigits (Unicode.isDecimal c) rest

/-- Capitalise the first character. -/
def capitalizeFirst : List Char → List Char
  | [] => []
  | c :: rest => Unicode.upperChar c ++ rest

/-- A name in camel case; the first letter becomes a capital if `pascal` is set. -/
def camelCase (pascal : Bool) (s : List Char) : List Char :=
  match Text.trim s with
  | [] => []
  | [c] => if pascal then Unicode.upperChar c else Unicode.lower [c]
  | trimmed =>
    let marked := if Unicode.lower trimmed == trimmed then trimmed else markBoundaries trimmed
    let small := Unicode.lower (marked.dropWhile isSeparator)
    let headed := if pascal then capitalizeFirst small else small
    capitalAfterDigits false (joinWords headed)

end ApiModel.Identifier
