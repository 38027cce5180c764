import ApiModel.Dialect
import ApiModel.Pointer
import ApiModel.Proofs.Text.Cut
import ApiModel.Proofs.Text.Percent

/-!
# Pointers to definitions

A key is written into a pointer with its tildes, slashes and percent signs escaped, and reading
the pointer gives the key back, whatever it is made of.

**Theorem (`steps_toDefinition`).** The steps of the pointer to the definition of a key are the
place of the definitions and the key.
-/

namespace ApiModel

namespace Pointer

/-! ## Escaped keys -/

/-- What stands in a pointer for a character of a key, before percent signs are escaped. -/
def markChar (c : Char) : List Char :=
  if c = '~' then ['~', '0'] else if c = '/' then ['~', '1'] else [c]

/-- A key as it stands between two slashes. -/
def escapeStep (key : List Char) : List Char := Text.escapePercent (key.flatMap markChar)

theorem escapeStep_append (s t : List Char) :
    escapeStep (s ++ t) = escapeStep s ++ escapeStep t := by
  rw [escapeStep, List.flatMap_append, Text.escapePercent_append]
  rfl

theorem escapeStep_cons {c : Char} (htilde : c ≠ '~') (hslash : c ≠ '/') (hpercent : c ≠ '%')
    (key : List Char) : escapeStep (c :: key) = c :: escapeStep key := by
  have hmark : markChar c = [c] := by rw [markChar, if_neg htilde, if_neg hslash]
  rw [escapeStep, List.flatMap_cons, hmark]
  exact Text.escapePercent_cons hpercent _

theorem decodeStep_cons {c : Char} (htilde : c ≠ '~') (hpercent : c ≠ '%') (s : List Char) :
    decodeStep (c :: s) = c :: decodeStep s := by
  unfold decodeStep
  rw [Text.replacePair_cons htilde, Text.replacePair_cons htilde, Text.percentDecode_cons hpercent]

theorem decodeStep_tilde (s : List Char) : decodeStep ('~' :: '0' :: s) = '~' :: decodeStep s := by
  have hslash : Text.replacePair '~' '1' '/' ('~' :: '0' :: s) =
      '~' :: '0' :: Text.replacePair '~' '1' '/' s := by
    rw [Text.replacePair, if_neg (by decide), Text.replacePair_cons (by decide)]
  have htilde (t : List Char) : Text.replacePair '~' '0' '~' ('~' :: '0' :: t) =
      '~' :: Text.replacePair '~' '0' '~' t := by
    rw [Text.replacePair, if_pos (by decide)]
  unfold decodeStep
  rw [hslash, htilde, Text.percentDecode_cons (by decide)]

theorem decodeStep_slash (s : List Char) : decodeStep ('~' :: '1' :: s) = '/' :: decodeStep s := by
  have hslash : Text.replacePair '~' '1' '/' ('~' :: '1' :: s) =
      '/' :: Text.replacePair '~' '1' '/' s := by
    rw [Text.replacePair, if_pos (by decide)]
  unfold decodeStep
  rw [hslash, Text.replacePair_cons (by decide), Text.percentDecode_cons (by decide)]

theorem decodeStep_percent (s : List Char) :
    decodeStep ('%' :: '2' :: '5' :: s) = '%' :: decodeStep s := by
  have hpair (b c : Char) (t : List Char) : Text.replacePair '~' b c ('%' :: '2' :: '5' :: t) =
      '%' :: '2' :: '5' :: Text.replacePair '~' b c t := by
    rw [Text.replacePair_cons (by decide), Text.replacePair_cons (by decide),
      Text.replacePair_cons (by decide)]
  have hbyte : Text.hexByte? '2' '5' = some '%'.toNat := rfl
  unfold decodeStep
  rw [hpair, hpair, Text.percentDecode_escape hbyte (by decide), Char.ofNat_toNat]

/-- An escaped key is decoded to the key. -/
theorem decodeStep_escapeStep (key : List Char) : decodeStep (escapeStep key) = key := by
  induction key with
  | nil => rfl
  | cons c key ih =>
    by_cases htilde : c = '~'
    · subst htilde
      show decodeStep ('~' :: '0' :: escapeStep key) = _
      rw [decodeStep_tilde, ih]
    by_cases hslash : c = '/'
    · subst hslash
      show decodeStep ('~' :: '1' :: escapeStep key) = _
      rw [decodeStep_slash, ih]
    by_cases hpercent : c = '%'
    · subst hpercent
      show decodeStep ('%' :: '2' :: '5' :: escapeStep key) = _
      rw [decodeStep_percent, ih]
    · rw [escapeStep_cons htilde hslash hpercent, decodeStep_cons htilde hpercent, ih]

/-- No slash is left in an escaped key. -/
theorem slash_not_mem_escapeStep (key : List Char) : '/' ∉ escapeStep key := by
  induction key with
  | nil => exact List.not_mem_nil
  | cons c key ih =>
    by_cases htilde : c = '~'
    · subst htilde
      show '/' ∉ '~' :: '0' :: escapeStep key
      simp [ih]
    by_cases hslash : c = '/'
    · subst hslash
      show '/' ∉ '~' :: '1' :: escapeStep key
      simp [ih]
    by_cases hpercent : c = '%'
    · subst hpercent
      show '/' ∉ '%' :: '2' :: '5' :: escapeStep key
      simp [ih]
    · rw [escapeStep_cons htilde hslash hpercent]
      simp [ih, Ne.symm hslash]

theorem escapeStep_ne_nil {key : List Char} (h : key ≠ []) : escapeStep key ≠ [] := by
  intro hnil
  rw [← decodeStep_escapeStep key, hnil] at h
  exact h rfl

/-! ## Steps -/

/-- A key leads to its value. -/
theorem follow_get? {ref key : String} {n v : Node} (h : n.get? key = some v) :
    follow ref n key.toList = .ok v := by
  cases n with
  | map entries =>
    have hget : Node.getText? (String.ofList key.toList) entries = some v := by
      rw [String.ofList_toList]
      exact h
    simp only [follow, hget]
  | _ => cases h

/-! ## Pointers to definitions -/

/-- The pointer to the definition of a key. -/
def toDefinition (d : Dialect) (key : String) : String :=
  d.definitionMark ++ String.ofList (escapeStep key.toList)

/-- The steps from the root of a document to its definitions. -/
def definitionSteps : Dialect → List (List Char)
  | .v2 => ["definitions".toList]
  | .v3 => ["components".toList, "schemas".toList]

theorem toList_toDefinition (d : Dialect) (key : String) :
    (toDefinition d key).toList = d.definitionMark.toList ++ escapeStep key.toList := by
  rw [toDefinition, String.toList_append, String.toList_ofList]

/-- A pointer to a definition leads to the definitions and there to the key. -/
theorem steps_toDefinition (d : Dialect) {key : String} (h : key ≠ "") :
    steps (toDefinition d key) = definitionSteps d ++ [key.toList] := by
  have hkey : key.toList ≠ [] := fun hnil => h (String.toList_eq_nil_iff.1 hnil)
  have hsplit := Text.split_of_not_mem (slash_not_mem_escapeStep key.toList)
  have hkept : [escapeStep key.toList].filter (!·.isEmpty) = [escapeStep key.toList] := by
    simp [escapeStep_ne_nil hkey]
  unfold steps
  rw [toList_toDefinition]
  cases d with
  | v2 =>
    show ((Text.split '/' ([] ++ '/' :: ("definitions".toList ++
      '/' :: escapeStep key.toList))).filter _).map decodeStep = _
    rw [Text.split_append (by simp), Text.split_append (by decide), hsplit,
      List.filter_cons_of_neg (by simp), List.filter_cons_of_pos (by decide), hkept]
    simp only [List.map_cons, List.map_nil, decodeStep_escapeStep]
    rfl
  | v3 =>
    show ((Text.split '/' ([] ++ '/' :: ("components".toList ++ '/' :: ("schemas".toList ++
      '/' :: escapeStep key.toList)))).filter _).map decodeStep = _
    rw [Text.split_append (by simp), Text.split_append (by decide),
      Text.split_append (by decide), hsplit, List.filter_cons_of_neg (by simp),
      List.filter_cons_of_pos (by decide),
      List.filter_cons_of_pos (by decide), hkept]
    simp only [List.map_cons, List.map_nil, decodeStep_escapeStep]
    rfl

end Pointer

end ApiModel
