import ApiModel.Failure
import ApiModel.Proofs.Json.LongRows
import ApiModel.Source.Reading

/-!
# What comes of decoding a text

A text is decoded to a mapping, or the failure says which source holds no specification. The one
way out of this is a decoder that *stumbles*: it accepts the form of a text, but meets a value in
it that it cannot represent, such as a day that no calendar has or an integer with thousands of
digits. Neither decoder counts this as a fault of the text, so nothing foresees it.

**Theorem (`foreseen_decode_iff`).** Decoding ends as foreseen exactly if no decoder that is asked
stumbles. Without a hint a text that is JSON is never taken for YAML, and one that is not becomes
the mapping that it is as YAML, unless the JSON decoder stumbles at a row of too many digits in it.

All of this holds of any YAML decoder: only the three ways in which it may end are told apart.
-/

namespace ApiModel

/-! ## Decoders that stumble -/

namespace Yaml

/-- The decoder meets a value that it cannot represent. -/
def Stumbles (yaml : Reader) (s : String) : Prop := yaml s = .error .unusable

instance (yaml : Reader) (s : String) : Decidable (Stumbles yaml s) :=
  match h : yaml s with
  | .error .unusable => .isTrue h
  | .error .invalid => .isFalse fun hstumbles => nomatch h.symm.trans hstumbles
  | .ok _ => .isFalse fun hstumbles => nomatch h.symm.trans hstumbles

end Yaml

namespace Source

/-- A decoder that is asked about the text stumbles. Without a hint the YAML decoder is asked about
what is not JSON. -/
def Stumbles (yaml : Yaml.Reader) (text : String) : Hint → Prop
  | .json => Json.Stumbles text
  | .yaml => Yaml.Stumbles yaml text
  | .unknown => Json.Stumbles text ∨ ¬ (Json.read text).isOk ∧ Yaml.Stumbles yaml text

instance (yaml : Yaml.Reader) (text : String) : (hint : Hint) → Decidable (Stumbles yaml text hint)
  | .json => inferInstanceAs (Decidable (Json.Stumbles text))
  | .yaml => inferInstanceAs (Decidable (Yaml.Stumbles yaml text))
  | .unknown => inferInstanceAs
    (Decidable (Json.Stumbles text ∨ ¬ (Json.read text).isOk ∧ Yaml.Stumbles yaml text))

/-! ## Foreseen ends -/

/-- The decoding ends with a mapping, or with a failure of the specification that names its
source. -/
def Foreseen (source : String) : Except Fault Yaml.Document → Prop
  | .ok document => document.root.isMap = true
  | .error fault =>
    (Failure.source fault).kind? = some .specification ∧
      ∃ rest, fault.message = source ++ ": " ++ rest

variable {yaml : Yaml.Reader} {text source : String}

theorem not_foreseen_unusable : ¬ Foreseen source (.error .unusable) := by
  rintro ⟨hkind, -⟩
  cases hkind

/-- A failure of the specification with a message that starts with its source. -/
theorem foreseen_error {fault : Fault} (hkind : (Failure.source fault).kind? = some .specification)
    {start front rest : String} (hmessage : fault.message = source ++ start ++ rest)
    (hstart : start = ": " ++ front) : Foreseen source (.error fault) := by
  refine ⟨hkind, front ++ rest, ?_⟩
  rw [hmessage, hstart, String.append_assoc, String.append_assoc, String.append_assoc]

theorem foreseen_notJson (e : Json.Error) : Foreseen source (.error (.notJson source e)) :=
  foreseen_error rfl rfl (by decide : _ = ": " ++ "invalid JSON: ")

theorem foreseen_undecodable (json : Option Json.Error) :
    Foreseen source (.error (.undecodable source json)) :=
  foreseen_error rfl rfl (by decide : _ = ": " ++ "failed to parse spec as JSON or YAML\n  ")

theorem foreseen_requireMapping (document : Yaml.Document) :
    Foreseen source (requireMapping source document) := by
  unfold requireMapping
  split_ifs with h
  · exact h
  · exact foreseen_error rfl rfl
      (by decide : _ = ": " ++ "expected a mapping at the top level, got ")

/-! ## The two decoders -/

theorem decodeYaml_of_stumbles (h : Yaml.Stumbles yaml text) (json : Option Json.Error) :
    decodeYaml yaml source text json = .error .unusable := by
  rw [decodeYaml, h]

theorem foreseen_decodeYaml_iff (json : Option Json.Error) :
    Foreseen source (decodeYaml yaml source text json) ↔ ¬ Yaml.Stumbles yaml text := by
  constructor
  · intro hforeseen h
    rw [decodeYaml_of_stumbles h] at hforeseen
    exact not_foreseen_unusable hforeseen
  · intro h
    unfold decodeYaml
    split
    · exact foreseen_requireMapping _
    · exact foreseen_undecodable json
    · exact absurd ‹_› h

/-- A mapping that the YAML decoder finds does not depend on what the JSON decoder found before. -/
theorem decodeYaml_eq_ok_iff {json : Option Json.Error} {d : Yaml.Document} :
    decodeYaml yaml source text json = .ok d ↔ decodeYaml yaml source text none = .ok d := by
  unfold decodeYaml
  split <;> simp

theorem decodeJson_of_ok {root : Node} (h : Json.read text = .ok root) (hint : Hint) :
    decodeJson yaml source text hint = requireMapping source ⟨root, false⟩ := by
  rw [decodeJson, h]

theorem decodeJson_of_stumbles (h : Json.Stumbles text) (hint : Hint) :
    decodeJson yaml source text hint = .error .unusable := by
  obtain ⟨e, hread, hhuge⟩ := h
  simp only [decodeJson, hread, if_pos hhuge]

/-- What the JSON decoder finds to be no JSON is a failure with its hint, and YAML without one. -/
theorem decodeJson_of_error {e : Json.Error} (h : Json.read text = .error e)
    (hjson : ¬ Json.Stumbles text) (hint : Hint) :
    decodeJson yaml source text hint =
      if hint = .json then .error (.notJson source e)
      else decodeYaml yaml source text (some e) := by
  rw [Json.stumbles_iff_of_error h] at hjson
  simp only [decodeJson, h, if_neg hjson]

theorem foreseen_decodeJson_iff :
    Foreseen source (decodeJson yaml source text .json) ↔ ¬ Json.Stumbles text := by
  constructor
  · intro hforeseen h
    rw [decodeJson_of_stumbles h] at hforeseen
    exact not_foreseen_unusable hforeseen
  · intro h
    cases hread : Json.read text with
    | ok root =>
      rw [decodeJson_of_ok hread]
      exact foreseen_requireMapping _
    | error e =>
      rw [decodeJson_of_error hread h, if_pos rfl]
      exact foreseen_notJson e

theorem foreseen_decodeEither_iff :
    Foreseen source (decodeJson yaml source text .unknown) ↔ ¬ Stumbles yaml text .unknown := by
  by_cases hjson : Json.Stumbles text
  · rw [decodeJson_of_stumbles hjson]
    exact iff_of_false not_foreseen_unusable (not_not_intro (.inl hjson))
  · cases hread : Json.read text with
    | ok root =>
      rw [decodeJson_of_ok hread]
      refine iff_of_true (foreseen_requireMapping _) ?_
      rintro (h | ⟨hnot, -⟩)
      · exact hjson h
      · exact hnot (by rw [hread]; rfl)
    | error e =>
      rw [decodeJson_of_error hread hjson, if_neg nofun, foreseen_decodeYaml_iff]
      have hnot : ¬ (Json.read text).isOk := by
        rw [hread]
        exact Bool.false_ne_true
      exact not_congr ⟨fun h => .inr ⟨hnot, h⟩, fun h => (h.resolve_left hjson).2⟩

/-! ## Decoding -/

/-- Decoding ends with a mapping, or with a failure of the specification that names the source,
exactly if no decoder that is asked stumbles. Without a hint, a text that is JSON is what the JSON
decoder says of it, whatever it is as YAML. A text that is not JSON and is a mapping as YAML becomes
this mapping exactly if the JSON decoder does not stumble at it; where it does, the text holds a row
of more digits than an integer may have. -/
theorem foreseen_decode_iff (yaml : Yaml.Reader) (text word source : String) :
    (Foreseen source (decode yaml text (.ofWord word) source) ↔
        ¬ Stumbles yaml text (.ofWord word)) ∧
      (∀ root, Json.read text = .ok root →
        decode yaml text .unknown source = requireMapping source ⟨root, false⟩) ∧
      (∀ e d, Json.read text = .error e → decode yaml text .yaml source = .ok d →
        (decode yaml text .unknown source = .ok d ↔ ¬ Json.Stumbles text)) ∧
      (Json.Stumbles text → Json.HasLongRow text.toList) := by
  refine ⟨?_, fun root hread => decodeJson_of_ok hread .unknown, ?_, Json.Stumbles.hasLongRow⟩
  · generalize Hint.ofWord word = hint
    cases hint with
    | json => exact foreseen_decodeJson_iff
    | yaml => exact foreseen_decodeYaml_iff none
    | unknown => exact foreseen_decodeEither_iff
  · intro e d hread hyaml
    have hsame : decodeYaml yaml source text (some e) = .ok d := decodeYaml_eq_ok_iff.2 hyaml
    constructor
    · intro hdecode hstumbles
      cases (decodeJson_of_stumbles hstumbles .unknown).symm.trans hdecode
    · intro hjson
      exact (decodeJson_of_error hread hjson .unknown).trans hsame

/-- Without a hint, a text with a day that no calendar has ends in a failure that nothing
foresees. -/
theorem not_all_texts_foreseen :
    ¬ ∀ text word source, Foreseen source (decode Yaml.read text (.ofWord word) source) := by
  intro h
  have hstumbles : Stumbles Yaml.read "a: 2024-13-45\n" .unknown := by decide +kernel
  exact foreseen_decodeEither_iff.1 (h _ "" "spec") hstumbles

example : ¬ Stumbles Yaml.read "a: 2024-12-31\n" .unknown := by decide +kernel

end Source

end ApiModel
