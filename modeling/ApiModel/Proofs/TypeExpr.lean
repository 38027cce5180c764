import ApiModel.Proofs.Pointer
import ApiModel.TypeExpr
import Mathlib.Data.List.Basic
import Mathlib.Tactic.SplitIfs

/-!
# Names of definitions and of references to them

The name of a definition and the type of a reference are both read from the key of the
definition, but not from the same text. For the definition the key is read as if it were a
reference: it may be a primitive, what stands before a name is dropped, and percent escapes are
decoded. For the reference the key is read as it stands in the pointer once the percent escapes
are decoded, with its tildes and slashes still escaped. At the end a reserved word is marked, but
only in the name of the definition.

**Theorem (`schemaName_eq_base_iff`).** Both give the same name exactly for four primitives and
for the keys that are no primitives and whose two readings agree.

**Theorem (`namesAgree_iff_of_plain`).** In a plain key, one without tildes, slashes and percent
signs and without white space in front, only primitives and reserved words are in the way.

**Theorem (`schemaName_ne_empty`).** Whatever the key, the name is not empty.
-/

namespace ApiModel

open Pointer

/-! ## Trimmed keys -/

/-- The last character of an escaped character is white space only if that is. -/
theorem exists_last_escapeStep {c : Char} (hc : Unicode.isBlank c = false) :
    ∃ front last, escapeStep [c] = front ++ [last] ∧ Unicode.isBlank last = false := by
  by_cases htilde : c = '~'
  · exact ⟨['~'], '0', by rw [htilde]; rfl, by decide⟩
  by_cases hslash : c = '/'
  · exact ⟨['~'], '1', by rw [hslash]; rfl, by decide⟩
  by_cases hpercent : c = '%'
  · exact ⟨['%', '2'], '5', by rw [hpercent]; rfl, by decide⟩
  · exact ⟨[], c, escapeStep_cons htilde hslash hpercent [], hc⟩

theorem escapeStep_blank {c : Char} (hc : Unicode.isBlank c = true) : escapeStep [c] = [c] := by
  have hne (a : Char) (ha : Unicode.isBlank a = false) : c ≠ a := by
    intro heq
    rw [heq, ha] at hc
    exact Bool.false_ne_true hc
  exact escapeStep_cons (hne '~' (by decide)) (hne '/' (by decide)) (hne '%' (by decide)) []

/-- White space at the end of a key can be removed before or after it is escaped. -/
theorem dropTail_escapeStep (key : List Char) :
    Text.dropTail Unicode.isBlank (escapeStep key) =
      escapeStep (Text.dropTail Unicode.isBlank key) := by
  induction key using List.reverseRecOn with
  | nil => rfl
  | append_singleton key c ih =>
    rw [escapeStep_append]
    cases hblank : Unicode.isBlank c with
    | true =>
      rw [escapeStep_blank hblank, Text.dropTail_concat_of_pos hblank,
        Text.dropTail_concat_of_pos hblank, ih]
    | false =>
      obtain ⟨front, last, hchar, hlast⟩ := exists_last_escapeStep hblank
      rw [Text.dropTail_concat_of_neg hblank, escapeStep_append, hchar, ← List.append_assoc,
        Text.dropTail_concat_of_neg hlast]

/-! ## What a reference reads -/

/-- What stands before the name of a definition is dropped, and white space behind the name. -/
theorem bareName_definitionMark (d : Dialect) (s : List Char) :
    d.bareName (d.definitionMark.toList ++ s) = Text.dropTail Unicode.isBlank s := by
  have htrim : Text.trim (d.definitionMark.toList ++ s) =
      d.definitionMark.toList ++ Text.dropTail Unicode.isBlank s := by
    cases d with
    | v2 => exact @Text.dropTail_append Unicode.isBlank '/' (by decide) "#/definitions".toList _
    | v3 =>
      exact @Text.dropTail_append Unicode.isBlank '/' (by decide) "#/components/schemas".toList _
  have hmarks : ∃ marks, d.marks = d.definitionMark :: marks := by cases d <;> exact ⟨_, rfl⟩
  obtain ⟨marks, hmarks⟩ := hmarks
  rw [Dialect.bareName, htrim, hmarks, Dialect.dropFirstMark, Text.after?_eq_some.2 rfl,
    Option.getD_some]

namespace TypeExpr

/-- What no word of a primitive has keeps a text from being one. -/
theorem primitive?_eq_none {P : String → Prop} (h : ∀ p ∈ primitives, ¬ P p.1) {s : String}
    (hs : P s) : primitive? s .null = none := by
  show primitives.lookup s = none
  rw [List.lookup_eq_none_iff]
  intro p hp
  rw [bne_iff_ne]
  rintro rfl
  exact h p hp hs

/-- No primitive is written like a reference. -/
theorem primitive?_definitionMark (d : Dialect) (s : String) :
    primitive? (d.definitionMark ++ s) .null = none := by
  refine primitive?_eq_none (P := fun s => s.toList.head? = some '#') (by decide) ?_
  rw [String.toList_append]
  cases d <;> rfl

/-- The type of a reference is read from what stands behind the mark of definitions. -/
theorem ofRef_definitionMark (d : Dialect) (s : List Char) :
    ofRef d (d.definitionMark ++ String.ofList s) =
      ofBareName (Text.percentDecode (Text.dropTail Unicode.isBlank s)) := by
  have hne : d.definitionMark ++ String.ofList s ≠ "" := by
    intro h
    have hlist := congrArg String.toList h
    rw [String.toList_append] at hlist
    cases d <;> cases hlist
  rw [ofRef, ofName, if_neg hne, primitive?_definitionMark]
  show ofBareName (Text.percentDecode (d.bareName _)) = _
  rw [String.toList_append, String.toList_ofList, bareName_definitionMark]

/-- The type to which a reference to the definition of a key leads. -/
theorem ofRef_toDefinition (d : Dialect) (key : String) :
    ofRef d (toDefinition d key) =
      ofBareName ((Text.dropTail Unicode.isBlank key.toList).flatMap markChar) := by
  rw [toDefinition, ofRef_definitionMark, dropTail_escapeStep]
  exact congrArg ofBareName (Text.percentDecode_escapePercent _)

/-! ## Where the names agree -/

/-- The definition of a key and the references to it give one name: the key is a primitive that
is called what it is, or it is no primitive and reads the same in both. -/
def NamesAgree (d : Dialect) (key : String) : Prop :=
  key ∈ ["any", "boolean", "number", "string"] ∨
    primitives.lookup key = none ∧
      Identifier.escapeReserved (ofBareName (Text.percentDecode (d.bareName key.toList))).base =
        (ofBareName ((Text.dropTail Unicode.isBlank key.toList).flatMap markChar)).base

theorem schemaName_of_primitive (d : Dialect) {key p : String} (hkey : key ≠ "")
    (h : primitives.lookup key = some p) :
    d.schemaName (.text key) = Identifier.escapeReserved p := by
  have hprimitive : primitive? key .null = some p := h
  show Identifier.escapeReserved (ofName d key .null).base = _
  rw [ofName, if_neg hkey, hprimitive]
  rfl

theorem schemaName_of_other (d : Dialect) {key : String} (hkey : key ≠ "")
    (h : primitives.lookup key = none) :
    d.schemaName (.text key) = Identifier.escapeReserved
      (ofBareName (Text.percentDecode (d.bareName key.toList))).base := by
  have hprimitive : primitive? key .null = none := h
  show Identifier.escapeReserved (ofName d key .null).base = _
  rw [ofName, if_neg hkey, hprimitive]

/-- Where the name of a definition is that of the references to it. -/
theorem schemaName_eq_base_iff (d : Dialect) {key : String} (hkey : key ≠ "") :
    d.schemaName (.text key) = (ofRef d (toDefinition d key)).base ↔ NamesAgree d key := by
  rw [ofRef_toDefinition]
  cases h : primitives.lookup key with
  | some p =>
    have hprimitives : ∀ q ∈ primitives,
        (Identifier.escapeReserved q.2 =
            (ofBareName ((Text.dropTail Unicode.isBlank q.1.toList).flatMap markChar)).base ↔
          q.1 ∈ ["any", "boolean", "number", "string"]) := by decide
    obtain ⟨before, after, hsplit, -⟩ := List.lookup_eq_some_iff.1 h
    have hmem : (key, p) ∈ primitives := hsplit ▸ List.mem_append_right _ List.mem_cons_self
    rw [schemaName_of_primitive d hkey h, hprimitives _ hmem, NamesAgree, h]
    simp
  | none =>
    have hprimitives :
        ∀ k ∈ ["any", "boolean", "number", "string"], primitives.lookup k ≠ none := by decide
    rw [schemaName_of_other d hkey h, NamesAgree, h]
    constructor
    · exact fun heq => .inr ⟨rfl, heq⟩
    · rintro (hmem | ⟨-, heq⟩)
      · exact absurd h (hprimitives key hmem)
      · exact heq

/-! ## Plain keys -/

theorem escapeReserved_eq_self_iff (s : String) :
    Identifier.escapeReserved s = s ↔ s ∉ Identifier.reserved := by
  unfold Identifier.escapeReserved
  split_ifs with h
  · have hmem : s ∈ Identifier.reserved := by simpa using h
    refine iff_of_false (fun heq => ?_) (not_not.2 hmem)
    have hlength := congrArg (fun t => t.toList.length) heq
    simp only [String.toList_append, List.length_append] at hlength
    have : "_".toList.length = 1 := rfl
    omega
  · exact iff_of_true rfl (by simpa using h)

/-- A text stays as it is if nothing that stands before a name stands in front. -/
theorem dropFirstMark_of_not_prefix {s : List Char} {marks : List String}
    (h : ∀ mark ∈ marks, ¬ mark.toList <+: s) : Dialect.dropFirstMark s marks = s := by
  induction marks with
  | nil => rfl
  | cons mark marks ih =>
    have hnone : Text.after? mark.toList s = none := by
      cases hafter : Text.after? mark.toList s with
      | none => rfl
      | some rest =>
        have hprefix : mark.toList <+: s := ⟨rest, (Text.after?_eq_some.1 hafter).symm⟩
        exact absurd hprefix (h mark List.mem_cons_self)
    rw [Dialect.dropFirstMark, hnone, Option.getD_none,
      ih fun m hm => h m (List.mem_cons_of_mem _ hm)]

/-- A key in which nothing has to be escaped and that does not begin with white space. -/
structure Plain (key : String) : Prop where
  unescaped : ∀ c ∈ key.toList, c ≠ '~' ∧ c ≠ '/' ∧ c ≠ '%'
  front : ∀ c, key.toList.head? = some c → Unicode.isBlank c = false

/-- In a plain key only primitives and reserved words are in the way of one name. -/
theorem namesAgree_iff_of_plain (d : Dialect) {key : String} (h : Plain key) :
    NamesAgree d key ↔
      key ∈ ["any", "boolean", "number", "string"] ∨
        primitives.lookup key = none ∧
          (ofBareName (Text.dropTail Unicode.isBlank key.toList)).base ∉ Identifier.reserved := by
  have htrimmed : ∀ c ∈ Text.dropTail Unicode.isBlank key.toList, c ≠ '~' ∧ c ≠ '/' ∧ c ≠ '%' :=
    fun c hc => h.unescaped c (Text.mem_of_mem_dropTail hc)
  have hmarks : ∀ mark ∈ d.marks, '/' ∈ mark.toList := by cases d <;> decide
  have htrim : Text.trim key.toList = Text.dropTail Unicode.isBlank key.toList := by
    rw [Text.trim]
    cases hlist : key.toList with
    | nil => rfl
    | cons c s => rw [List.dropWhile_cons_of_neg (by simp [h.front c (by rw [hlist]; rfl)])]
  have hbare : d.bareName key.toList = Text.dropTail Unicode.isBlank key.toList := by
    rw [Dialect.bareName, htrim]
    exact dropFirstMark_of_not_prefix fun mark hmark hfront =>
      (htrimmed '/' (hfront.subset (hmarks mark hmark))).2.1 rfl
  have hmark : (Text.dropTail Unicode.isBlank key.toList).flatMap markChar =
      Text.dropTail Unicode.isBlank key.toList := by
    have hchar : ∀ c ∈ Text.dropTail Unicode.isBlank key.toList, markChar c = [c] := by
      intro c hc
      rw [markChar, if_neg (htrimmed c hc).1, if_neg (htrimmed c hc).2.1]
    rw [List.flatMap_congr hchar, List.flatMap_singleton']
  rw [NamesAgree, hbare, Text.percentDecode_of_not_mem fun h => (htrimmed '%' h).2.2 rfl, hmark,
    escapeReserved_eq_self_iff]

/-! ## No name is empty -/

theorem mem_of_primitive? {name p : String} {format : Node} (h : primitive? name format = some p) :
    p ∈ primitives.map (·.2) := by
  unfold primitive? at h
  split_ifs at h
  · cases h
    decide
  · obtain ⟨before, after, hsplit, -⟩ := List.lookup_eq_some_iff.1 h
    have hmem : (name, p) ∈ primitives := hsplit ▸ List.mem_append_right _ List.mem_cons_self
    exact List.mem_map_of_mem hmem

theorem primitive_ne_empty {name p : String} {format : Node} (h : primitive? name format = some p) :
    p ≠ "" := by
  have hprimitives : ∀ q ∈ primitives.map (·.2), q ≠ "" := by decide
  exact hprimitives p (mem_of_primitive? h)

/-- Neither the type nor its outermost part is empty. -/
structure Named (t : TypeExpr) : Prop where
  type : t.type ≠ ""
  base : t.base ≠ ""

theorem named_any : Named {} := ⟨by decide, by decide⟩

theorem named_plain {name : String} (h : name ≠ "") : (plain name).Named := ⟨h, h⟩

theorem ofIdentifier_named (name : String) : (ofIdentifier name).Named := by
  unfold ofIdentifier
  split_ifs with hname
  · exact named_any
  · split
    · rename_i p hp
      exact named_plain (primitive_ne_empty hp)
    · exact ⟨hname, hname⟩

/-- Something in front of a text or behind it keeps it from being empty. -/
theorem append_ne_empty {s t : String} (h : s ≠ "" ∨ t ≠ "") : s ++ t ≠ "" := by
  rw [ne_eq, String.append_eq_empty_iff]
  exact not_and_or.2 h

theorem apply_named (outer inner : List Char) : (apply outer inner).Named := by
  simp only [apply]
  split_ifs
  · exact ⟨append_ne_empty (.inr (by decide)), (ofIdentifier_named _).type⟩
  · exact ⟨append_ne_empty (.inr (by decide)), (ofIdentifier_named _).type⟩

theorem ofBareName_named (s : List Char) : (ofBareName s).Named := by
  unfold ofBareName
  split
  · exact apply_named _ _
  · split
    · exact named_any
    · rename_i hname
      have hne : String.ofList (Identifier.typeName s) ≠ "" :=
        fun hempty => hname (String.ofList_eq_empty_iff.1 hempty)
      exact ⟨hne, hne⟩

theorem ofName_named (d : Dialect) (name : String) (format : Node) :
    (ofName d name format).Named := by
  unfold ofName
  split_ifs
  · exact named_any
  · split
    · rename_i p hp
      exact named_plain (primitive_ne_empty hp)
    · exact ofBareName_named _

theorem schemaName_ne_empty (d : Dialect) (key : Scalar) : d.schemaName (.scalar key) ≠ "" := by
  unfold Dialect.schemaName Identifier.escapeReserved
  split_ifs
  · intro hempty
    simp at hempty
  · cases key with
    | text name => exact (ofName_named d name .null).base
    | _ => exact named_any.base

end TypeExpr

end ApiModel
