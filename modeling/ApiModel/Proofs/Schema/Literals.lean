import ApiModel.Proofs.Identifier.TypeName
import ApiModel.Proofs.Schema.Labels
import ApiModel.Proofs.Schema.Promotion

/-!
# Literals in single quotes

Texts become literals in four places: as values of enumeration members, as defaults, as the values
of discriminating properties, and as names of properties that are no identifiers. A target reads a
literal up to the first quote that has no backslash before it, and takes what follows a backslash as
it stands.

**Theorem (`readBack_iff`).** A text is read back from the literal of a member or a default exactly
if no backslash is in it, and from that of a discriminating property exactly if no quote is in it
either. A name is an identifier or is read back, except where a quote or a backslash is in it or
only a line feed at its end keeps it from being an identifier. The names of different keys differ
all the same.

The first two places write a backslash before each quote and leave backslashes alone; the other two
leave everything alone. So a backslash always swallows what follows it, and what is read is too
short (`length_le_of_readFrom_escaped`).
-/

namespace ApiModel

namespace Literal

/-! ## Reading -/

/-- Read a text up to the quote that closes it, after a backslash or not: the text, and what follows
the quote. -/
def readFrom (escaped : Bool) : List Char → Option (List Char × List Char)
  | [] => none
  | c :: rest =>
    if escaped then (readFrom false rest).map fun r => (c :: r.1, r.2)
    else if c == '\\' then readFrom true rest
    else if c == '\'' then some ([], rest)
    else (readFrom false rest).map fun r => (c :: r.1, r.2)

/-- The text of a literal in single quotes that ends with its last character. -/
def read? (literal : String) : Option String :=
  match literal.toList with
  | '\'' :: body =>
    (readFrom false body).bind fun r => if r.2.isEmpty then some (String.ofList r.1) else none
  | _ => none

variable {s t rest : List Char} {c : Char} {escaped : Bool}

theorem read?_eq_some {literal text : String} {body : List Char}
    (h : literal.toList = '\'' :: body) :
    read? literal = some text ↔ readFrom false body = some (text.toList, []) := by
  simp only [read?, h, Option.bind_eq_some_iff]
  constructor
  · rintro ⟨⟨s, rest⟩, hbody, hend⟩
    split_ifs at hend with hempty
    have hrest : rest = [] := List.isEmpty_iff.1 hempty
    obtain rfl := Option.some.inj hend
    rw [hbody, String.toList_ofList, hrest]
  · intro hbody
    exact ⟨_, hbody, by simp⟩

/-- A character that stands for itself. -/
theorem readFrom_cons (h : escaped = true ∨ c ≠ '\\' ∧ c ≠ '\'') :
    readFrom escaped (c :: rest) = (readFrom false rest).map fun r => (c :: r.1, r.2) := by
  rw [readFrom]
  rcases h with rfl | ⟨hbackslash, hquote⟩
  · rfl
  · simp [hbackslash, hquote]

theorem readFrom_backslash : readFrom false ('\\' :: rest) = readFrom true rest := rfl

theorem readFrom_quote : readFrom false ('\'' :: rest) = some ([], rest) := rfl

/-- Reading takes at least one character for each of the text, and the closing quote. -/
theorem length_lt_of_readFrom (h : readFrom escaped t = some (s, rest)) : s.length < t.length := by
  induction t generalizing escaped s with
  | nil => cases h
  | cons c t ih =>
    have hself (hc : (readFrom false t).map (fun r => (c :: r.1, r.2)) = some (s, rest)) :
        s.length < (c :: t).length := by
      obtain ⟨⟨s', rest'⟩, hread, heq⟩ := Option.map_eq_some_iff.1 hc
      cases heq
      exact Nat.succ_lt_succ (ih hread)
    rw [readFrom] at h
    split_ifs at h
    · exact hself h
    · exact Nat.lt_succ_of_lt (ih h)
    · cases h
      exact Nat.succ_pos _
    · exact hself h

/-! ## Texts that are left alone -/

/-- A text between quotes is read back exactly if neither a quote nor a backslash is in it. -/
theorem readFrom_eq_self_iff :
    readFrom false (s ++ ['\'']) = some (s, []) ↔ '\\' ∉ s ∧ '\'' ∉ s := by
  induction s with
  | nil => exact iff_of_true rfl ⟨List.not_mem_nil, List.not_mem_nil⟩
  | cons c s ih =>
    rw [List.cons_append, List.mem_cons, List.mem_cons, not_or, not_or]
    by_cases hbackslash : c = '\\'
    · subst hbackslash
      refine iff_of_false (fun h => ?_) fun h => h.1.1 rfl
      have hlength := length_lt_of_readFrom (readFrom_backslash.symm.trans h)
      simp at hlength
    · by_cases hquote : c = '\''
      · subst hquote
        exact iff_of_false (by simp [readFrom_quote]) fun h => h.2.1 rfl
      · rw [readFrom_cons (.inr ⟨hbackslash, hquote⟩), Option.map_eq_some_iff]
        have hrest : (∃ r, readFrom false (s ++ ['\'']) = some r ∧ (c :: r.1, r.2) = (c :: s, [])) ↔
            readFrom false (s ++ ['\'']) = some (s, []) := by
          simp [Prod.ext_iff]
        rw [hrest, ih]
        simp [Ne.symm hbackslash, Ne.symm hquote]

theorem read?_quoted_iff (text : String) :
    read? ("'" ++ text ++ "'") = some text ↔ '\\' ∉ text.toList ∧ '\'' ∉ text.toList := by
  have hlist : ("'" ++ text ++ "'").toList = '\'' :: (text.toList ++ ['\'']) := by simp
  rw [read?_eq_some hlist, readFrom_eq_self_iff]

/-! ## Texts whose quotes are escaped -/

/-- A text with a backslash before each quote. -/
def escapeQuotes (s : List Char) : List Char :=
  s.flatMap fun c => if c == '\'' then ['\\', c] else [c]

theorem escapeQuotes_quote : escapeQuotes ('\'' :: s) = '\\' :: '\'' :: escapeQuotes s := rfl

theorem escapeQuotes_cons (h : c ≠ '\'') : escapeQuotes (c :: s) = c :: escapeQuotes s := by
  simp [escapeQuotes, h]

/-- What is read to the end is no longer than the text whose quotes were escaped. -/
theorem length_le_of_readFrom_escaped
    (h : readFrom escaped (escapeQuotes s ++ ['\'']) = some (t, [])) : t.length ≤ s.length := by
  induction s generalizing escaped t with
  | nil =>
    have hlength := length_lt_of_readFrom h
    exact Nat.le_of_lt_succ hlength
  | cons c s ih =>
    have hself (h : (readFrom false (escapeQuotes s ++ ['\''])).map (fun r => (c :: r.1, r.2)) =
        some (t, [])) : t.length ≤ (c :: s).length := by
      obtain ⟨⟨t', rest'⟩, hread, heq⟩ := Option.map_eq_some_iff.1 h
      cases heq
      exact Nat.succ_le_succ (ih hread)
    by_cases hquote : c = '\''
    · subst hquote
      rw [escapeQuotes_quote, List.cons_append, List.cons_append] at h
      cases escaped with
      | false => exact hself h
      | true =>
        -- The backslash of the quote is taken as it stands, and the quote ends the text too early.
        rw [readFrom_cons (.inl rfl), readFrom_quote] at h
        simp at h
    · rw [escapeQuotes_cons hquote, List.cons_append] at h
      by_cases hbackslash : escaped = false ∧ c = '\\'
      · obtain ⟨rfl, rfl⟩ := hbackslash
        exact Nat.le_succ_of_le (ih (readFrom_backslash.symm.trans h))
      · have hc : escaped = true ∨ c ≠ '\\' ∧ c ≠ '\'' := by
          cases escaped with
          | true => exact .inl rfl
          | false => exact .inr ⟨fun h => hbackslash ⟨rfl, h⟩, hquote⟩
        exact hself ((readFrom_cons hc).symm.trans h)

/-- A text whose quotes are escaped is read back exactly if no backslash is in it. -/
theorem readFrom_escapeQuotes_iff :
    readFrom false (escapeQuotes s ++ ['\'']) = some (s, []) ↔ '\\' ∉ s := by
  induction s with
  | nil => exact iff_of_true rfl List.not_mem_nil
  | cons c s ih =>
    have hself : (readFrom false (escapeQuotes s ++ ['\''])).map (fun r => (c :: r.1, r.2)) =
        some (c :: s, []) ↔ readFrom false (escapeQuotes s ++ ['\'']) = some (s, []) := by
      simp [Option.map_eq_some_iff, Prod.ext_iff]
    rw [List.mem_cons, not_or]
    by_cases hquote : c = '\''
    · subst hquote
      rw [escapeQuotes_quote, List.cons_append, List.cons_append, readFrom_backslash,
        readFrom_cons (.inl rfl), hself, ih]
      exact (and_iff_right (by decide)).symm
    · rw [escapeQuotes_cons hquote, List.cons_append]
      by_cases hbackslash : c = '\\'
      · subst hbackslash
        refine iff_of_false (fun h => ?_) fun h => h.1 rfl
        have hlength := length_le_of_readFrom_escaped (readFrom_backslash.symm.trans h)
        simp at hlength
      · rw [readFrom_cons (.inr ⟨hbackslash, hquote⟩), hself, ih]
        exact (and_iff_right (Ne.symm hbackslash)).symm

theorem read?_textLiteral_iff (text : String) :
    read? (EnumMember.textLiteral text) = some text ↔ '\\' ∉ text.toList := by
  have hlist : (EnumMember.textLiteral text).toList =
      '\'' :: (escapeQuotes text.toList ++ ['\'']) := String.toList_ofList
  rw [read?_eq_some hlist, readFrom_escapeQuotes_iff]

/-! ## Members of enumerations -/

/-- Wherever a text is among the values of an enumeration, its member has a literal from which it is
read back. -/
def MembersReadBack (text : String) : Prop :=
  ∀ values, ∃ members places, (Enumeration.ofNode (.list values)).outcome = .ok members ∧
    Enumeration.FirstPlaces values places ∧
    List.Forall₂ (fun p m => p.2 = .text text → read? m.value = some text) places members

theorem membersReadBack_iff (text : String) : MembersReadBack text ↔ '\\' ∉ text.toList := by
  constructor
  · intro h
    obtain ⟨members, places, hmembers, hplaces, hread⟩ := h [.text text]
    have hfirst : Enumeration.IsFirstPlace [.text text] 0 (.text text) :=
      ⟨rfl, fun j hj => absurd hj (Nat.not_lt_zero j)⟩
    obtain ⟨m, hm, hvalue⟩ := Report.exists_right_of_mem hread ((hplaces.mem_iff 0 _).2 hfirst)
    obtain rfl : [EnumMember.ofText text] = members := Except.ok.inj hmembers
    obtain rfl := List.mem_singleton.1 hm
    exact (read?_textLiteral_iff text).1 (hvalue rfl)
  · intro h values
    refine ⟨_, _, Enumeration.outcome_ofNode values, Enumeration.firstPlaces_firstsFrom values, ?_⟩
    rw [List.forall₂_map_right_iff, List.forall₂_same]
    rintro ⟨i, value⟩ - rfl
    exact (read?_textLiteral_iff text).2 h

/-! ## Defaults -/

/-- The schema declares a text, or no type at all. -/
def IsTextTyped (schema : Node) : Prop := (schema.field "type").text?.getD "" ∈ ["", "string"]

/-- Wherever a text is the default of a schema for texts, there is a literal for it from which it is
read back. -/
def DefaultsReadBack (text : String) : Prop :=
  ∀ members schema, schema.get? "default" = some (.text text) → IsTextTyped schema →
    ∃ literal, (Default.ofSchema members schema).outcome = .ok (some literal) ∧
      read? literal = some text

/-- The default of a schema for texts becomes a literal with escaped quotes. -/
theorem outcome_default {schema : Node} {text : String} (members : List EnumMember)
    (hdefault : schema.get? "default" = some (.text text)) (htype : IsTextTyped schema) :
    (Default.ofSchema members schema).outcome = .ok (some (EnumMember.textLiteral text)) := by
  have hreading : Default.reading (schema.field "type") (.text text) = .text := by
    rw [Default.reading]
    unfold IsTextTyped at htype
    cases hname : (schema.field "type").text? with
    | none => rfl
    | some name =>
      rw [hname, Option.getD_some, List.mem_cons, List.mem_singleton] at htype
      rcases htype with rfl | rfl <;> rfl
  simp only [Default.ofSchema, hdefault, hreading]
  rfl

/-- What stands in double quotes is no literal in single quotes. -/
theorem read?_doubleQuoted (ascii : Bool) (text : String) :
    read? (Json.quoted ascii text) = none := by
  rw [read?, Json.quoted, String.toList_ofList]
  rfl

/-- Where a schema declares another type, the text is left out or stands in double quotes. -/
theorem read?_of_default {schema : Node} {text literal : String} {members : List EnumMember}
    (hdefault : schema.get? "default" = some (.text text)) (htype : ¬ IsTextTyped schema)
    (h : (Default.ofSchema members schema).outcome = .ok (some literal)) :
    read? literal = none := by
  obtain ⟨name, hname, hne, hstring⟩ :
      ∃ name, (schema.field "type").text? = some name ∧ name ≠ "" ∧ name ≠ "string" := by
    unfold IsTextTyped at htype
    cases hname : (schema.field "type").text? with
    | none => exact absurd (by rw [hname]; exact List.mem_cons_self) htype
    | some name => exact ⟨name, rfl, by simpa [hname] using htype⟩
  have hreading : Default.reading (schema.field "type") (.text text) = .ofType name := by
    rw [Default.reading, hname, Option.filter_some, if_pos (decide_eq_true hne)]
  have hnull : (Node.text text).isNull = false := rfl
  simp only [Default.ofSchema, hdefault, hnull, hreading, Bool.false_eq_true, if_false] at h
  cases hof : Default.Reading.ofType name with
  | text =>
    unfold Default.Reading.ofType at hof
    split_ifs at hof
  | flag | tree =>
    rw [hof] at h
    cases h
    exact read?_doubleQuoted true text
  | number | none =>
    rw [hof] at h
    cases h

theorem defaultsReadBack_iff (text : String) : DefaultsReadBack text ↔ '\\' ∉ text.toList := by
  constructor
  · intro h
    have htype : IsTextTyped (.record [("default", .text text)]) := List.mem_cons_self
    obtain ⟨literal, hliteral, hread⟩ := h [] (.record [("default", .text text)]) rfl htype
    rw [outcome_default [] rfl htype] at hliteral
    cases hliteral
    exact (read?_textLiteral_iff text).1 hread
  · intro h members schema hdefault htype
    exact ⟨_, outcome_default members hdefault htype, (read?_textLiteral_iff text).2 h⟩

/-! ## Discriminating properties -/

open Schema

/-- Wherever a text tells a schema from the other alternatives, the literal in the place of the
discriminating property is one from which it is read back. -/
def DiscriminatorsReadBack (text : String) : Prop :=
  ∀ build ctx required parent key discriminator node m,
    substitute? ctx parent key = some discriminator →
    (Discriminator.literal ctx.dialect discriminator parent).display = text →
    (property build ctx required (ctx.discriminator? parent) parent (.text key, node)).outcome =
      .ok m → read? m.base = some text

/-- The literal of a discriminating property is the text between quotes. -/
theorem base_of_discriminating {build : Builder} {ctx : Context} {required : List Node}
    {parent key : String} {discriminator node : Node} {m : Model}
    (hsub : substitute? ctx parent key = some discriminator)
    (h : (property build ctx required (ctx.discriminator? parent) parent
      (.text key, node)).outcome = .ok m) :
    m.base = "'" ++ (Discriminator.literal ctx.dialect discriminator parent).display ++ "'" := by
  obtain ⟨key', hkey, -, -, hmade⟩ := property_eq_ok h
  obtain rfl : key = key' := by simpa using hkey
  cases hmade with
  | literal hsub' hcore =>
    obtain rfl := Option.some.inj (hsub.symm.trans hsub')
    have htype := toTypeExpr_of_core hcore
    rw [htype]
  | reference hsub' => cases hsub.symm.trans hsub'
  | embedded hsub' => cases hsub.symm.trans hsub'

/-- A schema of the given name is the only alternative, told by its kind. -/
def soleAlternative (name : String) : Context :=
  { document := .map [], dialect := .v3
    discriminators := [(name, .record [("propertyName", .text "kind")])] }

theorem discriminatorsReadBack_iff (text : String) :
    DiscriminatorsReadBack text ↔ '\\' ∉ text.toList ∧ '\'' ∉ text.toList := by
  constructor
  · intro h
    by_cases hempty : text = ""
    · subst hempty
      exact ⟨List.not_mem_nil, List.not_mem_nil⟩
    · -- Without a mapping, the name of an alternative is what tells it from the others.
      have hdiscriminator : (soleAlternative text).discriminator? text =
          some (.record [("propertyName", .text "kind")]) := by
        simp [Context.discriminator?, hempty, soleAlternative]
      have hsub : substitute? (soleAlternative text) text "kind" =
          some (.record [("propertyName", .text "kind")]) := by
        rw [substitute?, hdiscriminator]
        rfl
      obtain ⟨m, hm⟩ : ∃ m, (property (fun _ => Report.fail .endless) (soleAlternative text) []
          ((soleAlternative text).discriminator? text) text (.text "kind", .map [])).outcome =
            .ok m := by
        rw [hdiscriminator]
        exact ⟨_, rfl⟩
      have hread := h _ _ _ _ _ _ _ m hsub rfl hm
      rw [base_of_discriminating hsub hm] at hread
      exact (read?_quoted_iff text).1 hread
  · rintro h build ctx required parent key discriminator node m hsub rfl hm
    rw [base_of_discriminating hsub hm]
    exact (read?_quoted_iff _).2 h

/-! ## Names of properties -/

open Identifier

/-- The name of a property is the key itself, which is an identifier, or a literal from which the
key is read back. -/
def NameReadsBack (key : String) : Prop :=
  (isIdentifier key.toList = true ∧ propertyName key = key) ∨ read? (propertyName key) = some key

theorem dropFinalBreak_of_isIdentifier (h : isIdentifier s = true) : dropFinalBreak s = s := by
  refine if_neg fun hlast => ?_
  have htail := isTail_of_isIdentifier h '\n' (List.mem_of_getLast? hlast)
  exact absurd htail (by decide)

/-- A bare name does not begin with a quote. -/
theorem read?_of_bare {key : String} (h : isIdentifier (dropFinalBreak key.toList) = true)
    (text : String) : read? key ≠ some text := by
  rw [read?]
  split
  · rename_i body hbody
    rw [hbody, not_isIdentifier_quote] at h
    cases h
  · simp

theorem nameReadsBack_iff (key : String) :
    NameReadsBack key ↔ isIdentifier key.toList = true ∨
      (isIdentifier (dropFinalBreak key.toList) = false ∧
        '\\' ∉ key.toList ∧ '\'' ∉ key.toList) := by
  rw [NameReadsBack, propertyName]
  by_cases hbare : isIdentifier (dropFinalBreak key.toList) = true
  · rw [if_pos hbare, hbare]
    simp [read?_of_bare hbare]
  · rw [if_neg hbare, read?_quoted_iff]
    rw [Bool.not_eq_true] at hbare
    have hnot : isIdentifier key.toList ≠ true := fun h => by
      rw [dropFinalBreak_of_isIdentifier h, h] at hbare
      cases hbare
    simp [hbare, hnot]

/-! ## All places -/

/-- A text is read back from the literals of members and defaults exactly if no backslash is in it,
and from those of discriminating properties if no quote is in it either. A key is an identifier or
is read back from its name unless one of them is in it or only a line feed at its end keeps it from
being an identifier. Different keys have different names. As the default of a schema that declares
another type, a text has no literal in single quotes. -/
theorem readBack_iff (text : String) :
    (MembersReadBack text ↔ '\\' ∉ text.toList) ∧
      (DefaultsReadBack text ↔ '\\' ∉ text.toList) ∧
      (DiscriminatorsReadBack text ↔ '\\' ∉ text.toList ∧ '\'' ∉ text.toList) ∧
      (NameReadsBack text ↔ isIdentifier text.toList = true ∨
        (isIdentifier (dropFinalBreak text.toList) = false ∧
          '\\' ∉ text.toList ∧ '\'' ∉ text.toList)) ∧
      (∀ other, propertyName other = propertyName text ↔ other = text) ∧
      ∀ members schema literal, schema.get? "default" = some (.text text) →
        ¬ IsTextTyped schema →
        (Default.ofSchema members schema).outcome = .ok (some literal) → read? literal = none :=
  ⟨membersReadBack_iff text, defaultsReadBack_iff text, discriminatorsReadBack_iff text,
    nameReadsBack_iff text, fun _ => propertyName_injective.eq_iff,
    fun _ _ _ => read?_of_default⟩

/-- Not every text is read back, whichever place it is written in. -/
theorem not_all_read_back : ¬ ∀ text, MembersReadBack text ∧ DefaultsReadBack text ∧
    DiscriminatorsReadBack text ∧ NameReadsBack text := by
  intro h
  obtain ⟨-, -, -, hname⟩ := h "it's"
  revert hname
  rw [nameReadsBack_iff]
  decide

end Literal

end ApiModel
