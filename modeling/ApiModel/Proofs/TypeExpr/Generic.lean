import ApiModel.Proofs.Identifier.TypeName

/-!
# Generic types inside each other

A generic type is written as an identifier with its argument in brackets, and the argument may be
a generic type again. The outermost brackets are read as that; but before the argument is read, it
is made an identifier, and with that every bracket in it becomes an underscore.

**Theorem (`ofName_generic`).** A generic expression has the type of its outer part applied to the
type of its argument exactly if the argument is a word, the primitive `date-time` aside. An
argument that is generic itself is read as one model, whose name has the parts of the argument with
underscores between them and at the end.

`Generic` is the grammar; `Generic.reading` says what becomes of an argument, and
`reading_eq_ofIdentifier` is proved by induction on it, with any number of closing brackets behind.
-/

namespace ApiModel

open Identifier

/-! ## Generic expressions -/

/-- A generic expression: a word, or an identifier and its argument. -/
inductive Generic where
  | word (name : List Char)
  | apply (outer : List Char) (argument : Generic)

namespace Generic

/-- An expression as it is written. -/
def text : Generic → List Char
  | word name => name
  | apply outer argument => outer ++ '[' :: (argument.text ++ [']'])

/-- The words of primitive types. -/
def primitiveWords : List (List Char) := TypeExpr.primitives.map fun p => p.1.toList

/-- Outer parts are identifiers, and words are identifiers or primitives. -/
def WellFormed : Generic → Prop
  | word name => isIdentifier name = true ∨ name ∈ primitiveWords
  | apply outer argument => isIdentifier outer = true ∧ argument.WellFormed

/-- The primitive that is no identifier. -/
def dateTime : List Char := "date-time".toList

/-- A word that stays what it is when it is made an identifier. -/
def IsPlainWord : Generic → Prop
  | word name => name ≠ dateTime
  | apply _ _ => False

/-- The parts of an expression from the outside to the inside, each made an identifier. -/
def parts : Generic → List (List Char)
  | word name => [typeName name]
  | apply outer argument => outer :: argument.parts

/-- An expression that is made an identifier. -/
def encoded : Generic → List Char
  | word name => typeName name
  | apply outer argument => Text.join ['_'] (apply outer argument).parts ++ ['_']

/-- What an expression is read as where it stands as an argument. -/
def reading (e : Generic) : TypeExpr := .ofIdentifier (String.ofList e.encoded)

/-! ## Characters of expressions -/

variable {e : Generic} {outer : List Char}

/-- Of the words only one is no identifier. -/
theorem isIdentifier_or_dateTime {name : List Char} (h : (word name).WellFormed) :
    isIdentifier name = true ∨ name = dateTime := by
  have hprimitives : ∀ p ∈ primitiveWords, isIdentifier p = true ∨ p = dateTime := by
    decide +kernel
  exact h.elim .inl (hprimitives name)

/-- A character of a word: one that goes on an identifier, or a hyphen. -/
theorem isTail_of_word {name : List Char} (h : (word name).WellFormed) :
    ∀ c ∈ name, isTail c = true ∨ c = '-' := by
  rcases isIdentifier_or_dateTime h with h | rfl
  · exact fun c hc => .inl (isTail_of_isIdentifier h c hc)
  · have hdateTime : (dateTime.all fun c => isTail c || c == '-') = true := by decide
    intro c hc
    have htail := List.all_eq_true.1 hdateTime c hc
    rwa [Bool.or_eq_true, beq_iff_eq] at htail

theorem mem_text (h : e.WellFormed) :
    ∀ c ∈ e.text, isTail c = true ∨ c ∈ ['-', '[', ']'] := by
  induction e with
  | word name => exact fun c hc => (isTail_of_word h c hc).imp_right (by rintro rfl; decide)
  | apply outer argument ih =>
    intro c hc
    simp only [text, List.mem_append, List.mem_cons, List.not_mem_nil, or_false] at hc
    rcases hc with hc | rfl | hc | rfl
    · exact .inl (isTail_of_isIdentifier h.1 c hc)
    · exact .inr (by decide)
    · exact ih h.2 c hc
    · exact .inr (by decide)

/-- No expression has a character that goes on no identifier and is neither hyphen nor bracket. -/
theorem not_mem_text (h : e.WellFormed) {c : Char} (hc : isTail c = false ∧ c ∉ ['-', '[', ']']) :
    c ∉ e.text := by
  intro hmem
  rcases mem_text h c hmem with htail | hother
  · rw [hc.1] at htail
    cases htail
  · exact hc.2 hother

/-- Nothing in an expression is trimmed, dropped or decoded when its name is looked for. -/
theorem decoded_text (d : Dialect) (h : e.WellFormed) :
    Text.percentDecode (d.bareName e.text) = e.text := by
  have hbare : d.bareName e.text = e.text := by
    refine TypeExpr.bareName_eq_self d fun c hc => ⟨?_, ?_⟩
    · rcases mem_text h c hc with htail | hother
      · exact not_isBlank_of_isTail htail
      · have hothers : (['-', '[', ']'].any Unicode.isBlank) = false := by decide
        exact Bool.eq_false_iff.2 (List.any_eq_false.1 hothers c hother)
    · rintro rfl
      exact not_mem_text h (by decide) hc
  rw [hbare, Text.percentDecode_of_not_mem (not_mem_text h (by decide))]

/-- An expression begins with a character that begins an identifier. -/
theorem exists_head_text (h : e.WellFormed) : ∃ c rest, e.text = c :: rest ∧ isHead c = true := by
  have hidentifier : ∀ s, isIdentifier s = true → ∃ c rest, s = c :: rest ∧ isHead c = true := by
    intro s hs
    cases s with
    | nil => cases hs
    | cons c rest => exact ⟨c, rest, rfl, (Bool.and_eq_true_iff.1 hs).1⟩
  cases e with
  | word name =>
    rcases isIdentifier_or_dateTime h with h | rfl
    · exact hidentifier name h
    · exact ⟨'d', "ate-time".toList, rfl, by decide⟩
  | apply outer argument =>
    obtain ⟨c, rest, houter, hhead⟩ := hidentifier outer h.1
    exact ⟨c, rest ++ '[' :: (argument.text ++ [']']), by rw [text, houter]; rfl, hhead⟩

/-! ## Arguments as identifiers -/

/-- Replace the runs of characters that no identifier has. -/
def smooth (inRun : Bool) (s : List Char) : List Char :=
  Text.squeeze.go (fun c => !isTail c) '_' inRun s

theorem smooth_append {s : List Char} (h : ∀ c ∈ s, isTail c = true) (t : List Char) :
    smooth false (s ++ t) = s ++ smooth false t := by
  induction s with
  | nil => rfl
  | cons c s ih =>
    obtain ⟨hc, hs⟩ := List.forall_mem_cons.1 h
    have hstep : smooth false (c :: (s ++ t)) = c :: smooth false (s ++ t) := by
      simp [smooth, Text.squeeze.go, hc]
    rw [List.cons_append, hstep, ih hs, List.cons_append]

/-- Closing brackets behind a text become one underscore. -/
theorem smooth_closing (inRun : Bool) (n : Nat) :
    smooth inRun (List.replicate n ']') = if inRun || n == 0 then [] else ['_'] := by
  have hclosing : isTail ']' = false := by decide
  have hrun : ∀ n, smooth true (List.replicate n ']') = [] := by
    intro n
    induction n with
    | zero => rfl
    | succ n ih =>
      rw [List.replicate_succ]
      simpa [smooth, Text.squeeze.go, hclosing] using ih
  cases inRun with
  | true => exact hrun n
  | false =>
    cases n with
    | zero => rfl
    | succ n =>
      rw [List.replicate_succ]
      simpa [smooth, Text.squeeze.go, hclosing] using hrun n

/-- After an opening bracket an expression is smoothed as at the front. -/
theorem smooth_text (h : e.WellFormed) (t : List Char) :
    smooth true (e.text ++ t) = smooth false (e.text ++ t) := by
  obtain ⟨c, rest, htext, hhead⟩ := exists_head_text h
  rw [htext]
  simp [smooth, Text.squeeze.go, isTail_of_isHead hhead]

theorem typeName_text (h : e.WellFormed) : typeName e.text = smooth false e.text := by
  obtain ⟨c, rest, htext, hhead⟩ := exists_head_text h
  rw [typeName, htext, List.dropWhile_cons_of_neg (by simp [hhead])]
  rfl

theorem parts_ne_nil (e : Generic) : e.parts ≠ [] := by
  cases e <;> exact List.cons_ne_nil _ _

/-- An expression with closing brackets behind it becomes its parts with underscores between them
and at the end. -/
theorem smooth_text_closing (h : e.WellFormed) (n : Nat) :
    smooth false (e.text ++ List.replicate (n + 1) ']') = Text.join ['_'] e.parts ++ ['_'] := by
  induction e generalizing n with
  | word name =>
    have hclosing : ∀ n, smooth false (List.replicate (n + 1) ']') = ['_'] := fun n => by
      rw [smooth_closing]
      rfl
    rcases isIdentifier_or_dateTime h with h | rfl
    · rw [parts, Text.join, typeName_of_isIdentifier h, text,
        smooth_append (isTail_of_isIdentifier h), hclosing]
    · -- The hyphen is smoothed by itself, and what follows it like an identifier.
      have hsplit : ∀ t, smooth false (dateTime ++ t) = "date_time".toList ++ smooth false t :=
        fun t => rfl
      rw [text, hsplit, hclosing]
      rfl
  | apply outer argument ih =>
    have htext : (apply outer argument).text ++ List.replicate (n + 1) ']' =
        outer ++ '[' :: (argument.text ++ List.replicate (n + 2) ']') := by
      simp [text, List.replicate_succ]
    have hopening (t : List Char) : smooth false ('[' :: t) = '_' :: smooth true t := rfl
    rw [htext, smooth_append (isTail_of_isIdentifier h.1), hopening, smooth_text h.2, ih h.2,
      Generic.parts, Text.join_cons _ _ argument.parts_ne_nil]
    simp

/-- What an argument is read as is the type of the identifier that is made of it. -/
theorem reading_eq_ofIdentifier (h : e.WellFormed) :
    e.reading = .ofIdentifier (String.ofList (typeName e.text)) := by
  cases e with
  | word name => rfl
  | apply outer argument =>
    have htext : (apply outer argument).text =
        outer ++ '[' :: (argument.text ++ List.replicate 1 ']') := rfl
    have hopening (t : List Char) : smooth false ('[' :: t) = '_' :: smooth true t := rfl
    rw [reading, encoded, typeName_text h, htext, smooth_append (isTail_of_isIdentifier h.1),
      hopening, smooth_text h.2, smooth_text_closing h.2, Generic.parts,
      Text.join_cons _ _ argument.parts_ne_nil]
    simp

/-! ## Arguments that are words -/

/-- The type of an expression. -/
def typeIn (d : Dialect) (e : Generic) : TypeExpr := .ofName d (String.ofList e.text) .null

theorem typeIn_of_isIdentifier (d : Dialect) {name : List Char} (h : isIdentifier name = true) :
    (word name).typeIn d = .ofIdentifier (String.ofList name) := by
  have hdecoded : Text.percentDecode (d.bareName name) = name :=
    decoded_text d (e := word name) (.inl h)
  rw [typeIn, text, TypeExpr.ofName, TypeExpr.ofIdentifier]
  split_ifs
  · rfl
  · rw [String.toList_ofList, hdecoded, TypeExpr.ofBareName_of_isIdentifier h]

/-- As an argument a word is read as it is anywhere, but for one that is no identifier. -/
theorem reading_word (d : Dialect) {name : List Char} (h : (word name).WellFormed) :
    (name ≠ dateTime → (word name).reading = (word name).typeIn d) ∧
      (name = dateTime → (word name).reading.type ≠ ((word name).typeIn d).type) := by
  have hdateTime : isIdentifier dateTime = false := by decide +kernel
  constructor
  · intro hne
    have hidentifier : isIdentifier name = true :=
      (isIdentifier_or_dateTime h).resolve_right hne
    rw [typeIn_of_isIdentifier d hidentifier, reading, encoded,
      typeName_of_isIdentifier hidentifier]
  · rintro rfl
    cases d <;> decide +kernel

/-! ## Arguments that are generic -/

theorem isTail_parts (h : e.WellFormed) : ∀ part ∈ e.parts, ∀ c ∈ part, isTail c = true := by
  induction e with
  | word name =>
    simp only [parts, List.mem_singleton, forall_eq]
    rcases isIdentifier_or_dateTime h with h | rfl
    · rw [typeName_of_isIdentifier h]
      exact isTail_of_isIdentifier h
    · have hdateTime : (typeName dateTime).all isTail = true := by decide
      exact List.all_eq_true.1 hdateTime
  | apply outer argument ih =>
    exact List.forall_mem_cons.2 ⟨isTail_of_isIdentifier h.1, ih h.2⟩

theorem isTail_join {pieces : List (List Char)}
    (h : ∀ piece ∈ pieces, ∀ c ∈ piece, isTail c = true) :
    ∀ c ∈ Text.join ['_'] pieces, isTail c = true := by
  induction pieces with
  | nil => exact fun c hc => absurd hc List.not_mem_nil
  | cons piece pieces ih =>
    obtain ⟨hpiece, hpieces⟩ := List.forall_mem_cons.1 h
    cases pieces with
    | nil => exact hpiece
    | cons next pieces =>
      intro c hc
      rw [Text.join_cons _ _ (List.cons_ne_nil _ _)] at hc
      simp only [List.mem_append, List.mem_singleton] at hc
      rcases hc with (hc | rfl) | hc
      · exact hpiece c hc
      · decide
      · exact ih hpieces c hc

/-- A generic expression that stands as an argument is read as one model. -/
theorem reading_apply (outer : List Char) (argument : Generic) :
    (apply outer argument).reading =
      .ofModel (String.ofList (Text.join ['_'] (apply outer argument).parts ++ ['_'])) := by
  have hnone (s : List Char) : TypeExpr.primitive? (String.ofList (s ++ ['_'])) .null = none :=
    TypeExpr.primitive?_eq_none (P := fun s => s.toList.getLast? = some '_') (by decide +kernel)
      (by rw [String.toList_ofList, List.getLast?_concat])
  have hne (s : List Char) : String.ofList (s ++ ['_']) ≠ "" := by
    rw [ne_eq, String.ofList_eq_empty_iff]
    simp
  rw [reading, encoded, TypeExpr.ofIdentifier, if_neg (hne _), hnone]

end Generic

/-! ## Generic types -/

namespace TypeExpr

/-- A type applied to another one. -/
def applied (outer argument : TypeExpr) : TypeExpr :=
  { type := outer.type ++ "<" ++ argument.type ++ ">"
    base := outer.type
    template := some argument.type
    imports := outer.imports ++ argument.imports }

/-- The arrays of a type. -/
def arrayOf (element : TypeExpr) : TypeExpr :=
  { type := element.type ++ "[]", base := element.type, imports := element.imports }

theorem type_applied_inj {o i j : TypeExpr} (h : applied o i = applied o j) : i.type = j.type :=
  Option.some.inj (congrArg TypeExpr.template h)

theorem type_arrayOf_inj {i j : TypeExpr} (h : arrayOf i = arrayOf j) : i.type = j.type :=
  congrArg TypeExpr.base h

/-- What stands in the outermost brackets is found. -/
theorem generic?_brackets {outer argument : List Char} (houter : '[' ∉ outer ∧ '\n' ∉ outer)
    (hargument : '\n' ∉ argument) :
    generic? (outer ++ '[' :: (argument ++ [']'])) = some (outer, argument) := by
  have hall : ∀ c ∈ outer, (c != '[') = true := by
    intro c hc
    rw [bne_iff_ne]
    rintro rfl
    exact houter.1 hc
  have htake : (outer ++ '[' :: (argument ++ [']'])).takeWhile (· != '[') = outer := by
    rw [List.takeWhile_append_of_pos hall]
    simp
  have hdrop : (outer ++ '[' :: (argument ++ [']'])).dropWhile (· != '[') =
      '[' :: (argument ++ [']']) := by
    rw [List.dropWhile_append_of_pos hall]
    simp
  simp [generic?, htake, hdrop, houter.2, hargument, dropFinalBreak]

end TypeExpr

namespace Generic

open TypeExpr

variable {e : Generic} {outer : List Char}

/-- The outermost brackets of an expression are read as such, and the argument is made an
identifier first. -/
theorem typeIn_apply (d : Dialect) (houter : isIdentifier outer = true) (he : e.WellFormed) :
    (apply outer e).typeIn d =
      if Unicode.lower outer = "array".toList then arrayOf e.reading
      else applied (.ofIdentifier (String.ofList outer)) e.reading := by
  have hwhole : (apply outer e).WellFormed := ⟨houter, he⟩
  have hne : String.ofList (apply outer e).text ≠ "" := by
    rw [ne_eq, String.ofList_eq_empty_iff]
    simp [text]
  have hnone : primitive? (String.ofList (apply outer e).text) .null = none :=
    primitive?_eq_none (P := fun s => '[' ∈ s.toList) (by decide +kernel)
      (by simp [String.toList_ofList, text])
  have hchars (c : Char) (hc : isTail c = false) : c ∉ outer := by
    intro hmem
    rw [isTail_of_isIdentifier houter c hmem] at hc
    cases hc
  have hgeneric : generic? (apply outer e).text = some (outer, e.text) :=
    generic?_brackets ⟨hchars _ (by decide), hchars _ (by decide)⟩ (not_mem_text he (by decide))
  rw [typeIn, ofName, if_neg hne, hnone]
  dsimp only
  rw [String.toList_ofList, decoded_text d hwhole, ofBareName, hgeneric]
  dsimp only
  rw [TypeExpr.apply, typeName_of_isIdentifier houter, ← reading_eq_ofIdentifier he]
  simp only [beq_iff_eq]
  rfl

/-- A generic expression is not read as a model. -/
theorem exists_sign_typeIn (d : Dialect) (houter : isIdentifier outer = true)
    (he : e.WellFormed) : ∃ c ∈ ((apply outer e).typeIn d).type.toList, isTail c = false := by
  rw [typeIn_apply d houter he]
  split_ifs
  · exact ⟨'[', by simp [arrayOf], by decide⟩
  · exact ⟨'<', by simp [applied], by decide⟩

/-- As an argument an expression has the type that it has anywhere exactly if it is a word other
than the one primitive that is no identifier. -/
theorem type_reading_eq_iff (d : Dialect) (h : e.WellFormed) :
    e.reading.type = (e.typeIn d).type ↔ e.IsPlainWord := by
  cases e with
  | word name =>
    obtain ⟨hplain, hdateTime⟩ := reading_word d h
    constructor
    · exact fun heq hname => hdateTime hname heq
    · exact fun hname => congrArg TypeExpr.type (hplain hname)
  | apply outer argument =>
    refine iff_of_false (fun heq => ?_) id
    obtain ⟨c, hc, hsign⟩ := exists_sign_typeIn d h.1 h.2
    rw [← heq, reading_apply, ofModel, String.toList_ofList, List.mem_append,
      List.mem_singleton] at hc
    rcases hc with hc | rfl
    · rw [isTail_join (isTail_parts h) c hc] at hsign
      cases hsign
    · cases hsign

theorem reading_eq_typeIn (d : Dialect) (h : e.WellFormed) (hplain : e.IsPlainWord) :
    e.reading = e.typeIn d := by
  cases e with
  | word name => exact (reading_word d h).1 hplain
  | apply outer argument => exact hplain.elim

/-- An identifier applied to an expression, the primitives and arrays aside, is the generic type of
the identifier, and arrays are arrays; but the type in them is what the argument is read as. That is
the type of the argument exactly if the argument is a word, and not the one primitive that is no
identifier. A generic argument is read as one model. -/
theorem ofName_generic (d : Dialect) (houter : isIdentifier outer = true) (he : e.WellFormed) :
    (primitives.lookup (String.ofList outer) = none → Unicode.lower outer ≠ "array".toList →
      (apply outer e).typeIn d = applied (.ofModel (String.ofList outer)) e.reading ∧
      ((apply outer e).typeIn d = applied (.ofModel (String.ofList outer)) (e.typeIn d) ↔
        e.IsPlainWord)) ∧
    (Unicode.lower outer = "array".toList →
      (apply outer e).typeIn d = arrayOf e.reading ∧
      ((apply outer e).typeIn d = arrayOf (e.typeIn d) ↔ e.IsPlainWord)) ∧
    ∀ inner argument, e = apply inner argument →
      e.reading = .ofModel (String.ofList (Text.join ['_'] e.parts ++ ['_'])) := by
  have hword {f : TypeExpr → TypeExpr} (hinj : ∀ i j, f i = f j → i.type = j.type) :
      f e.reading = f (e.typeIn d) ↔ e.IsPlainWord := by
    constructor
    · exact fun heq => (type_reading_eq_iff d he).1 (hinj _ _ heq)
    · exact fun hplain => congrArg f (reading_eq_typeIn d he hplain)
  refine ⟨fun hprimitive harray => ?_, fun harray => ?_, ?_⟩
  · have hmodel : TypeExpr.ofIdentifier (String.ofList outer) = .ofModel (String.ofList outer) := by
      have hne : String.ofList outer ≠ "" := by
        rw [ne_eq, String.ofList_eq_empty_iff]
        rintro rfl
        cases houter
      have hnone : primitive? (String.ofList outer) .null = none := hprimitive
      rw [TypeExpr.ofIdentifier, if_neg hne, hnone]
    rw [typeIn_apply d houter he, if_neg harray, hmodel]
    exact ⟨rfl, hword fun _ _ => type_applied_inj⟩
  · rw [typeIn_apply d houter he, if_pos harray]
    exact ⟨rfl, hword fun _ _ => type_arrayOf_inj⟩
  · rintro inner argument rfl
    exact reading_apply inner argument

/-- Links to pets. -/
def petLink : Generic := .apply "Link".toList (.word "Pet".toList)

/-- Links to pets are read as they are meant. A page of links to pets is a page of one model, and so
is an array of them. -/
theorem ofName_generic_petLink :
    petLink.typeIn .v2 =
        { type := "Link<Pet>", base := "Link", template := some "Pet",
          imports := ["Link", "Pet"] } ∧
      (apply "Page".toList petLink).typeIn .v2 =
        { type := "Page<Link_Pet_>", base := "Page", template := some "Link_Pet_",
          imports := ["Page", "Link_Pet_"] } ∧
      (apply "Array".toList petLink).typeIn .v2 =
        { type := "Link_Pet_[]", base := "Link_Pet_", imports := ["Link_Pet_"] } := by
  have hpet : (word "Pet".toList).WellFormed := .inl (by decide +kernel)
  have hlink : petLink.WellFormed := ⟨by decide +kernel, hpet⟩
  refine ⟨?_, ?_, ?_⟩
  · have houter : isIdentifier "Link".toList = true := by decide +kernel
    have hword := ((ofName_generic .v2 houter hpet).1
      (by decide +kernel) (by decide +kernel)).1
    exact hword.trans (by decide +kernel)
  · have houter : isIdentifier "Page".toList = true := by decide +kernel
    have hpage := ofName_generic .v2 houter hlink
    rw [(hpage.1 (by decide +kernel) (by decide +kernel)).1, hpage.2.2 _ _ rfl]
    decide +kernel
  · have houter : isIdentifier "Array".toList = true := by decide +kernel
    have harray := ofName_generic .v2 houter hlink
    rw [(harray.2.1 (by decide +kernel)).1, harray.2.2 _ _ rfl]
    decide +kernel

/-- Not every generic type is that of the type of its argument: a page of links to pets is not. -/
theorem not_all_arguments_read :
    ¬ ∀ (d : Dialect) (outer : List Char) (e : Generic), isIdentifier outer = true →
      e.WellFormed → primitives.lookup (String.ofList outer) = none →
      Unicode.lower outer ≠ "array".toList →
      (apply outer e).typeIn d = applied (.ofModel (String.ofList outer)) (e.typeIn d) := by
  intro h
  have hpage := h .v2 "Page".toList petLink (by decide +kernel)
    ⟨by decide +kernel, .inl (by decide +kernel)⟩ (by decide +kernel) (by decide +kernel)
  exact absurd hpage (by decide +kernel)

end Generic

end ApiModel
