import ApiModel.Proofs.Schema.Recursion
import ApiModel.Proofs.TypeExpr

/-!
# Types of which nothing is left

What is read as a type has a text and an outermost part, and where nothing can be read any type
takes its place. A list of types is different: it is read as its alternatives, nothing left out,
and may be left without any. Then its text is empty.

**Theorem (`ofNode_emptyIff`).** The type that stands in a document is empty exactly if it is a list
with nothing to read: without alternatives, or with the empty text as the only one.

**Theorem (`empty_iff_typeless`).** So the model of a schema has an empty type exactly if its schema
names such a list as its type or is a container whose elements, or the elements of whose elements
and so on, do so.
-/

namespace ApiModel

namespace TypeExpr

/-! ## Types of documents -/

/-- The alternatives of a list of types. -/
def alternatives (names : List Node) : List String := (Node.texts names).filter (· ≠ "null")

/-- A list where the dialect reads lists as types. -/
def IsTypeList (d : Dialect) (type : Node) (names : List Node) : Prop :=
  d.hasTypeLists = true ∧ type = .list names

/-- A list of types with nothing to read: it has no alternatives, or the empty text is the only
one and no format gives it a meaning. -/
def IsVoid (d : Dialect) (type format : Node) : Prop :=
  ∃ names, IsTypeList d type names ∧
    (alternatives names = [] ∨ alternatives names = [""] ∧ format.isText "binary" = false)

/-- What names no type: neither a text in which something stands nor a list of types. -/
def IsUnknown (d : Dialect) (type : Node) : Prop :=
  type.text?.getD "" = "" ∧ ∀ names, ¬ IsTypeList d type names

/-- The type and its outermost part are empty exactly under a condition. -/
structure EmptyIff (t : TypeExpr) (p : Prop) : Prop where
  type : t.type = "" ↔ p
  base : t.base = "" ↔ p

variable {t : TypeExpr} {p q : Prop}

theorem Named.emptyIff (h : t.Named) (hp : ¬ p) : t.EmptyIff p :=
  ⟨iff_of_false h.type hp, iff_of_false h.base hp⟩

theorem EmptyIff.congr (h : t.EmptyIff p) (hpq : p ↔ q) : t.EmptyIff q :=
  ⟨h.type.trans hpq, h.base.trans hpq⟩

/-- Words with something between them are empty only if there are none or a single empty one. -/
theorem intercalate_eq_empty_iff {between : String} (hbetween : between ≠ "")
    (words : List String) : between.intercalate words = "" ↔ words = [] ∨ words = [""] := by
  match words with
  | [] => simp
  | [word] => simp
  | word :: next :: rest =>
    rw [String.intercalate_cons_cons]
    refine iff_of_false (append_ne_empty ?_) (by simp)
    exact .inl (append_ne_empty (.inr hbetween))

/-- The word for an alternative is empty only if the alternative is and no format gives it a
meaning. -/
theorem word_eq_empty_iff (name : String) (format : Node) :
    (primitive? name format).getD name = "" ↔ name = "" ∧ format.isText "binary" = false := by
  cases hprimitive : primitive? name format with
  | some p =>
    refine iff_of_false (primitive_ne_empty hprimitive) ?_
    rintro ⟨rfl, hformat⟩
    rw [primitive?, hformat] at hprimitive
    cases hprimitive
  | none =>
    have hformat : format.isText "binary" = false := by
      cases h : format.isText "binary" with
      | false => rfl
      | true => rw [primitive?, h] at hprimitive; cases hprimitive
    exact ⟨fun h => ⟨h, hformat⟩, fun h => h.1⟩

theorem ofNames_emptyIff (names : List Node) (format : Node) :
    (ofNames names format).EmptyIff
      (alternatives names = [] ∨ alternatives names = [""] ∧ format.isText "binary" = false) := by
  have hempty : (ofNames names format).type = "" ↔ alternatives names = [] ∨
      alternatives names = [""] ∧ format.isText "binary" = false := by
    refine (intercalate_eq_empty_iff (by decide) _).trans ?_
    rw [List.map_eq_nil_iff, List.map_eq_singleton_iff]
    refine or_congr Iff.rfl ⟨?_, ?_⟩
    · rintro ⟨name, hnames, hword⟩
      obtain ⟨rfl, hformat⟩ := (word_eq_empty_iff name format).1 hword
      exact ⟨hnames, hformat⟩
    · rintro ⟨hnames, hformat⟩
      exact ⟨"", hnames, (word_eq_empty_iff "" format).2 ⟨rfl, hformat⟩⟩
  exact ⟨hempty, hempty⟩

/-- The type that stands in a document is empty exactly if it is a list with nothing to read. -/
theorem ofNode_emptyIff (d : Dialect) (type format : Node) :
    (ofNode d type format).EmptyIff (IsVoid d type format) := by
  have hother (hlist : ∀ names, type ≠ .list names) : ¬ IsVoid d type format := by
    rintro ⟨names, ⟨-, rfl⟩, -⟩
    exact hlist names rfl
  match type with
  | .text name => exact (ofName_named d name format).emptyIff (hother (by simp))
  | .list names =>
    rw [ofNode]
    split_ifs with hlists
    · refine (ofNames_emptyIff names format).congr ⟨fun h => ⟨names, ⟨hlists, rfl⟩, h⟩, ?_⟩
      rintro ⟨names', ⟨-, hnames⟩, h⟩
      cases hnames
      exact h
    · refine named_any.emptyIff ?_
      rintro ⟨names', ⟨hlists', -⟩, -⟩
      exact hlists hlists'
  | .null | .bool _ | .int _ | .float _ | .scalar (.date _) | .scalar (.timestamp _) | .map _ =>
    exact named_any.emptyIff (hother (by simp))

theorem ofNode_eq_any {d : Dialect} {type : Node} (h : IsUnknown d type) (format : Node) :
    ofNode d type format = {} := by
  obtain ⟨htext, hlist⟩ := h
  match type with
  | .text name => exact if_pos htext
  | .list names => exact if_neg fun hlists => hlist names ⟨hlists, rfl⟩
  | .null | .bool _ | .int _ | .float _ | .scalar (.date _) | .scalar (.timestamp _) | .map _ => rfl

end TypeExpr

/-! ## Models of schemas -/

namespace Schema

open TypeExpr

/-- A schema that names a list with nothing to read as its type, or a container of such
elements. -/
inductive Typeless (ctx : Context) : Node → Prop
  | named {s type : Node} : (rule ctx s.asMap).outcome = .ok (.named type) →
      IsVoid ctx.dialect type (s.asMap.field "format") → Typeless ctx s
  | container {s e : Node} {kind : ModelKind} :
      (rule ctx s.asMap).outcome = .ok (.container kind e) → e.ref? = none →
      Typeless ctx e.asMap → Typeless ctx s

variable {ctx : Context} {name : String} {s : Node} {isDefinition : Bool} {m : Model} {r : Rule}

/-- Where the rule for a schema leaves it without a type. -/
def Rule.LeavesTypeless (ctx : Context) (s : Node) : Rule → Prop
  | .named type => IsVoid ctx.dialect type (s.asMap.field "format")
  | .container _ e => e.ref? = none ∧ Typeless ctx e.asMap
  | _ => False

theorem typeless_iff (hr : (rule ctx s.asMap).outcome = .ok r) :
    Typeless ctx s ↔ r.LeavesTypeless ctx s := by
  constructor
  · intro h
    cases h with
    | named hr' hvoid =>
      obtain rfl := Except.ok.inj (hr'.symm.trans hr)
      exact hvoid
    | container hr' href h =>
      obtain rfl := Except.ok.inj (hr'.symm.trans hr)
      exact ⟨href, h⟩
  · intro h
    cases r with
    | named type => exact .named hr h
    | container kind e => exact .container hr h.1 h.2
    | _ => exact h.elim

/-- The rules that do not read a type from the document give one. -/
theorem emptyIff_of_core {t : TypeExpr} (hcore : m.toTypeExpr = t) (ht : t.Named)
    (hr : ¬ r.LeavesTypeless ctx s) : m.EmptyIff (r.LeavesTypeless ctx s) := by
  rw [hcore]
  exact ht.emptyIff hr

theorem ofRef_named (d : Dialect) (ref : String) : (ofRef d ref).Named := ofName_named d ref .null

/-- A model that a rule makes has an empty type exactly if the rule leaves its schema without one,
provided that this is so of the models of the schemas inside. -/
theorem emptyIff_of_made (hr : (rule ctx s.asMap).outcome = .ok r)
    (hmade : Made (inner ctx) ctx name s.asMap r m)
    (hvisited : ∀ t, Visits ctx name s t → ∀ l, (inner ctx t).outcome = .ok l →
      l.EmptyIff (Typeless ctx t)) : m.EmptyIff (r.LeavesTypeless ctx s) := by
  cases hmade with
  | reference hcore => exact emptyIff_of_core (toTypeExpr_of_core hcore) (ofRef_named _ _) id
  | @enumeration type members _ hcore =>
    refine emptyIff_of_core (toTypeExpr_of_core hcore) (TypeExpr.named_plain ?_) id
    have htype : type = "string" ∨ type = "number" := regular_rule hr
    rcases htype with rfl | rfl <;> decide
  | referenceContainer href hcore =>
    refine emptyIff_of_core (toTypeExpr_of_core hcore) (ofRef_named _ _) ?_
    rintro ⟨hnone, -⟩
    rw [href] at hnone
    cases hnone
  | container href hlink hcore =>
    have helement := hvisited _ (.element hr href) _ hlink
    rw [toTypeExpr_of_core hcore]
    exact helement.congr ⟨fun h => ⟨href, h⟩, fun h => h.2⟩
  | composition _ _ _ hcore =>
    exact emptyIff_of_core (toTypeExpr_of_core hcore) ⟨named_any.type, named_any.base⟩ id
  | interface _ hcore =>
    exact emptyIff_of_core (toTypeExpr_of_core hcore) ⟨named_any.type, named_any.base⟩ id
  | named hcore =>
    rw [toTypeExpr_of_core hcore]
    exact ofNode_emptyIff _ _ _
  | anything hcore => exact emptyIff_of_core (toTypeExpr_of_core hcore) named_any id

/-- A type that stands in a document is empty exactly if it is a list with nothing to read, and any
type where none is named. The model of a schema has an empty type exactly if its schema names such
a list or is a container of such elements. -/
theorem empty_iff_typeless (h : (model ctx s isDefinition name).outcome = .ok m) :
    (∀ d type format, (ofNode d type format).EmptyIff (IsVoid d type format)) ∧
      (∀ d type format, IsUnknown d type → ofNode d type format = {}) ∧
      m.EmptyIff (Typeless ctx s) := by
  refine ⟨ofNode_emptyIff, fun d type format hunknown => ofNode_eq_any hunknown format, ?_⟩
  refine made_induction (R := fun s m => m.EmptyIff (Typeless ctx s)) ?_ h
  intro name s r m hr hmade hvisited
  exact (emptyIff_of_made hr hmade hvisited).congr (typeless_iff hr).symm

/-- A document that defines nothing. -/
def noDefinitions : Context := { dialect := .v3, document := .map [] }

/-- A type that only nothing has. -/
def onlyNull : Node := .list [.text "null"]

/-- A list of values that are nothing. -/
def nulls : Node :=
  .record [("type", .text "array"), ("items", .record [("type", onlyNull)])]

/-- The model of a list of values that are nothing has an empty type. -/
theorem empty_iff_typeless_nulls :
    ∃ m, (model noDefinitions nulls false "").outcome = .ok m ∧ m.kind = .array ∧
      m.type = "" ∧ m.base = "" ∧ m.EmptyIff (Typeless noDefinitions nulls) ∧
      Typeless noDefinitions nulls := by
  obtain ⟨m, hm, hkind, htype, hbase⟩ : ∃ m, (model noDefinitions nulls false "").outcome = .ok m ∧
      m.kind = .array ∧ m.type = "" ∧ m.base = "" := ⟨_, rfl, rfl, rfl, rfl⟩
  have hempty : m.EmptyIff (Typeless noDefinitions nulls) := (empty_iff_typeless hm).2.2
  exact ⟨m, hm, hkind, htype, hbase, hempty, hempty.type.1 htype⟩

/-- Not every type that stands in a document has a text and an outermost part. -/
theorem not_all_types_named : ¬ ∀ d type format, (ofNode d type format).Named := by
  intro h
  exact (h .v3 onlyNull .null).type rfl

end Schema

end ApiModel
