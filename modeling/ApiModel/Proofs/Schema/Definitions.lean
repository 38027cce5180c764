import ApiModel.Proofs.Pointer
import ApiModel.Proofs.Schema.Made
import ApiModel.Schema.Definitions

/-!
# The models of definitions

**Theorems (`exists_definition`, `mem_definitions`).** Every definition of a document has a model
among those of the document, and every model among them is the one of a definition or, in the third
version, of the schema of a named parameter. So the names of the models are known before they are
made.

**Theorem (`resolve_toDefinition`).** The pointer to the definition of a key leads to the
definition.
-/

namespace ApiModel

namespace Schema

open Report

/-! ## Definitions -/

/-- The components of a document of the third version. -/
def componentsOf (document : Node) : Node := (document.field "components").orElse (.map [])

/-- The part of a document that holds the definitions. -/
def definitionsOf (ctx : Context) : Node :=
  match ctx.dialect with
  | .v2 => ctx.document.field "definitions"
  | .v3 => (componentsOf ctx.document).field "schemas"

/-- The document defines a schema under a key. -/
def Defines (ctx : Context) (key : Scalar) (s : Node) : Prop :=
  ∃ entries, definitionsOf ctx = .map entries ∧ (key, s) ∈ entries

/-- The document gives a schema a name: it is a definition or the schema of a parameter. -/
inductive Named (ctx : Context) : Scalar → Node → Prop
  | definition {key : Scalar} {s : Node} : Defines ctx key s → Named ctx key s
  | parameter {key : Scalar} {p : Node} {entries : List (Scalar × Node)} : ctx.dialect = .v3 →
      (componentsOf ctx.document).field "parameters" = .map entries → (key, p) ∈ entries →
      Named ctx key (p.field "schema")

variable {ctx : Context} {models : List Model}

/-! ## Pointers to definitions -/

theorem get?_of_field {key : String} {n v : Node} (h : n.field key = v) (hv : v ≠ .null) :
    n.get? key = some v := by
  unfold Node.field at h
  cases hget : n.get? key with
  | none =>
    rw [hget] at h
    exact absurd h.symm hv
  | some w =>
    rw [hget] at h
    exact congrArg some h

theorem componentsOf_eq {document v : Node} {key : String}
    (h : (componentsOf document).get? key = some v) :
    document.get? "components" = some (componentsOf document) := by
  have hfield : document.field "components" = componentsOf document := by
    unfold componentsOf Node.orElse at h ⊢
    split
    · rfl
    · rename_i hfalse
      rw [if_neg hfalse] at h
      cases h
  refine get?_of_field hfield fun hnull => ?_
  rw [hnull] at h
  cases h

/-- The pointer to the definition of a key leads to the definition. -/
theorem resolve_toDefinition {key : String} {v : Node} (hkey : key ≠ "")
    (h : (definitionsOf ctx).get? key = some v) :
    Pointer.resolve ctx.document (Pointer.toDefinition ctx.dialect key) = .ok v := by
  have hdefinitions : definitionsOf ctx ≠ .null := by
    intro hnull
    rw [hnull] at h
    cases h
  rw [Pointer.resolve, Pointer.steps_toDefinition ctx.dialect hkey]
  unfold definitionsOf at h hdefinitions
  cases hd : ctx.dialect with
  | v2 =>
    rw [hd] at h hdefinitions
    simp only [Pointer.definitionSteps, List.cons_append, List.nil_append, Pointer.followAll,
      Pointer.follow_get? (get?_of_field rfl hdefinitions), Pointer.follow_get? h]
  | v3 =>
    rw [hd] at h hdefinitions
    have hschemas := get?_of_field rfl hdefinitions
    simp only [Pointer.definitionSteps, List.cons_append, List.nil_append, Pointer.followAll,
      Pointer.follow_get? (componentsOf_eq hschemas), Pointer.follow_get? hschemas,
      Pointer.follow_get? h]

/-! ## Their models -/

theorem sectionEntries_map (entries : List (Scalar × Node)) :
    (sectionEntries (.map entries)).outcome = .ok entries := by
  cases entries <;> rfl

/-- Entries are only found in a mapping. -/
theorem mem_sectionEntries {n : Node} {entries : List (Scalar × Node)} {e : Scalar × Node}
    (h : (sectionEntries n).outcome = .ok entries) (he : e ∈ entries) : n = .map entries := by
  have hentries : (n.orElse (.map [])).entries? = some entries := ofOption_eq_ok.1 h
  unfold Node.orElse at hentries
  split at hentries
  · cases n with
    | map es => rw [Option.some.inj hentries]
    | _ => cases hentries
  · rw [← Option.some.inj hentries] at he
    exact absurd he List.not_mem_nil

theorem sectionEntries_eq_ok {n : Node} {entries : List (Scalar × Node)}
    (h : (sectionEntries n).outcome = .ok entries) : entries = n.entries?.getD [] := by
  cases entries with
  | nil =>
    cases n with
    | map es =>
      rw [sectionEntries_map] at h
      exact (Except.ok.inj h).symm
    | _ => rfl
  | cons e entries =>
    rw [mem_sectionEntries h List.mem_cons_self]
    rfl

theorem definitions_v2 (hd : ctx.dialect = .v2) (h : (definitions ctx).outcome = .ok models) :
    ∃ entries, (sectionEntries (definitionsOf ctx)).outcome = .ok entries ∧
      (entries.mapM (definition ctx)).outcome = .ok models := by
  simp only [definitions, hd] at h
  obtain ⟨entries, hentries, hmodels⟩ := bind_eq_ok.1 h
  refine ⟨entries, ?_, hmodels⟩
  simpa only [definitionsOf, hd] using hentries

theorem definitions_v3 (hd : ctx.dialect = .v3) (h : (definitions ctx).outcome = .ok models) :
    ∃ entries ms parameters options, (sectionEntries (definitionsOf ctx)).outcome = .ok entries ∧
      (entries.mapM (definition ctx)).outcome = .ok ms ∧
      (sectionEntries ((componentsOf ctx.document).field "parameters")).outcome = .ok parameters ∧
      (parameters.mapM (parameterDefinition ctx)).outcome = .ok options ∧
      models = ms ++ options.reduceOption := by
  simp only [definitions, hd] at h
  split at h
  · obtain ⟨_, hfail, -⟩ := bind_eq_ok.1 h
    cases hfail
  · obtain ⟨entries, hentries, h⟩ := bind_eq_ok.1 h
    obtain ⟨ms, hms, h⟩ := bind_eq_ok.1 h
    obtain ⟨parameters, hparameters, h⟩ := bind_eq_ok.1 h
    obtain ⟨options, hoptions, h⟩ := bind_eq_ok.1 h
    refine ⟨entries, ms, parameters, options, ?_, hms, hparameters, hoptions, ?_⟩
    · simpa only [definitionsOf, hd, componentsOf] using hentries
    · exact (Except.ok.inj h).symm

/-- Every definition has a model. -/
theorem exists_definition {key : Scalar} {s : Node} (h : (definitions ctx).outcome = .ok models)
    (hdef : Defines ctx key s) : ∃ m ∈ models, (definition ctx (key, s)).outcome = .ok m := by
  obtain ⟨entries, hmap, hmem⟩ := hdef
  cases hd : ctx.dialect with
  | v2 =>
    obtain ⟨entries', hentries, hmodels⟩ := definitions_v2 hd h
    rw [hmap, sectionEntries_map] at hentries
    cases hentries
    exact exists_mem_of_mapM hmodels hmem
  | v3 =>
    obtain ⟨entries', ms, _, options, hentries, hms, -, -, rfl⟩ := definitions_v3 hd h
    rw [hmap, sectionEntries_map] at hentries
    cases hentries
    obtain ⟨m, hm, hmade⟩ := exists_mem_of_mapM hms hmem
    exact ⟨m, List.mem_append_left _ hm, hmade⟩

/-- The model of the schema of a parameter is that of a definition, except for its description. -/
theorem parameterDefinition_eq_ok {key : Scalar} {p : Node} {m : Model}
    (h : (parameterDefinition ctx (key, p)).outcome = .ok (some m)) :
    ∃ m', (definition ctx (key, p.field "schema")).outcome = .ok m' ∧ m.name = m'.name ∧
      m.core = m'.core := by
  simp only [parameterDefinition] at h
  split at h
  · obtain ⟨m', hm', h⟩ := bind_eq_ok.1 h
    rw [outcome_pure, Except.ok.injEq, Option.some.injEq] at h
    subst h
    exact ⟨m', hm', rfl, rfl⟩
  · cases h

/-- Every model is made of a schema that the document names. -/
theorem mem_definitions (h : (definitions ctx).outcome = .ok models) {m : Model}
    (hm : m ∈ models) :
    ∃ key s m', Named ctx key s ∧ (definition ctx (key, s)).outcome = .ok m' ∧
      m.name = m'.name ∧ m.core = m'.core := by
  cases hd : ctx.dialect with
  | v2 =>
    obtain ⟨entries, hentries, hmodels⟩ := definitions_v2 hd h
    obtain ⟨⟨key, s⟩, he, hmade⟩ := exists_of_mem_mapM hmodels hm
    have hmap := mem_sectionEntries hentries he
    exact ⟨key, s, m, .definition ⟨entries, hmap, he⟩, hmade, rfl, rfl⟩
  | v3 =>
    obtain ⟨entries, ms, parameters, options, hentries, hms, hparameters, hoptions, rfl⟩ :=
      definitions_v3 hd h
    rcases List.mem_append.1 hm with hm | hm
    · obtain ⟨⟨key, s⟩, he, hmade⟩ := exists_of_mem_mapM hms hm
      have hmap := mem_sectionEntries hentries he
      exact ⟨key, s, m, .definition ⟨entries, hmap, he⟩, hmade, rfl, rfl⟩
    · obtain ⟨⟨key, p⟩, he, hmade⟩ :=
        exists_of_mem_mapM hoptions (List.reduceOption_mem_iff.1 hm)
      obtain ⟨m', hmade, hname, hcore⟩ := parameterDefinition_eq_ok hmade
      have hmap := mem_sectionEntries hparameters he
      exact ⟨key, p.field "schema", m', .parameter hd hmap he, hmade, hname, hcore⟩

end Schema

end ApiModel
