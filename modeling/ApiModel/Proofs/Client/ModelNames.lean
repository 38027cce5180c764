import ApiModel.Client.Builder
import ApiModel.Proofs.Schema.Definitions
import ApiModel.Proofs.Schema.References
import ApiModel.Proofs.TypeExpr

/-!
# Names of models and imports

A model imports other models by the names that references give them, so these have to be the
names under which the models are defined.

**Theorem (`names_and_imports`).** The model of a definition has the name that references to the
definition give it exactly if `NamesAgree` holds of its key. Where that is so for all references
on the way to the models of a client, every import of a model is the name of a model.

**Theorem (`class_imported`).** A reserved word is a key for which it is not so.
-/

namespace ApiModel

/-! ## Imports in order -/

namespace Tidy

theorem mem_sortedImports {names : List String} {i : String} :
    i ∈ sortedImports names ↔ i ∈ names := by
  rw [sortedImports, List.mem_mergeSort, unique, List.mem_eraseDups]

theorem mem_imports_model {m : Model} {i : String} :
    i ∈ (model m).imports ↔ i ∈ m.imports ∧ i ≠ m.name := by
  show i ∈ (sortedImports m.imports).filter (· ≠ m.name) ↔ _
  rw [List.mem_filter, mem_sortedImports, decide_eq_true_eq]

end Tidy

theorem Client.models_of_generate {document : Node} {ctx : Context} {c : Client}
    (hctx : (Context.ofDocument document).outcome = .ok ctx)
    (h : (Client.generate document).outcome = .ok c) :
    ∃ models, (Schema.definitions ctx).outcome = .ok models ∧ c.models = models.map Tidy.model := by
  obtain ⟨raw, hraw, rfl⟩ := Report.map_eq_ok.1 h
  obtain ⟨ctx', hctx', hrest⟩ := Report.bind_eq_ok.1 hraw
  cases hctx.symm.trans hctx'
  obtain ⟨version, -, hrest⟩ := Report.bind_eq_ok.1 hrest
  obtain ⟨server, -, hrest⟩ := Report.bind_eq_ok.1 hrest
  obtain ⟨models, hmodels, hrest⟩ := Report.bind_eq_ok.1 hrest
  obtain ⟨services, -, hrest⟩ := Report.bind_eq_ok.1 hrest
  cases hrest
  exact ⟨models, hmodels, rfl⟩

namespace Schema

open Pointer TypeExpr

/-! ## References to definitions -/

/-- The schema that refers to the definition of a key. -/
def refersTo (d : Dialect) (key : String) : Node :=
  .map [(.text "$ref", .text (toDefinition d key))]

/-- A reference has a model, whose base is that of the reference. -/
theorem exists_model_refersTo (ctx : Context) (key : String) (isDefinition : Bool)
    (name : String) :
    ∃ r, (model ctx (refersTo ctx.dialect key) isDefinition name).outcome = .ok r ∧
      r.base = (ofRef ctx.dialect (toDefinition ctx.dialect key)).base :=
  ⟨_, rfl, rfl⟩

/-- Some definition has the given name. -/
def IsDefined (ctx : Context) (i : String) : Prop :=
  ∃ key v, Defines ctx key v ∧ i = ctx.dialect.schemaName (.scalar key)

/-- What a schema mentions is defined: its references point at definitions of which the names
agree, and what stands in brackets behind a name, or is named as a type, has a definition of its
own. -/
structure MentionsDefinitions (ctx : Context) (s : Node) : Prop where
  references : ∀ ref, Refers ctx s ref → ∃ key v, key ≠ "" ∧ Defines ctx (.text key) v ∧
    ref = toDefinition ctx.dialect key ∧ NamesAgree ctx.dialect key ∧
    ∀ i ∈ (ofRef ctx.dialect ref).imports, i = (ofRef ctx.dialect ref).base ∨ IsDefined ctx i
  types : ∀ type, NamesType ctx s type → ∀ i ∈ type.imports, IsDefined ctx i

theorem MentionsDefinitions.mentionsOnly {ctx : Context} {s : Node}
    (h : MentionsDefinitions ctx s) : MentionsOnly ctx (IsDefined ctx) s where
  references := by
    intro ref href i hi
    obtain ⟨key, v, hkey, hdef, rfl, hagree, hdepends⟩ := h.references ref href
    rcases hdepends i hi with rfl | hother
    · exact ⟨.text key, v, hdef, ((schemaName_eq_base_iff _ hkey).2 hagree).symm⟩
    · exact hother
  types := h.types

variable {ctx : Context} {models : List Model}

/-- A definition has a model of its name. -/
theorem exists_name_of_isDefined (hmodels : (definitions ctx).outcome = .ok models) {i : String}
    (h : IsDefined ctx i) : ∃ m ∈ models, m.name = i := by
  obtain ⟨key, v, hdef, rfl⟩ := h
  obtain ⟨m, hm, hmade⟩ := exists_definition hmodels hdef
  exact ⟨m, hm, name_model hmade⟩

/-- If everything is defined that is mentioned, everything is defined that is imported. -/
theorem imports_isDefined (hmodels : (definitions ctx).outcome = .ok models)
    (hmentions : ∀ key s, Named ctx key s →
      ∀ u, u = s ∨ Reaches ctx (ctx.dialect.schemaName (.scalar key)) s u →
        MentionsDefinitions ctx u)
    {m : Model} (hm : m ∈ models) : ∀ i ∈ m.imports, IsDefined ctx i := by
  obtain ⟨key, s, m', hnamed, hmade, -, hcore⟩ := mem_definitions hmodels hm
  have himports : m.imports = m'.imports := (imports_of_core hcore :)
  rw [himports]
  exact imports_model hmade fun u hu => (hmentions key s hnamed u hu).mentionsOnly

/-- The model of a definition is called what references to the definition call it exactly if
`NamesAgree` holds of its key, which says little of a plain key; and if it holds for every
reference on the way to the models of a client, what they import are models of the client. -/
theorem names_and_imports (hmodels : (definitions ctx).outcome = .ok models) :
    (∀ key v, key ≠ "" → Defines ctx (.text key) v →
      ∃ m ∈ models, (definition ctx (.text key, v)).outcome = .ok m ∧
        ∀ isDefinition name, ∃ r,
          (model ctx (refersTo ctx.dialect key) isDefinition name).outcome = .ok r ∧
            (m.name = r.base ↔ NamesAgree ctx.dialect key)) ∧
    (∀ key, Plain key →
      (NamesAgree ctx.dialect key ↔
        key ∈ ["any", "boolean", "number", "string"] ∨
          primitives.lookup key = none ∧
            (ofBareName (Text.dropTail Unicode.isBlank key.toList)).base ∉ Identifier.reserved)) ∧
    ∀ document c, (Context.ofDocument document).outcome = .ok ctx →
      (Client.generate document).outcome = .ok c →
      (∀ key s, Named ctx key s →
        ∀ u, u = s ∨ Reaches ctx (ctx.dialect.schemaName (.scalar key)) s u →
          MentionsDefinitions ctx u) →
      ∀ m ∈ c.models, ∀ i ∈ m.imports, ∃ n ∈ c.models, n.name = i := by
  refine ⟨?_, fun key hkey => namesAgree_iff_of_plain ctx.dialect hkey, ?_⟩
  · intro key v hkey hdef
    obtain ⟨m, hm, hmade⟩ := exists_definition hmodels hdef
    refine ⟨m, hm, hmade, fun isDefinition name => ?_⟩
    obtain ⟨r, hr, hbase⟩ := exists_model_refersTo ctx key isDefinition name
    refine ⟨r, hr, ?_⟩
    rw [hbase, name_model hmade]
    exact schemaName_eq_base_iff ctx.dialect hkey
  · intro document c hctx hc hmentions m hm i hi
    obtain ⟨models', hmodels', hall⟩ := Client.models_of_generate hctx hc
    cases hmodels.symm.trans hmodels'
    rw [hall] at hm ⊢
    obtain ⟨raw, hraw, rfl⟩ := List.mem_map.1 hm
    have hdefined := imports_isDefined hmodels hmentions hraw i (Tidy.mem_imports_model.1 hi).1
    obtain ⟨n, hn, hname⟩ := exists_name_of_isDefined hmodels hdefined
    exact ⟨Tidy.model n, List.mem_map_of_mem hn, hname⟩

/-! ## A pet and its owner -/

/-- A document in which a pet has an owner and the owner is a pet. -/
def family : Context :=
  { dialect := .v2
    document := Node.record [("swagger", Node.text "2.0"),
      ("definitions", Node.record [("Owner", refersTo .v2 "Pet"),
        ("Pet", Node.record [("type", Node.text "object"),
          ("properties", Node.record [("owner", refersTo .v2 "Owner")])])])] }

theorem family_visits {name : String} {key : Scalar} {s t : Node} (h : Named family key s) :
    ¬ Visits family name s t := by
  intro hv
  cases h with
  | definition hdef =>
    obtain ⟨entries, hentries, hmem⟩ := hdef
    cases hentries
    rcases List.mem_cons.1 hmem with heq | hmem
    · cases heq
      exact (hv.looksInside rfl : Rule.LooksInside (.reference "#/definitions/Pet"))
    · cases List.mem_singleton.1 hmem
      cases hv with
      | element hr _ => cases hr
      | property _ _ hentries hmem href _ =>
        cases hentries
        cases List.mem_singleton.1 hmem
        cases href
      | member hr _ _ => cases hr
      | target hr _ _ _ => cases hr
  | parameter hd _ _ => cases hd

theorem family_refers {key : Scalar} {s : Node} {ref : String} (h : Named family key s)
    (href : Refers family s ref) :
    ref = toDefinition .v2 "Pet" ∨ ref = toDefinition .v2 "Owner" := by
  cases h with
  | definition hdef =>
    obtain ⟨entries, hentries, hmem⟩ := hdef
    cases hentries
    rcases List.mem_cons.1 hmem with heq | hmem
    · cases heq
      cases href with
      | itself href => exact .inl (Option.some.inj href).symm
      | element hr _ => cases hr
      | property hr hp _ _ _ =>
        cases hr
        exact hp.elim
    · cases List.mem_singleton.1 hmem
      cases href with
      | itself href => cases href
      | element hr _ => cases hr
      | property _ _ hentries hmem href =>
        cases hentries
        cases List.mem_singleton.1 hmem
        exact .inr (Option.some.inj href).symm
  | parameter hd _ _ => cases hd

theorem family_mentions {key : Scalar} {s : Node} (h : Named family key s) :
    MentionsDefinitions family s where
  references := by
    intro ref href
    rcases family_refers h href with rfl | rfl
    · refine ⟨"Pet", _, by decide, ⟨_, rfl, List.mem_cons_of_mem _ List.mem_cons_self⟩, rfl, ?_, ?_⟩
      · exact .inr (by decide)
      · exact fun i hi => .inl (List.mem_singleton.1 hi)
    · refine ⟨"Owner", _, by decide, ⟨_, rfl, List.mem_cons_self⟩, rfl, ?_, ?_⟩
      · exact .inr (by decide)
      · exact fun i hi => .inl (List.mem_singleton.1 hi)
  types := by
    rintro type ⟨node, hr, -⟩
    cases h with
    | definition hdef =>
      obtain ⟨entries, hentries, hmem⟩ := hdef
      cases hentries
      rcases List.mem_cons.1 hmem with heq | hmem
      · cases heq
        cases hr
      · cases List.mem_singleton.1 hmem
        cases hr
    | parameter hd _ _ => cases hd

theorem names_and_imports_family :
    ∃ c, (Client.generate family.document).outcome = .ok c ∧ c.models.length = 2 ∧
      ∀ m ∈ c.models, ∀ i ∈ m.imports, ∃ n ∈ c.models, n.name = i := by
  obtain ⟨models, hmodels⟩ : ∃ models, (definitions family).outcome = .ok models := ⟨_, rfl⟩
  obtain ⟨c, hc, hlength⟩ : ∃ c, (Client.generate family.document).outcome = .ok c ∧
      c.models.length = 2 := ⟨_, rfl, rfl⟩
  refine ⟨c, hc, hlength, (names_and_imports hmodels).2.2 family.document c rfl hc ?_⟩
  intro key s hnamed u hu
  rcases hu with rfl | hu
  · exact family_mentions hnamed
  · exfalso
    cases hu with
    | visit hv => exact family_visits hnamed hv
    | step hv _ => exact family_visits hnamed hv

/-! ## A class in a box -/

/-- A document in which a box holds a schema whose key is a reserved word. -/
def wardrobe : Context :=
  { dialect := .v2
    document := Node.record [("swagger", Node.text "2.0"),
      ("definitions", Node.record [("class", Node.record [("type", Node.text "object")]),
        ("Box", Node.record [("type", Node.text "object"),
          ("properties", Node.record [("content", refersTo .v2 "class")])])])] }

/-- The class is defined under the name `_class` and referred to as `class`, which is the name of
no model but is imported. -/
theorem class_imported :
    (∃ v m r, Defines wardrobe (.text "class") v ∧
      (definition wardrobe (.text "class", v)).outcome = .ok m ∧
      (model wardrobe (refersTo .v2 "class") false "").outcome = .ok r ∧
      m.name = "_class" ∧ r.base = "class") ∧
    ∃ c, (Client.generate wardrobe.document).outcome = .ok c ∧ ∃ m ∈ c.models,
      "class" ∈ m.imports ∧ ∀ n ∈ c.models, n.name ≠ "class" := by
  refine ⟨⟨_, _, _, ⟨_, rfl, List.mem_cons_self⟩, rfl, rfl, rfl, rfl⟩, ?_⟩
  obtain ⟨models, box, hmodels, hbox, himports, hname, hnames⟩ : ∃ models box,
      (definitions wardrobe).outcome = .ok models ∧ models[1]? = some box ∧
      box.imports = ["class"] ∧ box.name = "Box" ∧ models.map (·.name) = ["_class", "Box"] :=
    ⟨_, _, rfl, rfl, rfl, rfl, rfl⟩
  obtain ⟨c, hc⟩ : ∃ c, (Client.generate wardrobe.document).outcome = .ok c := ⟨_, rfl⟩
  obtain ⟨models', hmodels', hall⟩ := Client.models_of_generate rfl hc
  cases hmodels.symm.trans hmodels'
  refine ⟨c, hc, Tidy.model box, ?_, ?_, ?_⟩
  · rw [hall]
    exact List.mem_map_of_mem (List.mem_of_getElem? hbox)
  · rw [Tidy.mem_imports_model, himports, hname]
    decide
  · intro n hn heq
    rw [hall] at hn
    obtain ⟨raw, hraw, rfl⟩ := List.mem_map.1 hn
    have hmem : raw.name ∈ ["_class", "Box"] := hnames ▸ List.mem_map_of_mem hraw
    have hclass : raw.name = "class" := heq
    rw [hclass] at hmem
    exact absurd hmem (by decide)

end Schema

end ApiModel
