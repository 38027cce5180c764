import ApiModel.Proofs.Schema.Members
import ApiModel.Proofs.Schema.Nesting

/-!
# Enumerations of a model

A model lists enumerations: an interface those that its properties are or list; a composition those
that its members and the properties it promotes list, and those that its own properties are or list.

**Theorem (`listsReached_model`).** Every enumeration in the list is reached through properties.

**Theorem (`enums_of_model`).** Every enumeration that is reached through properties is in the list
or is overlooked: `Overlooks` says of the schema which these are.

**Theorem (`PlainCompositions.mem_enums_iff`).** So the list is complete where no composition has an
enumeration as a member or requires properties of its members.

**Theorem (`not_all_enums_listed`).** A composition does not list the enumerations that its members
or the properties it promotes are.
-/

namespace ApiModel

namespace Model

/-- A model is reached through properties, one or more. -/
inductive LeadsTo : Model → Model → Prop
  | property {m p : Model} : p ∈ m.properties → LeadsTo m p
  | step {m p e : Model} : p ∈ m.properties → LeadsTo p e → LeadsTo m e

/-- An enumeration is the model or is reached from it. -/
def Has (m e : Model) : Prop := e.kind = .enum ∧ (e = m ∨ m.LeadsTo e)

variable {m l e : Model}

theorem leadsTo_iff : m.LeadsTo e ↔ ∃ p ∈ m.properties, e = p ∨ p.LeadsTo e := by
  constructor
  · intro h
    cases h with
    | property hp => exact ⟨e, hp, .inl rfl⟩
    | step hp h => exact ⟨_, hp, .inr h⟩
  · rintro ⟨p, hp, rfl | h⟩
    · exact .property hp
    · exact .step hp h

theorem leadsTo_of_core (h : m.core = l.core) : m.LeadsTo e ↔ l.LeadsTo e := by
  have hproperties : m.properties = l.properties := (Schema.properties_of_core h :)
  rw [leadsTo_iff, leadsTo_iff, hproperties]

/-- The enumerations that a model leads to are those that its properties have. -/
theorem enum_leadsTo_iff : e.kind = .enum ∧ m.LeadsTo e ↔ ∃ p ∈ m.properties, p.Has e := by
  rw [leadsTo_iff]
  constructor
  · rintro ⟨hkind, p, hp, h⟩
    exact ⟨p, hp, hkind, h⟩
  · rintro ⟨p, hp, hkind, h⟩
    exact ⟨hkind, p, hp, h⟩

end Model

namespace Schema

open Report Model

variable {build : Builder} {ctx : Context} {name : String} {s : Node} {r : Rule} {m e : Model}
  {isDefinition : Bool}

/-! ## What is listed is reached -/

/-- What a model lists are enumerations that it leads to. -/
def ListsReached (m : Model) : Prop := ∀ e ∈ m.enums, e.kind = .enum ∧ m.LeadsTo e

section Lists

variable {ms : List Model} (h : ∀ p ∈ ms, ListsReached p)

include h

theorem has_of_mem_nestedEnums (he : e ∈ nestedEnums ms) : ∃ p ∈ ms, p.Has e := by
  obtain ⟨p, hp, hep⟩ := mem_nestedEnums.1 he
  obtain ⟨hkind, hleads⟩ := h p hp e hep
  exact ⟨p, hp, hkind, .inr hleads⟩

theorem has_of_mem_enumsOf (he : e ∈ enumsOf ms) : ∃ p ∈ ms, p.Has e := by
  obtain ⟨p, hp, hep | ⟨hkind, rfl⟩⟩ := mem_enumsOf.1 he
  · exact has_of_mem_nestedEnums h (mem_nestedEnums.2 ⟨p, hp, hep⟩)
  · exact ⟨e, hp, hkind, .inl rfl⟩

end Lists

/-- The model that gathers properties is no enumeration, so it has those of the properties. -/
theorem has_gathered_iff {ms : List Model} :
    (∃ g ∈ gathered ms, g.Has e) ↔ ∃ p ∈ ms, p.Has e := by
  cases ms with
  | nil => simp [gathered]
  | cons p ps =>
    constructor
    · rintro ⟨g, hg, hkind, rfl | hleads⟩
      · obtain rfl := List.mem_singleton.1 hg
        cases hkind
      · obtain rfl := List.mem_singleton.1 hg
        exact enum_leadsTo_iff.1 ⟨hkind, hleads⟩
    · intro hhas
      obtain ⟨hkind, hleads⟩ := enum_leadsTo_iff
        (m := { name := "properties", kind := .interface, properties := p :: ps }).2 hhas
      exact ⟨_, List.mem_singleton.2 rfl, hkind, .inr hleads⟩

/-- The enumerations that a composition leads to are those of its members, of the properties that
it promotes, and of its own. -/
theorem has_composition_iff {kept lifted own : List Model} :
    (∃ p ∈ kept ++ gathered (lifted ++ own), p.Has e) ↔
      (∃ k ∈ kept, k.Has e) ∨ (∃ p ∈ lifted, p.Has e) ∨ ∃ p ∈ own, p.Has e := by
  simp only [List.mem_append, or_and_right, exists_or, has_gathered_iff]

theorem listsReached_inherited (ctx : Context) : Inherited ctx ListsReached where
  core := by
    intro m l h hl e he
    have henums : m.enums = l.enums := (enums_of_core h :)
    obtain ⟨hkind, hleads⟩ := hl e (henums ▸ he)
    exact ⟨hkind, (leadsTo_of_core h).2 hleads⟩
  literal _ := fun _ he => absurd he List.not_mem_nil
  reference _ := fun _ he => absurd he List.not_mem_nil
  gathered _ := fun _ he => absurd he List.not_mem_nil

/-- The models in a composition list what they lead to. -/
theorem listsReached_composition
    (hvisited : ∀ t, Visits ctx name s t → ∀ l, (build t).outcome = .ok l →
      l.Throughout ListsReached)
    {kind : ModelKind} {members : List Node}
    (hr : (rule ctx s.asMap).outcome = .ok (.composition kind members))
    {options : List (Option Model)} {lifted own : List Model}
    (hoptions : (members.mapM (member build kind name)).outcome = .ok options)
    (hlifted : (promoted build ctx s.asMap members).outcome = .ok lifted)
    (hown : (ownProperties build ctx s.asMap name).outcome = .ok own) :
    (∀ p ∈ options.reduceOption, ListsReached p) ∧ (∀ p ∈ lifted, ListsReached p) ∧
      ∀ p ∈ own, ListsReached p := by
  obtain ⟨hkept, hlift, hself⟩ :=
    (listsReached_inherited ctx).throughout_composition hvisited hr hoptions hlifted hown
  exact ⟨fun p hp => (hkept p hp).here, fun p hp => (hlift p hp).here,
    fun p hp => (hself p hp).here⟩

/-- A rule makes a model that lists what it leads to, of such models. -/
theorem listsReached_of_made (hr : (rule ctx s.asMap).outcome = .ok r)
    (hmade : Made build ctx name s.asMap r m)
    (hvisited : ∀ t, Visits ctx name s t → ∀ l, (build t).outcome = .ok l →
      l.Throughout ListsReached) : ListsReached m := by
  by_cases hp : r.HasProperties
  · cases hmade with
    | @interface own _ hown hcore =>
      have hall := (listsReached_inherited ctx).throughout_properties hvisited hr trivial hown
      intro e he
      rw [enums_of_core hcore] at he
      rw [enum_leadsTo_iff, properties_of_core hcore]
      exact has_of_mem_enumsOf (fun p hp => (hall p hp).here) he
    | @composition kind members options lifted own _ hoptions hlifted hown hcore =>
      obtain ⟨hkept, hlift, hself⟩ := listsReached_composition hvisited hr hoptions hlifted hown
      intro e he
      rw [enums_of_core hcore] at he
      rw [enum_leadsTo_iff, properties_of_core hcore]
      refine has_composition_iff.2 ?_
      rcases List.mem_append.1 he with he | he
      · rcases List.mem_append.1 he with he | he
        · exact .inl (has_of_mem_nestedEnums hkept he)
        · exact .inr (.inl (has_of_mem_nestedEnums hlift he))
      · exact .inr (.inr (has_of_mem_enumsOf hself he))
    | _ => exact hp.elim
  · intro e he
    rw [(nothing_held hmade hp).2] at he
    cases he

theorem listsReached_step {ctx : Context} :
    KeptByStep ctx (fun _ => True) (Throughout ListsReached) := by
  intro build isDefinition name s m _ hvisited h
  obtain ⟨r, hr, hmade⟩ := modelStep_made h
  exact (listsReached_inherited ctx).throughout hr hmade
    (listsReached_of_made hr hmade hvisited) hvisited

/-- What a model lists are enumerations that it leads to, and so it is for all models in it. -/
theorem listsReached_model (h : (model ctx s isDefinition name).outcome = .ok m) :
    m.Throughout ListsReached :=
  model_keeps listsReached_step (fun _ _ => trivial) h

/-! ## What is overlooked -/

/-- The model of a schema leads to an enumeration that it need not list. A composition does not list
a member that is one, nor what a property that it promotes is or leads to without listing it; and
what is overlooked in the model of a member or of a property stays so. -/
inductive Overlooks (ctx : Context) : String → Node → Model → Prop
  | member {name : String} {s t : Node} {kind : ModelKind} {members : List Node} {e : Model} :
      (rule ctx s.asMap).outcome = .ok (.composition kind members) → t ∈ members →
      isBareObject t = false → (inner ctx t).outcome = .ok e → e.kind = .enum →
      Overlooks ctx name s e
  | promoted {name : String} {s : Node} {kind : ModelKind} {members : List Node}
      {lifted : List Model} {p e : Model} :
      (rule ctx s.asMap).outcome = .ok (.composition kind members) →
      (promoted (inner ctx) ctx s.asMap members).outcome = .ok lifted → p ∈ lifted → p.Has e →
      e ∉ p.enums → Overlooks ctx name s e
  | inMember {name : String} {s t : Node} {kind : ModelKind} {members : List Node} {e : Model} :
      (rule ctx s.asMap).outcome = .ok (.composition kind members) → t ∈ members →
      isBareObject t = false → Overlooks ctx "" t e → Overlooks ctx name s e
  | inProperty {name : String} {s p : Node} {r : Rule} {entries : List (Scalar × Node)}
      {key : String} {e : Model} :
      (rule ctx s.asMap).outcome = .ok r → r.HasProperties →
      s.asMap.field "properties" = .map entries → (.text key, p) ∈ entries →
      p.asMap.ref? = none → substitute? ctx name key = none → Overlooks ctx "" p.asMap e →
      Overlooks ctx name s e

/-! ## What is reached is listed or overlooked -/

/-- An enumeration that a property has is listed by the owner of the property, or overlooked. -/
theorem listed_or_overlooked_of_own (hr : (rule ctx s.asMap).outcome = .ok r)
    (hp : r.HasProperties) {own : List Model}
    (hown : (properties (inner ctx) ctx s.asMap name).outcome = .ok own)
    (hvisited : ∀ t, Visits ctx name s t → ∀ l, (inner ctx t).outcome = .ok l →
      e.kind = .enum ∧ l.LeadsTo e → e ∈ l.enums ∨ Overlooks ctx "" t e)
    {p : Model} (hmem : p ∈ own) (hhas : p.Has e) :
    e ∈ enumsOf own ∨ Overlooks ctx name s e := by
  obtain ⟨hkind, rfl | hleads⟩ := hhas
  · exact .inl (mem_enumsOf.2 ⟨e, hmem, .inr ⟨hkind, rfl⟩⟩)
  · obtain ⟨entries, key, node, hentries, hentry, -, -, hmade⟩ := mem_properties hown hmem
    have hnone (hproperties : p.properties = []) : False := by
      obtain ⟨q, hq, -⟩ := leadsTo_iff.1 hleads
      rw [hproperties] at hq
      cases hq
    cases hmade with
    | literal _ hcore => exact (hnone (properties_of_core hcore)).elim
    | reference _ _ hcore => exact (hnone (properties_of_core hcore)).elim
    | @embedded l _ hsub href hl hcore =>
      have hvisits : Visits ctx name s node.asMap := .property hr hp hentries hentry href hsub
      have henums : p.enums = l.enums := (enums_of_core hcore :)
      rcases hvisited _ hvisits l hl ⟨hkind, (leadsTo_of_core hcore).1 hleads⟩ with he | he
      · exact .inl (mem_enumsOf.2 ⟨p, hmem, .inl (henums ▸ he)⟩)
      · exact .inr (.inProperty hr hp hentries hentry href hsub he)

/-- An enumeration that a model leads to is listed or overlooked. -/
theorem listed_or_overlooked (h : (model ctx s isDefinition name).outcome = .ok m)
    (he : e.kind = .enum ∧ m.LeadsTo e) : e ∈ m.enums ∨ Overlooks ctx name s e := by
  refine model_induction (R := fun name s m =>
    e.kind = .enum ∧ m.LeadsTo e → e ∈ m.enums ∨ Overlooks ctx name s e) ?_ h he
  intro name s r m hr hmade hvisited he
  have hhas := enum_leadsTo_iff.1 he
  by_cases hp : r.HasProperties
  · cases hmade with
    | @interface own _ hown hcore =>
      rw [properties_of_core hcore] at hhas
      rw [enums_of_core hcore]
      obtain ⟨p, hp, hhas⟩ := hhas
      exact listed_or_overlooked_of_own hr trivial hown hvisited hp hhas
    | @composition kind members options lifted own _ hoptions hlifted hown hcore =>
      rw [properties_of_core hcore] at hhas
      rw [enums_of_core hcore]
      obtain ⟨k, hk, hkhas⟩ | ⟨p, hp, hphas⟩ | ⟨p, hp, hphas⟩ := has_composition_iff.1 hhas
      · obtain ⟨t, ht, hbare, hbuilt, -⟩ := mem_kept hoptions hk
        obtain ⟨hkind, rfl | hleads⟩ := hkhas
        · exact .inr (.member hr ht hbare hbuilt hkind)
        · rcases hvisited t (.member hr ht hbare) k hbuilt ⟨hkind, hleads⟩ with he | he
          · refine .inl (List.mem_append_left _ (List.mem_append_left _ ?_))
            exact mem_nestedEnums.2 ⟨k, hk, he⟩
          · exact .inr (.inMember hr ht hbare he)
      · by_cases he : e ∈ p.enums
        · refine .inl (List.mem_append_left _ (List.mem_append_right _ ?_))
          exact mem_nestedEnums.2 ⟨p, hp, he⟩
        · exact .inr (.promoted hr hlifted hp hphas he)
      · have hproperties := properties_of_ownProperties hown
        rcases listed_or_overlooked_of_own hr trivial hproperties hvisited hp hphas with he | he
        · exact .inl (List.mem_append_right _ he)
        · exact .inr he
    | _ => exact hp.elim
  · obtain ⟨p, hmem, -⟩ := hhas
    rw [(nothing_held hmade hp).1] at hmem
    cases hmem

/-! ## What is overlooked is reached -/

theorem kind_ne_enum_of_isEmptyMember (h : (model ctx s isDefinition name).outcome = .ok m)
    (hempty : isEmptyMember m = true) : m.kind ≠ .enum := by
  obtain ⟨r, hr, hmade⟩ := model_made h
  have hregular := regular_rule hr
  have hhollow := (hollow_iff hr).1 ((isEmptyMember_iff_hollow h).1 hempty)
  rw [kind_of_made hmade]
  cases hhollow with
  | reference => simp [Rule.kind]
  | array => simp [Rule.kind]
  | composition => rcases hregular with rfl | rfl | rfl <;> simp [Rule.kind]
  | interface => simp [Rule.kind]
  | named => simp [Rule.kind]
  | anything => simp [Rule.kind]

/-- A member that has an enumeration is kept. -/
theorem isEmptyMember_eq_false_of_has {t : Node} {k : Model} (hk : (inner ctx t).outcome = .ok k)
    (h : k.Has e) : isEmptyMember k = false := by
  refine Bool.eq_false_iff.2 fun hempty => ?_
  obtain ⟨hkind, rfl | hleads⟩ := h
  · exact kind_ne_enum_of_isEmptyMember hk hempty hkind
  · obtain ⟨p, hp, -⟩ := leadsTo_iff.1 hleads
    rw [(isEmptyMember_iff.1 hempty).2.2.1] at hp
    cases hp

/-- A composition has the enumerations of the models of its members. -/
theorem has_of_member {kind : ModelKind} {members : List Node} {t : Node} {k : Model}
    (h : (model ctx s isDefinition name).outcome = .ok m)
    (hr : (rule ctx s.asMap).outcome = .ok (.composition kind members)) (ht : t ∈ members)
    (hbare : isBareObject t = false) (hk : (inner ctx t).outcome = .ok k) (hhas : k.Has e) :
    e.kind = .enum ∧ m.LeadsTo e := by
  obtain ⟨options, lifted, own, hoptions, -, -, hproperties⟩ := composition_of_model h hr
  have hkept := mem_kept_of_member hoptions ht hbare hk (isEmptyMember_eq_false_of_has hk hhas)
  rw [enum_leadsTo_iff, hproperties]
  exact has_composition_iff.2 (.inl ⟨k, hkept, hhas⟩)

/-- A model leads to the enumerations of the properties that its schema declares. -/
theorem has_of_own (h : (model ctx s isDefinition name).outcome = .ok m)
    (hr : (rule ctx s.asMap).outcome = .ok r) (hp : r.HasProperties) :
    ∃ own, (properties (inner ctx) ctx s.asMap name).outcome = .ok own ∧
      ∀ p ∈ own, p.Has e → e.kind = .enum ∧ m.LeadsTo e := by
  obtain ⟨r', hr', hmade⟩ := model_made h
  obtain rfl := Except.ok.inj (hr.symm.trans hr')
  cases hmade with
  | @interface own _ hown hcore =>
    refine ⟨own, hown, fun p hp hhas => ?_⟩
    rw [enum_leadsTo_iff, properties_of_core hcore]
    exact ⟨p, hp, hhas⟩
  | @composition _ _ _ _ own _ _ _ hown hcore =>
    refine ⟨own, properties_of_ownProperties hown, fun p hp hhas => ?_⟩
    rw [enum_leadsTo_iff, properties_of_core hcore]
    exact has_composition_iff.2 (.inr (.inr ⟨p, hp, hhas⟩))
  | _ => exact hp.elim

/-- A model leads to the enumerations that are overlooked. -/
theorem reached_of_overlooks (he : Overlooks ctx name s e)
    (h : (model ctx s isDefinition name).outcome = .ok m) : e.kind = .enum ∧ m.LeadsTo e := by
  induction he generalizing m isDefinition with
  | member hr ht hbare hk hkind => exact has_of_member h hr ht hbare hk ⟨hkind, .inl rfl⟩
  | @promoted name s kind members lifted p e hr hlifted hp hhas _ =>
    obtain ⟨options, lifted', own, -, hlifted', -, hproperties⟩ := composition_of_model h hr
    obtain rfl := Except.ok.inj (hlifted'.symm.trans hlifted)
    rw [enum_leadsTo_iff, hproperties]
    exact has_composition_iff.2 (.inr (.inl ⟨p, hp, hhas⟩))
  | @inMember name s t kind members e hr ht hbare _ ih =>
    obtain ⟨options, -, -, hoptions, -⟩ := composition_of_model h hr
    obtain ⟨k, hk⟩ := built_member hoptions ht hbare
    obtain ⟨hkind, hleads⟩ := ih hk
    exact has_of_member h hr ht hbare hk ⟨hkind, .inr hleads⟩
  | inProperty hr hp hentries hentry href hsub _ ih =>
    obtain ⟨own, hown, hall⟩ := has_of_own h hr hp
    obtain ⟨p, hp, l, hl, hcore⟩ := embedded_property hown hentries hentry href hsub
    obtain ⟨hkind, hleads⟩ := ih hl
    exact hall p hp ⟨hkind, .inr ((leadsTo_of_core hcore).2 hleads)⟩

/-- What a model lists, and the enumerations that are overlooked, are all enumerations it leads to.
So it lists exactly these if those that are overlooked at one place are listed for another. -/
theorem enums_of_model (h : (model ctx s isDefinition name).outcome = .ok m) :
    (∀ e, e.kind = .enum ∧ m.LeadsTo e ↔ e ∈ m.enums ∨ Overlooks ctx name s e) ∧
      ((∀ e, e ∈ m.enums ↔ e.kind = .enum ∧ m.LeadsTo e) ↔
        ∀ e, Overlooks ctx name s e → e ∈ m.enums) := by
  have hlisted : ∀ e ∈ m.enums, e.kind = .enum ∧ m.LeadsTo e := (listsReached_model h).here
  refine ⟨fun e => ⟨listed_or_overlooked h, ?_⟩, fun hall e he => ?_, fun hall e => ?_⟩
  · rintro (he | he)
    · exact hlisted e he
    · exact reached_of_overlooks he h
  · exact (hall e).2 (reached_of_overlooks he h)
  · exact ⟨hlisted e, fun he => (listed_or_overlooked h he).elim id (hall e)⟩

/-- No composition on the way to a model has an enumeration as a member or requires properties of
its members. -/
def PlainCompositions (ctx : Context) (name : String) (s : Node) : Prop :=
  ∀ u, u = s ∨ Reaches ctx name s u → ∀ kind members,
    (rule ctx u.asMap).outcome = .ok (.composition kind members) →
      requiredNames u.asMap = [] ∧
        ∀ t ∈ members, ∀ l, (inner ctx t).outcome = .ok l → l.kind ≠ .enum

theorem PlainCompositions.visit {t : Node} (h : PlainCompositions ctx name s)
    (hv : Visits ctx name s t) : PlainCompositions ctx "" t :=
  fun u hu => h u (.inr (hv.reaches hu))

theorem PlainCompositions.not_overlooks (h : PlainCompositions ctx name s) :
    ¬ Overlooks ctx name s e := by
  intro he
  induction he with
  | member hr ht _ hk hkind => exact (h _ (.inl rfl) _ _ hr).2 _ ht _ hk hkind
  | promoted hr hlifted hp _ _ => exact (mem_promoted hlifted hp).1 (h _ (.inl rfl) _ _ hr).1
  | inMember hr ht hbare _ ih => exact ih (h.visit (.member hr ht hbare))
  | inProperty hr hp hentries hentry href hsub _ ih =>
    exact ih (h.visit (.property hr hp hentries hentry href hsub))

/-- Where no composition is in the way, a model lists exactly the enumerations that it leads to. -/
theorem PlainCompositions.mem_enums_iff (hs : PlainCompositions ctx name s)
    (h : (model ctx s isDefinition name).outcome = .ok m) :
    e ∈ m.enums ↔ e.kind = .enum ∧ m.LeadsTo e := by
  constructor
  · intro he
    exact (listsReached_model h).here e he
  · intro he
    exact (listed_or_overlooked h he).resolve_right hs.not_overlooks

/-! ## An outfit -/

/-- The schema of some texts. -/
def selection (values : List String) : Node :=
  .record [("type", .text "string"), ("enum", .list (values.map .text))]

/-- A document in which a garment may have a size. -/
def shop : Context :=
  let garment := Node.record [("type", .text "object"),
    ("properties", .record [("size", selection ["S", "L"])])]
  { dialect := .v2, document := .record [("definitions", .record [("Garment", garment)])] }

/-- An outfit is a garment that has its size, in some colour, with a fit of its own. -/
def outfit : Node :=
  .record [("required", .list [.text "size"]),
    ("allOf", .list [.record [("$ref", .text "#/definitions/Garment")], selection ["red", "blue"]]),
    ("properties", .record [("fit", selection ["slim", "wide"])])]

/-- The properties of an outfit are the garment, the colour, and the model that gathers the size and
the fit. Of these three enumerations only the fit is listed. -/
theorem exists_outfit :
    ∃ m colour size fit, (model shop outfit false "").outcome = .ok m ∧
      (colour.kind = .enum ∧ m.LeadsTo colour ∧ colour.name = "") ∧
      (size.kind = .enum ∧ m.LeadsTo size ∧ size.name = "size") ∧
      m.enums = [fit] ∧ fit.name = "fit" := by
  obtain ⟨m, colour, gathered, size, fit, hm, hcolour, hgathered, hsize, hkinds, henums, hnames⟩ :
      ∃ m colour gathered size fit, (model shop outfit false "").outcome = .ok m ∧
        m.properties[1]? = some colour ∧ m.properties[2]? = some gathered ∧
        gathered.properties = [size, fit] ∧ (colour.kind = .enum ∧ size.kind = .enum) ∧
        m.enums = [fit] ∧ colour.name = "" ∧ size.name = "size" ∧ fit.name = "fit" :=
    ⟨_, _, _, _, _, rfl, rfl, rfl, rfl, ⟨rfl, rfl⟩, rfl, rfl, rfl, rfl⟩
  refine ⟨m, colour, size, fit, hm, ⟨hkinds.1, ?_, hnames.1⟩, ⟨hkinds.2, ?_, hnames.2.1⟩, henums,
    hnames.2.2⟩
  · exact .property (List.mem_of_getElem? hcolour)
  · refine .step (List.mem_of_getElem? hgathered) (.property ?_)
    rw [hsize]
    exact List.mem_cons_self

/-- In the schema of an outfit the colour and the size are overlooked. -/
theorem enums_of_model_outfit :
    ∃ m colour size fit, (model shop outfit false "").outcome = .ok m ∧ m.enums = [fit] ∧
      (m.LeadsTo colour ∧ Overlooks shop "" outfit colour) ∧
      (m.LeadsTo size ∧ Overlooks shop "" outfit size) := by
  obtain ⟨m, colour, size, fit, hm, ⟨hkind, hcolour, hname⟩, ⟨hkind', hsize, hname'⟩, henums,
    hfit⟩ := exists_outfit
  have hmodel := (enums_of_model hm).1
  have hother {e : Model} (hne : e.name ≠ "fit") : e ∉ m.enums := by
    intro he
    rw [henums, List.mem_singleton] at he
    exact hne (he ▸ hfit)
  refine ⟨m, colour, size, fit, hm, henums, ⟨hcolour, ?_⟩, ⟨hsize, ?_⟩⟩
  · exact ((hmodel colour).1 ⟨hkind, hcolour⟩).resolve_left (hother (by simp [hname]))
  · exact ((hmodel size).1 ⟨hkind', hsize⟩).resolve_left (hother (by simp [hname']))

/-- Not every model lists the enumerations that it leads to: an outfit does not list its colour. -/
theorem not_all_enums_listed :
    ¬ ∀ (ctx : Context) (s : Node) (isDefinition : Bool) (name : String) (m : Model),
      (model ctx s isDefinition name).outcome = .ok m →
      ∀ e, e ∈ m.enums ↔ e.kind = .enum ∧ m.LeadsTo e := by
  intro hall
  obtain ⟨m, colour, size, fit, hm, ⟨hkind, hcolour, hname⟩, -, henums, hfit⟩ := exists_outfit
  have hlisted := (hall shop outfit false "" m hm colour).2 ⟨hkind, hcolour⟩
  rw [henums, List.mem_singleton] at hlisted
  rw [hlisted, hfit] at hname
  exact absurd hname (by decide)

end Schema

end ApiModel
