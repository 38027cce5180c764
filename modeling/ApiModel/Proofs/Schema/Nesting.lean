import ApiModel.Proofs.Schema.Invariant

/-!
# Models in models

A model contains others: its link, its properties and its enumerations, and what these contain.

**Theorem (`Inherited.throughout`).** What is so of a model and throughout the models of the schemas
that its schema visits is so throughout the model, if it is `Inherited`: it is a matter of cores,
and it is so of the models that no rule makes. These are the references and literals among
properties, and the model in which a composition gathers properties.

What is said of that model may depend on what is gathered. Then it is `Copied` only, and has to be
shown of what a composition gathers (`Copied.throughout_of_gathered`).
-/

namespace ApiModel

namespace Model

/-- A model contains itself and what its link, its properties and its enumerations contain. -/
inductive Contains : Model → Model → Prop
  | self (m : Model) : Contains m m
  | link {m l p : Model} : m.link = some l → Contains l p → Contains m p
  | property {m q p : Model} : q ∈ m.properties → Contains q p → Contains m p
  | enumeration {m e p : Model} : e ∈ m.enums → Contains e p → Contains m p

/-- Something is so of all models that a model contains. -/
def Throughout (A : Model → Prop) (m : Model) : Prop := ∀ p, m.Contains p → A p

variable {A B : Model → Prop} {m l : Model}

theorem Throughout.here (h : m.Throughout A) : A m := h m (.self m)

theorem Throughout.imp (h : m.Throughout A) (hAB : ∀ p, A p → B p) : m.Throughout B :=
  fun p hp => hAB p (h p hp)

theorem throughout_iff :
    m.Throughout A ↔ A m ∧ (∀ l, m.link = some l → l.Throughout A) ∧
      (∀ p ∈ m.properties, p.Throughout A) ∧ ∀ e ∈ m.enums, e.Throughout A := by
  constructor
  · intro h
    exact ⟨h.here, fun l hl p hp => h p (.link hl hp), fun q hq p hp => h p (.property hq hp),
      fun e he p hp => h p (.enumeration he hp)⟩
  · rintro ⟨hm, hlink, hproperties, henums⟩ p hp
    cases hp with
    | self => exact hm
    | link hl hp => exact hlink _ hl p hp
    | property hq hp => exact hproperties _ hq p hp
    | enumeration he hp => exact henums _ he p hp

/-- A model that holds no other. -/
theorem throughout_of_leaf (hm : A m) (hlink : m.link = none) (hproperties : m.properties = [])
    (henums : m.enums = []) : m.Throughout A := by
  refine throughout_iff.2 ⟨hm, ?_, ?_, ?_⟩
  · simp [hlink]
  · simp [hproperties]
  · simp [henums]

/-- What a model holds is a matter of its core. -/
theorem throughout_of_core (h : m.core = l.core) (hm : A m) (hl : l.Throughout A) :
    m.Throughout A := by
  obtain ⟨-, hlink, hproperties, henums⟩ := throughout_iff.1 hl
  refine throughout_iff.2 ⟨hm, ?_, ?_, ?_⟩
  · rwa [(Schema.link_of_core h :)]
  · rwa [(Schema.properties_of_core h :)]
  · rwa [(Schema.enums_of_core h :)]

end Model

namespace Schema

open Report Model

/-! ## Enumerations of several models -/

section Enums

variable {ms : List Model} {e : Model}

theorem mem_nestedEnums : e ∈ nestedEnums ms ↔ ∃ p ∈ ms, e ∈ p.enums := List.mem_flatMap

theorem mem_enumsOf : e ∈ enumsOf ms ↔ ∃ p ∈ ms, e ∈ p.enums ∨ p.kind = .enum ∧ e = p := by
  rw [enumsOf, List.mem_flatMap]
  refine exists_congr fun p => and_congr_right fun _ => ?_
  rw [List.mem_append]
  refine or_congr_right ?_
  split_ifs with hkind
  · rw [List.mem_singleton, and_iff_right hkind]
  · exact iff_of_false List.not_mem_nil fun h => hkind h.1

variable {A : Model → Prop} (h : ∀ p ∈ ms, p.Throughout A)

include h

theorem throughout_nestedEnums : ∀ e ∈ nestedEnums ms, e.Throughout A := by
  intro e he
  obtain ⟨p, hp, hep⟩ := mem_nestedEnums.1 he
  exact (throughout_iff.1 (h p hp)).2.2.2 e hep

theorem throughout_enumsOf : ∀ e ∈ enumsOf ms, e.Throughout A := by
  intro e he
  obtain ⟨p, hp, hep | ⟨-, rfl⟩⟩ := mem_enumsOf.1 he
  · exact (throughout_iff.1 (h p hp)).2.2.2 e hep
  · exact h e hp

end Enums

/-- A rule that builds no properties makes a model without properties and enumerations. -/
theorem nothing_held {build : Builder} {ctx : Context} {name : String} {s : Node} {r : Rule}
    {m : Model} (hmade : Made build ctx name s r m) (hr : ¬ r.HasProperties) :
    m.properties = [] ∧ m.enums = [] := by
  cases hmade with
  | reference hcore => exact ⟨properties_of_core hcore, enums_of_core hcore⟩
  | enumeration hcore => exact ⟨properties_of_core hcore, enums_of_core hcore⟩
  | referenceContainer _ hcore => exact ⟨properties_of_core hcore, enums_of_core hcore⟩
  | container _ _ hcore => exact ⟨properties_of_core hcore, enums_of_core hcore⟩
  | named hcore => exact ⟨properties_of_core hcore, enums_of_core hcore⟩
  | anything hcore => exact ⟨properties_of_core hcore, enums_of_core hcore⟩
  | composition => exact absurd trivial hr
  | interface => exact absurd trivial hr

/-! ## What is inherited -/

/-- It is a matter of cores, and so of the references and literals that no rule makes. -/
structure Copied (ctx : Context) (A : Model → Prop) : Prop where
  core : ∀ {m l : Model}, m.core = l.core → A l → A m
  literal : ∀ base, A { type := "string", base, kind := .reference }
  reference : ∀ ref, A { toTypeExpr := .ofRef ctx.dialect ref, kind := .reference }

/-- It is a matter of cores, and so of the models that no rule makes. -/
structure Inherited (ctx : Context) (A : Model → Prop) : Prop extends Copied ctx A where
  gathered : ∀ properties, A { name := "properties", kind := .interface, properties }

variable {ctx : Context} {A : Model → Prop} {build : Builder} {name : String} {s : Node} {r : Rule}
  {m : Model}

theorem throughout_gathered {ms : List Model}
    (hm : A { name := "properties", kind := .interface, properties := ms })
    (h : ∀ p ∈ ms, p.Throughout A) : ∀ p ∈ gathered ms, p.Throughout A := by
  intro p hp
  unfold gathered at hp
  split at hp
  · cases hp
  · obtain rfl := List.mem_singleton.1 hp
    exact throughout_iff.2 ⟨hm, by simp, h, by simp⟩

namespace Copied

variable (hA : Copied ctx A)

include hA

theorem throughout_of_core {m l : Model} (h : m.core = l.core) (hl : l.Throughout A) :
    m.Throughout A :=
  Model.throughout_of_core h (hA.core h hl.here) hl

theorem throughout_properties
    (hvisited : ∀ t, Visits ctx name s t → ∀ l, (build t).outcome = .ok l → l.Throughout A)
    (hr : (rule ctx s.asMap).outcome = .ok r) (hp : r.HasProperties) {own : List Model}
    (hown : (properties build ctx s.asMap name).outcome = .ok own) :
    ∀ p ∈ own, p.Throughout A := by
  refine forall_properties (fun {p base} hcore => ?_) (fun {p _ _ _ ref} _ _ _ hcore => ?_)
    (fun t hv l hl p hcore => hA.throughout_of_core hcore (hvisited t hv l hl)) hr hp hown
  · have hliteral := throughout_of_leaf (hA.literal base) rfl rfl rfl
    exact hA.throughout_of_core (hcore.trans rfl) hliteral
  · have hreference := throughout_of_leaf (hA.reference ref) rfl rfl rfl
    exact hA.throughout_of_core (hcore.trans rfl) hreference

theorem throughout_composition
    (hvisited : ∀ t, Visits ctx name s t → ∀ l, (build t).outcome = .ok l → l.Throughout A)
    {kind : ModelKind} {members : List Node}
    (hr : (rule ctx s.asMap).outcome = .ok (.composition kind members))
    {options : List (Option Model)} {lifted own : List Model}
    (hoptions : (members.mapM (member build kind name)).outcome = .ok options)
    (hlifted : (promoted build ctx s.asMap members).outcome = .ok lifted)
    (hown : (ownProperties build ctx s.asMap name).outcome = .ok own) :
    (∀ p ∈ options.reduceOption, p.Throughout A) ∧ (∀ p ∈ lifted, p.Throughout A) ∧
      ∀ p ∈ own, p.Throughout A := by
  have hcopy {q : Model} (hq : q.Throughout A) :
      ({ q with isRequired := true } : Model).Throughout A :=
    have hsame : ({ q with isRequired := true } : Model).core = q.core := rfl
    hA.throughout_of_core hsame hq
  exact forall_composition hvisited
    (fun t hv l hl q hq _ => hcopy ((throughout_iff.1 (hvisited t hv l hl)).2.2.1 q hq))
    (fun own => hA.throughout_properties hvisited hr trivial) hr hoptions hlifted hown

/-- What is so of a model, of the model in which it gathers properties, and throughout the models
of the schemas that its schema visits, is so throughout the model. -/
theorem throughout_of_gathered (hr : (rule ctx s.asMap).outcome = .ok r)
    (hmade : Made build ctx name s.asMap r m) (hm : A m)
    (hgathered : ∀ {kind members lifted own}, r = .composition kind members →
      (promoted build ctx s.asMap members).outcome = .ok lifted →
      (ownProperties build ctx s.asMap name).outcome = .ok own →
      A { name := "properties", kind := .interface, properties := lifted ++ own })
    (hvisited : ∀ t, Visits ctx name s t → ∀ l, (build t).outcome = .ok l → l.Throughout A) :
    m.Throughout A := by
  have leaf {l : Model} (hcore : m.core = l) (hlink : l.link = none)
      (hproperties : l.properties = []) (henums : l.enums = []) : m.Throughout A :=
    throughout_of_leaf hm ((link_of_core hcore).trans hlink)
      ((properties_of_core hcore).trans hproperties) ((enums_of_core hcore).trans henums)
  cases hmade with
  | reference hcore => exact leaf hcore rfl rfl rfl
  | enumeration hcore => exact leaf hcore rfl rfl rfl
  | referenceContainer _ hcore => exact leaf hcore rfl rfl rfl
  | named hcore => exact leaf hcore rfl rfl rfl
  | anything hcore => exact leaf hcore rfl rfl rfl
  | @container kind element link _ href hlink hcore =>
    refine throughout_iff.2 ⟨hm, ?_, ?_, ?_⟩
    · rw [(link_of_core hcore :)]
      rintro l ⟨⟩
      exact hvisited _ (.element hr href) link hlink
    · simp [(properties_of_core hcore :)]
    · simp [(enums_of_core hcore :)]
  | @interface own _ hown hcore =>
    have hall := hA.throughout_properties hvisited hr trivial hown
    refine throughout_iff.2 ⟨hm, ?_, ?_, ?_⟩
    · simp [(link_of_core hcore :)]
    · rw [(properties_of_core hcore :)]
      exact hall
    · rw [(enums_of_core hcore :)]
      exact throughout_enumsOf hall
  | @composition kind members options lifted own _ hoptions hlifted hown hcore =>
    obtain ⟨hkept, hlift, hself⟩ :=
      hA.throughout_composition hvisited hr hoptions hlifted hown
    have hbehind := hgathered rfl hlifted hown
    refine throughout_iff.2 ⟨hm, ?_, ?_, ?_⟩
    · simp [(link_of_core hcore :)]
    · rw [(properties_of_core hcore :)]
      refine List.forall_mem_append.2 ⟨hkept, throughout_gathered hbehind ?_⟩
      exact List.forall_mem_append.2 ⟨hlift, hself⟩
    · rw [(enums_of_core hcore :)]
      refine List.forall_mem_append.2 ⟨List.forall_mem_append.2 ⟨?_, ?_⟩, ?_⟩
      · exact throughout_nestedEnums hkept
      · exact throughout_nestedEnums hlift
      · exact throughout_enumsOf hself

end Copied

/-- What is so of a model, and throughout the models of the schemas that its schema visits, is so
throughout the model. -/
theorem Inherited.throughout (hA : Inherited ctx A) (hr : (rule ctx s.asMap).outcome = .ok r)
    (hmade : Made build ctx name s.asMap r m) (hm : A m)
    (hvisited : ∀ t, Visits ctx name s t → ∀ l, (build t).outcome = .ok l → l.Throughout A) :
    m.Throughout A :=
  hA.throughout_of_gathered hr hmade hm (fun _ _ _ => hA.gathered _) hvisited

end Schema

end ApiModel
