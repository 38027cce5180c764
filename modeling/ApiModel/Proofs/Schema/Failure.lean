import ApiModel.Proofs.Schema.Recursion

/-!
# Why a schema has no model

A schema has no model if something is wrong with it by itself, or with a schema that it visits, or
if it comes round to itself. `Flaw` says so of the document, without looking at any run.

**Theorem (`failsBy_model`).** Making the model of a schema fails by a flaw of the schema if at all,
and a schema with a flaw has no model.

One step is shown first, with the failures of the schemas inside taken as they are
(`failsBy_modelStep`). A run is a budget of steps. It can fail for want of budget too, but if the
budget is that of `model`, then only on a schema that comes round to itself.
-/

namespace ApiModel

namespace Schema

open Report Model

/-! ## Flaws -/

/-- The complaints about what a schema says of its values: its description and its constraints. -/
def complaintsOf (s : Node) : Nat :=
  descriptionComplaints (s.field "description").orNull + (Constraints.ofSchema s).complaints

/-- Something is wrong with the declaration of a property by itself. -/
inductive EntryFlaw (ctx : Context) (name : String) : Scalar × Node → Fault → Prop
  /-- The name of the property is no text. -/
  | key {key : Scalar} {p : Node} : (∀ text, key ≠ .text text) →
      EntryFlaw ctx name (key, p) .malformed
  /-- The property is a reference or a literal, and its schema is refused. -/
  | refused {key : String} {p : Node} {f : Fault} :
      (substitute? ctx name key).isSome = true ∨ p.asMap.ref?.isSome = true →
      Refused "Model" (complaintsOf p.asMap) f → EntryFlaw ctx name (.text key, p) f

/-- Something is wrong with a schema of the given name by itself. -/
inductive OwnFlaw (ctx : Context) (name : String) (s : Node) : Fault → Prop
  | rule : RuleFlaw ctx.dialect s → OwnFlaw ctx name s .malformed
  | refused {f : Fault} : Refused "Model" (complaintsOf s) f → OwnFlaw ctx name s f
  | entry {r : Rule} {e : Scalar × Node} {f : Fault} : (Schema.rule ctx s).outcome = .ok r →
      r.HasProperties → e ∈ declarations s → EntryFlaw ctx name e f → OwnFlaw ctx name s f
  /-- A composition requires properties, and a member refers to nothing. -/
  | target {kind : ModelKind} {members : List Node} {t : Node} {f : Fault} :
      (Schema.rule ctx s).outcome = .ok (.composition kind members) → requiredNames s ≠ [] →
      t ∈ members → Node.Dangles ctx.document t f → OwnFlaw ctx name s f

/-- Something is wrong with a schema of the given name. -/
inductive Flaw (ctx : Context) : String → Node → Fault → Prop
  | own {name : String} {s : Node} {f : Fault} : OwnFlaw ctx name s.asMap f → Flaw ctx name s f
  | visit {name : String} {s t : Node} {f : Fault} : Visits ctx name s t → Flaw ctx "" t f →
      Flaw ctx name s f
  /-- The schema contains itself without end. -/
  | cycle {name : String} {s : Node} : Reaches ctx name s s → Flaw ctx name s .endless

variable {ctx : Context} {name : String} {s t : Node} {r : Rule} {f : Fault} {build : Builder}

/-! ## One step -/

theorem failsBy_elementOf (e : Node) :
    FailsBy (elementOf build ctx e) fun f =>
      e.ref? = none ∧ (build e.asMap).outcome = .error f := by
  unfold elementOf
  cases e.ref? with
  | some ref => exact (FailsBy.pure _).congr fun f => by simp
  | none =>
    exact ((FailsBy.self _).before fun _ _ => .pure _).congr fun f => (and_iff_right rfl).symm

theorem failsBy_container (e : Node) (kind : ModelKind) (base : Model) :
    FailsBy (container build ctx s e kind base) fun f =>
      (e.ref? = none ∧ (build e.asMap).outcome = .error f) ∨ Refused "Model" base.complaints f :=
  (failsBy_elementOf e).bind fun _ _ => failsBy_last _ _

/-- The model of the schema of a property cannot be made, and it is asked for. -/
def FailsInside (build : Builder) (ctx : Context) (name : String) (e : Scalar × Node)
    (f : Fault) : Prop :=
  ∃ key, e.1 = .text key ∧ e.2.asMap.ref? = none ∧ substitute? ctx name key = none ∧
    (build e.2.asMap).outcome = .error f

theorem failsBy_property (required : List Node) (e : Scalar × Node) :
    FailsBy (property build ctx required (ctx.discriminator? name) name e) fun f =>
      EntryFlaw ctx name e f ∨ FailsInside build ctx name e f := by
  obtain ⟨key, p⟩ := e
  cases key with
  | text key =>
    have hrefused (h : (substitute? ctx name key).isSome = true ∨ p.asMap.ref?.isSome = true)
        (f : Fault) : Refused "Model" (complaintsOf p.asMap) f ↔
          EntryFlaw ctx name (.text key, p) f ∨ FailsInside build ctx name (.text key, p) f := by
      refine ⟨fun hf => .inl (.refused h hf), ?_⟩
      rintro (hf | ⟨key', hkey, href, hsub, -⟩)
      · cases hf with
        | key hkey => exact absurd rfl (hkey key)
        | refused _ hf => exact hf
      · cases hkey
        simp_all
    simp only [property]
    split
    · rename_i hsub
      exact (failsBy_settle _).congr (hrefused (.inl (Option.isSome_iff_exists.2 ⟨_, hsub⟩)))
    · rename_i href
      exact (failsBy_referring _ _ _ _ _).congr
        (hrefused (.inr (Option.isSome_iff_exists.2 ⟨_, href⟩)))
    · rename_i hsub href
      refine ((FailsBy.self _).before fun _ _ => .pure _).congr fun f => ?_
      refine ⟨fun hf => .inr ⟨key, rfl, href, hsub, hf⟩, ?_⟩
      rintro (hf | ⟨_, _, _, _, hf⟩)
      · cases hf with
        | key hkey => exact absurd rfl (hkey key)
        | refused h _ =>
          have hnone : substitute? ctx name key = none := hsub
          simp [hnone, href] at h
      · exact hf
  | _ =>
    refine (FailsBy.fail _).congr fun f => ⟨?_, ?_⟩
    · rintro rfl
      refine .inl (.key fun text htext => ?_)
      cases htext
    · rintro (hf | ⟨_, hkey, _⟩)
      · cases hf
        rfl
      · cases hkey

theorem failsBy_properties :
    FailsBy (properties build ctx s name) fun f =>
      ∃ e ∈ declarations s, EntryFlaw ctx name e f ∨ FailsInside build ctx name e f := by
  unfold properties declarations
  cases s.field "properties" with
  | map entries => exact FailsBy.mapM fun e _ => failsBy_property _ e
  | _ => exact (FailsBy.pure []).congr fun f => by simp [Node.entries?]

theorem failsBy_ownProperties :
    FailsBy (ownProperties build ctx s name) fun f =>
      ∃ e ∈ declarations s, EntryFlaw ctx name e f ∨ FailsInside build ctx name e f := by
  unfold ownProperties
  split_ifs with htruthy
  · exact failsBy_properties
  · exact (FailsBy.pure []).congr fun f => by simp [declarations_eq_nil htruthy]

theorem failsBy_member (kind : ModelKind) (label : String) (m : Node) :
    FailsBy (member build kind label m) fun f =>
      isBareObject m = false ∧ (build m).outcome = .error f := by
  unfold member
  split_ifs with hbare
  · exact ((FailsBy.note _).after fun _ _ => .pure _).congr fun f => by simp [hbare]
  · refine ((FailsBy.self _).before fun _ _ => ?_).congr fun f => by simp [hbare]
    split_ifs
    · exact (FailsBy.note _).after fun _ _ => .pure _
    · exact .pure _

/-- The model of what a member of a composition refers to cannot be made, and it is asked for. -/
def FailsAtTarget (build : Builder) (ctx : Context) (m : Node) (f : Fault) : Prop :=
  ∃ t, (Node.target ctx.document m).outcome = .ok t ∧ (build t).outcome = .error f

theorem failsBy_promotedFrom (required : List Node) (m : Node) :
    FailsBy (promotedFrom build ctx required m) fun f =>
      Node.Dangles ctx.document m f ∨ FailsAtTarget build ctx m f :=
  (Node.failsBy_target ctx.document m).bindAt fun t _ =>
    (FailsBy.self (build t)).before fun _ _ => .pure _

theorem failsBy_promoted (members : List Node) :
    FailsBy (promoted build ctx s members) fun f =>
      requiredNames s ≠ [] ∧ ∃ m ∈ members,
        Node.Dangles ctx.document m f ∨ FailsAtTarget build ctx m f := by
  unfold promoted
  split
  · rename_i hnil
    exact (FailsBy.pure []).congr fun f => by simp [hnil]
  · rename_i hne
    exact (FailsBy.mapM fun m _ => failsBy_promotedFrom _ m).map.congr fun f =>
      (and_iff_right hne).symm

/-- What is wrong with a schema whose rule is known, apart from the rule. -/
theorem ownFlaw_iff (hr : (rule ctx s).outcome = .ok r) :
    OwnFlaw ctx name s f ↔
      Refused "Model" (complaintsOf s) f ∨
        (r.HasProperties ∧ ∃ e ∈ declarations s, EntryFlaw ctx name e f) ∨
        ∃ kind members, r = .composition kind members ∧ requiredNames s ≠ [] ∧
          ∃ m ∈ members, Node.Dangles ctx.document m f := by
  constructor
  · intro h
    cases h with
    | rule hflaw => exact absurd hr ((failsBy_rule ctx s).complete _ ⟨hflaw, rfl⟩ r)
    | refused hf => exact .inl hf
    | entry hr' hp he hf =>
      cases hr.symm.trans hr'
      exact .inr (.inl ⟨hp, _, he, hf⟩)
    | target hr' hreq hm hf =>
      cases hr.symm.trans hr'
      exact .inr (.inr ⟨_, _, rfl, hreq, _, hm, hf⟩)
  · rintro (hf | ⟨hp, e, he, hf⟩ | ⟨kind, members, rfl, hreq, m, hm, hf⟩)
    · exact .refused hf
    · exact .entry hr hp he hf
    · exact .target hr hreq hm hf

/-- Work on a visited schema fails, by the rule that asks for it. -/
theorem exists_visits_iff (hr : (rule ctx s.asMap).outcome = .ok r) :
    (∃ t, Visits ctx name s t ∧ (build t).outcome = .error f) ↔
      (∃ kind e, r = .container kind e ∧ e.ref? = none ∧ (build e.asMap).outcome = .error f) ∨
        (r.HasProperties ∧ ∃ e ∈ declarations s.asMap, FailsInside build ctx name e f) ∨
        ∃ kind members, r = .composition kind members ∧
          ((∃ m ∈ members, isBareObject m = false ∧ (build m).outcome = .error f) ∨
            requiredNames s.asMap ≠ [] ∧ ∃ m ∈ members, FailsAtTarget build ctx m f) := by
  constructor
  · rintro ⟨t, hv, hf⟩
    cases hv with
    | element hr' href =>
      cases hr.symm.trans hr'
      exact .inl ⟨_, _, rfl, href, hf⟩
    | property hr' hp hentries hmem href hsub =>
      cases hr.symm.trans hr'
      rw [← declarations_eq hentries] at hmem
      exact .inr (.inl ⟨hp, _, hmem, _, rfl, href, hsub, hf⟩)
    | member hr' hm hbare =>
      cases hr.symm.trans hr'
      exact .inr (.inr ⟨_, _, rfl, .inl ⟨_, hm, hbare, hf⟩⟩)
    | target hr' hreq hm ht =>
      cases hr.symm.trans hr'
      exact .inr (.inr ⟨_, _, rfl, .inr ⟨hreq, _, hm, _, ht, hf⟩⟩)
  · rintro (⟨kind, e, rfl, href, hf⟩ | ⟨hp, ⟨_, p⟩, he, key, rfl, href, hsub, hf⟩ |
      ⟨kind, members, rfl, ⟨m, hm, hbare, hf⟩ | ⟨hreq, m, hm, t, ht, hf⟩⟩)
    · exact ⟨_, .element hr href, hf⟩
    · exact ⟨_, .property hr hp (mem_declarations he) he href hsub, hf⟩
    · exact ⟨_, .member hr hm hbare, hf⟩
    · exact ⟨_, .target hr hreq hm ht, hf⟩

theorem failsBy_composition (kind : ModelKind) (members : List Node) (base : Model) :
    FailsBy (composition build ctx s members kind base) fun f =>
      (∃ m ∈ members, isBareObject m = false ∧ (build m).outcome = .error f) ∨
        (requiredNames s ≠ [] ∧ ∃ m ∈ members,
          Node.Dangles ctx.document m f ∨ FailsAtTarget build ctx m f) ∨
        (∃ e ∈ declarations s, EntryFlaw ctx base.name e f ∨
          FailsInside build ctx base.name e f) ∨
        Refused "Model" base.complaints f :=
  (FailsBy.mapM fun m _ => failsBy_member kind base.name m).bind fun _ _ =>
    (failsBy_promoted members).bind fun _ _ =>
      failsBy_ownProperties.bind fun _ _ => failsBy_settle _

theorem failsBy_interface (base : Model) :
    FailsBy (interface build ctx s name base) fun f =>
      (∃ e ∈ declarations s, EntryFlaw ctx name e f ∨ FailsInside build ctx name e f) ∨
        Refused "Model" base.complaints f :=
  failsBy_properties.bind fun _ _ => failsBy_last _ _

@[simp] theorem complaints_base (isDefinition : Bool) :
    (base ctx s isDefinition name).complaints = complaintsOf s := rfl

@[simp] theorem name_base (isDefinition : Bool) : (base ctx s isDefinition name).name = name := rfl

theorem failsBy_build (isDefinition : Bool) (r : Rule)
    (hr : (rule ctx s.asMap).outcome = .ok r) :
    FailsBy (r.build build ctx s.asMap name (base ctx s.asMap isDefinition name)) fun f =>
      OwnFlaw ctx name s.asMap f ∨ ∃ t, Visits ctx name s t ∧ (build t).outcome = .error f := by
  simp only [ownFlaw_iff hr, exists_visits_iff hr]
  cases r with
  | reference ref =>
    exact (failsBy_reference ctx _ ref _).congr fun f => by
      simp [Rule.HasProperties]
  | enumeration type members =>
    exact (failsBy_enumeration _ type members _).congr fun f => by
      simp [Rule.HasProperties]
  | container kind element =>
    exact (failsBy_container element kind _).congr fun f => by
      simp [Rule.HasProperties, or_comm]
  | composition kind members =>
    refine (failsBy_composition kind members _).congr fun f => ?_
    simp only [complaints_base, name_base, Rule.HasProperties, Rule.composition.injEq, reduceCtorEq,
      and_or_left, exists_or, true_and, false_and, exists_false, false_or, and_assoc,
      exists_eq_left', exists_and_left]
    exact iff_of_eq (by ac_rfl)
  | interface =>
    refine (failsBy_interface _).congr fun f => ?_
    simp only [complaints_base, Rule.HasProperties, reduceCtorEq, and_or_left, exists_or, true_and,
      false_and, exists_false, false_or, or_false]
    exact iff_of_eq (by ac_rfl)
  | named type =>
    exact (failsBy_named ctx _ type _).congr fun f => by
      simp [Rule.HasProperties]
  | anything =>
    exact (failsBy_settle _).congr fun f => by simp [Rule.HasProperties]

/-- A step fails exactly by what is wrong with the schema itself, and by what goes wrong with the
schemas it visits. -/
theorem failsBy_modelStep (build : Builder) (ctx : Context) (isDefinition : Bool) (name : String)
    (s : Node) :
    FailsBy (modelStep build ctx isDefinition name s) fun f =>
      OwnFlaw ctx name s.asMap f ∨ ∃ t, Visits ctx name s t ∧ (build t).outcome = .error f := by
  rw [modelStep_eq]
  refine ((failsBy_rule ctx _).bind (failsBy_build isDefinition)).congr fun f => ?_
  refine or_iff_right_of_imp ?_
  rintro ⟨hflaw, rfl⟩
  exact .inl (.rule hflaw)

/-! ## A run -/

/-- What goes wrong within a budget is a want of budget or a flaw. -/
theorem flaw_of_modelStep {n : Nat} {isDefinition : Bool}
    (h : (modelStep (modelWithin ctx n) ctx isDefinition name s).outcome = .error f) :
    f = .endless ∨ Flaw ctx name s f := by
  induction n generalizing name isDefinition s with
  | zero =>
    rcases (failsBy_modelStep _ ctx isDefinition name s).sound f h with hown | ⟨t, -, ht⟩
    · exact .inr (.own hown)
    · exact .inl (Except.error.inj ht).symm
  | succ n ih =>
    rcases (failsBy_modelStep _ ctx isDefinition name s).sound f h with hown | ⟨t, hv, ht⟩
    · exact .inr (.own hown)
    · exact (ih ht).imp_right (.visit hv)

theorem Flaw.of_reaches {u : Node} (h : Reaches ctx name s u) (hu : Flaw ctx "" u f) :
    Flaw ctx name s f := by
  induction h with
  | visit hv => exact .visit hv hu
  | step hv _ ih => exact .visit hv (ih hu)

/-- The budget of `model` is only used up on a schema that comes round to itself. -/
theorem flaw_of_endless {isDefinition : Bool}
    (h : (model ctx s isDefinition name).outcome = .error .endless) :
    Flaw ctx name s .endless := by
  by_contra hflaw
  refine ends_model (fun t hv u hu _ hcycle => hflaw ?_) h
  refine .visit hv ?_
  rcases hu with rfl | hu
  · exact .cycle hcycle
  · exact .of_reaches hu (.cycle hcycle)

/-- A schema with a flaw has no model. -/
theorem Flaw.not_made (h : Flaw ctx name s f) (isDefinition : Bool) (m : Model) :
    (model ctx s isDefinition name).outcome ≠ .ok m := by
  induction h generalizing isDefinition m with
  | own hown => exact (failsBy_modelStep _ ctx isDefinition _ _).complete _ (.inl hown) m
  | visit hv _ ih =>
    intro hm
    obtain ⟨m', hm'⟩ := hv.built hm
    exact ih false m' (carries_modelWithin ctx _ _ m' hm')
  | cycle hcycle =>
    intro hm
    obtain ⟨k, -, m', hm'⟩ := hcycle.exists_lt hm
    exact not_made_of_cycle hcycle.nameless k m' hm'

/-- Making the model of a schema fails exactly by the flaws of the schema. -/
theorem failsBy_model (ctx : Context) (s : Node) (isDefinition : Bool) (name : String) :
    FailsBy (model ctx s isDefinition name) (Flaw ctx name s) where
  sound f hf := by
    rcases flaw_of_modelStep hf with rfl | hflaw
    · exact flaw_of_endless hf
    · exact hflaw
  complete f hf := hf.not_made isDefinition

end Schema

end ApiModel
