import ApiModel.Proofs.Schema.Halting

/-!
# Models made of models

A budget bounds the work on inner schemas. Once a model is made, the budget no longer shows in it.

**Theorem (`model_of_modelStep`).** A model that is made within some budget is the model of its
schema.

**Theorem (`model_made`).** The model of a schema is made as the rule of the schema says, of the
models of the schemas inside.

**Theorem (`model_induction`).** What every rule keeps of the models of the schemas inside is so of
all models.
-/

namespace ApiModel

namespace Schema

open Report

variable {ctx : Context} {name : String} {s : Node} {isDefinition : Bool} {m : Model}

/-- The models of inner schemas: these have no name and are no definitions. -/
def inner (ctx : Context) : Builder := fun t => model ctx t false ""

/-- A schema of which a model is made never comes round to itself. -/
theorem acyclic_of_made {n : Nat}
    (h : (modelStep (modelWithin ctx n) ctx isDefinition name s).outcome = .ok m) :
    ∀ t, Visits ctx name s t → Acyclic ctx t := by
  intro t hv u hu _ hcycle
  have hreach : Reaches ctx name s u := hv.reaches hu
  obtain ⟨k, -, m', hm'⟩ := hreach.exists_lt h
  exact not_made_of_cycle hcycle k m' hm'

/-- A model that is made within some budget is the model of its schema. -/
theorem model_of_modelStep {n : Nat}
    (h : (modelStep (modelWithin ctx n) ctx isDefinition name s).outcome = .ok m) :
    (model ctx s isDefinition name).outcome = .ok m := by
  have hends : Ends (model ctx s isDefinition name) := ends_model (acyclic_of_made h)
  obtain ⟨-, k, hk⟩ := haltsWith_model hends
  have hbelow : Below (modelStep (modelWithin ctx n) ctx isDefinition name s)
      (modelStep (modelWithin ctx (max n k)) ctx isDefinition name s) :=
    modelStep_lift lifting_below fun t _ => below_modelWithin (Nat.le_max_left n k) t
  rw [← hk (max n k) (Nat.le_max_right n k)]
  exact hbelow.carries m h

theorem carries_modelWithin (ctx : Context) (n : Nat) (t : Node) :
    Carries (modelWithin ctx n t) (inner ctx t) := by
  intro m hm
  cases n with
  | zero => cases hm
  | succ n => exact model_of_modelStep hm

/-- The model of a schema has the core that its rule makes of the models of inner schemas. -/
theorem model_made (h : (model ctx s isDefinition name).outcome = .ok m) :
    ∃ r, (rule ctx s.asMap).outcome = .ok r ∧ Made (inner ctx) ctx name s.asMap r m := by
  have hstep : Carries (model ctx s isDefinition name)
      (modelStep (inner ctx) ctx isDefinition name s) :=
    modelStep_lift lifting_carries fun t _ => carries_modelWithin ctx _ t
  exact modelStep_made (hstep m h)

/-- The properties of a composition are its members, and behind them what it promotes and
declares. -/
theorem composition_of_model {kind : ModelKind} {members : List Node}
    (h : (model ctx s isDefinition name).outcome = .ok m)
    (hr : (rule ctx s.asMap).outcome = .ok (.composition kind members)) :
    ∃ options lifted own,
      (members.mapM (member (inner ctx) kind name)).outcome = .ok options ∧
      (promoted (inner ctx) ctx s.asMap members).outcome = .ok lifted ∧
      (ownProperties (inner ctx) ctx s.asMap name).outcome = .ok own ∧
      m.properties = options.reduceOption ++ gathered (lifted ++ own) := by
  obtain ⟨r, hr', hmade⟩ := model_made h
  obtain rfl := Except.ok.inj (hr.symm.trans hr')
  cases hmade with
  | composition hoptions hlifted hown hcore =>
    exact ⟨_, _, _, hoptions, hlifted, hown, properties_of_core hcore⟩

/-- What holds of every model that a rule makes of models of which it holds, holds of all models
that are made. -/
theorem model_induction {R : String → Node → Model → Prop}
    (hstep : ∀ {name s r m}, (rule ctx s.asMap).outcome = .ok r →
      Made (inner ctx) ctx name s.asMap r m →
      (∀ t, Visits ctx name s t → ∀ l, (inner ctx t).outcome = .ok l → R "" t l) → R name s m)
    (h : (model ctx s isDefinition name).outcome = .ok m) : R name s m := by
  -- A model that is made is made within a budget, and the induction is on the budget.
  have hwithin (n : Nat) : ∀ {name isDefinition s m},
      (modelStep (modelWithin ctx n) ctx isDefinition name s).outcome = .ok m → R name s m := by
    induction n with
    | zero =>
      intro name isDefinition s m h
      obtain ⟨r, hr, hmade⟩ := model_made (model_of_modelStep h)
      refine hstep hr hmade fun t hv => ?_
      obtain ⟨l, hl⟩ := hv.built h
      cases hl
    | succ n ih =>
      intro name isDefinition s m h
      obtain ⟨r, hr, hmade⟩ := model_made (model_of_modelStep h)
      refine hstep hr hmade fun t hv l hl => ?_
      obtain ⟨l', hl'⟩ := hv.built h
      obtain rfl : l' = l := Except.ok.inj ((carries_modelWithin ctx _ t l' hl').symm.trans hl)
      exact ih hl'
  exact hwithin _ h

/-- The same where the name of a schema does not matter. -/
theorem made_induction {R : Node → Model → Prop}
    (hstep : ∀ {name s r m}, (rule ctx s.asMap).outcome = .ok r →
      Made (inner ctx) ctx name s.asMap r m →
      (∀ t, Visits ctx name s t → ∀ l, (inner ctx t).outcome = .ok l → R t l) → R s m)
    (h : (model ctx s isDefinition name).outcome = .ok m) : R s m :=
  model_induction (R := fun _ => R) hstep h

end Schema

end ApiModel
