import ApiModel.Proofs.Schema.Visit

/-!
# Invariants of models

What is so of every model is shown step by step: if it is so of the models of the schemas that a
schema visits, then of its own.

**Theorem (`model_keeps`).** A property of models that every step keeps is a property of all
models that are made.

Within a step the models that become properties come from few places, whatever is to be shown of
them: `forall_properties` and `forall_composition` say which.
-/

namespace ApiModel

namespace Schema

open Report

variable {ctx : Context} {name : String} {s : Node} {build : Builder}

/-! ## What a run keeps -/

section Run

variable {P : Node → Prop} {Q : Model → Prop}

/-- On schemas with `P`, a step makes a model with `Q` if the models of the schemas visited
have it. -/
def KeptByStep (ctx : Context) (P : Node → Prop) (Q : Model → Prop) : Prop :=
  ∀ {build : Builder} {isDefinition : Bool} {name : String} {s : Node} {m : Model}, P s →
    (∀ t, Visits ctx name s t → ∀ m', (build t).outcome = .ok m' → Q m') →
    (modelStep build ctx isDefinition name s).outcome = .ok m → Q m

theorem modelWithin_keeps (hstep : KeptByStep ctx P Q) {levels : Nat} {m : Model}
    (hs : ∀ u, u = s ∨ Reaches ctx "" s u → P u)
    (h : (modelWithin ctx levels s).outcome = .ok m) : Q m := by
  induction levels generalizing s m with
  | zero => simp [modelWithin] at h
  | succ n ih =>
    refine hstep (hs s (.inl rfl)) (fun t hv m' hm' => ih (fun u hu => ?_) hm') h
    exact hs u (.inr (hv.reaches hu))

/-- What every step keeps holds of the models that are made. -/
theorem model_keeps (hstep : KeptByStep ctx P Q) {isDefinition : Bool} {m : Model}
    (hs : ∀ u, u = s ∨ Reaches ctx name s u → P u)
    (h : (model ctx s isDefinition name).outcome = .ok m) : Q m := by
  refine hstep (hs s (.inl rfl)) (fun t hv m' hm' => ?_) h
  exact modelWithin_keeps hstep (fun u hu => hs u (.inr (hv.reaches hu))) hm'

end Run

/-! ## What a step does with properties -/

section Parts

variable {A : Model → Prop}

/-- The properties of a schema are literals, references or made of schemas that it visits. -/
theorem forall_properties
    (hliteral : ∀ {m base}, m.core = { type := "string", base, kind := .reference } → A m)
    (hreference : ∀ {m entries key p ref}, s.asMap.field "properties" = .map entries →
      (.text key, p) ∈ entries → p.asMap.ref? = some ref →
      m.core = { toTypeExpr := .ofRef ctx.dialect ref, kind := .reference } → A m)
    (hvisited : ∀ t, Visits ctx name s t → ∀ l, (build t).outcome = .ok l →
      ∀ {m}, m.core = l.core → A m)
    {r : Rule} (hr : (rule ctx s.asMap).outcome = .ok r) (hp : r.HasProperties)
    {own : List Model} (hown : (properties build ctx s.asMap name).outcome = .ok own) :
    ∀ m ∈ own, A m := by
  intro m hm
  obtain ⟨entries, key, p, hentries, hmem, -, -, hmade⟩ := mem_properties hown hm
  cases hmade with
  | literal _ hcore => exact hliteral hcore
  | reference _ href hcore => exact hreference hentries hmem href hcore
  | embedded hsub href hinner hcore =>
    exact hvisited _ (.property hr hp hentries hmem href hsub) _ hinner hcore

/-- The models in a composition are made of schemas that it visits, or properties of such models
that it requires, or its own properties. -/
theorem forall_composition
    (hvisited : ∀ t, Visits ctx name s t → ∀ m, (build t).outcome = .ok m → A m)
    (hpromoted : ∀ t, Visits ctx name s t → ∀ m, (build t).outcome = .ok m →
      ∀ q ∈ m.properties, (requiredNames s.asMap).any (·.isText q.name) = true →
        A { q with isRequired := true })
    (hproperties : ∀ own, (properties build ctx s.asMap name).outcome = .ok own → ∀ m ∈ own, A m)
    {kind : ModelKind} {members : List Node}
    (hr : (rule ctx s.asMap).outcome = .ok (.composition kind members))
    {options : List (Option Model)} {lifted own : List Model}
    (hoptions : (members.mapM (member build kind name)).outcome = .ok options)
    (hlifted : (promoted build ctx s.asMap members).outcome = .ok lifted)
    (hown : (ownProperties build ctx s.asMap name).outcome = .ok own) :
    (∀ m ∈ options.reduceOption, A m) ∧ (∀ m ∈ lifted, A m) ∧ ∀ m ∈ own, A m := by
  refine ⟨fun m hm => ?_, fun m hm => ?_, fun m hm => ?_⟩
  · obtain ⟨n, hn, hbare, hmade, -⟩ := mem_kept hoptions hm
    exact hvisited n (.member hr hn hbare) m hmade
  · obtain ⟨hne, n, hn, t, model, q, ht, hmade, hq, -, hrequired, rfl⟩ := mem_promoted hlifted hm
    exact hpromoted t (.target hr hne hn ht) model hmade q hq hrequired
  · exact hproperties own (properties_of_ownProperties hown) m hm

end Parts

end Schema

end ApiModel
