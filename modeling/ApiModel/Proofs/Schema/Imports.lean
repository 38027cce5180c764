import ApiModel.Proofs.Schema.Invariant

/-!
# Imports

The rules collect the imports of a model from its parts, each in its own way. What they all come
to is said by the leaves of a model: follow its link, else go through its properties, and stop
where there is neither.

**Theorem (`imports_eq_imports_leaves`).** The imports of a model are the imports of its leaves,
in order and with repetitions, unless a composition on its way requires a property of the name
`properties`.

That name is the exception because the model in which a composition gathers properties has it,
and that one model has no imports of its own. `Complete` says that the imports of a model are
those of its leaves; the invariant of the rules is `Sound`: the model is complete, and so is every
property of it that has another name.
-/

namespace ApiModel

namespace Model

mutual

/-- The models in which a model ends: those of its link if it has one, else those of its
properties if it has any, else the model itself. -/
def leaves : Model → List Model
  | { link := some l, .. } => l.leaves
  | m@{ link := none, properties := [], .. } => [m]
  | { link := none, properties := p :: ps, .. } => p.leaves ++ leavesOf ps

/-- The leaves of models one after the other. -/
def leavesOf : List Model → List Model
  | [] => []
  | m :: rest => m.leaves ++ leavesOf rest

end

variable {m l : Model}

theorem leaves_of_link (h : m.link = some l) : m.leaves = l.leaves := by
  cases m
  subst h
  rw [leaves]

theorem leaves_of_nil (hlink : m.link = none) (h : m.properties = []) : m.leaves = [m] := by
  cases m
  subst hlink h
  rw [leaves]

theorem leaves_of_properties (hlink : m.link = none) (h : m.properties ≠ []) :
    m.leaves = leavesOf m.properties := by
  cases m with
  | mk _ _ _ link _ _ _ _ _ _ _ _ _ properties _ =>
    subst hlink
    cases properties with
    | nil => exact absurd rfl h
    | cons p ps => rw [leaves, leavesOf]

theorem leavesOf_append (ms ns : List Model) :
    leavesOf (ms ++ ns) = leavesOf ms ++ leavesOf ns := by
  induction ms with
  | nil => rfl
  | cons m ms ih => rw [List.cons_append, leavesOf, leavesOf, ih, List.append_assoc]

end Model

namespace Schema

open Report Model

/-! ## Complete models -/

/-- The imports of a model are those of its leaves. -/
def Complete (m : Model) : Prop := m.imports = importsOf m.leaves

theorem importsOf_append (ms ns : List Model) :
    importsOf (ms ++ ns) = importsOf ms ++ importsOf ns :=
  List.flatMap_append

theorem importsOf_leavesOf {ms : List Model} (h : ∀ m ∈ ms, Complete m) :
    importsOf (leavesOf ms) = importsOf ms := by
  induction ms with
  | nil => rfl
  | cons m ms ih =>
    have hm : m.imports = importsOf m.leaves := h m List.mem_cons_self
    have hms := ih fun n hn => h n (List.mem_cons_of_mem m hn)
    rw [leavesOf, importsOf_append, hms, ← hm, importsOf, importsOf, List.flatMap_cons]

/-- A model without a link has the imports of its properties, and none if it has no
properties. -/
theorem complete_of_properties {m : Model} (hlink : m.link = none)
    (h : m.imports = importsOf (leavesOf m.properties)) : Complete m := by
  unfold Complete
  by_cases hnil : m.properties = []
  · rw [leaves_of_nil hlink hnil, importsOf, List.flatMap_singleton]
  · rw [leaves_of_properties hlink hnil, h]

theorem complete_of_link {m l : Model} (hlink : m.link = some l) (h : m.imports = l.imports)
    (hl : Complete l) : Complete m := by
  rw [Complete, leaves_of_link hlink, h, hl]

theorem complete_leaf {m : Model} (hlink : m.link = none) (h : m.properties = []) :
    Complete m := by
  rw [Complete, leaves_of_nil hlink h, importsOf, List.flatMap_singleton]

/-- Whether a model is complete is a matter of its core. -/
theorem complete_of_core {m m' : Model} (h : m.core = m'.core) (hm : Complete m') :
    Complete m := by
  have himports : m.imports = m'.imports := (imports_of_core h :)
  have hproperties : m.properties = m'.properties := (properties_of_core h :)
  have hleaves : importsOf m.leaves = importsOf m'.leaves := by
    cases hlink : m'.link with
    | some l => rw [leaves_of_link ((link_of_core h).trans hlink), leaves_of_link hlink]
    | none =>
      have hlink' := (link_of_core h).trans hlink
      by_cases hnil : m'.properties = []
      · rw [leaves_of_nil hlink hnil, leaves_of_nil hlink' (hproperties.trans hnil)]
        simp only [importsOf, List.flatMap_singleton, himports]
      · have hnil' : m.properties ≠ [] := by rwa [hproperties]
        rw [leaves_of_properties hlink hnil, leaves_of_properties hlink' hnil', hproperties]
  rw [Complete, hleaves, himports, hm]

/-- A model with the core of a leaf is complete. -/
theorem complete_of_leaf {m l : Model} (h : m.core = l) (hlink : l.link = none)
    (hnil : l.properties = []) : Complete m :=
  complete_leaf ((link_of_core h).trans hlink) ((properties_of_core h).trans hnil)

/-! ## What the rules keep -/

/-- A model is complete, and so are its properties, except for one that gathers properties. -/
def Sound (m : Model) : Prop :=
  Complete m ∧ ∀ p ∈ m.properties, p.name ≠ "properties" → Complete p

/-- No property of the name under which compositions gather properties is required. -/
def LeavesGathered (ctx : Context) (s : Node) : Prop :=
  ∀ kind members, (rule ctx s.asMap).outcome = .ok (.composition kind members) →
    .text "properties" ∉ requiredNames s.asMap

section Step

variable {build : Builder} {ctx : Context} {name : String} {s : Node}

/-- The properties of a schema are complete. -/
theorem complete_properties {r : Rule} (hr : (rule ctx s.asMap).outcome = .ok r)
    (hp : r.HasProperties)
    (hbuild : ∀ t, Visits ctx name s t → ∀ m, (build t).outcome = .ok m → Sound m)
    {own : List Model} (hown : (properties build ctx s.asMap name).outcome = .ok own) :
    ∀ m ∈ own, Complete m := by
  refine forall_properties (fun hcore => ?_) (fun _ _ _ hcore => ?_) (fun t hv l hl m hcore => ?_)
    hr hp hown
  · exact complete_of_leaf hcore rfl rfl
  · exact complete_of_leaf hcore rfl rfl
  · exact complete_of_core hcore (hbuild t hv l hl).1

theorem ne_of_required {required : List Node} {q : Model}
    (hq : required.any (·.isText q.name) = true) (h : .text "properties" ∉ required) :
    q.name ≠ "properties" := by
  intro hname
  obtain ⟨n, hn, htext⟩ := List.any_eq_true.1 hq
  cases n with
  | scalar v =>
    cases v with
    | text v =>
      obtain rfl : v = q.name := by simpa [Node.isText, Node.text?] using htext
      exact h (hname ▸ hn)
    | _ => simp [Node.isText, Node.text?] at htext
  | _ => simp [Node.isText, Node.text?] at htext

/-- A promoted property is complete: it does not have the name that is left out of account. -/
theorem complete_promoted {m q : Model} (hm : Sound m) (hq : q ∈ m.properties)
    (hreq : .text "properties" ∉ requiredNames s.asMap)
    (hrequired : (requiredNames s.asMap).any (·.isText q.name) = true) :
    Complete { q with isRequired := true } := by
  have hcomplete : Complete q := hm.2 q hq (ne_of_required hrequired hreq)
  have hcore : ({ q with isRequired := true } : Model).core = q.core := rfl
  exact complete_of_core hcore hcomplete

theorem importsOf_leavesOf_gathered {ms : List Model} (h : ∀ m ∈ ms, Complete m) :
    importsOf (leavesOf (gathered ms)) = importsOf ms := by
  cases ms with
  | nil => rfl
  | cons m ms =>
    have hleaves := leaves_of_properties
      (m := { name := "properties", kind := .interface, properties := m :: ms }) rfl (by simp)
    show importsOf (leaves { name := "properties", kind := .interface, properties := m :: ms } ++
      []) = _
    rw [hleaves, List.append_nil]
    exact importsOf_leavesOf h

/-- A step keeps the invariant: if the models of the schemas visited are sound, so is the model
made. -/
theorem sound_step : KeptByStep ctx (LeavesGathered ctx) Sound := by
  intro build isDefinition name s m hreq hbuild h
  obtain ⟨r, hr, hmade⟩ := modelStep_made h
  have leaf {l : Model} (hcore : m.core = l) (hlink : l.link = none) (hnil : l.properties = []) :
      Sound m :=
    ⟨complete_of_leaf hcore hlink hnil, fun p hp => by
      rw [properties_of_core hcore, hnil] at hp
      simp at hp⟩
  cases hmade with
  | reference hcore => exact leaf hcore rfl rfl
  | enumeration hcore => exact leaf hcore rfl rfl
  | referenceContainer _ hcore => exact leaf hcore rfl rfl
  | named hcore => exact leaf hcore rfl rfl
  | anything hcore => exact leaf hcore rfl rfl
  | @container kind element link _ href hlink hcore =>
    have hsound := hbuild _ (.element hr href) link hlink
    refine ⟨complete_of_link (link_of_core hcore :) (imports_of_core hcore :) hsound.1, ?_⟩
    rw [(properties_of_core hcore :)]
    simp
  | @interface own _ hown hcore =>
    have hproperties : m.properties = own := properties_of_core hcore
    have hall : ∀ p ∈ own, Complete p := complete_properties hr trivial hbuild hown
    refine ⟨complete_of_properties (link_of_core hcore) ?_, ?_⟩
    · rw [hproperties, importsOf_leavesOf hall]
      exact imports_of_core hcore
    · rw [hproperties]
      exact fun p hp _ => hall p hp
  | @composition kind members options lifted own _ hoptions hlifted hown hcore =>
    obtain ⟨hkept, hlift, hself⟩ := forall_composition
      (fun t hv m hm => (hbuild t hv m hm).1)
      (fun t hv m hm q hq => complete_promoted (hbuild t hv m hm) hq (hreq kind members hr))
      (fun own => complete_properties hr trivial hbuild) hr hoptions hlifted hown
    have hextra : ∀ p ∈ lifted ++ own, Complete p := fun p hp =>
      (List.mem_append.1 hp).elim (hlift p) (hself p)
    have hproperties : m.properties = options.reduceOption ++ gathered (lifted ++ own) :=
      properties_of_core hcore
    have himports : m.imports =
        importsOf options.reduceOption ++ importsOf lifted ++ importsOf own :=
      imports_of_core hcore
    refine ⟨complete_of_properties (link_of_core hcore) ?_, fun p hp hname => ?_⟩
    · rw [himports, hproperties, leavesOf_append, importsOf_append, importsOf_leavesOf hkept,
        importsOf_leavesOf_gathered hextra, importsOf_append, List.append_assoc]
    · rw [hproperties, List.mem_append] at hp
      rcases hp with hp | hp
      · exact hkept p hp
      · exfalso
        unfold gathered at hp
        split at hp
        · simp at hp
        · rw [List.mem_singleton] at hp
          exact hname (by rw [hp])

end Step

/-- The imports of a model are the imports of its leaves, in order and with repetitions, if no
composition on its way requires a property of the name `properties`. -/
theorem imports_eq_imports_leaves {ctx : Context} {s : Node} {isDefinition : Bool}
    {name : String} {m : Model} (h : (model ctx s isDefinition name).outcome = .ok m)
    (hreq : ∀ u, u = s ∨ Reaches ctx name s u → LeavesGathered ctx u) :
    m.imports = m.leaves.flatMap (·.imports) := by
  have hsound : Sound m := model_keeps sound_step hreq h
  exact hsound.1

/-- In the zoo, a pet imports what it refers to and what the property refers to that it
promotes. -/
theorem imports_eq_imports_leaves_zoo :
    ∃ m, (model zoo (zooSchema "Pet") false "").outcome = .ok m ∧
      m.imports = ["Named", "Text"] ∧ m.imports = m.leaves.flatMap (·.imports) := by
  obtain ⟨m, hm, himports⟩ : ∃ m, (model zoo (zooSchema "Pet") false "").outcome = .ok m ∧
      m.imports = ["Named", "Text"] := ⟨_, rfl, rfl⟩
  refine ⟨m, hm, himports, imports_eq_imports_leaves hm fun u hu kind members hr => ?_⟩
  rcases hu with rfl | hu
  · show Node.text "properties" ∉ [Node.text "name"]
    simp
  · rcases zoo_pet_reaches hu with rfl | rfl <;> cases hr

end Schema

end ApiModel
