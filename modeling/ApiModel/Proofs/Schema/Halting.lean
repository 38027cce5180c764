import ApiModel.Proofs.Node.Parts
import ApiModel.Proofs.Schema.Visit
import Mathlib.Data.List.Perm.Subperm

/-!
# Which schemas come to an end

The models of inner schemas are made within a budget of levels, and work that uses the budget up
fails. Without a bound such work would go on for ever: `HaltsWith` is what unbounded work comes
to, the report on which all budgets agree from some budget on.

**Theorem (`halts_unless_cyclic`).** If no composition that a schema reaches promotes properties
and reaches itself, then the work on the schema halts, and `model` gives what it halts with. A
schema that reaches itself never becomes a model.

A visit leads to something smaller inside the schema, or else from a composition that promotes
properties to a part of the document. So a schema that comes round to itself passes such a
composition, and without one a chain of visits never repeats a node. All its nodes are parts of
the document or of the schema, or the empty schema, and there are fewer of these than `levels`.
-/

namespace ApiModel

namespace Schema

open Report Node

variable {ctx : Context} {name : String} {s t u : Node}

/-! ## Visits that lead inwards -/

/-- One schema is smaller than another, and a part of it or the empty schema. -/
def Inner (t s : Node) : Prop := t.count < s.count ∧ (t ∈ s.parts ∨ t = .map [])

theorem asMap_eq (n : Node) : n.asMap = n ∨ n.asMap = .map [] := by
  cases n <;> simp [asMap]

theorem inner_asMap (h : Inside t s) : Inner t.asMap s := by
  have hpos := count_pos t
  rcases asMap_eq t with heq | heq <;> rw [heq]
  · exact ⟨h.2, .inl h.1⟩
  · exact ⟨by have := h.2; simp [count, countValues]; omega, .inr rfl⟩

theorem inner_empty {key text : String} (h : (s.field key).isText text = true) :
    Inner (.map []) s := by
  have hne : s.field key ≠ null := by
    intro hnull
    rw [hnull] at h
    simp [isText, text?] at h
  have hpos := count_pos (s.field key)
  have hlt := (inside_of_field rfl hne).2
  exact ⟨by simp [count, countValues]; omega, .inr rfl⟩

theorem ne_null_of_truthy {n : Node} (h : n.truthy = true) : n ≠ null := by
  rintro rfl
  simp [truthy, Scalar.truthy] at h

theorem inner_further {d : Dialect} {e : Node} (h : furtherProperties? d s = some e) :
    Inner e.asMap s := by
  unfold furtherProperties? at h
  split at h
  · rename_i htype
    split at h
    · rename_i entries hfield
      obtain rfl : Node.map entries = e := by simpa using h
      exact inner_asMap (inside_of_field hfield (by simp))
    · split at h
      · obtain rfl : Node.map [] = e := by simpa using h
        exact inner_empty htype
      · simp at h
    · simp at h
  · simp at h

theorem inside_combination {d : Dialect} {kind : ModelKind} {members : List Node}
    (h : combination? d s = some (kind, members)) {m : Node} (hm : m ∈ members) : Inside m s := by
  obtain ⟨keyword, -, hfield⟩ := exists_keyword_of_combination h
  exact (inside_list hm).trans (inside_of_field hfield (by simp))

theorem inner_of_container {kind : ModelKind} {e : Node}
    (h : (rule ctx s).outcome = .ok (.container kind e)) : Inner e.asMap s := by
  obtain ⟨hitems, htruthy⟩ | hfurther | ⟨rfl, hobject⟩ := container_of_rule h
  · exact inner_asMap (inside_of_field hitems (ne_null_of_truthy htruthy))
  · exact inner_further hfurther
  · exact inner_empty hobject

theorem inner_of_asMap (h : Inner t s.asMap) : Inner t s := by
  rcases asMap_eq s with heq | heq <;> rw [heq] at h
  · exact h
  · have hpos := count_pos t
    have := h.1
    simp [count, countValues] at this
    omega

/-- A visit leads inwards, or a composition that promotes properties makes it. -/
theorem Visits.inner_or_promotes (h : Visits ctx name s t) :
    Inner t s ∨ Promotes ctx s ∧ t ∈ ctx.document.parts := by
  cases h with
  | element hr _ => exact .inl (inner_of_asMap (inner_of_container hr))
  | @property r entries key p hr hp hentries hmem _ _ =>
    have hmap := inside_of_field hentries (by simp)
    exact .inl (inner_of_asMap (inner_asMap ((inside_map hmem).trans hmap)))
  | member hr hm _ =>
    have hin := inside_combination (combination_of_rule hr) hm
    exact .inl (inner_of_asMap ⟨hin.2, .inl hin.1⟩)
  | target hr hreq hm ht =>
    rcases target_eq_ok ht with rfl | ht
    · have hin := inside_combination (combination_of_rule hr) hm
      exact .inl (inner_of_asMap ⟨hin.2, .inl hin.1⟩)
    · exact .inr ⟨⟨⟨_, _, hr⟩, hreq⟩, ht⟩

/-- A chain of visits leads inwards, or it passes a composition that promotes properties. -/
theorem Reaches.count_lt_or_promotes (h : Reaches ctx name s t) :
    t.count < s.count ∨ ∃ u, Promotes ctx u ∧ (u = s ∨ Reaches ctx name s u) ∧
      ∃ label, Reaches ctx label u t := by
  induction h with
  | @visit name s t hv =>
    rcases hv.inner_or_promotes with hin | ⟨hp, -⟩
    · exact .inl hin.1
    · exact .inr ⟨s, hp, .inl rfl, name, .visit hv⟩
  | @step name s t u hv htu ih =>
    rcases hv.inner_or_promotes with hin | ⟨hp, -⟩
    · rcases ih with hlt | ⟨w, hp, hw, hwu⟩
      · exact .inl (Nat.lt_trans hlt hin.1)
      · exact .inr ⟨w, hp, .inr (hv.reaches hw), hwu⟩
    · exact .inr ⟨s, hp, .inl rfl, name, .step hv htu⟩

/-- What comes round to itself passes a composition that promotes properties and does so too. -/
theorem Reaches.exists_promotes (h : Reaches ctx "" t t) :
    ∃ u, Promotes ctx u ∧ (u = t ∨ Reaches ctx "" t u) ∧ Reaches ctx "" u u := by
  rcases h.count_lt_or_promotes with hlt | ⟨u, hp, hu, label, hut⟩
  · exact absurd hlt (Nat.lt_irrefl _)
  · refine ⟨u, hp, hu, ?_⟩
    rcases hu with rfl | htu
    · exact h
    · exact hut.nameless.trans htu

/-! ## Budgets -/

/-- The nodes that can be visited on the way from a schema. -/
def territory (ctx : Context) (s : Node) : List Node :=
  .map [] :: (s.parts ++ ctx.document.parts)

theorem length_territory (ctx : Context) (s : Node) :
    (territory ctx s).length + 1 = levels ctx s := by
  simp only [territory, levels, List.length_cons, List.length_append, length_parts]
  omega

theorem Visits.mem_territory {root : Node} (h : Visits ctx name s t)
    (hs : s ∈ territory ctx root) : t ∈ territory ctx root := by
  unfold territory at hs ⊢
  rcases h.inner_or_promotes with ⟨hlt, hmem | rfl⟩ | ⟨-, hmem⟩
  · rcases List.mem_cons.1 hs with rfl | hs
    · have hpos := count_pos t
      simp [count, countValues] at hlt
      omega
    · rcases List.mem_append.1 hs with hs | hs
      · simp [mem_parts_trans hmem hs]
      · simp [mem_parts_trans hmem hs]
  · exact List.mem_cons_self
  · simp [hmem]

theorem Reaches.mem_territory {root : Node} (h : Reaches ctx name s t)
    (hs : s ∈ territory ctx root) : t ∈ territory ctx root := by
  induction h with
  | visit hv => exact hv.mem_territory hs
  | step hv _ ih => exact ih (hv.mem_territory hs)

/-- The schemas that are reached do not come round to themselves by way of what they promote. -/
def Acyclic (ctx : Context) (s : Node) : Prop :=
  ∀ u, u = s ∨ Reaches ctx "" s u → Promotes ctx u → ¬ Reaches ctx "" u u

theorem Acyclic.visit (h : Acyclic ctx s) (hv : Visits ctx "" s t) : Acyclic ctx t :=
  fun u hu => h u (.inr (hv.reaches hu))

/-- The schemas on the way are all different and lie in the territory, so a budget that is longer
than what is left of it is not used up. -/
theorem ends_modelWithin {root : Node} (levels : Nat) (seen : List Node)
    (hs : s ∈ territory ctx root) (hseen : seen.Nodup) (hsub : seen ⊆ territory ctx root)
    (hway : ∀ w ∈ seen, Reaches ctx "" w s) (hacyclic : Acyclic ctx s)
    (hlevels : (territory ctx root).length < levels + seen.length) :
    Ends (modelWithin ctx levels s) := by
  induction levels generalizing s seen with
  | zero =>
    have := (hseen.subperm hsub).length_le
    omega
  | succ n ih =>
    have hfresh : s ∉ seen := by
      intro hmem
      obtain ⟨u, hp, hu, huu⟩ := (hway s hmem).exists_promotes
      exact hacyclic u hu hp huu
    refine ends_modelStep fun t hv => ?_
    refine ih (s :: seen) (hv.mem_territory hs) (List.nodup_cons.2 ⟨hfresh, hseen⟩)
      (List.cons_subset.2 ⟨hs, hsub⟩) (fun w hw => ?_) (hacyclic.visit hv) ?_
    · rcases List.mem_cons.1 hw with rfl | hw
      · exact .visit hv
      · exact (hway w hw).trans (.visit hv)
    · rw [List.length_cons]
      omega

/-- More levels change nothing but work that used its budget up. -/
theorem below_modelWithin {n k : Nat} (h : n ≤ k) (s : Node) :
    Below (modelWithin ctx n s) (modelWithin ctx k s) := by
  induction n generalizing k s with
  | zero => exact .inl rfl
  | succ n ih =>
    cases k with
    | zero => simp at h
    | succ k => exact modelStep_lift lifting_below fun t _ => ih (Nat.le_of_succ_le_succ h) t

/-- A model in a chain of visits has been made with fewer levels than the one before it. -/
theorem Reaches.exists_lt {n : Nat} {isDefinition : Bool} {m : Model} (h : Reaches ctx name s t)
    (hm : (modelStep (modelWithin ctx n) ctx isDefinition name s).outcome = .ok m) :
    ∃ k < n, ∃ m', (modelStep (modelWithin ctx k) ctx false "" t).outcome = .ok m' := by
  induction h generalizing n isDefinition m with
  | visit hv =>
    obtain ⟨m', hm'⟩ := hv.built hm
    cases n with
    | zero => simp [modelWithin] at hm'
    | succ k => exact ⟨k, Nat.lt_succ_self k, m', hm'⟩
  | step hv _ ih =>
    obtain ⟨m', hm'⟩ := hv.built hm
    cases n with
    | zero => simp [modelWithin] at hm'
    | succ k =>
      obtain ⟨j, hj, hmade⟩ := ih hm'
      exact ⟨j, Nat.lt_succ_of_lt hj, hmade⟩

theorem not_made_of_cycle (h : Reaches ctx "" s s) (n : Nat) (m : Model) :
    (modelStep (modelWithin ctx n) ctx false "" s).outcome ≠ .ok m := by
  induction n using Nat.strongRecOn generalizing m with
  | ind n ih =>
    intro hm
    obtain ⟨k, hk, m', hm'⟩ := h.exists_lt hm
    exact ih k hk m' hm'

/-! ## Unbounded work -/

/-- Without a bound on the levels the work on a schema comes to an end with this report: from some
budget on, every budget gives it. -/
def HaltsWith (ctx : Context) (isDefinition : Bool) (name : String) (s : Node)
    (r : Built Model) : Prop :=
  Ends r ∧ ∃ n, ∀ k, n ≤ k → modelStep (modelWithin ctx k) ctx isDefinition name s = r

theorem haltsWith_model {isDefinition : Bool} (h : Ends (model ctx s isDefinition name)) :
    HaltsWith ctx isDefinition name s (model ctx s isDefinition name) := by
  refine ⟨h, levels ctx s, fun k hk => ?_⟩
  have hbelow : Below (model ctx s isDefinition name)
      (modelStep (modelWithin ctx k) ctx isDefinition name s) :=
    modelStep_lift lifting_below fun t _ => below_modelWithin hk t
  rcases hbelow with hendless | heq
  · exact absurd hendless h
  · exact heq.symm

theorem ends_model {isDefinition : Bool} (h : ∀ t, Visits ctx name s t → Acyclic ctx t) :
    Ends (model ctx s isDefinition name) := by
  refine ends_modelStep fun t hv => ?_
  have hs : s ∈ territory ctx s := by simp [territory, self_mem_parts]
  refine ends_modelWithin _ [] (hv.mem_territory hs) List.nodup_nil
    (List.nil_subset _) (by simp) (h t hv) ?_
  have := length_territory ctx s
  simp only [List.length_nil]
  omega

/-- Work on a schema halts unless some composition on its way promotes properties and comes round
to itself, and then `model` gives what it halts with. A schema that comes round to itself never
becomes a model, whatever the budget. A schema on its own way is one of those it reaches, so the
condition covers it. -/
theorem halts_unless_cyclic (ctx : Context) (isDefinition : Bool) (name : String) (s : Node) :
    ((∀ u, Reaches ctx name s u → Promotes ctx u → ¬ Reaches ctx "" u u) →
      HaltsWith ctx isDefinition name s (model ctx s isDefinition name)) ∧
    (Reaches ctx name s s → ∀ n m,
      (modelStep (modelWithin ctx n) ctx isDefinition name s).outcome ≠ .ok m) := by
  constructor
  · intro hacyclic
    refine haltsWith_model (ends_model fun t hv u hu => hacyclic u ?_)
    rcases hu with rfl | hu
    · exact .visit hv
    · exact .step hv hu
  · intro hcycle n m hm
    obtain ⟨k, -, m', hm'⟩ := hcycle.exists_lt hm
    exact not_made_of_cycle hcycle.nameless k m' hm'

/-- In the zoo, work on a pet halts, and no animal is ever made. -/
theorem halts_unless_cyclic_zoo :
    HaltsWith zoo false "" (zooSchema "Pet") (model zoo (zooSchema "Pet") false "") ∧
      ∀ n m, (modelStep (modelWithin zoo n) zoo false "" (zooSchema "Animal")).outcome ≠ .ok m := by
  constructor
  · refine (halts_unless_cyclic zoo false "" (zooSchema "Pet")).1 fun u hu hp _ => ?_
    obtain ⟨kind, members, hr⟩ := hp.1
    rcases zoo_pet_reaches hu with rfl | rfl <;> cases hr
  · refine (halts_unless_cyclic zoo false "" (zooSchema "Animal")).2 ?_
    have hcat : Visits zoo "" (zooSchema "Animal") (zooSchema "Cat") :=
      .target rfl (List.cons_ne_nil _ _) List.mem_cons_self rfl
    have hanimal : Visits zoo "" (zooSchema "Cat") (zooSchema "Animal") :=
      .target rfl (List.cons_ne_nil _ _) List.mem_cons_self rfl
    exact .step hcat (.visit hanimal)

end Schema

end ApiModel
