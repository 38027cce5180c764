import ApiModel.Proofs.Schema.Failure
import ApiModel.Proofs.Schema.Members

/-!
# What the model of a schema depends on

Of the document around a schema, a step reads three things: the dialect, the discriminator under
the name of the schema if that declares properties, and the nodes to which the members refer if it
is a composition that promotes properties. Contexts that are `Alike` in these make one step the same
(`modelStep_of_alike`).

**Theorem (`model_eq_of_selfContained`).** A schema without promotions, at any depth, has the same
model or the same failure whatever the document says, and no reference in it is followed.

The schemas that such a schema visits all stand in it, so they are smaller, and a budget of the size
of the schema is enough (`modelWithin_of_selfContained`). That is why the size of the document, from
which the budget is computed, does not show either.
-/

namespace ApiModel

namespace Schema

open Report

/-! ## Contexts -/

/-- Two contexts tell the same to a step on a schema of the given name. -/
structure Alike (ctx ctx' : Context) (name : String) (s : Node) : Prop where
  dialect : ctx'.dialect = ctx.dialect
  discriminator : ∀ r, (rule ctx s.asMap).outcome = .ok r → r.HasProperties →
    ctx'.discriminator? name = ctx.discriminator? name
  document : Promotes ctx s → ctx'.document = ctx.document

variable {ctx ctx' : Context} {name : String} {s t : Node} {build : Builder}

/-- No discriminator is known for a schema without a name. -/
theorem Alike.unnamed (hdialect : ctx'.dialect = ctx.dialect)
    (hdocument : Promotes ctx s → ctx'.document = ctx.document) : Alike ctx ctx' "" s where
  dialect := hdialect
  discriminator _ _ _ := by rw [discriminator?_empty, discriminator?_empty]
  document := hdocument

theorem properties_of_discriminator (hdialect : ctx'.dialect = ctx.dialect)
    (h : ctx'.discriminator? name = ctx.discriminator? name) :
    properties build ctx' s name = properties build ctx s name := by
  have hproperty (required : List Node) (discriminator : Option Node) :
      property build ctx' required discriminator name =
        property build ctx required discriminator name := by
    obtain ⟨document, dialect, discriminators⟩ := ctx
    obtain ⟨document', dialect', discriminators'⟩ := ctx'
    obtain rfl : dialect' = dialect := hdialect
    rfl
  unfold properties
  rw [h, hproperty]

/-- A step depends on the context as `Alike` says and not otherwise. -/
theorem modelStep_of_alike (h : Alike ctx ctx' name s) (isDefinition : Bool) :
    modelStep build ctx' isDefinition name s = modelStep build ctx isDefinition name s := by
  have hproperties (r : Rule) (hr : (rule ctx s.asMap).outcome = .ok r) (hp : r.HasProperties) :
      properties build ctx' s.asMap name = properties build ctx s.asMap name :=
    properties_of_discriminator h.dialect (h.discriminator r hr hp)
  have hdocument := h.document
  rw [modelStep_eq, modelStep_eq]
  obtain ⟨document, dialect, discriminators⟩ := ctx
  obtain ⟨document', dialect', discriminators'⟩ := ctx'
  obtain rfl : dialect' = dialect := h.dialect
  refine lifting_eq.bind rfl fun r hr => ?_
  cases r with
  | interface => exact lifting_eq.bind (hproperties _ hr trivial) fun _ _ => rfl
  | composition kind members =>
    have hpromoted :
        promoted build ⟨document', dialect', discriminators'⟩ s.asMap members =
          promoted build ⟨document, dialect', discriminators⟩ s.asMap members := by
      unfold promoted
      split
      · rfl
      · rename_i hrequired
        obtain rfl : document' = document := hdocument ⟨⟨_, _, hr⟩, hrequired⟩
        rfl
    have hown :
        ownProperties build ⟨document', dialect', discriminators'⟩ s.asMap name =
          ownProperties build ⟨document, dialect', discriminators⟩ s.asMap name := by
      unfold ownProperties
      rw [hproperties _ hr trivial]
    exact lifting_eq.bind rfl fun _ _ => lifting_eq.bind hpromoted fun _ _ =>
      lifting_eq.bind hown fun _ _ => rfl
  | _ => rfl

/-- Inner schemas have no names, so they do not depend on the discriminators. -/
theorem modelWithin_of_discriminators (hdocument : ctx'.document = ctx.document)
    (hdialect : ctx'.dialect = ctx.dialect) (n : Nat) : modelWithin ctx' n = modelWithin ctx n := by
  induction n with
  | zero => rfl
  | succ n ih =>
    funext s
    have halike : Alike ctx ctx' "" s := .unnamed hdialect fun _ => hdocument
    rw [modelWithin, modelWithin, ih]
    exact modelStep_of_alike halike false

/-! ## Schemas that stand in a schema -/

theorem Part.inside {d : Dialect} (h : Part d s t) : Node.Inside t s := by
  cases h with
  | items h htruthy => exact Node.inside_of_field h (ne_null_of_truthy htruthy)
  | further h => exact Node.inside_of_field h (by simp)
  | property h hmem => exact (Node.inside_map hmem).trans (Node.inside_of_field h (by simp))
  | member _ h hmem => exact (Node.inside_list hmem).trans (Node.inside_of_field h (by simp))

/-- The schema of the elements of a container stands in it, or nothing is said of them. -/
theorem part_or_empty_of_container {kind : ModelKind} {e : Node}
    (h : (rule ctx s).outcome = .ok (.container kind e)) : Part ctx.dialect s e ∨ e = .map [] := by
  obtain ⟨hitems, htruthy⟩ | hfurther | ⟨rfl, -⟩ := container_of_rule h
  · exact .inl (.items hitems htruthy)
  · unfold furtherProperties? at hfurther
    split at hfurther
    · split at hfurther
      · rename_i hfield
        cases hfurther
        exact .inl (.further hfield)
      · split_ifs at hfurther
        cases hfurther
        exact .inr rfl
      · cases hfurther
    · cases hfurther
  · exact .inr rfl

theorem part_of_composition {kind : ModelKind} {members : List Node}
    (h : (rule ctx s).outcome = .ok (.composition kind members)) (ht : t ∈ members) :
    Part ctx.dialect s t := by
  obtain ⟨keyword, hmem, hfield⟩ := exists_keyword_of_combination (combination_of_rule h)
  exact .member hmem hfield ht

/-- Something is so of a schema and of the schemas that stand in it, at any depth. -/
inductive Everywhere (d : Dialect) (P : Node → Prop) : Node → Prop
  | intro {s : Node} : P s → (∀ t, Part d s t → Everywhere d P t) → Everywhere d P s

namespace Everywhere

variable {d : Dialect} {P Q : Node → Prop}

theorem here (h : Everywhere d P s) : P s := by
  cases h
  assumption

theorem part (h : Everywhere d P s) (ht : Part d s t) : Everywhere d P t := by
  cases h with
  | intro _ hparts => exact hparts t ht

theorem imp (hPQ : ∀ t, P t → Q t) (h : Everywhere d P s) : Everywhere d Q s := by
  induction h with
  | intro hs _ ih => exact .intro (hPQ _ hs) ih

/-- No schema stands in the empty one. -/
theorem empty (h : P (.map [])) : Everywhere d P (.map []) := by
  refine .intro h fun t ht => ?_
  have hpos := Node.count_pos t
  have hlt : t.count < 1 := ht.inside.2
  omega

end Everywhere

/-- The schemas that stand in a schema. -/
def schemasIn (d : Dialect) (s : Node) : List Node :=
  [s.field "items"].filter (·.truthy) ++ [s.field "additionalProperties"].filter (·.isMap) ++
    (declarations s).map (·.2) ++
    d.combinations.flatMap fun (keyword, _) =>
      match s.field keyword with
      | .list members => members
      | _ => []

theorem mem_schemasIn {d : Dialect} : t ∈ schemasIn d s ↔ Part d s t := by
  simp only [schemasIn, List.mem_append, List.mem_filter, List.mem_singleton, List.mem_map,
    List.mem_flatMap]
  constructor
  · rintro (((⟨rfl, htruthy⟩ | ⟨rfl, hmap⟩) | ⟨e, he, rfl⟩) | ⟨⟨keyword, kind⟩, hkeyword, ht⟩)
    · exact .items rfl htruthy
    · cases hfield : s.field "additionalProperties" with
      | map entries => exact .further hfield
      | _ => rw [hfield] at hmap; cases hmap
    · exact .property (mem_declarations he) he
    · dsimp only at ht
      split at ht
      · rename_i hfield
        exact .member hkeyword hfield ht
      · cases ht
  · intro h
    cases h with
    | items h htruthy => exact .inl (.inl (.inl ⟨h.symm, htruthy⟩))
    | further h => exact .inl (.inl (.inr ⟨h.symm, rfl⟩))
    | property h hmem => exact .inl (.inr ⟨_, (declarations_eq h).symm ▸ hmem, rfl⟩)
    | member hkeyword h ht => exact .inr ⟨_, hkeyword, by rwa [h]⟩

/-- Is something so of a schema, with at most so many levels in it, and of the schemas in it? -/
def everywhere (d : Dialect) (P : Node → Prop) [DecidablePred P] : Nat → Node → Bool
  | 0, _ => false
  | n + 1, s => decide (P s) && (schemasIn d s).all (everywhere d P n)

theorem everywhere_iff {d : Dialect} {P : Node → Prop} [DecidablePred P] {n : Nat}
    (hn : s.count ≤ n) : everywhere d P n s = true ↔ Everywhere d P s := by
  induction n generalizing s with
  | zero => exact absurd hn (Nat.not_le.2 (Node.count_pos s))
  | succ n ih =>
    have hparts : (∀ t ∈ schemasIn d s, everywhere d P n t = true) ↔
        ∀ t, Part d s t → Everywhere d P t := by
      refine forall_congr' fun t => ?_
      rw [mem_schemasIn]
      refine imp_congr_right fun ht => ih ?_
      have := ht.inside.2
      omega
    rw [everywhere, Bool.and_eq_true, decide_eq_true_iff, List.all_eq_true, hparts]
    exact ⟨fun ⟨h, hall⟩ => .intro h hall, fun h => ⟨h.here, fun t => h.part⟩⟩

instance (d : Dialect) (P : Node → Prop) [DecidablePred P] : DecidablePred (Everywhere d P) :=
  fun s => decidable_of_iff _ (everywhere_iff (Nat.le_refl s.count))

/-! ## Schemas that need no document -/

/-- A schema, and every schema that stands in it, requires no properties if it is a composition. -/
def SelfContained (d : Dialect) : Node → Prop :=
  Everywhere d fun s => (combination? d s).isSome = true → requiredNames s = []

instance (d : Dialect) : DecidablePred (SelfContained d) :=
  inferInstanceAs (DecidablePred (Everywhere d _))

namespace SelfContained

theorem part {d : Dialect} (h : SelfContained d s) (ht : Part d s t) : SelfContained d t :=
  Everywhere.part h ht

theorem empty (d : Dialect) : SelfContained d (.map []) := Everywhere.empty fun _ => rfl

theorem asMap {d : Dialect} (h : SelfContained d s) : SelfContained d s.asMap := by
  rcases asMap_eq s with heq | heq <;> rw [heq]
  · exact h
  · exact empty d

theorem not_promotes (h : SelfContained ctx.dialect s) : ¬ Promotes ctx s := by
  rintro ⟨⟨kind, members, hr⟩, hrequired⟩
  exact hrequired (h.asMap.here (by rw [combination_of_rule hr]; rfl))

/-- Such a schema visits smaller ones of its sort only. -/
theorem visits (h : SelfContained ctx.dialect s) (hv : Visits ctx name s t) :
    SelfContained ctx.dialect t ∧ t.count < s.count := by
  have hnot : ¬ Promotes ctx s := h.not_promotes
  refine ⟨?_, (hv.inner_or_promotes.resolve_right fun hp => hnot hp.1).1⟩
  cases hv with
  | element hr _ =>
    obtain hpart | rfl := part_or_empty_of_container hr
    · exact (h.asMap.part hpart).asMap
    · exact empty _
  | property _ _ hentries hmem _ _ => exact (h.asMap.part (.property hentries hmem)).asMap
  | member hr hm _ => exact h.asMap.part (part_of_composition hr hm)
  | target hr hrequired _ _ => exact absurd ⟨⟨_, _, hr⟩, hrequired⟩ hnot

end SelfContained

/-- Within a budget of the size of the schema, the document does not show. -/
theorem modelWithin_of_selfContained (hdialect : ctx'.dialect = ctx.dialect)
    (hs : SelfContained ctx.dialect s) {n k : Nat} (hn : s.count ≤ n) (hk : s.count ≤ k) :
    modelWithin ctx' n s = modelWithin ctx k s := by
  induction n generalizing s k with
  | zero => exact absurd hn (Nat.not_le.2 (Node.count_pos s))
  | succ n ih =>
    cases k with
    | zero => exact absurd hk (Nat.not_le.2 (Node.count_pos s))
    | succ k =>
      have halike : Alike ctx ctx' "" s := .unnamed hdialect fun hp => absurd hp hs.not_promotes
      rw [modelWithin, modelWithin, modelStep_of_alike halike false]
      refine modelStep_lift lifting_eq fun t hv => ?_
      obtain ⟨ht, hlt⟩ := hs.visits hv
      exact ih ht (by omega) (by omega)

/-- Of the references in a schema, only those are followed from which something is promoted. -/
theorem Flaw.promotes_of_unresolved {ref : String} (h : Flaw ctx name s (.unresolved ref)) :
    ∃ u, (u = s ∨ Reaches ctx name s u) ∧ Promotes ctx u := by
  generalize hf : Fault.unresolved ref = f at h
  induction h with
  | own hown =>
    refine ⟨_, .inl rfl, ?_⟩
    cases hown with
    | rule _ => cases hf
    | refused hrefused => cases hf.trans hrefused.2
    | entry _ _ _ hentry =>
      cases hentry with
      | key _ => cases hf
      | refused _ hrefused => cases hf.trans hrefused.2
    | target hr hrequired _ _ => exact ⟨⟨_, _, hr⟩, hrequired⟩
  | visit hv _ ih =>
    obtain ⟨u, rfl | hu, hp⟩ := ih hf
    · exact ⟨_, .inr (.visit hv), hp⟩
    · exact ⟨_, .inr (.step hv hu), hp⟩
  | cycle _ => cases hf

theorem SelfContained.of_reaches {u : Node} (hs : SelfContained ctx.dialect s)
    (hu : u = s ∨ Reaches ctx name s u) : SelfContained ctx.dialect u := by
  rcases hu with rfl | hu
  · exact hs
  · induction hu with
    | visit hv => exact (hs.visits hv).1
    | step hv _ ih => exact ih (hs.visits hv).1

/-- A schema without promotions has the same model, or the same failure, in all contexts of one
dialect without a discriminator under its name, whatever their documents say. It is never one of its
references that leads nowhere, since none of them is followed. -/
theorem model_eq_of_selfContained (hdialect : ctx'.dialect = ctx.dialect)
    (hs : SelfContained ctx.dialect s) (hname : ctx.discriminator? name = none)
    (hname' : ctx'.discriminator? name = none) (isDefinition : Bool) :
    model ctx' s isDefinition name = model ctx s isDefinition name ∧
      ∀ ref, (model ctx s isDefinition name).outcome ≠ .error (.unresolved ref) := by
  constructor
  · have halike : Alike ctx ctx' name s :=
      ⟨hdialect, fun _ _ _ => hname'.trans hname.symm, fun hp => absurd hp hs.not_promotes⟩
    unfold model
    rw [modelStep_of_alike halike isDefinition]
    refine modelStep_lift lifting_eq fun t hv => ?_
    obtain ⟨ht, hlt⟩ := hs.visits hv
    exact modelWithin_of_selfContained hdialect ht (by unfold levels; omega)
      (by unfold levels; omega)
  · intro ref herror
    have hflaw := (failsBy_model ctx s isDefinition name).sound _ herror
    obtain ⟨u, hu, hp⟩ := hflaw.promotes_of_unresolved
    exact (hs.of_reaches hu).not_promotes hp

/-- A parcel has a sender, it holds books and letters, and it bears a stamp. -/
def parcel : Node :=
  let refersTo name := Node.record [("$ref", .text ("#/components/schemas/" ++ name))]
  .record [("type", .text "object"), ("required", .list [.text "sender"]),
    ("properties", .record [("sender", refersTo "Person"),
      ("contents", .record [("type", .text "array"),
        ("items", .record [("oneOf", .list [refersTo "Book", refersTo "Letter"])])]),
      ("stamp", .record [("allOf", .list [refersTo "Stamp"])])])]

/-- A document that says what persons are, and tells books from letters by their titles. -/
def office : Context :=
  { dialect := .v3
    document := .record [("components", .record [("schemas", .record [("Person",
      .record [("type", .text "string")])])])]
    discriminators := [("Book", .record [("propertyName", .text "title")])] }

/-- The model of a parcel is the same in the office and where no reference leads anywhere. -/
theorem model_eq_of_selfContained_parcel :
    model office parcel true "Parcel" = model blank parcel true "Parcel" ∧
      (∀ ref, (model blank parcel true "Parcel").outcome ≠ .error (.unresolved ref)) ∧
      ∃ m, (model blank parcel true "Parcel").outcome = .ok m ∧
        m.imports = ["Person", "Book", "Letter", "Stamp"] := by
  have hs : SelfContained blank.dialect parcel := by decide +kernel
  have hname : blank.discriminator? "Parcel" = none := rfl
  have hname' : office.discriminator? "Parcel" = none := rfl
  have hdialect : office.dialect = blank.dialect := rfl
  obtain ⟨heq, hresolved⟩ := model_eq_of_selfContained hdialect hs hname hname' true
  exact ⟨heq, hresolved, _, rfl, rfl⟩

end Schema

end ApiModel
