import ApiModel.Model.Dump
import ApiModel.Model.Validation
import ApiModel.Proofs.Node.Parts
import Mathlib.Data.List.Forall2

/-!
# Fields that are read back

A record is written as a mapping that `Shows` its fields, and it is read field by field. So that it
is read back, each field has to be: `read (write a) = pure a`, without a complaint.

Here is what this needs of single fields. Texts, truth values, integers and words for kinds and
places are read back whatever they are. Of the value of a constraint this is so only if the
constraint accepts it as it is, which is the case with every value that a constraint makes of
another (`Constraint.fit?_of_fit?`). Constraints of which that is so, in the order in which a model
lists them, are `Fitting`.
-/

namespace ApiModel

namespace Checked

variable {α β : Type}

/-! ## Reading without complaints -/

theorem pure_eq_pure {a b : α} : (pure a : Checked α) = pure b ↔ a = b :=
  ⟨congrArg Checked.value, congrArg pure⟩

theorem eq_pure {x : Checked α} (h : x.complaints = 0) : x = pure x.value := by
  obtain ⟨value, complaints⟩ := x
  obtain rfl : complaints = 0 := h
  rfl

theorem bind_eq_pure {x : Checked α} {f : α → Checked β} {b : β} :
    x >>= f = pure b ↔ ∃ a, x = pure a ∧ f a = pure b := by
  constructor
  · intro h
    have hvalue : (f x.value).value = b := congrArg value h
    have hcomplaints : x.complaints + (f x.value).complaints = 0 := congrArg complaints h
    obtain ⟨hx, hf⟩ := Nat.add_eq_zero_iff.1 hcomplaints
    exact ⟨x.value, eq_pure hx, hvalue ▸ eq_pure hf⟩
  · rintro ⟨a, rfl, h⟩
    rw [pure_bind, h]

theorem map_eq_pure {x : Checked α} {f : α → β} {b : β} :
    f <$> x = pure b ↔ ∃ a, x = pure a ∧ f a = b := by
  rw [map_eq_pure_bind, bind_eq_pure]
  simp only [pure_eq_pure]

theorem mapM_eq_pure {f : α → Checked β} {as : List α} {bs : List β} :
    as.mapM f = pure bs ↔ List.Forall₂ (fun a b => f a = pure b) as bs := by
  induction as generalizing bs with
  | nil => rw [List.mapM_nil, List.forall₂_nil_left_iff, pure_eq_pure, eq_comm]
  | cons a as ih =>
    rw [List.mapM_cons, List.forall₂_cons_left_iff, bind_eq_pure]
    constructor
    · rintro ⟨b, hb, h⟩
      obtain ⟨bs', hbs, h⟩ := bind_eq_pure.1 h
      exact ⟨b, bs', hb, ih.1 hbs, (pure_eq_pure.1 h).symm⟩
    · rintro ⟨b, bs', hb, hbs, rfl⟩
      exact ⟨b, hb, bind_eq_pure.2 ⟨bs', ih.2 hbs, rfl⟩⟩

theorem refuse_ne_pure [Inhabited α] (a : α) : (refuse : Checked α) ≠ pure a :=
  fun h => Nat.one_ne_zero (congrArg complaints h)

/-- What is accepted is what has been read without a complaint. -/
theorem result_eq_ok {x : Checked α} {a : α} : x.result = .ok a ↔ x = pure a := by
  unfold result
  split_ifs with h
  · rw [eq_pure h, pure_eq_pure, Except.ok.injEq]
    rfl
  · refine iff_of_false (by simp) fun hx => h ?_
    rw [hx]
    rfl

end Checked

namespace Node

/-! ## Fields of a mapping -/

/-- The node has the given values under the given keys. -/
def Shows (n : Node) (fields : List (String × Node)) : Prop :=
  ∀ f ∈ fields, n.get? f.1 = some f.2

variable {n : Node} {fields others : List (String × Node)}

theorem shows_append : n.Shows (fields ++ others) ↔ n.Shows fields ∧ n.Shows others :=
  List.forall_mem_append

/-- A mapping made of fields shows them, if their keys are different. -/
theorem shows_record (fields : List (String × Node)) (h : (fields.map (·.1)).Nodup) :
    (record fields).Shows fields := by
  induction fields with
  | nil => exact fun f hf => nomatch hf
  | cons g rest ih =>
    obtain ⟨hg, hrest⟩ := List.nodup_cons.1 h
    refine List.forall_mem_cons.2 ⟨if_pos rfl, fun f hf => ?_⟩
    have hne : g.1 ≠ f.1 := fun heq => hg (List.mem_map.2 ⟨f, hf, heq.symm⟩)
    exact (if_neg hne).trans (ih hrest f hf)

end Node

/-! ## The values of constraints -/

/-- A bound becomes a truth value or a double, whatever it is given as. -/
theorem Coercion.bound?_cases {n v : Node} (h : Coercion.bound? n = some v) :
    (∃ b, v = .bool b) ∨ ∃ x, v = .float x := by
  simp only [Coercion.bound?] at h
  split at h
  · exact .inl ⟨_, (Option.some.inj h).symm⟩
  · obtain ⟨x, -, rfl⟩ := Option.map_eq_some_iff.1 h
    exact .inr ⟨x, rfl⟩
  · exact .inr ⟨_, (Option.some.inj h).symm⟩
  · split at h
    · exact .inl ⟨_, (Option.some.inj h).symm⟩
    · obtain ⟨x, -, rfl⟩ := Option.map_eq_some_iff.1 h
      exact .inr ⟨x, rfl⟩
  · cases h

/-- A constraint accepts what it has made of a value as it is. -/
theorem Constraint.fit?_of_fit? {c : Constraint} {n v : Node} (h : c.fit? n = some v) :
    c.fit? v = some v := by
  cases c with
  | exclusiveMaximum | exclusiveMinimum =>
    obtain ⟨b, rfl⟩ | ⟨x, rfl⟩ := Coercion.bound?_cases h <;> rfl
  | _ =>
    obtain ⟨value, -, rfl⟩ := Option.map_eq_some_iff.1 h
    rfl

/-- And it is shown as it is. -/
theorem Constraint.shown_of_fit? {c : Constraint} {v : Node} (h : c.fit? v = some v) :
    c.shown v = v := by
  cases c with
  | exclusiveMaximum | exclusiveMinimum =>
    obtain ⟨b, rfl⟩ | ⟨x, rfl⟩ := Coercion.bound?_cases h <;> rfl
  | _ =>
    obtain ⟨value, -, rfl⟩ := Option.map_eq_some_iff.1 h
    rfl

theorem Constraint.fit?_null (c : Constraint) : c.fit? .null = none := by
  cases c <;> rfl

theorem Constraint.shown_null (c : Constraint) : c.shown .null = .null := by
  cases c <;> rfl

namespace Constraints

/-- Every constraint stands once, in the order of all, and accepts its value as it is. -/
structure Fitting (cs : Constraints) : Prop where
  ordered : (cs.map (·.1)).Sublist Constraint.all
  fit : ∀ e ∈ cs, e.1.fit? e.2 = some e.2

/-- Values that stand in the order of their keys are what the keys are looked up to. -/
theorem filterMap_lookup {keys : List Constraint} (hkeys : keys.Nodup) {cs : Constraints}
    (h : (cs.map (·.1)).Sublist keys) :
    keys.filterMap (fun c => (cs.lookup c).map fun v => (c, v)) = cs := by
  induction keys generalizing cs with
  | nil => rw [List.map_eq_nil_iff.1 (List.sublist_nil.1 h), List.filterMap_nil]
  | cons k keys ih =>
    obtain ⟨hk, hnodup⟩ := List.nodup_cons.1 hkeys
    cases cs with
    | nil => simp
    | cons e cs =>
      obtain ⟨c, v⟩ := e
      rcases List.sublist_cons_iff.1 h with hskip | ⟨cs', heq, hcs⟩
      · -- The key is not among those of the values.
        have hnone : ((c, v) :: cs).lookup k = none :=
          List.lookup_eq_none_iff.2 fun f hf => by
            simpa using fun hkf : k = f.1 => hk (hskip.subset (hkf ▸ List.mem_map_of_mem hf))
        rw [List.filterMap_cons_none (by rw [hnone]; rfl), ih hnodup hskip]
      · obtain ⟨rfl, rfl⟩ := List.cons.inj heq
        have hrest : keys.filterMap (fun k => (((c, v) :: cs).lookup k).map fun w => (k, w)) =
            keys.filterMap fun k => (cs.lookup k).map fun w => (k, w) := by
          refine List.filterMap_congr fun k hmem => ?_
          have hne : k ≠ c := fun heq => hk (heq ▸ hmem)
          rw [List.lookup_cons, beq_false_of_ne hne]
        rw [List.filterMap_cons_some (by rw [List.lookup_cons_self]; rfl), hrest, ih hnodup hcs]

end Constraints

namespace Validation

variable {α : Type} {n : Node}

/-! ## Types of fields -/

theorem text_text (s : String) : text (.text s) = pure s := rfl

theorem flag_bool (b : Bool) : flag (.bool b) = pure b := rfl

theorem integer_int (i : Int) : integer (.int i) = pure i := rfl

theorem nullable_text (s : Option String) : nullable text (.ofText? s) = pure s := by
  cases s <;> rfl

/-- A value or nothing, if the value is read back and does not look like nothing. -/
theorem nullable_getD {read : Node → Checked α} {write : α → Node} {o : Option α}
    (h : ∀ a ∈ o, read (write a) = pure a) (hnull : ∀ a ∈ o, (write a).isNull = false) :
    nullable read ((o.map write).getD .null) = pure o := by
  cases o with
  | none => rfl
  | some a =>
    simp only [nullable, Option.map_some, Option.getD_some, hnull a rfl, h a rfl]
    rfl

/-- A list of values, if each of them is read back. -/
theorem listOf_map {read : Node → Checked α} {write : α → Node} {as : List α}
    (h : ∀ a ∈ as, read (write a) = pure a) : listOf read (.list (as.map write)) = pure as := by
  refine Checked.mapM_eq_pure.2 (List.forall₂_map_left_iff.2 ?_)
  exact List.forall₂_same.2 h

theorem listOf_texts (ss : List String) : listOf text (.ofTexts ss) = pure ss :=
  listOf_map fun s _ => text_text s

theorem description_eq_pure {n v : Node} :
    description n = pure v ↔ Model.descriptionComplaints n = 0 ∧ n = v := by
  unfold description
  split_ifs with h
  · rw [Checked.pure_eq_pure, and_iff_right h]
  · exact iff_of_false (Checked.refuse_ne_pure _) fun h' => h h'.1

/-- A description that is accepted holds no date. -/
theorem undated_of_complaints (h : Model.descriptionComplaints n = 0) : n.undated = n := by
  unfold Model.descriptionComplaints at h
  cases n with
  | scalar value => cases value <;> first | rfl | cases h
  | _ => cases h

/-! ## Members of enumerations and constraints -/

theorem enumMember_toNode (m : EnumMember) : enumMember m.toNode = pure m := by
  have hshows : m.toNode.Shows _ :=
    Node.shows_record _ (by simp only [List.map_cons, List.map_nil]; decide)
  simp only [Node.Shows, List.forall_mem_cons] at hshows
  obtain ⟨hname, hvalue, htype, hdescription, -⟩ := hshows
  show (do
    let name ← required m.toNode "name" text
    let value ← required m.toNode "value" text
    let type ← required m.toNode "type" text
    let description ← optional m.toNode "description" none (nullable text)
    pure ({ name, value, type, description } : EnumMember)) = pure m
  simp only [required, optional, field?, hname, hvalue, htype, hdescription,
    Option.some_or, text_text, nullable_text, pure_bind]

/-- A constraint that is read is one that accepts its value as it is. -/
theorem constraint_eq_pure {c : Constraint} {o : Option (Constraint × Node)}
    (h : constraint n c = pure o) : ∀ e ∈ o, e.1 = c ∧ c.fit? e.2 = some e.2 := by
  unfold constraint at h
  split at h
  · obtain rfl := Checked.pure_eq_pure.1 h
    simp
  · split_ifs at h
    · obtain rfl := Checked.pure_eq_pure.1 h
      simp
    · split at h
      · rename_i v hv
        obtain rfl := Checked.pure_eq_pure.1 h
        rintro e ⟨⟩
        exact ⟨rfl, Constraint.fit?_of_fit? hv⟩
      · have hcomplaints : c.complaints = 0 := congrArg Checked.complaints h
        cases c <;> cases hcomplaints

theorem fitting_of_constraints {cs : Constraints} (h : constraints n = pure cs) : cs.Fitting := by
  obtain ⟨options, hoptions, hcs⟩ := Checked.bind_eq_pure.1 h
  rw [← Checked.pure_eq_pure.1 hcs]
  suffices hall : ∀ keys, List.Forall₂ (fun c o => constraint n c = pure o) keys options →
      (options.reduceOption.map (·.1)).Sublist keys ∧
        ∀ e ∈ options.reduceOption, e.1.fit? e.2 = some e.2 by
    obtain ⟨hordered, hfit⟩ := hall _ (Checked.mapM_eq_pure.1 hoptions)
    exact ⟨hordered, hfit⟩
  intro keys hread
  clear h hoptions hcs
  induction hread with
  | nil => exact ⟨.slnil, fun e he => nomatch he⟩
  | @cons c o keys options ho _ ih =>
    obtain ⟨hordered, hfit⟩ := ih
    cases o with
    | none => exact ⟨hordered.cons _, hfit⟩
    | some e =>
      obtain ⟨rfl, he⟩ := constraint_eq_pure ho e rfl
      exact ⟨hordered.cons_cons _, List.forall_mem_cons.2 ⟨he, hfit⟩⟩

theorem constraint_of_shows {cs : Constraints} (hshows : n.Shows cs.fields) (h : cs.Fitting)
    (c : Constraint) : constraint n c = pure ((cs.lookup c).map fun v => (c, v)) := by
  have hmem : (c.keyword, c.shown (cs.value c)) ∈ cs.fields :=
    List.mem_map.2 ⟨c, by cases c <;> decide, rfl⟩
  have hfield : field? n c.keyword = some (c.shown (cs.value c)) := by
    rw [field?, hshows _ hmem, Option.some_or]
  unfold constraint
  rw [hfield]
  cases hlookup : cs.lookup c with
  | none =>
    rw [Constraints.value, hlookup, Option.getD_none, Constraint.shown_null]
    rfl
  | some v =>
    have hfit : c.fit? v = some v := by
      obtain ⟨before, after, rfl, -⟩ := List.lookup_eq_some_iff.1 hlookup
      exact h.fit (c, v) (List.mem_append_right _ List.mem_cons_self)
    have hnull : v.isNull = false := by
      cases v with
      | scalar value =>
        cases value with
        | null => rw [Constraint.fit?_null] at hfit; cases hfit
        | _ => rfl
      | _ => rfl
    rw [Constraints.value, hlookup, Option.getD_some, Constraint.shown_of_fit? hfit]
    simp only [hnull, hfit]
    rfl

/-- Constraints are read back. -/
theorem constraints_of_shows {cs : Constraints} (hshows : n.Shows cs.fields) (h : cs.Fitting) :
    constraints n = pure cs := by
  have hread : Constraint.all.mapM (constraint n) =
      pure (Constraint.all.map fun c => (cs.lookup c).map fun v => (c, v)) := by
    refine Checked.mapM_eq_pure.2 (List.forall₂_map_right_iff.2 ?_)
    exact List.forall₂_same.2 fun c _ => constraint_of_shows hshows h c
  have hvalues : (Constraint.all.map fun c => (cs.lookup c).map fun v => (c, v)).reduceOption =
      cs :=
    List.filterMap_map.trans
      (Constraints.filterMap_lookup (by decide : Constraint.all.Nodup) h.ordered)
  unfold constraints
  rw [hread, pure_bind, hvalues]

end Validation

end ApiModel
