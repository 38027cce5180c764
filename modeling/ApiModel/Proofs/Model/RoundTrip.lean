import ApiModel.Proofs.Model.Fields

/-!
# Models that are read back

**Theorem (`model_toNode`).** A model that has been read from a mapping is read again from the
mapping as which it is written, and is the same model.

Of its own fields a model has to be `Legal`: a description that a record accepts, and fitting
constraints. Then they are read back from every mapping that shows them (`modelFields_of_shows`),
whatever else this shows. And every model that is read is legal (`legal_of_modelFields`).

The models in a model are read in the same way, on a budget of levels. The round trip is an
induction on the budget of the first reading; the second one needs no more levels than the written
form has nodes.
-/

namespace ApiModel

namespace Model

/-! ## The written form -/

/-- The models that stand in a model directly. -/
def inner (m : Model) : List Model := m.link.toList ++ m.enums ++ m.properties

theorem nodes_eq_map (ms : List Model) : nodes ms = ms.map toNode := by
  induction ms with
  | nil => rfl
  | cons m ms ih => rw [nodes, ih, List.map_cons, toNode]

theorem linkNode_eq (o : Option Model) : linkNode o = (o.map toNode).getD .null := by
  cases o <;> rfl

theorem fields_eq (m : Model) :
    m.fields = m.fieldsWith ((m.link.map toNode).getD .null) (m.enums.map toNode)
      (m.properties.map toNode) := by
  obtain ⟨t, name, kind, link, description, deprecated, isDefinition, isReadOnly, isRequired,
    isNullable, default, members, enums, properties, constraints⟩ := m
  rw [fields, nodes_eq_map, nodes_eq_map, linkNode_eq]

/-- The keys of a model are different, and so they are with the keys of a parameter or of a
response beside them. -/
theorem nodup_keys (m : Model) :
    (m.fields.map (·.1) ++ ["in", "prop", "mediaType", "code"]).Nodup := by
  have hkeys : m.fields.map (·.1) =
      ["name", "export", "type", "base", "template", "link", "description", "deprecated",
        "isDefinition", "isReadOnly", "isRequired", "isNullable", "default", "imports", "enum",
        "enums", "properties"] ++ Constraint.all.map Constraint.keyword := by
    rw [fields_eq, fieldsWith, Constraints.fields, List.map_append, List.map_map]
    rfl
  rw [hkeys]
  decide

/-- A model that a reading can have given, as far as its own fields show. -/
structure Legal (m : Model) : Prop where
  description : descriptionComplaints m.description = 0
  constraints : m.constraints.Fitting

end Model

namespace Validation

open Model

variable {n : Node} {m : Model} {read : Node → Checked Model}

/-! ## The fields of a model -/

/-- The fields of a legal model are read back if the models in it are. -/
theorem modelFields_of_shows (hshows : n.Shows m.fields) (hm : m.Legal)
    (hinner : ∀ l ∈ m.inner, read l.toNode = pure l) : modelFields read n = pure m := by
  rw [fields_eq, fieldsWith, Node.shows_append] at hshows
  obtain ⟨hfields, hconstraints⟩ := hshows
  simp only [Node.Shows, List.forall_mem_cons] at hfields
  obtain ⟨hname, hkind, htype, hbase, htemplate, hlink, hdescription, hdeprecated, hisDefinition,
    hisReadOnly, hisRequired, hisNullable, hdefault, himports, hmembers, henums, hproperties,
    -⟩ := hfields
  have hreadKind : (Checked.ofOption ((Node.text m.kind.label).text?.bind ModelKind.ofLabel?)) =
      pure m.kind := by
    show Checked.ofOption (ModelKind.ofLabel? m.kind.label) = pure m.kind
    rw [ModelKind.ofLabel?_label]
    rfl
  have hreadLink : nullable read ((m.link.map toNode).getD .null) = pure m.link :=
    nullable_getD
      (fun l hl => hinner l (List.mem_append_left _ (List.mem_append_left _ (by simpa using hl))))
      fun _ _ => rfl
  have hreadDescription : description m.description.undated = pure m.description := by
    rw [undated_of_complaints hm.description, description_eq_pure]
    exact ⟨hm.description, rfl⟩
  have hreadMembers : listOf enumMember (.list (m.members.map EnumMember.toNode)) =
      pure m.members := listOf_map fun e _ => enumMember_toNode e
  have hreadEnums : listOf read (.list (m.enums.map toNode)) = pure m.enums :=
    listOf_map fun l hl => hinner l (List.mem_append_left _ (List.mem_append_right _ hl))
  have hreadProperties : listOf read (.list (m.properties.map toNode)) = pure m.properties :=
    listOf_map fun l hl => hinner l (List.mem_append_right _ hl)
  simp only [modelFields, optional, field?, hname, hkind, htype, hbase, htemplate, hlink,
    hdescription, hdeprecated, hisDefinition, hisReadOnly, hisRequired, hisNullable, hdefault,
    himports, hmembers, henums, hproperties, Option.some_or, text_text, nullable_text, flag_bool,
    listOf_texts, hreadKind, hreadLink, hreadDescription, hreadMembers, hreadEnums,
    hreadProperties, constraints_of_shows hconstraints hm.constraints, pure_bind]
  cases m
  rfl

theorem optional_eq_pure {α : Type} {name : String} {missing a : α} {read : Node → Checked α}
    (h : optional n name missing read = pure a) : a = missing ∨ ∃ v, read v = pure a := by
  unfold optional at h
  split at h
  · exact .inr ⟨_, h⟩
  · exact .inl (Checked.pure_eq_pure.1 h).symm

theorem nullable_eq_pure {α : Type} {o : Option α} {read : Node → Checked α}
    (h : nullable read n = pure o) : ∀ a ∈ o, ∃ v, read v = pure a := by
  unfold nullable at h
  split_ifs at h
  · rw [← Checked.pure_eq_pure.1 h]
    exact fun _ ha => nomatch ha
  · obtain ⟨a, ha, rfl⟩ := Checked.map_eq_pure.1 h
    rintro _ ⟨⟩
    exact ⟨n, ha⟩

theorem listOf_eq_pure {α : Type} {as : List α} {read : Node → Checked α}
    (h : listOf read n = pure as) : ∀ a ∈ as, ∃ v, read v = pure a := by
  unfold listOf at h
  split at h
  · rw [Checked.mapM_eq_pure] at h
    induction h with
    | nil => exact fun _ ha => nomatch ha
    | cons hv _ ih => exact List.forall_mem_cons.2 ⟨⟨_, hv⟩, ih⟩
  · exact absurd h (Checked.refuse_ne_pure _)

/-- A model that is read is legal, and the models in it have been read. -/
theorem legal_of_modelFields (h : modelFields read n = pure m) :
    m.Legal ∧ ∀ l ∈ m.inner, ∃ v, read v = pure l := by
  simp only [modelFields, Checked.bind_eq_pure] at h
  obtain ⟨name, -, kind, -, type, -, base, -, template, -, link, hlink, text, hdescription,
    deprecated, -, isDefinition, -, isReadOnly, -, isRequired, -, isNullable, -, default, -,
    imports, -, members, -, enums, henums, properties, hproperties, cs, hcs, hm⟩ := h
  obtain rfl := Checked.pure_eq_pure.1 hm
  refine ⟨⟨?_, fitting_of_constraints hcs⟩, fun l hl => ?_⟩
  · rcases optional_eq_pure hdescription with rfl | ⟨v, hv⟩
    · rfl
    · obtain ⟨hcomplaints, rfl⟩ := description_eq_pure.1 hv
      exact hcomplaints
  · rcases List.mem_append.1 hl with hl | hl
    · rcases List.mem_append.1 hl with hl | hl
      · rcases optional_eq_pure hlink with rfl | ⟨v, hv⟩
        · cases hl
        · exact nullable_eq_pure hv l (by simpa using hl)
      · rcases optional_eq_pure henums with rfl | ⟨v, hv⟩
        · cases hl
        · exact listOf_eq_pure hv l hl
    · rcases optional_eq_pure hproperties with rfl | ⟨v, hv⟩
      · cases hl
      · exact listOf_eq_pure hv l hl

/-! ## Models -/

theorem mapping_eq_pure {α : Type} [Inhabited α] {read : Node → Checked α} {a : α} :
    mapping read n = pure a ↔ n.isMap = true ∧ read n = pure a := by
  unfold mapping
  split_ifs with hmap
  · rw [and_iff_right hmap]
  · exact iff_of_false (Checked.refuse_ne_pure a) fun h => hmap h.1

theorem shows_toNode (m : Model) : m.toNode.Shows m.fields :=
  Node.shows_record _ (List.nodup_append.1 m.nodup_keys).1

/-- The written form of a parameter or of a response shows the fields of its model, and its own. -/
theorem shows_beside (m : Model) {others : List (String × Node)}
    (h : (others.map (·.1)).Sublist ["in", "prop", "mediaType", "code"]) :
    (Node.record (m.fields ++ others)).Shows m.fields ∧
      (Node.record (m.fields ++ others)).Shows others := by
  refine Node.shows_append.1 (Node.shows_record _ ?_)
  rw [List.map_append]
  exact m.nodup_keys.sublist (h.append_left _)

/-- The written form of a model in a model is smaller. -/
theorem count_toNode_lt {l : Model} (h : l ∈ m.inner) : l.toNode.count < m.toNode.count := by
  have hshows := shows_toNode m
  rw [fields_eq, fieldsWith, Node.shows_append] at hshows
  have hfields := hshows.1
  simp only [Node.Shows, List.forall_mem_cons] at hfields
  obtain ⟨-, -, -, -, -, hlink, -, -, -, -, -, -, -, -, -, henums, hproperties, -⟩ := hfields
  have hfield {key : String} {v : Node} (hv : m.toNode.get? key = some v) :
      m.toNode.field key = v := by rw [Node.field, hv, Option.getD_some]
  have hitem {key : String} {ms : List Model}
      (hv : m.toNode.get? key = some (.list (ms.map toNode))) (hl : l ∈ ms) :
      Node.Inside l.toNode m.toNode :=
    (Node.inside_list (List.mem_map_of_mem hl)).trans
      (Node.inside_of_field (hfield hv) (by simp))
  rcases List.mem_append.1 h with h | h
  · rcases List.mem_append.1 h with h | h
    · rw [Option.mem_toList] at h
      rw [h, Option.map_some, Option.getD_some] at hlink
      exact (Node.inside_of_field (hfield hlink) (by rintro ⟨⟩)).2
    · exact (hitem henums h).2
  · exact (hitem hproperties h).2

theorem modelWithin_toNode {levels : Nat} (h : modelWithin levels n = pure m) {k : Nat}
    (hk : m.toNode.count ≤ k) : modelWithin k m.toNode = pure m := by
  induction levels generalizing n m k with
  | zero => exact absurd h (Checked.refuse_ne_pure m)
  | succ levels ih =>
    cases k with
    | zero => exact absurd hk (Nat.not_le.2 (Node.count_pos _))
    | succ k =>
      obtain ⟨hlegal, hinner⟩ := legal_of_modelFields (mapping_eq_pure.1 h).2
      refine mapping_eq_pure.2 ⟨rfl, modelFields_of_shows (shows_toNode m) hlegal fun l hl => ?_⟩
      obtain ⟨v, hv⟩ := hinner l hl
      have hlt := count_toNode_lt hl
      exact ih hv (by omega)

/-- A model that has been read is read back from its written form. -/
theorem model_toNode (h : model n = pure m) : model m.toNode = pure m :=
  modelWithin_toNode h (Nat.le_refl _)

/-- And so are its fields from a mapping that shows more than them. -/
theorem modelFields_model (h : modelFields model n = pure m) {n' : Node}
    (hshows : n'.Shows m.fields) : modelFields model n' = pure m := by
  obtain ⟨hlegal, hinner⟩ := legal_of_modelFields h
  refine modelFields_of_shows hshows hlegal fun l hl => ?_
  obtain ⟨v, hv⟩ := hinner l hl
  exact model_toNode hv

end Validation

end ApiModel
