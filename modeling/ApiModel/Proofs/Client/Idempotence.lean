import ApiModel.Proofs.Client.Imports
import ApiModel.Proofs.Client.OperationNames
import ApiModel.Proofs.Operation.Results

/-!
# Putting a client in order twice

A client in order is left as it is when it is put in order again, in everything but the names of
its operations: an operation whose name another one has before it gets a number, whether or not
the names were numbered before.

**Theorem (`client_client`).** A client that is put in order twice agrees with the one that is put
in order once in all but the names of its operations, and it is the same client exactly if the
operations of each service had names of their own after the first time.

For each part there is a form that the part has once it is in order, and what has that form is left
alone: names by `sortedImports_append_of_inOrder`, members and enumerations by
`firstOfName_of_nodup`, operations by `operationsAfter_eq_self_iff`.
-/

namespace ApiModel

namespace Tidy

/-! ## Names -/

/-- Names in order are left as they are, and names behind them that are among them add nothing. -/
theorem sortedImports_append_of_inOrder {names more : List String} (h : InOrder names)
    (hmore : more ⊆ names) : sortedImports (names ++ more) = names := by
  rw [sortedImports, unique, eraseDups_append_of_subset h.nodup hmore]
  exact List.mergeSort_of_pairwise (h.sorted.imp not_sortKey_lt_iff.2)

theorem sortedImports_of_inOrder {names : List String} (h : InOrder names) :
    sortedImports names = names := by
  have hsame := sortedImports_append_of_inOrder h (List.nil_subset names)
  rwa [List.append_nil] at hsame

/-! ## Items of one name -/

section Names

variable {α : Type} (name : α → String)

theorem firstOfName_concat (items : List α) (a : α) :
    firstOfName name (items ++ [a]) =
      firstOfName name items ++
        if name a ∈ (firstOfName name items).map name then [] else [a] := by
  have hany : (firstOfName name items).any (fun k => name k = name a) = true ↔
      name a ∈ (firstOfName name items).map name := by
    simp [List.mem_map]
  rw [firstOfName, List.foldl_append, List.foldl_cons, List.foldl_nil]
  show (if (firstOfName name items).any (fun k => name k = name a) then firstOfName name items
    else firstOfName name items ++ [a]) = _
  by_cases h : name a ∈ (firstOfName name items).map name
  · rw [if_pos (hany.2 h), if_pos h, List.append_nil]
  · rw [if_neg (mt hany.1 h), if_neg h]

/-- The first items of each name are those whose name no item before them has. -/
theorem firstOfName_eq_firstOfKey (items : List α) :
    firstOfName name items = Response.firstOfKey name items := by
  induction items using List.reverseRecOn with
  | nil => rfl
  | append_singleton items a ih =>
    have hmem : name a ∈ (Response.firstOfKey name items).map name ↔ name a ∈ items.map name :=
      Response.mem_map_firstOfKey name
    rw [firstOfName_concat, Response.firstOfKey_concat, ih]
    by_cases h : name a ∈ items.map name
    · rw [if_pos (hmem.2 h), if_pos h]
    · rw [if_neg (mt hmem.1 h), if_neg h]

/-- Items of different names are left as they are. -/
theorem firstOfName_of_nodup {items : List α} (h : (items.map name).Nodup) :
    firstOfName name items = items := by
  induction items using List.reverseRecOn with
  | nil => rfl
  | append_singleton items a ih =>
    rw [List.map_append, List.map_singleton, ← List.concat_eq_append, List.nodup_concat] at h
    rw [firstOfName_concat, ih h.2, if_neg h.1]

theorem firstOfName_firstOfName (items : List α) :
    firstOfName name (firstOfName name items) = firstOfName name items := by
  refine firstOfName_of_nodup name ?_
  rw [firstOfName_eq_firstOfKey]
  exact Response.nodup_map_firstOfKey name items

end Names

/-! ## Models -/

/-- A model in order is left as it is. -/
theorem model_model (m : Model) : model (model m) = model m := by
  have himports : (sortedImports (model m).imports).filter (· ≠ m.name) = (model m).imports := by
    rw [sortedImports_of_inOrder (model_inOrder m), List.filter_eq_self]
    intro i hi
    exact decide_eq_true (mem_imports_model.1 hi).2
  have hmembers := firstOfName_firstOfName (·.name) m.members
  have henums := firstOfName_firstOfName (·.name) m.enums
  show ({ model m with
    imports := (sortedImports (model m).imports).filter (· ≠ m.name)
    members := firstOfName (·.name) (firstOfName (·.name) m.members)
    enums := firstOfName (·.name) (firstOfName (·.name) m.enums) } : Model) = model m
  rw [himports, hmembers, henums]
  rfl

/-! ## Operations -/

/-- An operation imports what it would import in order. -/
def Settled (o : Operation) : Prop := operationImports o = o.imports

variable {o o' : Operation} {ops ops' : List Operation}

/-- The imports of an operation in order hold those of its parameters and results already. -/
theorem Keeps.settled (h : Keeps o o') : Settled o' := by
  unfold Settled
  rw [operationImports, unique, List.append_assoc, h.parameters, h.results]
  refine eraseDups_append_of_subset h.nodup fun i hi => ?_
  rw [h.imports, operationImports, unique, List.mem_eraseDups, List.append_assoc]
  exact List.mem_append_right _ hi

theorem settled_of_mem (ho : o ∈ operationsAfter [] ops) : Settled o := by
  obtain ⟨_, -, hkeeps⟩ := Report.exists_left_of_mem (operationsAfter_keeps [] ops) ho
  exact hkeeps.settled

/-- An operation is another one, under a name of its own. -/
def SameButName (o o' : Operation) : Prop := { o with name := o'.name } = o'

theorem sameButName_operationsAfter (earlier : List String) (h : ∀ o ∈ ops, Settled o) :
    List.Forall₂ SameButName ops (operationsAfter earlier ops) := by
  induction ops generalizing earlier with
  | nil => exact .nil
  | cons o rest ih =>
    have ho : operationImports o = o.imports := h o List.mem_cons_self
    refine .cons ?_ (ih _ fun p hp => h p (List.mem_cons_of_mem o hp))
    unfold SameButName
    rw [ho]

theorem flatMap_imports_of_sameButName (h : List.Forall₂ SameButName ops ops') :
    ops'.flatMap (·.imports) = ops.flatMap (·.imports) := by
  induction h with
  | nil => rfl
  | @cons o o' _ _ hsame _ ih =>
    have himports : o'.imports = o.imports := (congrArg (·.imports) hsame).symm
    rw [List.flatMap_cons, List.flatMap_cons, himports, ih]

theorem numbered_eq_self_iff {name : String} {i : Nat} : numbered name i = name ↔ i = 0 := by
  refine ⟨fun h => ?_, fun h => by rw [h, numbered_zero]⟩
  by_contra hi
  have htext := toList_numbered name (Nat.pos_of_ne_zero hi)
  rw [h, List.self_eq_append_right] at htext
  exact Nat.toDigits_ne_nil htext

/-- Operations are left as they are exactly if their names are new. -/
theorem operationsAfter_eq_self_iff (earlier : List String) (h : ∀ o ∈ ops, Settled o) :
    operationsAfter earlier ops = ops ↔
      (ops.map (·.name)).Nodup ∧ ∀ o ∈ ops, o.name ∉ earlier := by
  induction ops generalizing earlier with
  | nil => simp [operationsAfter]
  | cons o rest ih =>
    have ho : operationImports o = o.imports := h o List.mem_cons_self
    have hhead :
        { o with name := numbered o.name (earlier.count o.name), imports := o.imports } = o ↔
          o.name ∉ earlier := by
      rw [← List.count_eq_zero, ← numbered_eq_self_iff]
      constructor
      · intro hsame
        exact congrArg Operation.name hsame
      · intro hname
        rw [hname]
    rw [operationsAfter, ho, List.cons.injEq, hhead,
      ih _ fun p hp => h p (List.mem_cons_of_mem o hp), List.map_cons, List.nodup_cons,
      List.forall_mem_cons]
    constructor
    · rintro ⟨hnew, hnodup, hrest⟩
      refine ⟨⟨fun hmem => ?_, hnodup⟩, hnew, fun p hp hearlier => ?_⟩
      · obtain ⟨p, hp, hname⟩ := List.mem_map.1 hmem
        exact hrest p hp (hname ▸ List.mem_cons_self)
      · exact hrest p hp (List.mem_cons_of_mem _ hearlier)
    · rintro ⟨⟨hfirst, hnodup⟩, hnew, hrest⟩
      refine ⟨hnew, hnodup, fun p hp hmem => ?_⟩
      rcases List.mem_cons.1 hmem with hname | hearlier
      · exact hfirst (hname ▸ List.mem_map_of_mem hp)
      · exact hrest p hp hearlier

/-! ## Services -/

/-- Operations in order that are put in order again are the same but for their names, so the imports
of their service are those it has. -/
theorem imports_service_service (s : Service) :
    (service (service s)).imports = (service s).imports := by
  have hsame := sameButName_operationsAfter [] fun o (ho : o ∈ (service s).operations) =>
    settled_of_mem ho
  have hoperations : (service (service s)).operations.flatMap (·.imports) =
      (service s).operations.flatMap (·.imports) :=
    flatMap_imports_of_sameButName hsame
  show sortedImports ((service s).imports ++
    (service (service s)).operations.flatMap (·.imports)) = (service s).imports
  rw [hoperations]
  refine sortedImports_append_of_inOrder (sortedImports_inOrder _) fun i hi => ?_
  exact mem_sortedImports.2 (List.mem_append_right _ hi)

/-- A service in order is left as it is exactly if its operations have names of their own. -/
theorem service_service_eq_iff (s : Service) :
    service (service s) = service s ↔ ((service s).operations.map (·.name)).Nodup := by
  have hiff := operationsAfter_eq_self_iff [] fun o (ho : o ∈ (service s).operations) =>
    settled_of_mem ho
  have hnodup : operationsAfter [] (service s).operations = (service s).operations ↔
      ((service s).operations.map (·.name)).Nodup := by
    rw [hiff]
    exact and_iff_left fun _ _ => List.not_mem_nil
  rw [← hnodup]
  constructor
  · intro hsame
    exact congrArg Service.operations hsame
  · intro hoperations
    show { service s with
      operations := operationsAfter [] (service s).operations
      imports := (service (service s)).imports } = service s
    rw [hoperations, imports_service_service]

/-! ## Clients -/

/-- Services say the same but for the names of their operations. -/
structure SameButNames (s s' : Service) : Prop where
  name : s'.name = s.name
  imports : s'.imports = s.imports
  operations : List.Forall₂ SameButName s.operations s'.operations

theorem sameButNames_service (s : Service) : SameButNames (service s) (service (service s)) where
  name := rfl
  imports := imports_service_service s
  operations := sameButName_operationsAfter [] fun _ ho => settled_of_mem ho

/-- A client that is put in order again keeps its version, its server, its models, the names and
imports of its services, and all of its operations but their names; and it stays as it is exactly if
no service has two operations of one name. -/
theorem client_client (c : Client) :
    (client (client c)).version = (client c).version ∧
      (client (client c)).server = (client c).server ∧
      (client (client c)).models = (client c).models ∧
      List.Forall₂ SameButNames (client c).services (client (client c)).services ∧
      (client (client c) = client c ↔
        ∀ s ∈ (client c).services, (s.operations.map (·.name)).Nodup) := by
  have hmodels : (client (client c)).models = (client c).models := by
    show (c.models.map model).map model = c.models.map model
    rw [List.map_map]
    exact List.map_congr_left fun m _ => model_model m
  refine ⟨rfl, rfl, hmodels, ?_, ?_⟩
  · show List.Forall₂ _ (c.services.map service) ((c.services.map service).map service)
    rw [List.forall₂_map_right_iff, List.forall₂_same]
    intro t ht
    obtain ⟨s, -, rfl⟩ := List.mem_map.1 ht
    exact sameButNames_service s
  · have hservices : (client (client c)).services = (client c).services ↔
        ∀ s ∈ (client c).services, (s.operations.map (·.name)).Nodup := by
      show (c.services.map service).map service = c.services.map service ↔
        ∀ t ∈ c.services.map service, (t.operations.map (·.name)).Nodup
      rw [List.map_map, List.map_inj_left, List.forall_mem_map]
      exact forall₂_congr fun s _ => service_service_eq_iff s
    rw [← hservices]
    constructor
    · intro hsame
      exact congrArg Client.services hsame
    · intro hsame
      show { client c with
        models := (client (client c)).models
        services := (client (client c)).services } = client c
      rw [hmodels, hsame]

end Tidy

end ApiModel
