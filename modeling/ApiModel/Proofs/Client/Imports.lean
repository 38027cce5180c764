import ApiModel.Proofs.Client.ModelNames
import ApiModel.Proofs.Operation.Parameters
import ApiModel.Proofs.Operation.Services
import Mathlib.Data.List.Forall2
import Mathlib.Data.String.Basic

/-!
# Imports of a client in order

Imports travel a long way. The parameters of a path, those of an operation and the body of its
request bring theirs, the results bring theirs, and the operations of a service hand them on; then
the client is put in order. None is lost on the way, and none comes from elsewhere.

**Theorem (`imports_of_generate`).** In a client in order, an operation imports what its parameters
and its results import, a service what its operations import, and a model what it imported before
except itself. Imports stand once, and those of services and models are sorted.

An operation already imports just that when it is built (`gathers_of_ofNode`), and putting it in
order keeps it so (`Tidy.Keeps.gathers`).
-/

namespace ApiModel

open Report

/-! ## Names in order -/

namespace Tidy

/-- Names in order: each stands once, and they are sorted without regard to case. -/
structure InOrder (names : List String) : Prop where
  nodup : names.Nodup
  sorted : names.Pairwise fun a b => sortKey a ≤ sortKey b

/-- The test by which names are sorted compares them without regard to case. -/
theorem not_sortKey_lt_iff {a b : String} :
    (!decide (sortKey b < sortKey a)) = true ↔ sortKey a ≤ sortKey b := by
  rw [Bool.not_eq_true', decide_eq_false_iff_not, not_lt]

theorem sortedImports_inOrder (names : List String) : InOrder (sortedImports names) where
  nodup := (List.mergeSort_perm _ _).nodup_iff.2 (nodup_eraseDups names)
  sorted := by
    refine (List.pairwise_mergeSort (fun a b c hab hbc => ?_) (fun a b => ?_) _).imp
      not_sortKey_lt_iff.1
    · rw [not_sortKey_lt_iff] at hab hbc ⊢
      exact hab.trans hbc
    · rw [Bool.or_eq_true, not_sortKey_lt_iff, not_sortKey_lt_iff]
      exact le_total _ _

theorem InOrder.filter {names : List String} (h : InOrder names) (p : String → Bool) :
    InOrder (names.filter p) :=
  ⟨h.nodup.filter p, h.sorted.filter p⟩

theorem model_inOrder (m : Model) : InOrder (model m).imports :=
  (sortedImports_inOrder m.imports).filter _

end Tidy

/-! ## Operations -/

namespace Operation

/-- An operation imports what its parameters and its results import. -/
def Gathers (o : Operation) : Prop :=
  ∀ i, i ∈ o.imports ↔ (∃ p ∈ o.parameters, i ∈ p.imports) ∨ ∃ r ∈ o.results, i ∈ r.imports

variable {ctx : Context} {url node pathNode : Node} {method tag : String} {o : Operation}
  {pathParameters : Parameters}

/-- What is built imports what its parts do, wherever its parameters come from. -/
theorem gathers_of_ofNode
    (hpath : (Parameters.ofNode ctx pathNode).outcome = .ok pathParameters)
    (h : (Operation.ofNode ctx url method tag node pathParameters).outcome = .ok o) :
    o.Gathers := by
  obtain ⟨fromPath, -, rfl⟩ := Parameters.ofNode_eq_ok hpath
  obtain ⟨_, qs, hown, hqs, himports, hparameters, -⟩ := taken_of_ofNode h
  obtain ⟨own, -, rfl⟩ := Parameters.ofNode_eq_ok hown
  rw [Parameters.sorted_append] at hqs
  obtain ⟨body, -, rfl⟩ := withRequestBody_sorted hqs
  have hperm : o.parameters.Perm (fromPath ++ own ++ body.toList) :=
    hparameters ▸ List.filter_append_perm Parameters.isPressing _
  intro i
  rw [himports, List.mem_append, List.mem_flatMap]
  refine or_congr ?_ Iff.rfl
  show i ∈ (fromPath ++ own ++ body.toList).flatMap (·.imports) ↔ _
  simp only [List.mem_flatMap, hperm.mem_iff]

end Operation

namespace Tidy

/-- An operation in order keeps its parameters and results, and imports each name once. -/
structure Keeps (o o' : Operation) : Prop where
  parameters : o'.parameters = o.parameters
  results : o'.results = o.results
  imports : o'.imports = operationImports o

theorem operationsAfter_keeps (earlier : List String) (ops : List Operation) :
    List.Forall₂ Keeps ops (operationsAfter earlier ops) := by
  induction ops generalizing earlier with
  | nil => exact .nil
  | cons o rest ih => exact .cons ⟨rfl, rfl, rfl⟩ (ih _)

variable {o o' : Operation}

theorem Keeps.nodup (h : Keeps o o') : o'.imports.Nodup := by
  rw [h.imports]
  exact nodup_eraseDups _

theorem Keeps.mem_imports (h : Keeps o o') {i : String} (ho : o.Gathers) :
    i ∈ o'.imports ↔ i ∈ o.imports := by
  rw [h.imports, operationImports, unique, List.mem_eraseDups, List.mem_append, List.mem_append,
    or_assoc, List.mem_flatMap, List.mem_flatMap]
  exact or_iff_left_of_imp (ho i).2

theorem Keeps.gathers (h : Keeps o o') (ho : o.Gathers) : o'.Gathers := by
  intro i
  rw [h.mem_imports ho, h.parameters, h.results]
  exact ho i

/-! ## Services -/

/-- Imports of a service are in order, and those of its operations, which import each name once and
what their parts do. -/
structure Serves (s : Service) : Prop where
  operations : ∀ o ∈ s.operations, o.imports.Nodup ∧ o.Gathers
  inOrder : InOrder s.imports
  imports : ∀ i, i ∈ s.imports ↔ ∃ o ∈ s.operations, i ∈ o.imports

theorem service_serves {s : Service} (hgathers : ∀ o ∈ s.operations, o.Gathers)
    (himports : s.imports = s.operations.flatMap (·.imports)) : Serves (service s) := by
  have hkeeps := operationsAfter_keeps [] s.operations
  refine ⟨fun o' ho' => ?_, sortedImports_inOrder _, fun i => ?_⟩
  · obtain ⟨o, ho, hoo'⟩ := exists_left_of_mem hkeeps ho'
    exact ⟨hoo'.nodup, hoo'.gathers (hgathers o ho)⟩
  · show i ∈ sortedImports (s.imports ++ (operationsAfter [] s.operations).flatMap (·.imports)) ↔
      ∃ o ∈ operationsAfter [] s.operations, i ∈ o.imports
    rw [mem_sortedImports, List.mem_append, List.mem_flatMap, himports, List.mem_flatMap]
    refine or_iff_right_of_imp ?_
    rintro ⟨o, ho, hi⟩
    obtain ⟨o', ho', hoo'⟩ := exists_right_of_mem hkeeps ho
    exact ⟨o', ho', (hoo'.mem_imports (hgathers o ho)).2 hi⟩

end Tidy

/-! ## Clients -/

namespace Client

/-- The operations of a service import what their parts do, and the service what they import. -/
theorem gathers_of_ofDocument {document : Node} {c : Client}
    (h : (Client.ofDocument document).outcome = .ok c) {s : Service} (hs : s ∈ c.services) :
    (∀ o ∈ s.operations, o.Gathers) ∧ s.imports = s.operations.flatMap (·.imports) := by
  obtain ⟨ctx, ops, -, hops, hgrouped⟩ := services_of_ofDocument h
  refine ⟨fun o ho => ?_, (hgrouped.groups s hs).2⟩
  obtain ⟨f, hmakes⟩ := hgrouped.made hops hs ho
  obtain ⟨ps, hps, hbuilt⟩ := hmakes.built
  exact Operation.gathers_of_ofNode hps hbuilt

/-- In a client in order, operations import what their parts import, services what their operations
import, and models what they imported before except themselves; each name stands once, and the
imports of services and models are sorted. -/
theorem imports_of_generate {document : Node} {c : Client}
    (h : (Client.generate document).outcome = .ok c) :
    ∃ raw, (Client.ofDocument document).outcome = .ok raw ∧
      (∀ s ∈ c.services,
        (∀ o ∈ s.operations, o.imports.Nodup ∧
          ∀ i, i ∈ o.imports ↔
            (∃ p ∈ o.parameters, i ∈ p.imports) ∨ ∃ r ∈ o.results, i ∈ r.imports) ∧
        Tidy.InOrder s.imports ∧ ∀ i, i ∈ s.imports ↔ ∃ o ∈ s.operations, i ∈ o.imports) ∧
      List.Forall₂
        (fun m m' : Model => m'.name = m.name ∧ Tidy.InOrder m'.imports ∧
          ∀ i, i ∈ m'.imports ↔ i ∈ m.imports ∧ i ≠ m.name)
        raw.models c.models := by
  obtain ⟨raw, hraw, rfl⟩ := map_eq_ok.1 h
  refine ⟨raw, hraw, fun s hs => ?_, ?_⟩
  · obtain ⟨t, ht, rfl⟩ := List.mem_map.1 hs
    obtain ⟨hgathers, himports⟩ := gathers_of_ofDocument hraw ht
    obtain ⟨hoperations, hinOrder, hmem⟩ := Tidy.service_serves hgathers himports
    exact ⟨hoperations, hinOrder, hmem⟩
  · show List.Forall₂ _ raw.models (raw.models.map Tidy.model)
    rw [List.forall₂_map_right_iff, List.forall₂_same]
    exact fun m _ => ⟨rfl, Tidy.model_inOrder m, fun i => Tidy.mem_imports_model⟩

/-- A store that is searched for the pets of some owners, and in which an owner has pets, friends
and a home. -/
def store : Node :=
  let refersTo path := Node.record [("$ref", Node.text path)]
  let listOf schema := Node.record [("type", Node.text "array"), ("items", schema)]
  let pets := listOf (refersTo "#/definitions/Pet")
  let owners := listOf (refersTo "#/definitions/Owner")
  Node.record [("swagger", Node.text "2.0"),
    ("definitions", Node.record [("Pet", Node.record [("type", Node.text "object")]),
      ("Owner", Node.record [("type", Node.text "object"),
        ("properties", Node.record [("pets", pets), ("friends", owners), ("lost", pets),
          ("home", refersTo "#/definitions/address")])])]),
    ("paths", Node.record [("/pets", Node.record
      [("parameters", .list
        [Node.record [("name", Node.text "owners"), ("in", Node.text "body"), ("schema", owners)]]),
        ("post", Node.record [("responses", Node.record
          [("200", Node.record [("schema", pets)]),
            ("201", Node.record [("schema", listOf pets)])])])])])]

/-- In `store` the service imports owners and pets, and an owner imports pets and addresses, but not
itself. -/
theorem imports_of_generate_store :
    ∃ c, (Client.generate store).outcome = .ok c ∧
      (∃ s ∈ c.services, Tidy.InOrder s.imports ∧
        ∀ i, i ∈ s.imports ↔ i ∈ ["Owner", "Pet"]) ∧
      ∃ m ∈ c.models, m.name = "Owner" ∧ Tidy.InOrder m.imports ∧
        ∀ i, i ∈ m.imports ↔ i ∈ ["Pet", "Owner", "Pet", "address"] ∧ i ≠ "Owner" := by
  obtain ⟨raw, c, s, o, owner, hraw, hc, hs, hoperations, ho, howner, hname, himports⟩ :
      ∃ raw c s o owner, (Client.ofDocument store).outcome = .ok raw ∧
        (Client.generate store).outcome = .ok c ∧ c.services[0]? = some s ∧
        s.operations = [o] ∧ o.imports = ["Owner", "Pet"] ∧ raw.models[1]? = some owner ∧
        owner.name = "Owner" ∧ owner.imports = ["Pet", "Owner", "Pet", "address"] :=
    ⟨_, _, _, _, _, rfl, rfl, rfl, rfl, rfl, rfl, rfl, rfl⟩
  obtain ⟨raw', hraw', hservices, hmodels⟩ := imports_of_generate hc
  cases hraw.symm.trans hraw'
  refine ⟨c, hc, ⟨s, List.mem_of_getElem? hs, ?_⟩, ?_⟩
  · obtain ⟨-, hinOrder, hmem⟩ := hservices s (List.mem_of_getElem? hs)
    refine ⟨hinOrder, fun i => ?_⟩
    rw [hmem, hoperations, ← ho]
    simp
  · obtain ⟨m, hm, hsame, hinOrder, hmem⟩ :=
      exists_right_of_mem hmodels (List.mem_of_getElem? howner)
    rw [himports, hname] at hmem
    exact ⟨m, hm, hsame.trans hname, hinOrder, hmem⟩

end Client

end ApiModel
