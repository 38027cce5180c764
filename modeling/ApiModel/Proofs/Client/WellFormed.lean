import ApiModel.Proofs.Operation.Services
import ApiModel.Proofs.Operation.WellFormed
import ApiModel.Proofs.Schema.Definitions

/-!
# Well-formed clients

A client presents the models of the definitions of its document, and the parameters and results of
its operations.

**Theorem (`wellFormed_of_presents`).** Every model that a client presents is well-formed, and so
are all models in it.
-/

namespace ApiModel

open Report Model

namespace Client

/-- The model is that of a definition, a parameter or a result. -/
inductive Presents (c : Client) : Model → Prop
  | definition {m : Model} : m ∈ c.models → Presents c m
  | parameter {s : Service} {o : Operation} {p : Parameter} : s ∈ c.services →
      o ∈ s.operations → o.toParameters.Holds p → Presents c p.toModel
  | result {s : Service} {o : Operation} {r : Response} : s ∈ c.services →
      o ∈ s.operations → r ∈ o.results → Presents c r.toModel

variable {document : Node} {c : Client} {m p : Model}

theorem wellFormed_definitions {ctx : Context} {models : List Model}
    (h : (Schema.definitions ctx).outcome = .ok models) (hm : m ∈ models) :
    m.Throughout WellFormed := by
  obtain ⟨key, s, made, -, hmade, -, hcore⟩ := Schema.mem_definitions h hm
  have hmodel := Schema.wellFormed_model hmade
  exact throughout_of_core hcore (hmodel.here.of_core hcore) hmodel

/-- What a client presents is well-formed, and so is everything in it. -/
theorem wellFormed_of_presents (h : (ofDocument document).outcome = .ok c) (hm : c.Presents m)
    (hp : m.Contains p) : p.WellFormed := by
  obtain ⟨ctx, ops, -, hops, hgrouped⟩ := services_of_ofDocument h
  cases hm with
  | definition hm =>
    obtain ⟨ctx', -, hmodels, -⟩ := ofDocument_eq_ok h
    exact wellFormed_definitions hmodels hm p hp
  | parameter hs ho hheld =>
    obtain ⟨f, hmakes⟩ := hgrouped.made hops hs ho
    obtain ⟨ps, hps, hbuilt⟩ := hmakes.built
    exact (Operation.isBuilt_of_holds hps hbuilt hheld).wellFormed p hp
  | result hs ho hr =>
    obtain ⟨f, hmakes⟩ := hgrouped.made hops hs ho
    obtain ⟨ps, -, hbuilt⟩ := hmakes.built
    rcases Operation.isBuilt_of_mem_results hbuilt hr with rfl | hr
    · exact Response.wellFormed_nothing p hp
    · exact hr.wellFormed p hp

/-- Pets have a size, and are listed page by page in some order. -/
def clinic : Node :=
  let choice (values : List String) :=
    [("type", Node.text "string"), ("enum", .list (values.map .text))]
  Node.record [("swagger", .text "2.0"),
    ("definitions", .record [("Pet", .record [("type", .text "object"),
      ("properties", .record [("size", .record (choice ["small", "large"]))])])]),
    ("paths", .record [("/pets", .record [("get", .record [
      ("parameters", .list [.record
        ([("name", .text "order"), ("in", .text "query")] ++ choice ["name", "age"])]),
      ("responses", .record [("200", .record [("schema", .record [("type", .text "array"),
        ("items", .record [("$ref", .text "#/definitions/Page[Pet]")])])])])])])])]

/-- The size is an enumeration in the model of a pet, the order is one, and the result shows the
type of its pages. -/
theorem wellFormed_of_presents_clinic :
    ∃ (c : Client) (pet size order : Model) (result : Response),
      (ofDocument clinic).outcome = .ok c ∧
      (c.Presents pet ∧ pet.enums = [size] ∧ size.members.length = 2) ∧
      (c.Presents order ∧ order.members.length = 2) ∧
      (c.Presents result.toModel ∧ result.kind = .array ∧ result.type = "Page<Pet>") ∧
      (size.WellFormed ∧ order.WellFormed ∧ result.WellFormed) := by
  obtain ⟨c, pet, size, service, o, order, result, hc, hpet, hsize, hservice, ho, horder,
      hresult, hmembers, hchoices, hkind, htype⟩ :
      ∃ c pet size service o order result, (ofDocument clinic).outcome = .ok c ∧
        c.models[0]? = some pet ∧ pet.enums = [size] ∧ c.services[0]? = some service ∧
        service.operations[0]? = some o ∧ o.query[0]? = some order ∧
        o.results[0]? = some result ∧ size.members.length = 2 ∧ order.members.length = 2 ∧
        result.kind = .array ∧ result.type = "Page<Pet>" :=
    ⟨_, _, _, _, _, _, _, rfl, rfl, rfl, rfl, rfl, rfl, rfl, rfl, rfl, rfl, rfl⟩
  have hs := List.mem_of_getElem? hservice
  have ho := List.mem_of_getElem? ho
  have hpet : c.Presents pet := .definition (List.mem_of_getElem? hpet)
  have horder : c.Presents order.toModel :=
    .parameter hs ho (.query (List.mem_of_getElem? horder))
  have hresult : c.Presents result.toModel := .result hs ho (List.mem_of_getElem? hresult)
  have hcontains : pet.Contains size := .enumeration (by simp [hsize]) (.self size)
  exact ⟨c, pet, size, order.toModel, result, hc, ⟨hpet, hsize, hmembers⟩, ⟨horder, hchoices⟩,
    ⟨hresult, hkind, htype⟩, wellFormed_of_presents hc hpet hcontains,
    wellFormed_of_presents hc horder (.self _), wellFormed_of_presents hc hresult (.self _)⟩

end Client

end ApiModel
