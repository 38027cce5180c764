import ApiModel.Proofs.Identifier.Letters
import ApiModel.Proofs.Node.Keys
import ApiModel.Proofs.Operation.Services

/-!
# Endpoints of services

The path and the method say which endpoint an operation is for. A document has one operation for
an endpoint, but the operation is filed once for each of its tags, and different tags may name one
service.

**Theorem (`endpoints_nodup_iff`).** No service of a client has two operations for one endpoint
exactly if the tags of each operation name different services. Tags of ASCII characters do if they
differ in their letters and digits.

The filings of a document are told apart by path, method and service as soon as those of one
operation are told apart by service (`nodup_labels_iff`), because the keys of a mapping differ.
What is filed is grouped by service, and the groups repeat no endpoint exactly if no two filings
agree in all three.
-/

namespace ApiModel

/-- What an operation is for: its path and its method. -/
def Operation.endpoint (o : Operation) : String × String := (o.url, o.method)

/-! ## Filings -/

namespace Filing

/-- What tells the filings of a document apart. -/
def label (f : Filing) : String × Scalar × String := (f.service, f.url, f.method.toUpper)

theorem nodup_labels_ofMethod (url : Scalar) (item : Node) (method : String) :
    ((ofMethod url item method).map label).Nodup ↔
      ((item.field method).isMap = true →
        ((tagsOf (item.field method)).map Identifier.serviceName).Nodup) := by
  rw [ofMethod]
  split_ifs with hmap
  · have hlabels : ((tagsOf (item.field method)).map fun tag => Filing.mk url item method tag).map
        label = ((tagsOf (item.field method)).map Identifier.serviceName).map
          fun service => (service, url, method.toUpper) := by
      rw [List.map_map, List.map_map]
      rfl
    have hinjective : Function.Injective fun service : String =>
        (service, url, method.toUpper) := fun _ _ h => congrArg Prod.fst h
    rw [hlabels, List.nodup_map_iff hinjective, iff_true_intro hmap, true_imp_iff]
  · exact iff_of_true List.nodup_nil fun h => absurd h hmap

theorem nodup_labels_ofPath (entry : Scalar × Node) :
    ((ofPath entry).map label).Nodup ↔
      ∀ method ∈ Operation.methods, ((ofMethod entry.1 entry.2 method).map label).Nodup := by
  rw [ofPath, List.map_flatMap]
  refine nodup_flatMap_iff_of_key (fun l : String × Scalar × String => l.2.2) String.toUpper
    (fun method _ l hl => ?_) (by decide +kernel)
  obtain ⟨f, hf, rfl⟩ := List.mem_map.1 hl
  rw [ofMethod] at hf
  split_ifs at hf
  · obtain ⟨tag, -, rfl⟩ := List.mem_map.1 hf
    rfl
  · exact absurd hf List.not_mem_nil

theorem url_of_mem_ofPath {entry : Scalar × Node} {f : Filing} (hf : f ∈ ofPath entry) :
    f.url = entry.1 := by
  obtain ⟨method, -, hf⟩ := List.mem_flatMap.1 hf
  rw [ofMethod] at hf
  split_ifs at hf
  · obtain ⟨tag, -, rfl⟩ := List.mem_map.1 hf
    rfl
  · exact absurd hf List.not_mem_nil

/-- The operations that a document describes: what stands under a path and one of the methods. -/
def nodesOf (document : Node) : List Node :=
  ((document.field "paths").entries?.getD []).flatMap fun entry =>
    (Operation.methods.map entry.2.field).filter (·.isMap)

/-- The filings of a document differ if those of each operation do. -/
theorem nodup_labels_iff {document : Node} (hkeyed : document.Keyed) :
    ((ofDocument document).map label).Nodup ↔
      ∀ node ∈ nodesOf document, ((tagsOf node).map Identifier.serviceName).Nodup := by
  have hurls : (((document.field "paths").entries?.getD []).map fun e => e.1).Nodup :=
    (hkeyed.field "paths").entries.nodup
  rw [ofDocument, List.map_flatMap,
    nodup_flatMap_iff_of_key (fun l : String × Scalar × String => l.2.1) (·.1)
      (fun e _ l hl => ?_) hurls]
  · simp only [nodup_labels_ofPath, nodup_labels_ofMethod, nodesOf, List.forall_mem_flatMap,
      List.mem_filter, List.mem_map, and_imp, forall_exists_index, forall_apply_eq_imp_iff₂]
  · obtain ⟨f, hf, rfl⟩ := List.mem_map.1 hl
    exact url_of_mem_ofPath hf

/-- An operation is labelled like the filing of which it is made. -/
theorem Makes.map_label {ctx : Context} {filings : List Filing} {ops : List Operation}
    (h : List.Forall₂ (Makes ctx) filings ops) :
    filings.map label = ops.map fun o => (o.service, .text o.url, o.method) := by
  induction h with
  | nil => rfl
  | cons hfo _ ih => rw [List.map_cons, List.map_cons, ih, label, hfo.service, hfo.url, hfo.method]

end Filing

/-! ## Services -/

theorem Tidy.map_endpoint (earlier : List String) (ops : List Operation) :
    (operationsAfter earlier ops).map (·.endpoint) = ops.map (·.endpoint) := by
  induction ops generalizing earlier with
  | nil => rfl
  | cons o rest ih => rw [operationsAfter, List.map_cons, List.map_cons, ih]; rfl

/-- Tidying a client leaves the endpoints of its services alone. -/
theorem Tidy.nodup_endpoints_iff (c : Client) :
    (∀ s ∈ (client c).services, (s.operations.map (·.endpoint)).Nodup) ↔
      ∀ s ∈ c.services, (s.operations.map (·.endpoint)).Nodup := by
  rw [client, List.forall_mem_map]
  refine forall₂_congr fun s _ => ?_
  rw [service, map_endpoint]

/-- The groups repeat no endpoint exactly if no operation is there twice for one service. -/
theorem Service.Grouped.nodup_endpoints_iff {ops : List Operation} {services : List Service}
    (h : Grouped ops services) :
    (∀ s ∈ services, (s.operations.map (·.endpoint)).Nodup) ↔
      (ops.map fun o => (o.service, o.endpoint)).Nodup := by
  rw [← nodup_groups_iff Operation.service Operation.endpoint (services.map (·.name))
    fun o ho => h.mem_names.2 (List.mem_map_of_mem ho), List.forall_mem_map]
  refine forall₂_congr fun s hs => ?_
  rw [(h.groups s hs).1]

namespace Client

/-- No service of a client has two operations for one endpoint exactly if the tags of each
operation of the document name different services. Tags of ASCII characters that differ in their
letters and digits do. -/
theorem endpoints_nodup_iff {document : Node} {c : Client} (hkeyed : document.Keyed)
    (h : (generate document).outcome = .ok c) :
    ((∀ s ∈ c.services, (s.operations.map (·.endpoint)).Nodup) ↔
      ∀ node ∈ Filing.nodesOf document,
        ((Filing.tagsOf node).map Identifier.serviceName).Nodup) ∧
    ((∀ node ∈ Filing.nodesOf document,
      (∀ tag ∈ Filing.tagsOf node, Identifier.IsAscii tag.toList) ∧
        ((Filing.tagsOf node).map Identifier.serviceLetters).Nodup) →
      ∀ s ∈ c.services, (s.operations.map (·.endpoint)).Nodup) := by
  have hiff : (∀ s ∈ c.services, (s.operations.map (·.endpoint)).Nodup) ↔
      ∀ node ∈ Filing.nodesOf document,
        ((Filing.tagsOf node).map Identifier.serviceName).Nodup := by
    obtain ⟨raw, hraw, rfl⟩ := Report.map_eq_ok.1 h
    obtain ⟨ctx, ops, -, hops, hgrouped⟩ := services_of_ofDocument hraw
    have hinjective : Function.Injective fun l : String × String × String =>
        (l.1, Scalar.text l.2.1, l.2.2) := by
      rintro ⟨service, url, method⟩ ⟨service', url', method'⟩ heq
      cases heq
      rfl
    rw [Tidy.nodup_endpoints_iff, hgrouped.nodup_endpoints_iff, ← Filing.nodup_labels_iff hkeyed,
      Filing.Makes.map_label hops, ← List.nodup_map_iff hinjective, List.map_map]
    rfl
  refine ⟨hiff, fun htags => hiff.2 fun node hnode => ?_⟩
  obtain ⟨hascii, hletters⟩ := htags node hnode
  exact Identifier.nodup_serviceNames hascii hletters

/-- The services of `kennel` have each of its endpoints once: the two tags of its operations differ
in their letters. -/
theorem endpoints_nodup_kennel :
    kennel.Keyed ∧ ∃ c, (generate kennel).outcome = .ok c ∧
      (c.services.map fun s => s.operations.map (·.endpoint)) =
        [[("/pets", "GET")], [("/pets", "GET"), ("/owners", "GET")], [("/pets", "POST")]] ∧
      ∀ s ∈ c.services, (s.operations.map (·.endpoint)).Nodup := by
  have hkeyed : kennel.Keyed := by decide +kernel
  obtain ⟨c, hc, hendpoints⟩ : ∃ c, (generate kennel).outcome = .ok c ∧
      (c.services.map fun s => s.operations.map (·.endpoint)) =
        [[("/pets", "GET")], [("/pets", "GET"), ("/owners", "GET")], [("/pets", "POST")]] :=
    ⟨_, rfl, rfl⟩
  have htags : (Filing.nodesOf kennel).map Filing.tagsOf =
      [["pet list", "owner"], ["Default"], ["owner"]] := rfl
  have hspelled : ∀ tags ∈ (Filing.nodesOf kennel).map Filing.tagsOf,
      (∀ tag ∈ tags, Identifier.IsAscii tag.toList) ∧
        (tags.map Identifier.serviceLetters).Nodup := by
    rw [htags]
    decide +kernel
  exact ⟨hkeyed, c, hc, hendpoints,
    (endpoints_nodup_iff hkeyed hc).2 (List.forall_mem_map.1 hspelled)⟩

/-- Pets are listed under one tag in two spellings. -/
def petShop : Node :=
  .record [("swagger", .text "2.0"), ("paths", .record [("/pets", .record [("get",
    .record [("operationId", .text "list"),
      ("tags", .list [.text "pet store", .text "PetStore"])])])])]

/-- The service of the two spellings lists the pets twice. -/
theorem not_all_endpoints_nodup :
    ¬ ∀ document c, document.Keyed → (generate document).outcome = .ok c →
      ∀ s ∈ c.services, (s.operations.map (·.endpoint)).Nodup := by
  intro h
  obtain ⟨c, hc, hendpoints⟩ : ∃ c, (generate petShop).outcome = .ok c ∧
      c.services.map (fun s => s.operations.map (·.endpoint)) =
        [[("/pets", "GET"), ("/pets", "GET")]] := ⟨_, rfl, rfl⟩
  have hnodup := h petShop c (by decide +kernel) hc
  rw [← List.forall_mem_map (f := fun s : Service => s.operations.map (·.endpoint))
    (P := List.Nodup), hendpoints] at hnodup
  exact absurd hnodup (by simp)

end Client

end ApiModel
