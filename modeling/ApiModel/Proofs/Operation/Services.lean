import ApiModel.Client.Builder
import ApiModel.Proofs.Grouping
import ApiModel.Proofs.Outcome

/-!
# Services of a document

An operation is filed once for each of its tags. The filings of a document are known before
anything is built: path by path, method by method, tag by tag. Each is built into an operation, and
the operations are grouped by the names of their services as they come.

**Theorem (`services_of_document`).** The services of a document have different names, in the order
in which the filings first have them. The operations of a service are what is built from the filings
of its name, in order, and its imports are those of its operations. So every filing makes one
operation of one service.

`file_grouped` is the step: a service is found by its name or stands behind the others.
-/

namespace ApiModel

open Report

/-! ## Filings -/

/-- A path with what it leads to, one of its methods, and a tag of the operation there. -/
structure Filing where
  url : Scalar
  item : Node
  method : String
  tag : String

namespace Filing

/-- The operation in the document. -/
def node (f : Filing) : Node := f.item.field f.method

/-- The name of the service under which an operation is filed. -/
def service (f : Filing) : String := Identifier.serviceName f.tag

/-- The tags of an operation: the texts that its keyword lists, each once, or else one tag for
all operations without. -/
def tagsOf (node : Node) : List String :=
  match (Node.texts ((node.field "tags").members?.getD [])).eraseDups with
  | [] => ["Default"]
  | tags => tags

/-- The filings of a method of a path: none unless an operation stands there. -/
def ofMethod (url : Scalar) (item : Node) (method : String) : List Filing :=
  if (item.field method).isMap then
    (tagsOf (item.field method)).map fun tag => ⟨url, item, method, tag⟩
  else []

/-- The filings of a path. -/
def ofPath (entry : Scalar × Node) : List Filing :=
  ["get", "put", "post", "delete", "options", "head", "patch"].flatMap (ofMethod entry.1 entry.2)

/-- The filings of a document. -/
def ofDocument (document : Node) : List Filing :=
  ((document.field "paths").entries?.getD []).flatMap ofPath

/-- The operation is what is built from a filing, with the parameters of its path. -/
structure Makes (ctx : Context) (f : Filing) (o : Operation) : Prop where
  built : ∃ ps, (Parameters.ofNode ctx (f.item.field "parameters")).outcome = .ok ps ∧
    (Operation.ofNode ctx (.scalar f.url) f.method f.tag f.node ps).outcome = .ok o
  service : o.service = f.service
  method : o.method = f.method.toUpper
  url : f.url = .text o.url

theorem Makes.map_service {ctx : Context} {filings : List Filing} {ops : List Operation}
    (h : List.Forall₂ (Makes ctx) filings ops) :
    ops.map (·.service) = filings.map (·.service) := by
  induction h with
  | nil => rfl
  | cons hfo _ ih => rw [List.map_cons, List.map_cons, hfo.service, ih]

end Filing

/-! ## What is built from a filing -/

namespace Operation

variable {ctx : Context} {url node : Node} {method tag : String} {o : Operation}
  {pathParameters : Parameters}

theorem members?_of_not_truthy {n : Node} (h : n.truthy = false) : n.members?.getD [] = [] := by
  cases n with
  | scalar s => cases s <;> simp_all [Node.members?, Node.truthy, Scalar.truthy]
  | list items => simpa [Node.members?, Node.truthy] using h
  | map entries => simpa [Node.members?, Node.truthy] using h

theorem tags_eq_ok {tags : List String} (h : (Operation.tags node).outcome = .ok tags) :
    tags = Filing.tagsOf node := by
  have hmembers : ∃ members, (node.field "tags").members?.getD [] = members ∧
      tags = if (Node.texts members).eraseDups.isEmpty then [defaultTag]
        else (Node.texts members).eraseDups := by
    simp only [Operation.tags] at h
    split at h
    · obtain ⟨members, hmembers, h⟩ := bind_eq_ok.1 h
      cases h
      exact ⟨members, by rw [ofOption_eq_ok.1 hmembers, Option.getD_some], rfl⟩
    · rename_i hfalse
      cases h
      exact ⟨[], members?_of_not_truthy (by simpa using hfalse), rfl⟩
  obtain ⟨members, hmembers, rfl⟩ := hmembers
  rw [Filing.tagsOf, hmembers]
  cases (Node.texts members).eraseDups <;> rfl

theorem url_of_refuse {node : Node} {id : Option String} {path : String}
    (hpath : (pathText url id).outcome = .ok path)
    (hrefuse : (Model.refuse "Operation" (complaints url node)).outcome = .ok ()) :
    url = .text path := by
  have htext : url.text?.isSome := by
    unfold Model.refuse at hrefuse
    split at hrefuse
    · rename_i hnone
      unfold complaints at hnone
      by_contra hfalse
      simp [hfalse] at hnone
    · cases hrefuse
  cases url with
  | scalar s =>
    cases s with
    | text t =>
      cases hpath
      rfl
    | _ => cases htext
  | _ => cases htext

/-- An operation says under which service, for which method and path it is filed. -/
theorem labels_of_ofNode
    (h : (Operation.ofNode ctx url method tag node pathParameters).outcome = .ok o) :
    o.service = Identifier.serviceName tag ∧
      o.method = String.ofList (Unicode.upper method.toList) ∧ url = .text o.url := by
  obtain ⟨-, h⟩ := unless_eq_ok.1 h
  obtain ⟨own, -, h⟩ := bind_eq_ok.1 h
  obtain ⟨ps, -, h⟩ := bind_eq_ok.1 h
  obtain ⟨responses, -, h⟩ := bind_eq_ok.1 h
  obtain ⟨id, -, h⟩ := bind_eq_ok.1 h
  obtain ⟨path, hpath, h⟩ := bind_eq_ok.1 h
  obtain ⟨_, hrefuse, h⟩ := bind_eq_ok.1 h
  cases h
  exact ⟨rfl, rfl, url_of_refuse hpath hrefuse⟩

end Operation

namespace Service

variable {ctx : Context} {url : Scalar} {item : Node} {ps : Parameters} {method : String}
  {ops : List Operation}

theorem ofMethod_makes (hmethod : method ∈ Operation.methods)
    (hps : (Parameters.ofNode ctx (item.field "parameters")).outcome = .ok ps)
    (h : (ofMethod ctx url item ps method).outcome = .ok ops) :
    List.Forall₂ (Filing.Makes ctx) (Filing.ofMethod url item method) ops := by
  have hupper : ∀ m ∈ Operation.methods, String.ofList (Unicode.upper m.toList) = m.toUpper := by
    decide +kernel
  unfold Filing.ofMethod
  simp only [ofMethod] at h
  split at h
  · rename_i hmap
    obtain ⟨tags, htags, h⟩ := bind_eq_ok.1 h
    rw [if_pos hmap, List.forall₂_map_left_iff, ← Operation.tags_eq_ok htags]
    refine (mapM_eq_ok.1 h).imp fun tag o ho => ?_
    obtain ⟨hservice, hname, hurl⟩ := Operation.labels_of_ofNode ho
    refine ⟨⟨ps, hps, ho⟩, hservice, hname.trans (hupper method hmethod), ?_⟩
    injection hurl
  · rename_i hmap
    cases h
    rw [if_neg hmap]
    exact .nil

theorem ofPath_makes {entry : Scalar × Node} (h : (ofPath ctx entry).outcome = .ok ops) :
    List.Forall₂ (Filing.Makes ctx) (Filing.ofPath entry) ops := by
  obtain ⟨url, item⟩ := entry
  unfold ofPath at h
  split at h
  · obtain ⟨ps, hps, h⟩ := bind_eq_ok.1 h
    obtain ⟨_, -, h⟩ := bind_eq_ok.1 h
    obtain ⟨parts, hparts, rfl⟩ := map_eq_ok.1 h
    exact forall₂_flatten_of_mapM hparts fun method hmethod part hpart =>
      ofMethod_makes hmethod hps hpart
  · rename_i hmap
    cases h
    have hnone : Filing.ofPath (url, item) = [] := by
      refine List.flatMap_eq_nil_iff.2 fun method _ => ?_
      cases item with
      | map entries => exact absurd rfl (hmap entries)
      | _ => rfl
    rw [hnone]
    exact .nil

/-- The services of a document are those of the operations that its filings make. -/
theorem ofDocument_makes {services : List Service}
    (h : (ofDocument ctx).outcome = .ok services) :
    ∃ ops, List.Forall₂ (Filing.Makes ctx) (Filing.ofDocument ctx.document) ops ∧
      services = ofOperations ops := by
  obtain ⟨paths, hpaths, h⟩ := bind_eq_ok.1 h
  obtain ⟨parts, hparts, h⟩ := bind_eq_ok.1 h
  cases h
  refine ⟨parts.flatten, ?_, rfl⟩
  have hentries : (ctx.document.field "paths").entries?.getD [] = paths := by
    have hpaths := ofOption_eq_ok.1 hpaths
    unfold Node.orElse at hpaths
    split at hpaths
    · rw [hpaths, Option.getD_some]
    · -- What says nothing is no mapping or an empty one.
      rename_i hfalse
      cases hpaths
      cases hfield : ctx.document.field "paths" with
      | map entries =>
        rw [hfield] at hfalse
        simpa [Node.entries?, Node.truthy] using hfalse
      | _ => rfl
  rw [Filing.ofDocument, hentries]
  exact forall₂_flatten_of_mapM hparts fun entry _ part hpart => ofPath_makes hpart

/-! ## Grouping -/

/-- The services hold the operations in groups, one for each name in the order in which the names
come, with the imports of its operations. -/
structure Grouped (ops : List Operation) (services : List Service) : Prop where
  names : services.map (·.name) = (ops.map (·.service)).eraseDups
  groups : ∀ s ∈ services, s.operations = ops.filter (·.service = s.name) ∧
    s.imports = s.operations.flatMap (·.imports)

variable {services : List Service}

theorem Grouped.nodup (h : Grouped ops services) : (services.map (·.name)).Nodup := by
  rw [h.names]
  exact nodup_eraseDups _

theorem Grouped.mem_names (h : Grouped ops services) {name : String} :
    name ∈ services.map (·.name) ↔ name ∈ ops.map (·.service) := by
  rw [h.names, List.mem_eraseDups]

/-- One more operation goes to the service of its name, or to a new one. -/
theorem file_grouped (h : Grouped ops services) (o : Operation) :
    Grouped (ops ++ [o]) (file services o) := by
  have hany : services.any (·.name = o.service) = true ↔ o.service ∈ ops.map (·.service) := by
    rw [← h.mem_names, List.any_eq_true, List.mem_map]
    simp
  unfold file
  split_ifs with hold
  · have hmem := hany.1 hold
    refine ⟨?_, fun s hs => ?_⟩
    · rw [List.map_append, List.map_singleton, eraseDups_concat, if_pos hmem, List.append_nil,
        ← h.names, List.map_map]
      refine List.map_congr_left fun s _ => ?_
      dsimp only [Function.comp_apply]
      split_ifs <;> rfl
    · obtain ⟨t, ht, rfl⟩ := List.mem_map.1 hs
      obtain ⟨hoperations, himports⟩ := h.groups t ht
      split_ifs with hname
      · simp [hoperations, himports, hname]
      · refine ⟨?_, himports⟩
        rw [hoperations, List.filter_append, List.filter_cons_of_neg (by simpa using Ne.symm hname),
          List.filter_nil, List.append_nil]
  · have hnew : o.service ∉ ops.map (·.service) := mt hany.2 hold
    refine ⟨?_, fun s hs => ?_⟩
    · rw [List.map_append, List.map_append, List.map_singleton, List.map_singleton,
        eraseDups_concat, if_neg hnew, h.names]
    · rcases List.mem_append.1 hs with hs | hs
      · obtain ⟨hoperations, himports⟩ := h.groups s hs
        have hne : o.service ≠ s.name := fun heq =>
          hnew (heq ▸ h.mem_names.1 (List.mem_map_of_mem hs))
        refine ⟨?_, himports⟩
        rw [hoperations, List.filter_append, List.filter_cons_of_neg (by simpa using hne),
          List.filter_nil, List.append_nil]
      · obtain rfl := List.mem_singleton.1 hs
        have hnone : ops.filter (·.service = o.service) = [] := by
          refine List.filter_eq_nil_iff.2 fun p hp heq => hnew ?_
          rw [← of_decide_eq_true heq]
          exact List.mem_map_of_mem hp
        simp [hnone]

theorem ofOperations_grouped (ops : List Operation) : Grouped ops (ofOperations ops) := by
  induction ops using List.reverseRecOn with
  | nil => exact ⟨rfl, fun s hs => absurd hs List.not_mem_nil⟩
  | append_singleton ops o ih =>
    rw [ofOperations, List.foldl_append]
    exact file_grouped ih o

/-- Every operation is in one group, and as often as it comes. -/
theorem Grouped.perm (h : Grouped ops services) : (services.flatMap (·.operations)).Perm ops := by
  have hgroups : services.flatMap (·.operations) =
      (services.map (·.name)).flatMap fun name => ops.filter (·.service = name) := by
    rw [List.flatMap_map]
    exact List.flatMap_congr fun s hs => (h.groups s hs).1
  rw [hgroups]
  exact perm_flatMap_groups Operation.service h.nodup fun o ho =>
    h.mem_names.2 (List.mem_map_of_mem ho)

/-- An operation of a service is made from some filing. -/
theorem Grouped.made {filings : List Filing} (h : Grouped ops services)
    (hops : List.Forall₂ (Filing.Makes ctx) filings ops) {s : Service} (hs : s ∈ services)
    {o : Operation} (ho : o ∈ s.operations) : ∃ f : Filing, f.Makes ctx o := by
  rw [(h.groups s hs).1] at ho
  obtain ⟨f, -, hmakes⟩ := exists_left_of_mem hops (List.mem_of_mem_filter ho)
  exact ⟨f, hmakes⟩

end Service

namespace Client

/-- The models and services of a client are those of its document. -/
theorem ofDocument_eq_ok {document : Node} {c : Client}
    (h : (Client.ofDocument document).outcome = .ok c) :
    ∃ ctx, (Context.ofDocument document).outcome = .ok ctx ∧
      (Schema.definitions ctx).outcome = .ok c.models ∧
      (Service.ofDocument ctx).outcome = .ok c.services := by
  obtain ⟨ctx, hctx, h⟩ := bind_eq_ok.1 h
  obtain ⟨version, -, h⟩ := bind_eq_ok.1 h
  obtain ⟨server, -, h⟩ := bind_eq_ok.1 h
  obtain ⟨models, hmodels, h⟩ := bind_eq_ok.1 h
  obtain ⟨services, hservices, h⟩ := bind_eq_ok.1 h
  cases h
  exact ⟨ctx, hctx, hmodels, hservices⟩

theorem document_of_context {document : Node} {ctx : Context}
    (h : (Context.ofDocument document).outcome = .ok ctx) : ctx.document = document := by
  obtain ⟨d, -, h⟩ := bind_eq_ok.1 h
  obtain ⟨index, -, h⟩ := bind_eq_ok.1 h
  cases h
  rfl

/-- The services of a client are those of the operations that the filings of its document make. -/
theorem services_of_ofDocument {document : Node} {c : Client}
    (h : (Client.ofDocument document).outcome = .ok c) :
    ∃ ctx ops, (Context.ofDocument document).outcome = .ok ctx ∧
      List.Forall₂ (Filing.Makes ctx) (Filing.ofDocument document) ops ∧
      Service.Grouped ops c.services := by
  obtain ⟨ctx, hctx, -, hservices⟩ := ofDocument_eq_ok h
  obtain ⟨ops, hops, hgrouped⟩ := Service.ofDocument_makes hservices
  rw [document_of_context hctx] at hops
  rw [hgrouped]
  exact ⟨ctx, ops, hctx, hops, Service.ofOperations_grouped ops⟩

/-- The services of a document have different names, in the order in which its filings first have
them. The operations of a service are what is built from the filings of its name, in order, and its
imports are those of its operations. All services together have one operation for each filing. -/
theorem services_of_document {document : Node} {c : Client}
    (h : (Client.ofDocument document).outcome = .ok c) :
    ∃ ctx ops, (Context.ofDocument document).outcome = .ok ctx ∧
      List.Forall₂ (Filing.Makes ctx) (Filing.ofDocument document) ops ∧
      (c.services.flatMap (·.operations)).Perm ops ∧
      (c.services.map (·.name)).Nodup ∧
      c.services.map (·.name) = ((Filing.ofDocument document).map (·.service)).eraseDups ∧
      ∀ s ∈ c.services,
        List.Forall₂ (Filing.Makes ctx)
          ((Filing.ofDocument document).filter (·.service = s.name)) s.operations ∧
        s.imports = s.operations.flatMap (·.imports) := by
  obtain ⟨ctx, ops, hctx, hops, hgrouped⟩ := services_of_ofDocument h
  have hnames := hgrouped.names
  rw [Filing.Makes.map_service hops] at hnames
  refine ⟨ctx, ops, hctx, hops, hgrouped.perm, hgrouped.nodup, hnames,
    fun s hs => ⟨?_, (hgrouped.groups s hs).2⟩⟩
  rw [(hgrouped.groups s hs).1]
  refine List.rel_filter (fun f o hfo => ?_) hops
  simp [hfo.service]

/-- Pets are listed for their owners too, and added by an operation without tags. -/
def kennel : Node :=
  let operation tags := Node.record [("tags", .list (tags.map Node.text))]
  Node.record [("swagger", Node.text "2.0"), ("paths", Node.record [
    ("/pets", Node.record [("post", operation []), ("get", operation ["pet list", "owner"])]),
    ("/owners", Node.record [("get", operation ["owner", "owner"])])])]

/-- The four filings of `kennel` make the operations of three services. -/
theorem services_of_kennel :
    ∃ c, (Client.ofDocument kennel).outcome = .ok c ∧
      c.services.map (·.name) = ["PetList", "Owner", "Default"] ∧
      c.services.map (fun s => s.operations.map fun o => (o.method, o.url)) =
        [[("GET", "/pets")], [("GET", "/pets"), ("GET", "/owners")], [("POST", "/pets")]] ∧
      ∃ ctx ops, (Context.ofDocument kennel).outcome = .ok ctx ∧ ops.length = 4 ∧
        List.Forall₂ (Filing.Makes ctx) (Filing.ofDocument kennel) ops ∧
        (c.services.flatMap (·.operations)).Perm ops := by
  obtain ⟨c, hc, hnames, hoperations⟩ : ∃ c, (Client.ofDocument kennel).outcome = .ok c ∧
      c.services.map (·.name) = ["PetList", "Owner", "Default"] ∧
      c.services.map (fun s => s.operations.map fun o => (o.method, o.url)) =
        [[("GET", "/pets")], [("GET", "/pets"), ("GET", "/owners")], [("POST", "/pets")]] :=
    ⟨_, rfl, rfl, rfl⟩
  obtain ⟨ctx, ops, hctx, hops, hperm, -⟩ := services_of_document hc
  exact ⟨c, hc, hnames, hoperations, ctx, ops, hctx, hops.length_eq.symm, hops, hperm⟩

end Client

end ApiModel
