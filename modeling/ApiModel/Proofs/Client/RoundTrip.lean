import ApiModel.Proofs.Model.RoundTrip

/-!
# Clients that are read back

**Theorem (`ofNode_toNode`).** A client that a mapping describes is described by the mapping as
which it is written too, with everything in it: services, operations, parameters, responses and
models.

It is shown record by record that what has been read is read back: `RoundTrips read write`. A record
whose fields are texts, flags, integers and records of that sort is one itself. What an operation
says beside its fields, whether a parameter is required at a place, is shown and not read.
-/

namespace ApiModel

namespace Validation

open Model

/-- What has been read without complaint is read back from its written form. -/
def RoundTrips {α : Type} (read : Node → Checked α) (write : α → Node) : Prop :=
  ∀ n a, read n = pure a → read (write a) = pure a

variable {α : Type} {read : Node → Checked α} {write : α → Node}

/-- A list that may be missing is read back. -/
theorem RoundTrips.list {n : Node} {name : String} {as : List α} (h : RoundTrips read write)
    (has : optional n name [] (listOf read) = pure as) :
    listOf read (.list (as.map write)) = pure as := by
  rcases optional_eq_pure has with rfl | ⟨v, hv⟩
  · rfl
  · refine listOf_map fun a ha => ?_
    obtain ⟨w, hw⟩ := listOf_eq_pure hv a ha
    exact h w a hw

/-- A value that may be missing is read back. -/
theorem RoundTrips.option {n : Node} {name : String} {o : Option α} (h : RoundTrips read write)
    (ho : optional n name none (nullable read) = pure o) (hnull : ∀ a, (write a).isNull = false) :
    nullable read ((o.map write).getD .null) = pure o := by
  rcases optional_eq_pure ho with rfl | ⟨v, hv⟩
  · rfl
  · refine nullable_getD (fun a ha => ?_) fun a _ => hnull a
    obtain ⟨w, hw⟩ := nullable_eq_pure hv a ha
    exact h w a hw

/-! ## Parameters and responses -/

theorem parameter_roundTrips : RoundTrips parameter Parameter.toNode := by
  intro n p h
  obtain ⟨-, h⟩ := mapping_eq_pure.1 h
  obtain ⟨m, hm, h⟩ := Checked.bind_eq_pure.1 h
  simp only [Checked.bind_eq_pure] at h
  obtain ⟨place, -, prop, -, mediaType, -, hp⟩ := h
  obtain rfl := Checked.pure_eq_pure.1 hp
  refine mapping_eq_pure.2 ⟨rfl, ?_⟩
  generalize hwritten : Parameter.toNode _ = written
  obtain ⟨hfields, hothers⟩ : written.Shows m.fields ∧ written.Shows [("in", .text place.label),
      ("prop", .text prop), ("mediaType", .ofText? mediaType)] :=
    hwritten ▸ shows_beside m (by simp only [List.map_cons, List.map_nil]; decide)
  simp only [Node.Shows, List.forall_mem_cons] at hothers
  obtain ⟨hplace, hprop, hmediaType, -⟩ := hothers
  have hreadPlace : Checked.ofOption (ParameterPlace.ofNode? (.text place.label)) = pure place := by
    show Checked.ofOption (ParameterPlace.ofLabel? place.label) = pure place
    rw [ParameterPlace.ofLabel?_label]
    rfl
  simp only [modelFields_model hm hfields, required, optional, field?, hplace, hprop, hmediaType,
    Option.some_or, hreadPlace, text_text, nullable_text, pure_bind]

theorem response_roundTrips : RoundTrips response Response.toNode := by
  intro n r h
  obtain ⟨-, h⟩ := mapping_eq_pure.1 h
  obtain ⟨m, hm, h⟩ := Checked.bind_eq_pure.1 h
  simp only [Checked.bind_eq_pure] at h
  obtain ⟨place, -, code, -, hr⟩ := h
  obtain rfl := Checked.pure_eq_pure.1 hr
  refine mapping_eq_pure.2 ⟨rfl, ?_⟩
  generalize hwritten : Response.toNode _ = written
  obtain ⟨hfields, hothers⟩ : written.Shows m.fields ∧
      written.Shows [("in", .text place.label), ("code", .int code)] :=
    hwritten ▸ shows_beside m (by simp only [List.map_cons, List.map_nil]; decide)
  simp only [Node.Shows, List.forall_mem_cons] at hothers
  obtain ⟨hplace, hcode, -⟩ := hothers
  have hreadPlace : Checked.ofOption ((Node.text place.label).text?.bind ResponsePlace.ofLabel?) =
      pure place := by
    show Checked.ofOption (ResponsePlace.ofLabel? place.label) = pure place
    rw [ResponsePlace.ofLabel?_label]
    rfl
  simp only [modelFields_model hm hfields, required, optional, field?, hplace, hcode,
    Option.some_or, hreadPlace, integer_int, pure_bind]

/-! ## Operations -/

theorem operationError_roundTrips : RoundTrips operationError OperationError.toNode := by
  intro _ e _
  have hshows : e.toNode.Shows _ :=
    Node.shows_record _ (by simp only [List.map_cons, List.map_nil]; decide)
  simp only [Node.Shows, List.forall_mem_cons] at hshows
  obtain ⟨hcode, hdescription, -⟩ := hshows
  refine mapping_eq_pure.2 ⟨rfl, ?_⟩
  simp only [required, field?, hcode, hdescription, Option.some_or,
    integer_int, text_text, pure_bind]

/-- Sorted parameters are read back from every mapping that shows them. -/
theorem parametersFields_of_shows {n n' : Node} {ps : Parameters}
    (h : parametersFields n = pure ps) (hshows : n'.Shows ps.fields) :
    parametersFields n' = pure ps := by
  simp only [parametersFields, Checked.bind_eq_pure] at h
  obtain ⟨imports, -, all, hall, path, hpath, query, hquery, form, hform, cookie, hcookie, header,
    hheader, body, hbody, hps⟩ := h
  obtain rfl := Checked.pure_eq_pure.1 hps
  simp only [Parameters.fields, Node.Shows, List.forall_mem_cons] at hshows
  obtain ⟨himports', hall', hpath', hquery', hform', hcookie', hheader', hbody', -⟩ := hshows
  simp only [parametersFields, optional, field?, himports', hall', hpath', hquery', hform',
    hcookie', hheader', hbody', Option.some_or, Parameters.listNode, listOf_texts, pure_bind,
    parameter_roundTrips.list hall, parameter_roundTrips.list hpath,
    parameter_roundTrips.list hquery, parameter_roundTrips.list hform,
    parameter_roundTrips.list hcookie, parameter_roundTrips.list hheader,
    parameter_roundTrips.option hbody fun _ => rfl]

theorem operation_roundTrips : RoundTrips operation Operation.toNode := by
  intro n o h
  obtain ⟨-, h⟩ := mapping_eq_pure.1 h
  obtain ⟨ps, hps, h⟩ := Checked.bind_eq_pure.1 h
  simp only [Checked.bind_eq_pure] at h
  obtain ⟨service, -, name, -, summary, -, description, -, deprecated, -, method, -, url, -,
    errors, herrors, results, hresults, responseHeader, -, ho⟩ := h
  obtain rfl := Checked.pure_eq_pure.1 ho
  refine mapping_eq_pure.2 ⟨rfl, ?_⟩
  generalize hwritten : Operation.toNode _ = written
  obtain ⟨hfields, hothers⟩ : written.Shows ps.fields ∧ written.Shows _ := by
    rw [← Node.shows_append, ← hwritten]
    refine Node.shows_record _ ?_
    simp only [Parameters.fields, List.cons_append, List.nil_append, List.map_cons, List.map_nil]
    decide
  simp only [Node.Shows, List.forall_mem_cons] at hothers
  obtain ⟨hservice, hname, hsummary, hdescription, hdeprecated, hmethod, hurl, herrors', hresults',
    hresponseHeader, -⟩ := hothers
  simp only [parametersFields_of_shows hps hfields, required, optional, field?, hservice, hname,
    hsummary, hdescription, hdeprecated, hmethod, hurl, herrors', hresults', hresponseHeader,
    Option.some_or, text_text, flag_bool, nullable_text, operationError_roundTrips.list herrors,
    response_roundTrips.list hresults, pure_bind]

/-! ## Clients -/

theorem service_roundTrips : RoundTrips service Service.toNode := by
  intro n s h
  obtain ⟨-, h⟩ := mapping_eq_pure.1 h
  simp only [Checked.bind_eq_pure] at h
  obtain ⟨name, -, operations, hoperations, imports, -, hs⟩ := h
  obtain rfl := Checked.pure_eq_pure.1 hs
  refine mapping_eq_pure.2 ⟨rfl, ?_⟩
  have hshows : (Service.toNode { name, operations, imports }).Shows _ :=
    Node.shows_record _ (by simp only [List.map_cons, List.map_nil]; decide)
  generalize Service.toNode _ = written at hshows ⊢
  simp only [Node.Shows, List.forall_mem_cons] at hshows
  obtain ⟨hname, hoperations', himports, -⟩ := hshows
  simp only [required, optional, field?, hname, hoperations', himports, Option.some_or, text_text,
    listOf_texts, operation_roundTrips.list hoperations, pure_bind]

theorem client_roundTrips : RoundTrips client Client.toNode := by
  intro n c h
  obtain ⟨-, h⟩ := mapping_eq_pure.1 h
  simp only [Checked.bind_eq_pure] at h
  obtain ⟨version, -, server, -, models, hmodels, services, hservices, hc⟩ := h
  obtain rfl := Checked.pure_eq_pure.1 hc
  have hmodel : RoundTrips model Model.toNode := fun _ _ hm => model_toNode hm
  refine mapping_eq_pure.2 ⟨rfl, ?_⟩
  have hshows : (Client.toNode { version, server, models, services }).Shows _ :=
    Node.shows_record _ (by simp only [List.map_cons, List.map_nil]; decide)
  generalize Client.toNode _ = written at hshows ⊢
  simp only [Node.Shows, List.forall_mem_cons] at hshows
  obtain ⟨hversion, hserver, hmodels', hservices', -⟩ := hshows
  simp only [required, optional, field?, hversion, hserver, hmodels', hservices', Option.some_or,
    text_text, hmodel.list hmodels, service_roundTrips.list hservices, pure_bind]

theorem accept_eq_ok {α : Type} {record : String} {read : Node → Checked α} {n : Node} {a : α} :
    accept record read n = .ok a ↔ read n = pure a := by
  rw [← Checked.result_eq_ok]
  unfold accept
  cases (read n).result <;> simp [Except.mapError]

end Validation

namespace Client

/-- A client that a mapping describes is described by its written form, and is the same in all its
services, operations, parameters, responses and models. A double counts as the same if it is the
same double, so this is so of every one, finite or not. -/
theorem ofNode_toNode {n : Node} {c : Client} (h : ofNode n = .ok c) : ofNode c.toNode = .ok c :=
  Validation.accept_eq_ok.2 (Validation.client_roundTrips n c (Validation.accept_eq_ok.1 h))

/-- A library as somebody writes it by hand: under keys in snake case, with numbers and flags as
words, with a key that nobody knows, and with a flag that is not so. -/
def library : Node :=
  let author := Node.record [("name", .text "author"), ("is_required", .text "yes")]
  let book := Node.record [("name", .text "Book"), ("is_definition", .int 1),
    ("maxLength", .text " 12 "), ("shelf", .text "B"), ("properties", .list [author])]
  let limit := Node.record [("name", .text "limit"), ("in_", .text "query")]
  let list := Node.record [("service", .text "Books"), ("name", .text "list"),
    ("method", .text "GET"), ("path", .text "/books"), ("parameters", .list [limit]),
    ("parametersQueryRequired", .bool true),
    ("results", .list [.record [("code", .text "200"), ("link", book)]])]
  .record [("version", .text "1"), ("server", .text ""), ("models", .list [book]),
    ("services", .list [.record [("name", .text "Books"), ("operations", .list [list])]])]

/-- The library is read, and what it is written as is read as the same. -/
theorem ofNode_toNode_library :
    ∃ c, ofNode library = .ok c ∧ ofNode c.toNode = .ok c ∧
      c.models.map (fun m => (m.isDefinition, m.constraints)) = [(true, [(.maxLength, .int 12)])] ∧
      (c.services.flatMap (·.operations)).map (fun o => o.results.map (·.code)) = [[200]] := by
  obtain ⟨c, hc⟩ : ∃ c, ofNode library = .ok c := ⟨_, rfl⟩
  refine ⟨c, hc, ofNode_toNode hc, ?_⟩
  cases hc
  exact ⟨rfl, rfl⟩

end Client

end ApiModel
