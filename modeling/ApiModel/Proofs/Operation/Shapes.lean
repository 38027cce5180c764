import ApiModel.Proofs.Operation.Results

/-!
# Results and the shapes of responses

Two responses are one result if they agree in their types, whatever their kinds: the kind of a
model is not compared, and a link only with another link. So a result may stand for a response of
another shape.

**Theorem (`exists_result_of_response`).** Every successful response has the types of a result, and
where the dialect says so its code. The result has the shape of the response exactly if the kinds
along their links are the same.

**Theorem (`not_all_shapes_kept`).** A list of names stands for a dictionary of names and for a
name.
-/

namespace ApiModel

/-! ## Shapes -/

/-- The kinds of a model, of its link, of the link of that, and so on. -/
def Model.kinds : Model → List ModelKind
  | { kind, link := some l, .. } => kind :: kinds l
  | { kind, .. } => [kind]

namespace Response

open Model Report

/-- The models have one descriptor, and so have their links, as far as both have links. -/
inductive SameTypes : Model → Model → Prop
  | mk {a b : Model} : a.descriptor = b.descriptor →
      (∀ la lb, a.link = some la → b.link = some lb → SameTypes la lb) → SameTypes a b

/-- The models are of one kind and have one descriptor, and neither has a link or both have links
of one shape. -/
inductive SameShape : Model → Model → Prop
  | unlinked {a b : Model} : a.kind = b.kind → a.descriptor = b.descriptor → a.link = none →
      b.link = none → SameShape a b
  | linked {a b la lb : Model} : a.kind = b.kind → a.descriptor = b.descriptor →
      a.link = some la → b.link = some lb → SameShape la lb → SameShape a b

variable {a b : Model}

theorem kinds_of_link {l : Model} (h : a.link = some l) : a.kinds = a.kind :: l.kinds := by
  cases a
  subst h
  rw [kinds]

theorem kinds_of_unlinked (h : a.link = none) : a.kinds = [a.kind] := by
  rcases a with ⟨_, _, _, l, _⟩
  obtain rfl : l = none := h
  rw [kinds]
  simp

theorem kinds_ne_nil (a : Model) : a.kinds ≠ [] := by
  cases h : a.link with
  | some l => simp [kinds_of_link h]
  | none => simp [kinds_of_unlinked h]

theorem SameShape.kind (h : SameShape a b) : a.kind = b.kind := by
  cases h <;> assumption

/-- Models of one descriptor that have the types of their links have links of one descriptor. -/
theorem sameTypes_of_descriptor (ha : a.Coherent) (hb : b.Coherent)
    (h : a.descriptor = b.descriptor) : SameTypes a b := by
  induction ha generalizing b with
  | unlinked hlink =>
    refine .mk h fun la lb hla => ?_
    rw [hlink] at hla
    cases hla
  | @linked a l hlink hsame _ ih =>
    refine .mk h fun la lb hla hlb => ?_
    obtain rfl := Option.some.inj (hlink.symm.trans hla)
    cases hb with
    | unlinked hnone =>
      rw [hnone] at hlb
      cases hlb
    | linked hlink' hsame' hcoherent =>
      obtain rfl := Option.some.inj (hlink'.symm.trans hlb)
      exact ih hcoherent (hsame.symm.trans (h.trans hsame'))

/-- Models of one descriptor that have the types of their links differ in shape only if they differ
in the kinds along the links. -/
theorem sameShape_iff_kinds (ha : a.Coherent) (hb : b.Coherent)
    (h : a.descriptor = b.descriptor) : SameShape a b ↔ a.kinds = b.kinds := by
  constructor
  · intro hshape
    clear h ha hb
    induction hshape with
    | unlinked hkind _ hla hlb => rw [kinds_of_unlinked hla, kinds_of_unlinked hlb, hkind]
    | linked hkind _ hla hlb _ ih => rw [kinds_of_link hla, kinds_of_link hlb, hkind, ih]
  · intro hkinds
    induction ha generalizing b with
    | unlinked hla =>
      rw [kinds_of_unlinked hla] at hkinds
      cases hb with
      | unlinked hlb =>
        rw [kinds_of_unlinked hlb] at hkinds
        exact .unlinked (List.cons.inj hkinds).1 h hla hlb
      | linked hlb =>
        rw [kinds_of_link hlb] at hkinds
        exact absurd (List.cons.inj hkinds).2.symm (kinds_ne_nil _)
    | linked hla hsame _ ih =>
      rw [kinds_of_link hla] at hkinds
      cases hb with
      | unlinked hlb =>
        rw [kinds_of_unlinked hlb] at hkinds
        exact absurd (List.cons.inj hkinds).2 (kinds_ne_nil _)
      | linked hlb hsame' hcoherent =>
        rw [kinds_of_link hlb] at hkinds
        obtain ⟨hkind, hrest⟩ := List.cons.inj hkinds
        exact .linked hkind h hla hlb (ih hcoherent (hsame.symm.trans (h.trans hsame')) hrest)

/-! ## What a result stands for -/

variable {ctx : Context} {node : Node} {rs : List Response} {r : Response}

/-- The results of responses of which some are successful are those that come first of their
types. -/
theorem results_eq_firstOfKey (h : (ofNodes ctx node).outcome = .ok rs)
    (hne : rs.filter (Succeeds ·) ≠ []) :
    results ctx.dialect rs = firstOfKey (resultKey ctx.dialect) (rs.filter (Succeeds ·)) := by
  have hfilter : rs.filter hasResult = rs.filter (Succeeds ·) :=
    List.filter_congr fun r _ => hasResult_eq r
  have hcoherent : ∀ r ∈ rs.filter (Succeeds ·), r.Coherent := fun r hr =>
    (isBuilt_of_ofNodes h (List.mem_of_mem_filter hr)).coherent
  rw [results, hfilter, ← distinct_eq_firstOfKey ctx.dialect hcoherent]
  split
  · rename_i hnil
    exact absurd hnil hne
  · rfl

/-- A successful response is a result, or its types, and where the dialect tells these apart its
code, are those of a result. The two have one shape exactly if the kinds along their links are the
same. -/
theorem exists_result_of_response (h : (ofNodes ctx node).outcome = .ok rs) (hr : r ∈ rs)
    (hsucceeds : Succeeds r) :
    ∃ k ∈ results ctx.dialect rs, SameTypes k.toModel r.toModel ∧
      (ctx.dialect = .v3 → k.code = r.code) ∧
      (SameShape k.toModel r.toModel ↔ k.kinds = r.kinds) := by
  have hmem : r ∈ rs.filter (Succeeds ·) := List.mem_filter.2 ⟨hr, by simpa using hsucceeds⟩
  have hkey : resultKey ctx.dialect r ∈
      (firstOfKey (resultKey ctx.dialect) (rs.filter (Succeeds ·))).map (resultKey ctx.dialect) :=
    (mem_map_firstOfKey _).2 (List.mem_map_of_mem hmem)
  obtain ⟨k, hk, hkr⟩ := List.mem_map.1 hkey
  have hdescriptor : k.descriptor = r.descriptor := congrArg Prod.fst hkr
  have hkrs : k ∈ rs := List.mem_of_mem_filter (mem_of_mem_firstOfKey _ hk)
  have hkc : k.Coherent := (isBuilt_of_ofNodes h hkrs).coherent
  have hrc : r.Coherent := (isBuilt_of_ofNodes h hr).coherent
  refine ⟨k, ?_, sameTypes_of_descriptor hkc hrc hdescriptor, fun hd => ?_,
    sameShape_iff_kinds hkc hrc hdescriptor⟩
  · rw [results_eq_firstOfKey h (List.ne_nil_of_mem hmem)]
    exact hk
  · have hcode := congrArg Prod.snd hkr
    simpa [resultKey, hd, Dialect.tellsCodesApart] using hcode

/-- The names of `naming` that come as a list with code 201 are no result, but their type is that of
the name with code 200. -/
theorem exists_result_of_response_naming :
    ∃ rs r, (ofNodes { document := .map [], dialect := .v2 } naming).outcome = .ok rs ∧ r ∈ rs ∧
      Succeeds r ∧ r.code = 201 ∧ (results .v2 rs).map (·.code) = [200] ∧
      ∃ k ∈ results .v2 rs, SameTypes k.toModel r.toModel ∧
        (SameShape k.toModel r.toModel ↔ k.kinds = r.kinds) := by
  obtain ⟨rs, r, hrs, hr, hcode, hresults⟩ : ∃ rs r,
      (ofNodes { document := .map [], dialect := .v2 } naming).outcome = .ok rs ∧
      rs[2]? = some r ∧ r.code = 201 ∧ (results .v2 rs).map (·.code) = [200] :=
    ⟨_, _, rfl, rfl, rfl, rfl⟩
  have hsucceeds : Succeeds r := by
    unfold Succeeds
    omega
  have hmem : r ∈ rs := List.mem_of_getElem? hr
  obtain ⟨k, hk, htypes, -, hshape⟩ := exists_result_of_response hrs hmem hsucceeds
  exact ⟨rs, r, hrs, hmem, hsucceeds, hcode, hresults, k, hk, htypes, hshape⟩

/-- A successful response that is no result is related to a result, which has its code where the
dialect tells codes apart. -/
def StandFor (R : Model → Model → Prop) : Prop :=
  ∀ ctx node rs, (ofNodes ctx node).outcome = .ok rs → ∀ r ∈ rs, Succeeds r →
    r ∉ results ctx.dialect rs →
      ∃ k ∈ results ctx.dialect rs, R k.toModel r.toModel ∧ (ctx.dialect = .v3 → k.code = r.code)

theorem not_standFor {R : Model → Model → Prop} (h : (ofNodes ctx node).outcome = .ok rs)
    (hr : r ∈ rs) (hsucceeds : Succeeds r) (hout : r ∉ results ctx.dialect rs)
    (hR : ∀ k ∈ results ctx.dialect rs, ¬ R k.toModel r.toModel) : ¬ StandFor R := by
  intro hall
  obtain ⟨k, hk, hkr, -⟩ := hall ctx node rs h r hr hsucceeds hout
  exact hR k hk hkr

/-- An operation that answers with a list of names, or with a dictionary of names, or with a
name. -/
def directory : Node :=
  let answer schema := Node.record [("schema", Node.record schema)]
  let name := [("type", Node.text "string")]
  Node.record [
    ("200", answer [("type", Node.text "array"), ("items", Node.record name)]),
    ("201", answer [("type", Node.text "object"), ("additionalProperties", Node.record name)]),
    ("202", answer name)]

/-- The only result of `directory` is the list. It stands for the dictionary, which is of another
kind, and for the name, which has no link. -/
theorem not_all_shapes_kept :
    ¬ StandFor SameShape ∧ ¬ StandFor (fun k r => k.kind = r.kind) ∧
      ¬ StandFor (fun k r => k.link.isSome = r.link.isSome) := by
  obtain ⟨rs, dictionary, name, hrs, hdictionary, hname, hcode, hcode', hkind, hlink, hresults⟩ :
      ∃ rs dictionary name,
        (ofNodes { document := .map [], dialect := .v2 } directory).outcome = .ok rs ∧
        rs[1]? = some dictionary ∧ rs[2]? = some name ∧ dictionary.code = 201 ∧
        name.code = 202 ∧ dictionary.kind = .dictionary ∧ name.link.isSome = false ∧
        (results .v2 rs).map (fun k => (k.code, k.kind, k.link.isSome)) = [(200, .array, true)] :=
    ⟨_, _, _, rfl, rfl, rfl, rfl, rfl, rfl, rfl, rfl⟩
  have hlist : ∀ k ∈ results .v2 rs, k.code = 200 ∧ k.kind = .array ∧ k.link.isSome = true := by
    intro k hk
    have hmem : (k.code, k.kind, k.link.isSome) ∈ [((200 : Int), ModelKind.array, true)] :=
      hresults ▸ List.mem_map_of_mem hk
    simpa using hmem
  have hkinds {R : Model → Model → Prop} (hR : ∀ a b, R a b → a.kind = b.kind) :
      ¬ StandFor R := by
    refine not_standFor hrs (List.mem_of_getElem? hdictionary) ?_ (fun hmem => ?_)
      fun k hk hkr => ?_
    · unfold Succeeds
      omega
    · cases hcode.symm.trans (hlist dictionary hmem).1
    · cases (hlist k hk).2.1.symm.trans ((hR _ _ hkr).trans hkind)
  refine ⟨hkinds fun _ _ => SameShape.kind, hkinds fun _ _ => id, ?_⟩
  refine not_standFor hrs (List.mem_of_getElem? hname) ?_ (fun hmem => ?_) fun k hk hkr => ?_
  · unfold Succeeds
    omega
  · cases hcode'.symm.trans (hlist name hmem).1
  · cases (hlist k hk).2.2.symm.trans (hkr.trans hlink)

end Response

end ApiModel
