import ApiModel.Operation.Response
import ApiModel.Proofs.Schema.Coherence
import Mathlib.Data.List.Induction
import Mathlib.Data.List.Nodup
import Mathlib.Data.List.Perm.Basic

/-!
# Results of an operation

The responses of an operation are sorted by their codes, and of the successful ones those are its
results that are not as good as one that is kept already. Two models are compared by their types,
and so are their links, but only where both models have one; of any two models that is no
equivalence.

**Theorem (`sameType_eq_true_iff`).** A built model has the type of its link, so two of them are
compared by their types alone.

**Theorem (`results_of_responses`).** The results of an operation are the successful responses that
agree in type, and where the dialect says so in code, with none before them.
-/

namespace ApiModel

namespace Response

open Model Report

/-! ## Comparing types -/

theorem sameType_of_links {a b la lb : Model} (ha : a.link = some la) (hb : b.link = some lb) :
    sameType a b = (a.type == b.type && a.base == b.base && a.template == b.template &&
      sameType la lb) := by
  cases a
  cases b
  subst ha hb
  rw [sameType]

theorem sameType_of_unlinked {a b : Model} (h : a.link = none ∨ b.link = none) :
    sameType a b = (a.type == b.type && a.base == b.base && a.template == b.template) := by
  rcases a with ⟨_, _, _, la, _⟩
  rcases b with ⟨_, _, _, lb, _⟩
  rcases h with h | h
  · obtain rfl : la = none := h
    rw [sameType, Bool.and_true]
    simp
  · obtain rfl : lb = none := h
    rw [sameType, Bool.and_true]
    simp

theorem descriptor_eq_iff {a b : Model} :
    a.descriptor = b.descriptor ↔
      (a.type == b.type && a.base == b.base && a.template == b.template) = true := by
  simp [TypeExpr.descriptor, and_assoc]

/-- Models that have the types of their links are compared by their types alone. -/
theorem sameType_eq_true_iff {a b : Model} (ha : a.Coherent) (hb : b.Coherent) :
    sameType a b = true ↔ a.descriptor = b.descriptor := by
  induction ha generalizing b with
  | unlinked hlink => rw [sameType_of_unlinked (.inl hlink), descriptor_eq_iff]
  | @linked a la hlink hsame _ ih =>
    cases hb with
    | unlinked hlink' => rw [sameType_of_unlinked (.inr hlink'), descriptor_eq_iff]
    | @linked _ lb hlink' hsame' hcoherent =>
      rw [sameType_of_links hlink hlink', Bool.and_eq_true, ih hcoherent, ← descriptor_eq_iff,
        ← hsame, ← hsame', and_self]

/-! ## Built responses -/

/-- The response of some response object. -/
def IsBuilt (ctx : Context) (r : Response) : Prop :=
  ∃ node code, (ofNode ctx node code).outcome = .ok r

theorem coherent_of_core {m l : Model} (h : m.core = l.core) (hl : l.Coherent) : m.Coherent := by
  have hlink : m.link = l.link := (Schema.link_of_core h :)
  cases hl with
  | unlinked hnone => exact .unlinked (hlink.trans hnone)
  | linked hsome hsame hcoherent =>
    exact .linked (hlink.trans hsome) ((Schema.descriptor_of_core h :).trans hsame) hcoherent

theorem core_of_settle {p : Draft} {r : Response} (h : p.settle.outcome = .ok r) :
    r.core = p.core := by
  obtain ⟨_, -, h⟩ := bind_eq_ok.1 h
  cases h
  rfl

/-- A response without a link of its own is as coherent as any model without one. -/
theorem coherent_of_settle {p : Draft} {r : Response} (h : p.settle.outcome = .ok r)
    (hp : p.Coherent) : r.Coherent :=
  coherent_of_core (core_of_settle h) hp

theorem coherent_ofSchema {ctx : Context} {schema : Node} {p : Draft} {r : Response}
    (hp : p.link = none) (h : (ofSchema ctx schema p).outcome = .ok r) : r.Coherent := by
  obtain ⟨target, -, h⟩ := bind_eq_ok.1 h
  obtain ⟨-, h⟩ := unless_eq_ok.1 h
  split at h
  · exact coherent_of_settle h (.unlinked hp)
  · obtain ⟨m, hm, h⟩ := bind_eq_ok.1 h
    have hcore : (p.ofModel target m).core = m.core := rfl
    exact coherent_of_settle h (coherent_of_core hcore (Schema.coherent_model hm))

theorem coherent_ofHeaders {headers : Node} {p : Draft} {r : Response} (hp : p.link = none)
    (h : (ofHeaders headers p).outcome = .ok r) : r.Coherent := by
  unfold ofHeaders at h
  split at h
  · exact coherent_of_settle h (.unlinked hp)
  · exact coherent_of_settle h (.unlinked hp)

/-- A built response has the type of its link. -/
theorem IsBuilt.coherent {ctx : Context} {r : Response} (h : IsBuilt ctx r) : r.Coherent := by
  obtain ⟨node, code, h⟩ := h
  obtain ⟨schema, -, h⟩ := bind_eq_ok.1 h
  split at h
  · exact coherent_ofSchema rfl h
  · exact coherent_ofHeaders rfl h

theorem isBuilt_of_entry {ctx : Context} {e : Scalar × Node} {r : Response}
    (h : (entry ctx e).outcome = .ok (some r)) : IsBuilt ctx r := by
  obtain ⟨code, -, h⟩ := bind_eq_ok.1 h
  split at h
  · obtain ⟨_, -, h⟩ := bind_eq_ok.1 h
    cases h
  · obtain ⟨node, -, h⟩ := bind_eq_ok.1 h
    obtain ⟨r', hr', h⟩ := bind_eq_ok.1 h
    cases h
    exact ⟨_, _, hr'⟩

/-! ## Responses in the order of their codes -/

/-- Responses are sorted by their codes, and those of one code are in the order in which they
were given. -/
structure InCodeOrder (given sorted : List Response) : Prop where
  ascending : sorted.Pairwise (·.code ≤ ·.code)
  stable : ∀ c, sorted.filter (·.code = c) = given.filter (·.code = c)

theorem mem_insertByCode {r s : Response} {rs : List Response} :
    s ∈ insertByCode r rs ↔ s = r ∨ s ∈ rs := by
  induction rs with
  | nil => rw [insertByCode, List.mem_singleton, or_iff_left List.not_mem_nil]
  | cons t rest ih =>
    rw [insertByCode]
    split_ifs with hlt
    · exact List.mem_cons
    · rw [List.mem_cons, ih, List.mem_cons]
      exact or_left_comm

theorem ascending_insertByCode {r : Response} {rs : List Response}
    (h : rs.Pairwise (·.code ≤ ·.code)) : (insertByCode r rs).Pairwise (·.code ≤ ·.code) := by
  induction rs with
  | nil => exact List.pairwise_singleton _ r
  | cons s rest ih =>
    obtain ⟨hs, hrest⟩ := List.pairwise_cons.1 h
    rw [insertByCode]
    split_ifs with hlt
    · refine List.pairwise_cons.2 ⟨fun t ht => ?_, h⟩
      rcases List.mem_cons.1 ht with rfl | ht
      · exact Int.le_of_lt hlt
      · exact Int.le_trans (Int.le_of_lt hlt) (hs t ht)
    · refine List.pairwise_cons.2 ⟨fun t ht => ?_, ih hrest⟩
      rcases mem_insertByCode.1 ht with rfl | ht
      · exact Int.not_lt.1 hlt
      · exact hs t ht

/-- Among responses in order, a response comes behind those of its code. -/
theorem filter_insertByCode {r : Response} {rs : List Response} (c : Int)
    (h : rs.Pairwise (·.code ≤ ·.code)) :
    (insertByCode r rs).filter (·.code = c) = (rs ++ [r]).filter (·.code = c) := by
  induction rs with
  | nil => rfl
  | cons s rest ih =>
    obtain ⟨hs, hrest⟩ := List.pairwise_cons.1 h
    rw [insertByCode]
    split_ifs with hlt
    · by_cases hc : r.code = c
      · -- From here on all codes are greater.
        have hnone : (s :: rest).filter (·.code = c) = [] := by
          refine List.filter_eq_nil_iff.2 fun t ht => ?_
          rw [decide_eq_true_eq, ← hc]
          rcases List.mem_cons.1 ht with rfl | ht
          · exact Int.ne_of_gt hlt
          · exact Int.ne_of_gt (Int.lt_of_lt_of_le hlt (hs t ht))
        rw [List.filter_append, hnone, List.nil_append, List.filter_cons, hnone]
        simp [hc]
      · simp [List.filter_append, List.filter_cons, hc]
    · rw [List.filter_cons, ih hrest, List.cons_append, List.filter_cons]

theorem sortByCode_concat (rs : List Response) (r : Response) :
    sortByCode (rs ++ [r]) = insertByCode r (sortByCode rs) := by
  rw [sortByCode, List.foldl_append]
  rfl

theorem inCodeOrder_sortByCode (rs : List Response) : InCodeOrder rs (sortByCode rs) := by
  induction rs using List.reverseRecOn with
  | nil => exact ⟨List.Pairwise.nil, fun _ => rfl⟩
  | append_singleton rs r ih =>
    rw [sortByCode_concat]
    refine ⟨ascending_insertByCode ih.ascending, fun c => ?_⟩
    rw [filter_insertByCode c ih.ascending, List.filter_append, ih.stable c, List.filter_append]

theorem InCodeOrder.mem {given sorted : List Response} (h : InCodeOrder given sorted)
    {r : Response} (hr : r ∈ sorted) : r ∈ given := by
  have hmem : r ∈ sorted.filter (·.code = r.code) := List.mem_filter.2 ⟨hr, by simp⟩
  rw [h.stable] at hmem
  exact List.mem_of_mem_filter hmem

/-- The responses of an operation are those of its entries, in the order of their codes. -/
theorem ofNodes_eq_ok {ctx : Context} {node : Node} {rs : List Response}
    (h : (ofNodes ctx node).outcome = .ok rs) :
    ∃ options, ((node.entries?.getD []).mapM (entry ctx)).outcome = .ok options ∧
      InCodeOrder options.reduceOption rs := by
  unfold ofNodes at h
  split at h
  · obtain ⟨options, hoptions, h⟩ := bind_eq_ok.1 h
    cases h
    exact ⟨options, hoptions, inCodeOrder_sortByCode _⟩
  · rename_i hmap
    cases h
    have hentries : node.entries?.getD [] = [] := by
      cases node with
      | map entries => exact absurd rfl (hmap entries)
      | _ => rfl
    exact ⟨[], by rw [hentries]; rfl, List.Pairwise.nil, fun _ => rfl⟩

theorem isBuilt_of_ofNodes {ctx : Context} {node : Node} {rs : List Response}
    (h : (ofNodes ctx node).outcome = .ok rs) {r : Response} (hr : r ∈ rs) : IsBuilt ctx r := by
  obtain ⟨options, hoptions, horder⟩ := ofNodes_eq_ok h
  obtain ⟨e, -, he⟩ := exists_of_mem_mapM hoptions (List.reduceOption_mem_iff.1 (horder.mem hr))
  exact isBuilt_of_entry he

/-! ## Items with new keys -/

section Keys

variable {α κ : Type} [DecidableEq κ] (key : α → κ)

/-- The items whose key no item before them has. -/
def firstOfKey (items : List α) : List α :=
  (items.zipIdx.filter fun (a, i) => key a ∉ (items.take i).map key).map Prod.fst

theorem firstOfKey_concat (items : List α) (a : α) :
    firstOfKey key (items ++ [a]) =
      firstOfKey key items ++ if key a ∈ items.map key then [] else [a] := by
  have hfront : (items.zipIdx.filter fun (b, i) => key b ∉ ((items ++ [a]).take i).map key) =
      items.zipIdx.filter fun (b, i) => key b ∉ (items.take i).map key := by
    refine List.filter_congr fun (b, i) hmem => ?_
    have hlt : i < items.length := by simpa using (List.mem_zipIdx hmem).2.1
    dsimp only
    rw [List.take_append_of_le_length (Nat.le_of_lt hlt)]
  rw [firstOfKey, List.zipIdx_append, List.filter_append, List.map_append, hfront, firstOfKey]
  congr 1
  split_ifs with h <;> simp [h]

theorem mem_of_mem_firstOfKey {items : List α} {a : α} (h : a ∈ firstOfKey key items) :
    a ∈ items := by
  obtain ⟨⟨b, i⟩, hb, rfl⟩ := List.mem_map.1 h
  exact List.fst_mem_of_mem_zipIdx (List.mem_of_mem_filter hb)

theorem mem_map_firstOfKey {items : List α} {k : κ} :
    k ∈ (firstOfKey key items).map key ↔ k ∈ items.map key := by
  induction items using List.reverseRecOn with
  | nil => rfl
  | append_singleton items a ih =>
    rw [firstOfKey_concat, List.map_append, List.map_append, List.mem_append, List.mem_append, ih]
    by_cases h : key a ∈ items.map key
    · rw [if_pos h, List.map_nil, List.map_singleton, List.mem_singleton]
      refine ⟨fun hk => .inl (hk.resolve_right List.not_mem_nil), fun hk => .inl ?_⟩
      rcases hk with hk | rfl
      · exact hk
      · exact h
    · rw [if_neg h]

theorem nodup_map_firstOfKey (items : List α) : ((firstOfKey key items).map key).Nodup := by
  induction items using List.reverseRecOn with
  | nil => exact List.nodup_nil
  | append_singleton items a ih =>
    rw [firstOfKey_concat, List.map_append]
    split_ifs with h
    · rwa [List.map_nil, List.append_nil]
    · rw [List.map_singleton, ← List.concat_eq_append]
      exact ih.concat fun hmem => h ((mem_map_firstOfKey key).1 hmem)

/-- In whatever order the items come, the keys of those that come first are the same. -/
theorem perm_map_firstOfKey {items items' : List α} (h : items'.Perm items) :
    ((firstOfKey key items').map key).Perm ((firstOfKey key items).map key) := by
  refine (List.perm_ext_iff_of_nodup (nodup_map_firstOfKey key _)
    (nodup_map_firstOfKey key _)).2 fun k => ?_
  rw [mem_map_firstOfKey, mem_map_firstOfKey]
  exact (h.map key).mem_iff

end Keys

/-! ## Results -/

/-- What tells results apart: their types, and their codes where the dialect says so. -/
def resultKey (d : Dialect) (r : Response) : (String × String × Option String) × Option Int :=
  (r.descriptor, if d.tellsCodesApart then some r.code else none)

/-- A response is successful and has something to give. -/
def Succeeds (r : Response) : Prop := 200 ≤ r.code ∧ r.code ≤ 299 ∧ r.code ≠ 204

instance : DecidablePred Succeeds := fun r => by unfold Succeeds; infer_instance

theorem hasResult_eq (r : Response) : hasResult r = decide (Succeeds r) := by
  rw [Bool.eq_iff_iff, decide_eq_true_iff]
  simp only [hasResult, Succeeds, Bool.and_eq_true, decide_eq_true_eq, bne_iff_ne]
  omega

theorem sameResult_eq_true_iff (d : Dialect) {a b : Response} (ha : a.Coherent)
    (hb : b.Coherent) : sameResult d a b = true ↔ resultKey d a = resultKey d b := by
  rw [sameResult, Bool.and_eq_true, sameType_eq_true_iff ha hb]
  refine (and_congr_right' ?_).trans (Iff.of_eq (Prod.mk.injEq _ _ _ _).symm)
  cases d.tellsCodesApart with
  | true => simp
  | false => simp

theorem distinct_concat (d : Dialect) (kept rs : List Response) (r : Response) :
    distinct d kept (rs ++ [r]) =
      distinct d kept rs ++ if (distinct d kept rs).any (sameResult d · r) then [] else [r] := by
  induction rs generalizing kept with
  | nil =>
    rw [List.nil_append, distinct, distinct, distinct, distinct]
    split_ifs <;> simp
  | cons s rest ih =>
    rw [List.cons_append, distinct, distinct]
    by_cases h : (kept.any fun k => sameResult d k s) = true
    · rw [if_pos h, if_pos h]
      exact ih kept
    · rw [if_neg h, if_neg h]
      exact ih (kept ++ [s])

/-- The results that are kept one by one are those that come first of their kind. -/
theorem distinct_eq_firstOfKey (d : Dialect) {rs : List Response} (h : ∀ r ∈ rs, r.Coherent) :
    distinct d [] rs = firstOfKey (resultKey d) rs := by
  induction rs using List.reverseRecOn with
  | nil => rfl
  | append_singleton rs r ih =>
    have hrs : ∀ s ∈ rs, s.Coherent := fun s hs => h s (List.mem_append_left _ hs)
    have hr : r.Coherent := h r (List.mem_append_right _ List.mem_cons_self)
    have hkept : ∀ s ∈ firstOfKey (resultKey d) rs, s.Coherent := fun s hs =>
      hrs s (mem_of_mem_firstOfKey _ hs)
    have hany : ((firstOfKey (resultKey d) rs).any (sameResult d · r) = true) ↔
        resultKey d r ∈ rs.map (resultKey d) := by
      rw [← mem_map_firstOfKey, List.any_eq_true, List.mem_map]
      refine exists_congr fun s => and_congr_right fun hs => ?_
      exact sameResult_eq_true_iff d (hkept s hs) hr
    rw [distinct_concat, ih hrs, firstOfKey_concat]
    by_cases hmem : resultKey d r ∈ rs.map (resultKey d)
    · rw [if_pos hmem, if_pos (hany.2 hmem)]
    · rw [if_neg hmem, if_neg (mt hany.1 hmem)]

/-- The responses of an operation are in the order of their codes. Its results are the successful
ones that agree in their types, and in their codes where the dialect tells these apart, with no
successful one before them. If none is successful, the one result is of type void and has the
code 200. On built responses the comparison is an equivalence, so the order in which the duplicates
come does not matter to what is kept. -/
theorem results_of_responses {ctx : Context} {node : Node} {rs : List Response}
    (h : (ofNodes ctx node).outcome = .ok rs) :
    (∃ options, ((node.entries?.getD []).mapM (entry ctx)).outcome = .ok options ∧
      InCodeOrder options.reduceOption rs) ∧
    (rs.filter (Succeeds ·) = [] → results ctx.dialect rs =
      [{ kind := .generic, type := "void", base := "void", code := 200 }]) ∧
    (rs.filter (Succeeds ·) ≠ [] →
      results ctx.dialect rs = firstOfKey (resultKey ctx.dialect) (rs.filter (Succeeds ·))) ∧
    (Equivalence fun a b : { r // IsBuilt ctx r } => sameType a.1.toModel b.1.toModel = true) ∧
    (∀ a b, IsBuilt ctx a → IsBuilt ctx b →
      (sameResult ctx.dialect a b = true ↔
        resultKey ctx.dialect a = resultKey ctx.dialect b)) ∧
    ∀ found, found.Perm (rs.filter (Succeeds ·)) →
      ((distinct ctx.dialect [] found).map (resultKey ctx.dialect)).Perm
        ((distinct ctx.dialect [] (rs.filter (Succeeds ·))).map (resultKey ctx.dialect)) := by
  have hcoherent : ∀ r ∈ rs.filter (Succeeds ·), r.Coherent := fun r hr =>
    (isBuilt_of_ofNodes h (List.mem_of_mem_filter hr)).coherent
  have hfilter : rs.filter hasResult = rs.filter (Succeeds ·) :=
    List.filter_congr fun r _ => hasResult_eq r
  refine ⟨ofNodes_eq_ok h, fun hnil => ?_, fun hne => ?_, ?_, fun a b ha hb => ?_,
    fun found hperm => ?_⟩
  · rw [results, hfilter, hnil]
    rfl
  · rw [results, hfilter, ← distinct_eq_firstOfKey ctx.dialect hcoherent]
    split
    · rename_i hnil
      exact absurd hnil hne
    · rfl
  · have hiff (a b : { r // IsBuilt ctx r }) :
        sameType a.1.toModel b.1.toModel = true ↔ a.1.descriptor = b.1.descriptor :=
      sameType_eq_true_iff a.2.coherent b.2.coherent
    exact ⟨fun a => (hiff a a).2 rfl, fun hab => (hiff _ _).2 ((hiff _ _).1 hab).symm,
      fun hab hbc => (hiff _ _).2 (((hiff _ _).1 hab).trans ((hiff _ _).1 hbc))⟩
  · exact sameResult_eq_true_iff ctx.dialect ha.coherent hb.coherent
  · have hfound : ∀ r ∈ found, r.Coherent := fun r hr => hcoherent r (hperm.mem_iff.1 hr)
    rw [distinct_eq_firstOfKey ctx.dialect hfound, distinct_eq_firstOfKey ctx.dialect hcoherent]
    exact perm_map_firstOfKey _ hperm

/-- An operation that answers with names, with an error, and twice with one name. -/
def naming : Node :=
  let answer schema := Node.record [("schema", Node.record schema)]
  let name := [("type", Node.text "string")]
  Node.record [
    ("201", answer [("type", Node.text "array"), ("items", Node.record name)]),
    ("404", Node.record [("description", Node.text "unknown")]),
    ("default", answer name), ("200", answer name)]

/-- An operation that answers with nothing, or with an error. -/
def silent : Node :=
  Node.record [
    ("404", Node.record [("description", Node.text "unknown")]),
    ("204", Node.record [("description", Node.text "removed")])]

/-- Of three successful responses of one type the first one is the result. An operation that answers
with nothing has a result of type void. -/
theorem results_of_responses_naming :
    (∃ rs, (ofNodes { document := .map [], dialect := .v2 } naming).outcome = .ok rs ∧
      rs.map (·.code) = [200, 200, 201, 404] ∧ (results .v2 rs).map (·.code) = [200] ∧
      results .v2 rs = firstOfKey (resultKey .v2) (rs.filter (Succeeds ·))) ∧
    ∃ rs, (ofNodes { document := .map [], dialect := .v2 } silent).outcome = .ok rs ∧
      rs.map (·.code) = [204, 404] ∧
      results .v2 rs = [{ kind := .generic, type := "void", base := "void", code := 200 }] := by
  constructor
  · obtain ⟨rs, hrs, hcodes, hresults, hfound⟩ : ∃ rs,
        (ofNodes { document := .map [], dialect := .v2 } naming).outcome = .ok rs ∧
        rs.map (·.code) = [200, 200, 201, 404] ∧ (results .v2 rs).map (·.code) = [200] ∧
        (rs.filter (Succeeds ·)).length = 3 := ⟨_, rfl, rfl, rfl, rfl⟩
    refine ⟨rs, hrs, hcodes, hresults, (results_of_responses hrs).2.2.1 fun hnil => ?_⟩
    rw [hnil] at hfound
    cases hfound
  · obtain ⟨rs, hrs, hcodes, hnone⟩ : ∃ rs,
        (ofNodes { document := .map [], dialect := .v2 } silent).outcome = .ok rs ∧
        rs.map (·.code) = [204, 404] ∧ rs.filter (Succeeds ·) = [] := ⟨_, rfl, rfl, rfl⟩
    exact ⟨rs, hrs, hcodes, (results_of_responses hrs).2.1 hnone⟩

end Response

end ApiModel
