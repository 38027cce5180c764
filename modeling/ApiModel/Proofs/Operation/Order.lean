import ApiModel.Operation.Service
import ApiModel.Proofs.Client.Flaws
import ApiModel.Proofs.Operation.Results
import ApiModel.Proofs.Operation.Twins

/-!
# Operations whose parts are in another order

The methods of a path are visited in an order of their own, and responses are sorted by their codes.
So neither the order of the entries of a path nor that of the responses shows, if no two responses
have one code: those keep the order in which they stand.

**Theorem (`carries_ofPath`).** What is built from a path is built from it in another order too.

Work is carried over from one side to the other rather than compared, because of several faults the
first one is reported, and which one is first does depend on the order.
-/

namespace ApiModel

open Node Report

theorem Report.Pairs.carries {α : Type} {x y : Built α} (h : Pairs Eq x y) : Carries x y := by
  intro a ha
  rw [← pairs_eq.1 h, ha]

theorem Report.Pairs.carries_bind {α β γ : Type} {Q : α → β → Prop} {x : Built α} {y : Built β}
    {f : α → Built γ} {g : β → Built γ} (h : Pairs Q x y)
    (hfg : ∀ a b, Q a b → Carries (f a) (g b)) : Carries (x >>= f) (y >>= g) := by
  intro c hc
  obtain ⟨a, ha, hc⟩ := bind_eq_ok.1 hc
  obtain ⟨b, hb, hab⟩ := h.exists_ok ha
  exact bind_eq_ok.2 ⟨b, hb, hfg a b hab c hc⟩

/-- Items one after the other, on two sides. -/
theorem Report.carries_mapM {α β γ : Type} {f : α → Built γ} {g : β → Built γ} {as : List α}
    {bs : List β} (h : List.Forall₂ (fun a b => Carries (f a) (g b)) as bs) :
    Carries (as.mapM f) (bs.mapM g) := by
  induction h with
  | nil => exact fun _ h => h
  | cons hab _ ih =>
    rw [List.mapM_cons, List.mapM_cons]
    exact lifting_carries.bind hab fun c _ => lifting_carries.bind ih fun cs _ => fun _ h => h

/-! ## Responses -/

namespace Response

/-- No two of the keys are one status code. -/
def CodesApart (entries : List (Scalar × Node)) : Prop :=
  entries.Pairwise fun e f => ∀ code, (code? e.1.display).outcome = .ok (some code) →
    (code? f.1.display).outcome ≠ .ok (some code)

/-- The responses of an operation in another order, if no two of them have one code. -/
inductive Reordered : Node → Node → Prop
  | same (n : Node) : Reordered n n
  | map {es es' : List (Scalar × Node)} : es.Perm es' → (es.map (·.1)).Nodup → CodesApart es →
      Reordered (.map es) (.map es')

theorem Reordered.isMap {n n' : Node} (h : Reordered n n') : n.isMap = n'.isMap := by
  cases h <;> rfl

theorem perm_insertByCode (r : Response) (rs : List Response) :
    (insertByCode r rs).Perm (r :: rs) := by
  induction rs with
  | nil => exact .refl _
  | cons s rest ih =>
    rw [insertByCode]
    split_ifs
    · exact .refl _
    · exact (ih.cons s).trans (.swap r s rest)

theorem perm_sortByCode (rs : List Response) : (sortByCode rs).Perm rs := by
  induction rs using List.reverseRecOn with
  | nil => exact .refl _
  | append_singleton rs r ih =>
    rw [sortByCode_concat]
    have hlast : (r :: rs).Perm (rs ++ [r]) := (List.perm_append_singleton r rs).symm
    exact (perm_insertByCode r _).trans ((ih.cons r).trans hlast)

/-- Responses of different codes are sorted in one way only. -/
theorem sortByCode_perm {rs rs' : List Response} (hperm : rs.Perm rs')
    (hcodes : (rs.map (·.code)).Nodup) : sortByCode rs = sortByCode rs' := by
  have hsorted : (sortByCode rs).Perm (sortByCode rs') :=
    (perm_sortByCode rs).trans (hperm.trans (perm_sortByCode rs').symm)
  refine hsorted.eq_of_pairwise (fun r s hr hs hle hge => ?_)
    (inCodeOrder_sortByCode rs).ascending (inCodeOrder_sortByCode rs').ascending
  have hr' : r ∈ rs := (perm_sortByCode rs).mem_iff.1 hr
  have hs' : s ∈ rs := hperm.mem_iff.2 ((perm_sortByCode rs').mem_iff.1 hs)
  exact List.inj_on_of_nodup_map hcodes hr' hs' (Int.le_antisymm hle hge)

section Entries

variable {ctx ctx' : Context}

theorem code_of_settle {p : Draft} {r : Response} (h : p.settle.outcome = .ok r) :
    r.code = p.code := by
  obtain ⟨_, -, h⟩ := bind_eq_ok.1 h
  cases h
  rfl

theorem code_of_ofNode {node : Node} {code : Int} {r : Response}
    (h : (ofNode ctx node code).outcome = .ok r) : r.code = code := by
  obtain ⟨body, -, h⟩ := bind_eq_ok.1 h
  cases body with
  | none =>
    simp only [ofHeaders] at h
    split at h
    · exact code_of_settle h
    · exact code_of_settle h
  | some schema =>
    obtain ⟨target, -, h⟩ := bind_eq_ok.1 h
    obtain ⟨-, h⟩ := unless_eq_ok.1 h
    split at h
    · exact code_of_settle h
    · obtain ⟨m, -, h⟩ := bind_eq_ok.1 h
      exact code_of_settle h

/-- The code of a response is that of its key. -/
theorem code_of_entry {e : Scalar × Node} {r : Response}
    (h : (entry ctx e).outcome = .ok (some r)) :
    (code? e.1.display).outcome = .ok (some r.code) := by
  obtain ⟨code, hcode, h⟩ := bind_eq_ok.1 h
  split at h
  · obtain ⟨_, -, h⟩ := bind_eq_ok.1 h
    cases h
  · obtain ⟨node, -, h⟩ := bind_eq_ok.1 h
    obtain ⟨r', hr', h⟩ := bind_eq_ok.1 h
    cases h
    rw [hcode, code_of_ofNode hr']

theorem nodup_codes {es : List (Scalar × Node)} {options : List (Option Response)}
    (hcodes : CodesApart es)
    (h : List.Forall₂ (fun e o => (entry ctx e).outcome = .ok o) es options) :
    (options.reduceOption.map (·.code)).Nodup := by
  induction h with
  | nil => exact .nil
  | @cons e o es options ho hrest ih =>
    obtain ⟨hhead, htail⟩ := List.pairwise_cons.1 hcodes
    cases o with
    | none => exact ih htail
    | some r =>
      rw [List.reduceOption_cons_of_some, List.map_cons, List.nodup_cons]
      refine ⟨fun hmem => ?_, ih htail⟩
      obtain ⟨s, hs, hcode⟩ := List.mem_map.1 hmem
      obtain ⟨f, hf, hentry⟩ := exists_left_of_mem hrest (List.reduceOption_mem_iff.1 hs)
      refine hhead f hf r.code (code_of_entry ho) ?_
      rw [code_of_entry hentry, hcode]

theorem pairs_entry (htwins : Twins ctx ctx') (e : Scalar × Node) :
    Pairs Eq (entry ctx e) (entry ctx' e) := by
  unfold entry
  refine (pairs_self _).bind_eq fun code => ?_
  cases code with
  | none => exact pairs_self _
  | some code =>
    refine (htwins.target (.inl rfl)).bind fun n n' hn => ?_
    refine (ofNode_twin htwins (htwins.toAgreement.asMap hn) code).bind_eq fun r => ?_
    exact pairs_self _

/-- The responses of an operation come out the same in another order. -/
theorem carries_ofNodes (htwins : Twins ctx ctx') {n n' : Node} (h : Reordered n n') :
    Carries (ofNodes ctx n) (ofNodes ctx' n') := by
  have hentries (es : List (Scalar × Node)) :
      Pairs Eq (es.mapM (entry ctx)) (es.mapM (entry ctx')) :=
    pairs_mapM_self (pairs_entry htwins) es
  cases h with
  | same =>
    unfold ofNodes
    cases n with
    | map es =>
      refine Pairs.carries ((hentries es).bind_eq fun options => ?_)
      exact pairs_self _
    | _ => exact fun _ h => h
  | @map es es' hperm _ hcodes =>
    intro rs hrs
    obtain ⟨options, hoptions, hrs⟩ := bind_eq_ok.1 hrs
    have hmade := mapM_eq_ok.1 ((hentries es).carries options hoptions)
    obtain ⟨options', hmade', hoptions'⟩ := List.perm_comp_forall₂ hperm.symm hmade
    have hkept : options.reduceOption.Perm options'.reduceOption :=
      (hoptions'.symm.filterMap id :)
    refine bind_eq_ok.2 ⟨options', mapM_eq_ok.2 hmade', ?_⟩
    rw [← hrs, sortByCode_perm hkept (nodup_codes hcodes hmade)]

end Entries

end Response

/-! ## Parameters and bodies -/

section Twins

variable {ctx ctx' : Context} (htwins : Twins ctx ctx')
include htwins

theorem Parameters.pairs_entry (n : Node) :
    Pairs Eq (Parameters.entry ctx n) (Parameters.entry ctx' n) := by
  unfold Parameters.entry
  refine (htwins.target (.inl rfl)).bind fun u v huv => ?_
  simp (disch := decide) only [huv.isMap, field_further huv]
  split_ifs
  · exact pairs_self _
  · exact pairs_self _
  · exact pairs_self _
  · refine (Parameter.ofNode_twin htwins huv).bind_eq fun p => ?_
    exact pairs_self _

theorem Parameters.pairs_ofNode (n : Node) :
    Pairs Eq (Parameters.ofNode ctx n) (Parameters.ofNode ctx' n) := by
  unfold Parameters.ofNode
  split_ifs
  · refine (pairs_self _).bind_eq fun members => ?_
    refine (pairs_mapM_self (Parameters.pairs_entry htwins) members).bind_eq fun options => ?_
    exact pairs_self _
  · exact pairs_self _

theorem Operation.pairs_withRequestBody (n : Node) (ps : Parameters) :
    Pairs Eq (withRequestBody ctx n ps) (withRequestBody ctx' n ps) := by
  simp only [withRequestBody, htwins.dialect]
  split_ifs
  · refine (htwins.target (.inl rfl)).bind fun u v huv => ?_
    rw [huv.isMap]
    split_ifs
    · refine (Parameter.ofRequestBody_twin htwins huv).bind_eq fun p => ?_
      exact pairs_self _
    · exact pairs_self _
  · exact pairs_self _

end Twins

/-! ## Operations -/

namespace Operation

/-- An operation whose responses are in another order. -/
def Reordered : Node → Node → Prop :=
  ValuesBy (KeptBut (· = .text "responses") Response.Reordered)

variable {ctx ctx' : Context} {node node' : Node}

theorem field_reordered (h : Reordered node node') {key : String} (hkey : key ≠ "responses") :
    node.field key = node'.field key :=
  field_eq_of_kept h fun heq => hkey (Scalar.text.inj heq)

theorem responses_reordered (h : Reordered node node') :
    Response.Reordered (node.field "responses") (node'.field "responses") := by
  rcases keptBut_field h "responses" with heq | ⟨-, hresponses⟩
  · rw [heq]
    exact .same _
  · exact hresponses

/-- An operation comes out the same if its responses are in another order. -/
theorem carries_ofNode (htwins : Twins ctx ctx') (h : Reordered node node') (url : Node)
    (method tag : String) (ps : Parameters) :
    Carries (ofNode ctx url method tag node ps) (ofNode ctx' url method tag node' ps) := by
  have hresponses := responses_reordered h
  have hbody (ps : Parameters) : withRequestBody ctx node ps = withRequestBody ctx node' ps := by
    simp (disch := decide) only [withRequestBody, field_reordered h]
  unfold ofNode
  rw [ValuesBy.isMap h, htwins.dialect]
  cases node'.isMap with
  | false =>
    intro o ho
    cases ho
  | true =>
    simp (disch := decide) only [identifier?, complaints, hbody, hresponses.isMap,
      field_reordered h]
    refine lifting_carries.bind (Parameters.pairs_ofNode htwins _).carries fun own _ => ?_
    refine lifting_carries.bind (pairs_withRequestBody htwins node' _).carries fun ps _ => ?_
    refine lifting_carries.bind (Response.carries_ofNodes htwins hresponses) fun responses _ => ?_
    exact fun _ h => h

end Operation

/-! ## Paths -/

namespace Service

/-- A path with the same entries in the same order, whose operations have their responses in
another. -/
def MethodsReordered : Node → Node → Prop :=
  ValuesBy (KeptBut (fun key => ∃ method ∈ Operation.methods, key = .text method)
    Operation.Reordered)

/-- A path whose entries are in another order, and so are the responses of its operations. -/
inductive PathReordered : Node → Node → Prop
  | same (n : Node) : PathReordered n n
  | map {es mid es' : List (Scalar × Node)} : MethodsReordered (.map es) (.map mid) →
      mid.Perm es' → (mid.map (·.1)).Nodup → PathReordered (.map es) (.map es')

variable {ctx ctx' : Context} {n n' : Node}

theorem PathReordered.field_method (h : PathReordered n n') (method : String) :
    Operation.Reordered (n.field method) (n'.field method) := by
  cases h with
  | same => exact .same _
  | @map es mid es' hmethods hperm hkeys =>
    have hfield : (Node.map mid).field method = (Node.map es').field method :=
      congrArg (·.getD .null) (getText?_perm hperm hkeys method)
    rw [← hfield]
    rcases keptBut_field hmethods method with heq | ⟨-, hnode⟩
    · rw [heq]
      exact .same _
    · exact hnode

theorem PathReordered.field_other (h : PathReordered n n') {key : String}
    (hkey : key ∉ Operation.methods) : n.field key = n'.field key := by
  cases h with
  | same => rfl
  | @map es mid es' hmethods hperm hkeys =>
    have hfield : (Node.map mid).field key = (Node.map es').field key :=
      congrArg (·.getD .null) (getText?_perm hperm hkeys key)
    rw [← hfield]
    refine field_eq_of_kept hmethods ?_
    rintro ⟨method, hmethod, heq⟩
    exact hkey (Scalar.text.inj heq ▸ hmethod)

/-- The operations of a method come out the same in a path that is in another order. -/
theorem carries_ofMethod (htwins : Twins ctx ctx') (h : PathReordered n n') (url : Scalar)
    (ps : Parameters) (method : String) :
    Carries (ofMethod ctx url n ps method) (ofMethod ctx' url n' ps method) := by
  have hnode := h.field_method method
  have htags : Operation.tags (n.field method) = Operation.tags (n'.field method) := by
    simp (disch := decide) only [Operation.tags, Operation.field_reordered hnode]
  unfold ofMethod
  dsimp only
  rw [ValuesBy.isMap hnode, htags]
  split_ifs
  · refine lifting_carries.bind (fun _ h => h) fun tags _ => ?_
    exact lifting_carries.mapM fun tag _ => Operation.carries_ofNode htwins hnode _ _ tag ps
  · exact fun _ h => h

theorem pairs_noteOthers (url : Scalar) (es es' : List (Scalar × Node)) :
    Pairs Eq (noteOthers url es) (noteOthers url es') := by
  have hnoted (es : List (Scalar × Node)) : (noteOthers url es).outcome = .ok () := by
    obtain ⟨⟨⟩, hok⟩ := (failsBy_noteOthers url es).exists_ok_iff.2 fun _ => id
    exact hok
  exact pairs_eq.2 ((hnoted es).trans (hnoted es').symm)

theorem carries_ofEntries (htwins : Twins ctx ctx') {es es' : List (Scalar × Node)}
    (h : PathReordered (.map es) (.map es')) (url : Scalar) :
    Carries (ofPath ctx (url, .map es)) (ofPath ctx' (url, .map es')) := by
  have hparameters : (Node.map es).field "parameters" = (Node.map es').field "parameters" :=
    h.field_other (by decide)
  unfold ofPath
  dsimp only
  rw [hparameters]
  refine lifting_carries.bind (Parameters.pairs_ofNode htwins _).carries fun ps _ => ?_
  refine lifting_carries.bind (pairs_noteOthers url es es').carries fun _ _ => ?_
  simp only [map_eq_pure_bind]
  refine lifting_carries.bind ?_ fun _ _ => fun _ h => h
  exact lifting_carries.mapM fun method _ => carries_ofMethod htwins h url ps method

/-- The operations of a path come out the same if the path is in another order. -/
theorem carries_ofPath (htwins : Twins ctx ctx') (h : PathReordered n n') (url : Scalar) :
    Carries (ofPath ctx (url, n)) (ofPath ctx' (url, n')) := by
  cases h with
  | same =>
    cases n with
    | map es => exact carries_ofEntries htwins (.same _) url
    | _ => exact fun _ h => h
  | map hmethods hperm hkeys => exact carries_ofEntries htwins (.map hmethods hperm hkeys) url

end Service

end ApiModel
