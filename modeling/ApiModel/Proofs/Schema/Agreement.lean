import ApiModel.Proofs.Schema.Budget
import ApiModel.Proofs.Schema.Keywords
import Mathlib.Tactic.FinCases

/-!
# Only known keywords count

Two schemas agree if they say the same under the keywords that are read, and the schemas that stand
in them agree in turn. `Agreement` says when a relation pairs only schemas that agree; what else a
schema says, and in which order, is left open.

One thing more counts. Where a keyword is asked whether it says anything, the empty schema counts
as nothing, and one annotation more or less makes a difference: an array of `{}` is an array without
items, and an object with further properties `{}` is a bare member of a composition. `Discerned`
says that related schemas come out the same on these two questions.

**Theorem (`outcome_model_of_agreement`).** Schemas that agree, and that are discerned alike, have
the same model or the same failure.

The work is done side by side in two contexts (`Twin`), because documents too may differ in what is
not read. The budgets then differ as well, and `outcome_modelStep_of_le` brings them together.
-/

namespace ApiModel

namespace Schema

open Report Node

/-! ## Schemas that agree -/

/-- The keywords under which one schema stands. -/
def elementKeywords : List String := ["items", "additionalProperties"]

/-- The relation holds of schemas only that say the same under the keywords that are read. -/
structure Agreement (d : Dialect) (R : Node → Node → Prop) : Prop where
  refl (s : Node) : R s s
  mapping {s t : Node} : R s t → s = t ∨ s.isMap = true ∧ t.isMap = true
  plain {s t : Node} : R s t → SaysSame (plainKeywords d) s t
  element {s t : Node} {keyword : String} : R s t → keyword ∈ elementKeywords →
    R (s.field keyword) (t.field keyword)
  properties {s t : Node} : R s t →
    ValuesBy (fun _ => R) (s.field "properties") (t.field "properties")
  members {s t : Node} {keyword : String} {kind : ModelKind} : R s t →
    (keyword, kind) ∈ d.combinations → ItemsBy R (s.field keyword) (t.field keyword)

/-- Two schemas agree on the keywords that are read. -/
def Agree (d : Dialect) (s t : Node) : Prop := ∃ R, Agreement d R ∧ R s t

/-- Related schemas are asked in two places whether they say anything, and the answers are the
same. -/
structure Discerned (d : Dialect) (R : Node → Node → Prop) : Prop where
  items {s t : Node} : R s t → (s.field "type").isText "array" = true →
    (s.field "items").truthy = (t.field "items").truthy
  bare {s t : Node} {keyword : String} {kind : ModelKind} : R s t →
    (keyword, kind) ∈ d.combinations →
    ItemsBy (fun m m' => R m m' ∧ isBareObject m = isBareObject m') (s.field keyword)
      (t.field keyword)

section Others

variable {d : Dialect} {P : Node → Node → Prop}

/-- Every schema agrees with itself, so only the other pairs have to be looked at. -/
theorem Agreement.of_others (mapping : ∀ {s t}, P s t → s.isMap = true ∧ t.isMap = true)
    (plain : ∀ {s t}, P s t → SaysSame (plainKeywords d) s t)
    (element : ∀ {s t keyword}, P s t → keyword ∈ elementKeywords →
      s.field keyword = t.field keyword ∨ P (s.field keyword) (t.field keyword))
    (properties : ∀ {s t}, P s t →
      ValuesBy (fun _ v w => v = w ∨ P v w) (s.field "properties") (t.field "properties"))
    (members : ∀ {s t keyword kind}, P s t → (keyword, kind) ∈ d.combinations →
      ItemsBy (fun m m' => m = m' ∨ P m m') (s.field keyword) (t.field keyword)) :
    Agreement d fun s t => s = t ∨ P s t where
  refl _ := .inl rfl
  mapping h := h.imp_right mapping
  plain h := h.elim (fun heq => heq ▸ fun _ _ => rfl) plain
  element h hkey := h.elim (fun heq => heq ▸ .inl rfl) fun hst => element hst hkey
  properties h := h.elim (fun heq => heq ▸ .same _) properties
  members h hkey := h.elim (fun heq => heq ▸ .same _) fun hst => members hst hkey

end Others

/-- The members of two combinations that are made the same way. -/
abbrev MembersAlike (R : Node → Node → Prop) : List Node → List Node → Prop :=
  List.Forall₂ fun m m' => R m m' ∧ isBareObject m = isBareObject m'

section Rules

variable {d : Dialect} {R : Node → Node → Prop} {s t : Node}

theorem Agreement.asMap (h : Agreement d R) (hst : R s t) : R s.asMap t.asMap := by
  rcases h.mapping hst with rfl | ⟨hs, ht⟩
  · exact h.refl _
  · cases s with
    | map es =>
      cases t with
      | map es' => exact hst
      | _ => cases ht
    | _ => cases hs

theorem Agreement.membersAlike (h : Agreement d R) (ms : List Node) : MembersAlike R ms ms :=
  List.forall₂_same.2 fun m _ => ⟨h.refl m, rfl⟩

theorem further_related (h : Agreement d R) (hst : R s t) :
    Option.Rel R (furtherProperties? d s) (furtherProperties? d t) := by
  have hfield := h.element hst (by decide : "additionalProperties" ∈ elementKeywords)
  unfold furtherProperties?
  rw [field_plain (h.plain hst) (by decide)]
  by_cases hobject : (t.field "type").isText "object" = true
  · rw [if_pos hobject, if_pos hobject]
    generalize s.field "additionalProperties" = a at hfield
    generalize t.field "additionalProperties" = b at hfield
    rcases h.mapping hfield with rfl | ⟨ha, hb⟩
    · split
      · exact .some (h.refl _)
      · cases d.hasOpenObjects with
        | true => exact .some (h.refl _)
        | false => exact .none
      · exact .none
    · cases a with
      | map es =>
        cases b with
        | map es' => exact .some hfield
        | _ => cases hb
      | _ => cases ha
  · rw [if_neg hobject, if_neg hobject]
    exact .none

theorem combination_related (h : Agreement d R) (hD : Discerned d R) (hst : R s t) :
    Option.Rel (fun c c' => c.1 = c'.1 ∧ MembersAlike R c.2 c'.2) (combination? d s)
      (combination? d t) := by
  have hall : ∀ c ∈ d.combinations, ItemsBy (fun m m' => R m m' ∧ isBareObject m = isBareObject m')
      (s.field c.1) (t.field c.1) := fun c hc => hD.bare hst hc
  unfold combination?
  generalize d.combinations = cs at hall
  induction cs with
  | nil => exact .none
  | cons c cs ih =>
    obtain ⟨keyword, kind⟩ := c
    obtain ⟨hc, hcs⟩ := List.forall_mem_cons.1 hall
    rw [List.findSome?_cons, List.findSome?_cons]
    dsimp only at hc ⊢
    generalize s.field keyword = a at hc
    generalize t.field keyword = b at hc
    cases hc with
    | same =>
      cases a with
      | list ms =>
        cases ms with
        | nil => exact ih hcs
        | cons m ms => exact .some ⟨rfl, h.membersAlike _⟩
      | _ => exact ih hcs
    | list hms =>
      cases hms with
      | nil => exact ih hcs
      | cons hm hms => exact .some ⟨rfl, .cons hm hms⟩

/-- Two rules that make the same of schemas that are related. -/
inductive Rule.Alike (R : Node → Node → Prop) : Rule → Rule → Prop
  | same (r : Rule) : Rule.Alike R r r
  | container (kind : ModelKind) {e e' : Node} :
      R e e' → Rule.Alike R (.container kind e) (.container kind e')
  | composition (kind : ModelKind) {ms ms' : List Node} :
      MembersAlike R ms ms' → Rule.Alike R (.composition kind ms) (.composition kind ms')

theorem structuredRule_alike (h : Agreement d R) (hD : Discerned d R) (hst : R s t) :
    Rule.Alike R (structuredRule d s) (structuredRule d t) := by
  have htype : s.field "type" = t.field "type" := field_plain (h.plain hst) (by decide)
  have harray : ((s.field "type").isText "array" && (s.field "items").truthy) =
      ((t.field "type").isText "array" && (t.field "items").truthy) := by
    rw [← htype]
    cases hisArray : (s.field "type").isText "array" with
    | true => rw [hD.items hst hisArray]
    | false => rfl
  simp only [structuredRule]
  rw [harray, htype, (h.properties hst).truthy]
  by_cases hitems : ((t.field "type").isText "array" && (t.field "items").truthy) = true
  · rw [if_pos hitems, if_pos hitems]
    exact .container .array (h.element hst (by decide))
  · rw [if_neg hitems, if_neg hitems]
    have hfurther := further_related h hst
    generalize furtherProperties? d s = a at hfurther
    generalize furtherProperties? d t = b at hfurther
    cases hfurther with
    | some he => exact .container .dictionary he
    | none =>
      have hcombination := combination_related h hD hst
      generalize combination? d s = c at hcombination
      generalize combination? d t = c' at hcombination
      cases hcombination with
      | @some c c' hc =>
        obtain ⟨kind, ms⟩ := c
        obtain ⟨kind', ms'⟩ := c'
        obtain ⟨rfl, hms⟩ : kind = kind' ∧ MembersAlike R ms ms' := hc
        exact .composition kind hms
      | none => exact .same _

end Rules

/-! ## The same work in two contexts -/

/-- Related schemas agree, and the references that stand in for members lead to related schemas. -/
structure Twin (ctx ctx' : Context) (R : Node → Node → Prop) : Prop
    extends Agreement ctx.dialect R, Discerned ctx.dialect R where
  dialect : ctx'.dialect = ctx.dialect
  target {s t : Node} : R s t →
    Pairs R (Node.target ctx.document s) (Node.target ctx'.document t)

section Twins

variable {ctx ctx' : Context} {R : Node → Node → Prop} (h : Twin ctx ctx' R) {s t : Node}
include h

theorem rule_alike (hst : R s t) : Pairs (Rule.Alike R) (rule ctx s) (rule ctx' t) := by
  have hplain := h.plain hst
  unfold rule
  rw [ref?_plain hplain, listedMembers_plain h.dialect hplain,
    describedMembers_plain h.dialect hplain, h.dialect]
  cases t.ref? with
  | some ref => exact .pure (.same _)
  | none =>
    refine (pairs_self _).bind_eq fun listed => ?_
    cases listed with
    | cons m ms => exact .pure (.same _)
    | nil =>
      refine (pairs_self _).bind_eq fun described => ?_
      cases described with
      | cons m ms => exact .pure (.same _)
      | nil => exact .pure (structuredRule_alike h.toAgreement h.toDiscerned hst)

section Builders

variable {build build' : Builder} (hbuild : ∀ {s t}, R s t → Pairs Eq (build s) (build' t))
include hbuild

theorem elementOf_alike (hst : R s t) :
    Pairs Eq (elementOf build ctx s) (elementOf build' ctx' t) := by
  unfold elementOf
  rw [ref?_plain (h.plain hst), h.dialect]
  cases t.ref? with
  | some ref => exact pairs_self _
  | none =>
    refine (hbuild (h.toAgreement.asMap hst)).bind_eq fun link => ?_
    exact pairs_self _

theorem container_alike (hst : R s t) {e e' : Node} (he : R e e') (kind : ModelKind) (b : Model) :
    Pairs Eq (container build ctx s e kind b) (container build' ctx' t e' kind b) := by
  refine (elementOf_alike h hbuild he).bind_eq fun element => ?_
  simp only [withDefault_plain (h.plain hst)]
  exact pairs_self _

theorem property_alike (hst : R s t) (required : List Node) (discriminator : Option Node)
    (parent : String) (key : Scalar) :
    Pairs Eq (property build ctx required discriminator parent (key, s))
      (property build' ctx' required discriminator parent (key, t)) := by
  cases key with
  | text name =>
    have hmap : R s.asMap t.asMap := h.toAgreement.asMap hst
    have hplain := h.plain hmap
    simp only [property, propertyBase_plain hplain, ref?_plain hplain, h.dialect,
      nullable_plain hplain]
    split
    · simp only [discriminating, h.dialect]
      exact pairs_self _
    · rw [referring_plain h.dialect hplain]
      exact pairs_self _
    · refine (hbuild hmap).bind_eq fun m => ?_
      exact pairs_self _
  | _ => exact pairs_self _

theorem properties_alike (hst : R s t) {name : String}
    (hname : ctx'.discriminator? name = ctx.discriminator? name) :
    Pairs Eq (properties build ctx s name) (properties build' ctx' t name) := by
  have hfield := h.properties hst
  unfold properties
  rw [requiredNames_plain (h.plain hst), hname]
  generalize s.field "properties" = a at hfield
  generalize t.field "properties" = b at hfield
  have hentries {es es' : List (Scalar × Node)} (hes : List.Forall₂ (EntryBy fun _ => R) es es') :
      Pairs Eq
        (es.mapM (property build ctx (requiredNames t) (ctx.discriminator? name) name))
        (es'.mapM (property build' ctx' (requiredNames t) (ctx.discriminator? name) name)) := by
    refine pairs_mapM_eq (hes.imp ?_)
    rintro ⟨key, p⟩ ⟨key', p'⟩ ⟨hkey, hp⟩
    obtain rfl : key = key' := hkey
    exact property_alike h hbuild hp _ _ _ _
  cases hfield with
  | same =>
    cases a with
    | map es => exact hentries (List.forall₂_same.2 fun e _ => ⟨rfl, h.refl e.2⟩)
    | _ => exact pairs_self _
  | map hes => exact hentries hes

omit h in
theorem member_alike (hst : R s t) (hbare : isBareObject s = isBareObject t) (kind : ModelKind)
    (name : String) : Pairs Eq (member build kind name s) (member build' kind name t) := by
  unfold member
  rw [hbare]
  split_ifs
  · exact pairs_self _
  · refine (hbuild hst).bind_eq fun m => ?_
    exact pairs_self _

theorem promoted_alike (hst : R s t) {members members' : List Node}
    (hmembers : List.Forall₂ R members members') :
    Pairs Eq (promoted build ctx s members) (promoted build' ctx' t members') := by
  unfold promoted
  rw [requiredNames_plain (h.plain hst)]
  split
  · exact pairs_self _
  · refine Pairs.map (pairs_mapM_eq (hmembers.imp fun m m' hm => ?_)) fun _ _ heq => congrArg _ heq
    refine (h.target hm).bind fun u v huv => (hbuild huv).bind_eq fun model => ?_
    exact pairs_self _

theorem composition_alike (hst : R s t) {members members' : List Node}
    (hmembers : MembersAlike R members members') (kind : ModelKind) (b : Model)
    (hname : ctx'.discriminator? b.name = ctx.discriminator? b.name) :
    Pairs Eq (composition build ctx s members kind b)
      (composition build' ctx' t members' kind b) := by
  have hoptions : Pairs Eq (members.mapM (member build kind b.name))
      (members'.mapM (member build' kind b.name)) :=
    pairs_mapM_eq (hmembers.imp fun m m' hm => member_alike hbuild hm.1 hm.2 kind b.name)
  have hlifted : Pairs Eq (promoted build ctx s members) (promoted build' ctx' t members') :=
    promoted_alike h hbuild hst (hmembers.imp fun m m' hm => hm.1)
  have hown : Pairs Eq (ownProperties build ctx s b.name) (ownProperties build' ctx' t b.name) := by
    unfold ownProperties
    rw [(h.properties hst).truthy]
    split_ifs
    · exact properties_alike h hbuild hst hname
    · exact pairs_self _
  refine hoptions.bind_eq fun options => hlifted.bind_eq fun lifted => ?_
  exact hown.bind_eq fun own => pairs_self _

theorem interface_alike (hst : R s t) {name : String} (b : Model)
    (hname : ctx'.discriminator? name = ctx.discriminator? name) :
    Pairs Eq (interface build ctx s name b) (interface build' ctx' t name b) := by
  refine (properties_alike h hbuild hst hname).bind_eq fun own => ?_
  simp only [withDefault_plain (h.plain hst)]
  exact pairs_self _

/-- One step makes the same of related schemas, if it does so of the inner ones. -/
theorem modelStep_alike (hst : R s t) (isDefinition : Bool) {name : String}
    (hname : ctx'.discriminator? name = ctx.discriminator? name) :
    Pairs Eq (modelStep build ctx isDefinition name s)
      (modelStep build' ctx' isDefinition name t) := by
  have hmap : R s.asMap t.asMap := h.toAgreement.asMap hst
  have hplain := h.plain hmap
  rw [modelStep_eq, modelStep_eq, base_plain h.dialect hplain]
  refine (rule_alike h hmap).bind fun r r' hr => ?_
  have hcontainer {e e' : Node} (he : R e e') (kind : ModelKind) :=
    container_alike h hbuild hmap he kind (base ctx' t.asMap isDefinition name)
  have hcomposition {ms ms' : List Node} (hms : MembersAlike R ms ms') (kind : ModelKind) :=
    composition_alike h hbuild hmap hms kind (base ctx' t.asMap isDefinition name) hname
  cases hr with
  | same =>
    cases r with
    | reference ref =>
      simp only [Rule.build, reference_plain h.dialect hplain]
      exact pairs_self _
    | enumeration type members =>
      simp only [Rule.build, enumeration, withDefault_plain hplain]
      exact pairs_self _
    | container kind e => exact hcontainer (h.refl e) kind
    | composition kind ms => exact hcomposition (h.toAgreement.membersAlike ms) kind
    | interface => exact interface_alike h hbuild hmap _ hname
    | named type =>
      simp only [Rule.build, named_plain h.dialect hplain]
      exact pairs_self _
    | anything => exact pairs_self _
  | container kind he => exact hcontainer he kind
  | composition kind hms => exact hcomposition hms kind

end Builders

theorem modelWithin_alike (hst : R s t) (n : Nat) :
    Pairs Eq (modelWithin ctx n s) (modelWithin ctx' n t) := by
  induction n generalizing s t with
  | zero => exact pairs_self _
  | succ n ih =>
    refine modelStep_alike h (fun hst => ih hst) hst false ?_
    rw [discriminator?_empty, discriminator?_empty]

/-- Related schemas have the same model, or the same failure, in both contexts. -/
theorem outcome_model_of_twin (hst : R s t) (isDefinition : Bool) {name : String}
    (hname : ctx'.discriminator? name = ctx.discriminator? name) :
    (model ctx s isDefinition name).outcome = (model ctx' t isDefinition name).outcome := by
  let n := max (levels ctx s) (levels ctx' t)
  have hstep := modelStep_alike h (fun hst => modelWithin_alike h hst n) hst isDefinition hname
  rw [← outcome_modelStep_of_le isDefinition (Nat.le_max_left _ _ : levels ctx s ≤ n),
    ← outcome_modelStep_of_le isDefinition (Nat.le_max_right _ _ : levels ctx' t ≤ n)]
  exact pairs_eq.1 hstep

end Twins

/-! ## Schemas of one document -/

/-- Related schemas have the same model or the same failure, whatever else they say and in whatever
order, if they are discerned alike. -/
theorem outcome_model_of_agreement {ctx : Context} {R : Node → Node → Prop}
    (hagree : Agreement ctx.dialect R) (hdiscerned : Discerned ctx.dialect R) {s t : Node}
    (hst : R s t) (isDefinition : Bool) (name : String) :
    (model ctx s isDefinition name).outcome = (model ctx t isDefinition name).outcome := by
  have htarget {u v : Node} (huv : R u v) :
      Pairs R (Node.target ctx.document u) (Node.target ctx.document v) := by
    unfold Node.target
    rw [ref?_plain (hagree.plain huv)]
    cases v.ref? with
    | some ref => exact .of_eq hagree.refl
    | none => exact .pure huv
  have htwin : Twin ctx ctx R := ⟨hagree, hdiscerned, rfl, htarget⟩
  exact outcome_model_of_twin htwin hst isDefinition rfl

/-- A pet has a name. -/
def namedPet : Node :=
  .record [("type", .text "object"),
    ("properties", .record [("name", .record [("type", .text "string")])])]

/-- The same pet with an example of a name and a remark, the other way round. -/
def remarkedPet : Node :=
  .record [("x-remark", .text "a friend"),
    ("properties", .record [("name", .record [("example", .text "Rex"),
      ("type", .text "string")])]),
    ("type", .text "object")]

/-- The remarks do not show in the model. -/
theorem outcome_model_of_agreement_pet :
    (model ⟨.record [], .v2, []⟩ namedPet true "Pet").outcome =
      (model ⟨.record [], .v2, []⟩ remarkedPet true "Pet").outcome := by
  let name : Node := .record [("type", .text "string")]
  let remarkedName : Node := .record [("example", .text "Rex"), ("type", .text "string")]
  let P (s t : Node) : Prop := (s = namedPet ∧ t = remarkedPet) ∨ (s = name ∧ t = remarkedName)
  have hagree : Agreement .v2 fun s t => s = t ∨ P s t := by
    refine .of_others ?mapping ?plain ?element ?properties ?members
    case mapping => rintro s t (⟨rfl, rfl⟩ | ⟨rfl, rfl⟩) <;> exact ⟨rfl, rfl⟩
    case plain => rintro s t (⟨rfl, rfl⟩ | ⟨rfl, rfl⟩) key hkey <;> fin_cases hkey <;> rfl
    case element =>
      rintro s t keyword (⟨rfl, rfl⟩ | ⟨rfl, rfl⟩) hkey <;> fin_cases hkey <;> exact .inl rfl
    case properties =>
      rintro s t (⟨rfl, rfl⟩ | ⟨rfl, rfl⟩)
      · exact .map (.cons ⟨rfl, .inr (.inr ⟨rfl, rfl⟩)⟩ .nil)
      · exact .same _
    case members =>
      rintro s t keyword kind (⟨rfl, rfl⟩ | ⟨rfl, rfl⟩) hkey <;> fin_cases hkey <;> exact .same _
  have hdiscerned : Discerned .v2 fun s t => s = t ∨ P s t := {
    items := by
      rintro s t (rfl | ⟨rfl, rfl⟩ | ⟨rfl, rfl⟩) harray
      · rfl
      · cases harray
      · cases harray
    bare := by
      rintro s t keyword kind (rfl | ⟨rfl, rfl⟩ | ⟨rfl, rfl⟩) hkey
      · exact .same _
      · fin_cases hkey; exact .same _
      · fin_cases hkey; exact .same _ }
  exact outcome_model_of_agreement hagree hdiscerned (.inr (.inl ⟨rfl, rfl⟩)) true "Pet"

/-- An array of anything is one without items, but with a remark on its items it is not: the schemas
agree, and their models are of two kinds. -/
theorem not_all_agree_alike :
    ¬ ∀ (ctx : Context) (s t : Node), Agree ctx.dialect s t →
      ∀ (isDefinition : Bool) (name : String),
        (model ctx s isDefinition name).outcome = (model ctx t isDefinition name).outcome := by
  intro hall
  let remark : Node := .record [("x-remark", .int 1)]
  let arrayOf (items : Node) : Node := .record [("type", .text "array"), ("items", items)]
  let P (s t : Node) : Prop :=
    (s = arrayOf (.map []) ∧ t = arrayOf remark) ∨ (s = .map [] ∧ t = remark)
  have hagree : Agreement .v2 fun s t => s = t ∨ P s t := by
    refine .of_others ?mapping ?plain ?element ?properties ?members
    case mapping => rintro s t (⟨rfl, rfl⟩ | ⟨rfl, rfl⟩) <;> exact ⟨rfl, rfl⟩
    case plain => rintro s t (⟨rfl, rfl⟩ | ⟨rfl, rfl⟩) key hkey <;> fin_cases hkey <;> rfl
    case element =>
      rintro s t keyword (⟨rfl, rfl⟩ | ⟨rfl, rfl⟩) hkey
      · fin_cases hkey
        · exact .inr (.inr ⟨rfl, rfl⟩)
        · exact .inl rfl
      · fin_cases hkey <;> exact .inl rfl
    case properties => rintro s t (⟨rfl, rfl⟩ | ⟨rfl, rfl⟩) <;> exact .same _
    case members =>
      rintro s t keyword kind (⟨rfl, rfl⟩ | ⟨rfl, rfl⟩) hkey <;> fin_cases hkey <;> exact .same _
  have hsame := hall ⟨.record [], .v2, []⟩ _ _ ⟨_, hagree, .inr (.inl ⟨rfl, rfl⟩)⟩ false ""
  have hkinds : (Except.ok ModelKind.generic : Except Fault ModelKind) = .ok .array :=
    congrArg (Except.map Model.kind) hsame
  cases hkinds

end Schema

end ApiModel
