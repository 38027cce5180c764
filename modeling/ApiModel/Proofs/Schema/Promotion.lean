import ApiModel.Proofs.Schema.Members

/-!
# Promoted properties

A composition that requires properties promotes them: what its members declare without requiring
it stands, as required, in one model behind the members.

**Theorem (`promoted_of_composition`).** What is promoted from a member depends on the schema to
which the member leads. From an interface it is, in order, what the interface declares without
requiring it and what is required under the *written* name of the property. From a composition it
is no property at all: it is every member of that composition if the empty name is required, and
the model behind the members if the name `properties` is. The promise that properties are promoted
by their keys, and properties only, is kept exactly if every member is `Clear`.

The written name of a property is its key, in quotes if the key is no identifier. Different keys
have different written names (`propertyName_injective`), so a key that is no identifier is promoted
for its name in quotes and for nothing else.
-/

namespace ApiModel

/-! ## Written names -/

namespace Identifier

theorem not_isIdentifier_quote (s : List Char) :
    isIdentifier (dropFinalBreak ('\'' :: s)) = false := by
  have hquote (rest : List Char) : isIdentifier ('\'' :: rest) = false := rfl
  unfold dropFinalBreak
  split_ifs
  · cases s with
    | nil => rfl
    | cons c rest => exact hquote _
  · exact hquote s

theorem ne_quoted {a b : String} (ha : isIdentifier (dropFinalBreak a.toList) = true) :
    a ≠ "'" ++ b ++ "'" := by
  rintro rfl
  rw [String.toList_append, String.toList_append] at ha
  exact Bool.false_ne_true ((not_isIdentifier_quote _).symm.trans ha)

/-- Different keys have different written names. -/
theorem propertyName_injective : Function.Injective propertyName := by
  intro a b h
  unfold propertyName at h
  split_ifs at h with ha hb hb
  · exact h
  · exact absurd h (ne_quoted ha)
  · exact absurd h.symm (ne_quoted hb)
  · have hlist := congrArg String.toList h
    simp only [String.toList_append, List.append_cancel_left_eq,
      List.append_cancel_right_eq] at hlist
    exact String.toList_inj.1 hlist

end Identifier

namespace Schema

open Report

variable {ctx : Context} {name : String} {s t : Node} {r : Rule} {m : Model} {isDefinition : Bool}
  {required own : List Node} {pairs : List (String × Model)} {part : List Model}

/-! ## Properties with their keys -/

/-- Is the key among the names that are required? -/
def lists (required : List Node) (key : String) : Bool := required.any (·.isText key)

/-- A property as a required one. -/
def promote (p : Model) : Model := { p with isRequired := true }

/-- A declaration, and the key and the property that it makes. -/
def Declares (ctx : Context) (t : Node) (e : Scalar × Node) (p : String × Model) : Prop :=
  e.1 = .text p.1 ∧ (property (inner ctx) ctx (requiredNames t) none "" e).outcome = .ok p.2

/-- The keys under which a schema declares properties, with the properties, in order. -/
def Declared (ctx : Context) (t : Node) : List (String × Model) → Prop :=
  List.Forall₂ (Declares ctx t) (declarations t)

/-- The properties that are required under what `written` makes of their keys, and that are not
required by what declares them. -/
def selected (written : String → String) (required own : List Node)
    (pairs : List (String × Model)) : List Model :=
  (pairs.filter fun p => lists required (written p.1) && !lists own p.1).map fun p => promote p.2

theorem declared_of_properties {declared : List Model}
    (h : (properties (inner ctx) ctx t "").outcome = .ok declared) :
    ∃ pairs, Declared ctx t pairs ∧ declared = pairs.map Prod.snd := by
  rw [properties_eq_ok, discriminator?_empty] at h
  unfold Declared
  generalize declarations t = entries at h
  induction h with
  | nil => exact ⟨[], .nil, rfl⟩
  | cons hp _ ih =>
    obtain ⟨pairs, hpairs, rfl⟩ := ih
    have hproperty := hp
    rw [← discriminator?_empty ctx] at hproperty
    obtain ⟨key, hkey, -, -, -⟩ := property_eq_ok hproperty
    exact ⟨(key, _) :: pairs, .cons ⟨hkey, hp⟩ hpairs, rfl⟩

/-- A schema declares only one list of properties. -/
theorem Declared.unique {pairs' : List (String × Model)} (h : Declared ctx t pairs)
    (h' : Declared ctx t pairs') : pairs = pairs' := by
  refine List.right_unique_forall₂' (fun e p p' hp hp' => ?_) h h'
  refine Prod.ext ?_ (Except.ok.inj (hp.2.symm.trans hp'.2))
  simpa using hp.1.symm.trans hp'.1

/-- A declared property has the written name of its key, and is required if the key is. -/
theorem Declared.label (h : Declared ctx t pairs) {p : String × Model} (hp : p ∈ pairs) :
    p.2.name = Identifier.propertyName p.1 ∧ p.2.isRequired = lists (requiredNames t) p.1 := by
  obtain ⟨e, -, hkey, hproperty⟩ := exists_left_of_mem h hp
  rw [← discriminator?_empty ctx] at hproperty
  obtain ⟨key, hkey', hname, hrequired, -⟩ := property_eq_ok hproperty
  obtain rfl : key = p.1 := by simpa using hkey'.symm.trans hkey
  exact ⟨hname, hrequired⟩

/-- Properties are selected under their written names as under their keys exactly if a key that
is not required yet is listed when its written name is. -/
theorem selected_eq_iff (h : Declared ctx t pairs) :
    selected Identifier.propertyName required own pairs = selected id required own pairs ↔
      ∀ p ∈ pairs, lists own p.1 = false →
        lists required (Identifier.propertyName p.1) = lists required p.1 := by
  constructor
  · intro heq p hp hown
    -- A copy shows its written name, and that is the name of one key only.
    have hmem (written : String → String) :
        promote p.2 ∈ selected written required own pairs ↔
          lists required (written p.1) = true := by
      refine ⟨fun hin => ?_, fun hlisted => ?_⟩
      · obtain ⟨q, hq, hcopy⟩ := List.mem_map.1 hin
        obtain ⟨hq, hlisted⟩ := List.mem_filter.1 hq
        have hname : q.2.name = p.2.name := (congrArg Model.name hcopy :)
        rw [(h.label hq).1, (h.label hp).1] at hname
        rw [Identifier.propertyName_injective hname] at hlisted
        exact (Bool.and_eq_true_iff.1 hlisted).1
      · refine List.mem_map.2 ⟨p, List.mem_filter.2 ⟨hp, ?_⟩, rfl⟩
        rw [hlisted, hown]
        rfl
    rw [Bool.eq_iff_iff, ← hmem, heq, hmem]
    rfl
  · intro hall
    refine congrArg (List.map _) (List.filter_congr fun p hp => ?_)
    cases hown : lists own p.1 with
    | true => simp
    | false => rw [hall p hp hown]; rfl

/-! ## What is promoted from a member -/

/-- What a composition that requires names promotes from a member, by the rule for the schema to
which the member leads. -/
inductive PromotedFrom (ctx : Context) (required : List Node) (t : Node) : List Model → Prop
  | nothing : required = [] → PromotedFrom ctx required t []
  | interface {target : Node} {l : Model} {pairs : List (String × Model)} :
      (Node.target ctx.document t).outcome = .ok target →
      (rule ctx target.asMap).outcome = .ok .interface →
      (inner ctx target).outcome = .ok l → l.properties = pairs.map Prod.snd →
      Declared ctx target.asMap pairs →
      PromotedFrom ctx required t
        (selected Identifier.propertyName required (requiredNames target.asMap) pairs)
  | composition {target : Node} {kind : ModelKind} {members : List Node} {l : Model}
      {options : List (Option Model)} {lifted own : List Model} :
      (Node.target ctx.document t).outcome = .ok target →
      (rule ctx target.asMap).outcome = .ok (.composition kind members) →
      (inner ctx target).outcome = .ok l →
      l.properties = options.reduceOption ++ gathered (lifted ++ own) →
      LeavesOutAll ctx (Dropped ctx) members options →
      (promoted (inner ctx) ctx target.asMap members).outcome = .ok lifted →
      (ownProperties (inner ctx) ctx target.asMap "").outcome = .ok own →
      PromotedFrom ctx required t
        (((if lists required "" then options.reduceOption else []) ++
          if lists required "properties" then gathered (lifted ++ own) else []).map promote)
  | other {target : Node} {r : Rule} {l : Model} :
      (Node.target ctx.document t).outcome = .ok target →
      (rule ctx target.asMap).outcome = .ok r → ¬ r.HasProperties →
      (inner ctx target).outcome = .ok l → l.properties = [] → PromotedFrom ctx required t []

/-- The promise: from an interface those properties are promoted whose keys are listed and not
required by the interface. From other schemas nothing is: what the model of a composition holds are
models of members and the model behind them, and these are no properties that it declares. -/
def Faithful (ctx : Context) (required : List Node) (t : Node) (part : List Model) : Prop :=
  ∀ target r, (Node.target ctx.document t).outcome = .ok target →
    (rule ctx target.asMap).outcome = .ok r →
    match r with
    | .interface => ∀ pairs, Declared ctx target.asMap pairs →
        part = selected id required (requiredNames target.asMap) pairs
    | _ => part = []

/-- A member of which the promise is kept: an interface in which a key that it does not require is
listed exactly if its written name is, or a composition without members that are kept if the empty
name is listed, and without properties behind them if the name `properties` is. -/
def Clear (ctx : Context) (required : List Node) (t : Node) : Prop :=
  ∀ target r, (Node.target ctx.document t).outcome = .ok target →
    (rule ctx target.asMap).outcome = .ok r →
    match r with
    | .interface => ∀ key p, (.text key, p) ∈ declarations target.asMap →
        lists (requiredNames target.asMap) key = false →
        lists required (Identifier.propertyName key) = lists required key
    | .composition _ members =>
        (lists required "" = true → ∀ u ∈ members, Dropped ctx u) ∧
        (lists required "properties" = true →
          (promoted (inner ctx) ctx target.asMap members).outcome = .ok [] ∧
            declarations target.asMap = [])
    | _ => True

/-- Which properties are promoted is seen from their names and from whether they are required. -/
theorem filter_promotable {models : List Model} {label : String}
    (h : ∀ q ∈ models, q.name = label ∧ q.isRequired = false) :
    (models.filter fun q => !q.isRequired && required.any (·.isText q.name)) =
      if lists required label then models else [] := by
  have hlisted : ∀ q ∈ models, (!q.isRequired && required.any (·.isText q.name)) =
      lists required label := by
    intro q hq
    rw [(h q hq).1, (h q hq).2]
    rfl
  rw [List.filter_congr hlisted]
  cases lists required label <;> simp

theorem label_of_mem_gathered {extra : List Model} :
    ∀ q ∈ gathered extra, q.name = "properties" ∧ q.isRequired = false := by
  intro q hq
  cases extra with
  | nil => cases hq
  | cons p rest =>
    obtain rfl := List.mem_singleton.1 hq
    exact ⟨rfl, rfl⟩

theorem gathered_of_ne_nil {extra : List Model} (h : extra ≠ []) :
    gathered extra = [{ name := "properties", kind := .interface, properties := extra }] := by
  cases extra with
  | nil => exact absurd rfl h
  | cons => rfl

theorem selected_eq_filter (h : Declared ctx t pairs) :
    ((pairs.map Prod.snd).filter fun q =>
        !q.isRequired && required.any (·.isText q.name)).map promote =
      selected Identifier.propertyName required (requiredNames t) pairs := by
  rw [List.filter_map, List.map_map]
  refine congrArg (List.map _) (List.filter_congr fun p hp => ?_)
  obtain ⟨hname, hrequired⟩ := h.label hp
  rw [Function.comp_apply, hname, hrequired, Bool.and_comm]
  rfl

theorem promotedFrom_of_eq_ok
    (h : (Schema.promotedFrom (inner ctx) ctx required t).outcome = .ok part) :
    PromotedFrom ctx required t part := by
  obtain ⟨target, l, htarget, hl, rfl⟩ := promotedFrom_eq_ok.1 h
  obtain ⟨r, hr, hmade⟩ := model_made hl
  -- The models of other rules have no properties.
  have hother (hnone : ¬ r.HasProperties) (hnil : l.properties = []) :
      PromotedFrom ctx required t
        ((l.properties.filter fun q => !q.isRequired && required.any (·.isText q.name)).map
          promote) := by
    rw [hnil]
    exact .other htarget hr hnone hl hnil
  cases hmade with
  | interface hown hcore =>
    obtain ⟨pairs, hpairs, rfl⟩ := declared_of_properties hown
    have hproperties : l.properties = pairs.map Prod.snd := properties_of_core hcore
    rw [hproperties]
    exact selected_eq_filter hpairs ▸ .interface htarget hr hl hproperties hpairs
  | @composition kind members options lifted own _ hoptions hlifted hown hcore =>
    have hproperties : l.properties = options.reduceOption ++ gathered (lifted ++ own) :=
      properties_of_core hcore
    have hkept : ∀ q ∈ options.reduceOption, q.name = "" ∧ q.isRequired = false := by
      intro q hq
      obtain ⟨u, -, -, hbuilt, -⟩ := mem_kept hoptions hq
      exact ⟨name_model hbuilt, isRequired_model hbuilt⟩
    rw [hproperties, List.filter_append, filter_promotable hkept,
      filter_promotable label_of_mem_gathered]
    exact .composition htarget hr hl hproperties (leavesOutAll_of_members hoptions) hlifted hown
  | reference hcore => exact hother id (properties_of_core hcore)
  | enumeration hcore => exact hother id (properties_of_core hcore)
  | referenceContainer _ hcore => exact hother id (properties_of_core hcore)
  | container _ _ hcore => exact hother id (properties_of_core hcore)
  | named hcore => exact hother id (properties_of_core hcore)
  | anything hcore => exact hother id (properties_of_core hcore)

/-- A member leads to one schema, and one rule is for it. -/
theorem forall_target_iff {P : Node → Rule → Prop} {target : Node}
    (htarget : (Node.target ctx.document t).outcome = .ok target)
    (hr : (rule ctx target.asMap).outcome = .ok r) :
    (∀ target r, (Node.target ctx.document t).outcome = .ok target →
      (rule ctx target.asMap).outcome = .ok r → P target r) ↔ P target r := by
  refine ⟨fun h => h target r htarget hr, fun h target' r' htarget' hr' => ?_⟩
  obtain rfl := Except.ok.inj (htarget.symm.trans htarget')
  obtain rfl := Except.ok.inj (hr.symm.trans hr')
  exact h

/-- The promise is kept of a member exactly if the member is clear. -/
theorem faithful_iff (h : PromotedFrom ctx required t part) :
    Faithful ctx required t part ↔ Clear ctx required t := by
  unfold Faithful Clear
  cases h with
  | nothing hnil =>
    subst hnil
    refine iff_of_true (fun target r _ _ => ?_) (fun target r _ _ => ?_)
    · cases r <;> simp [selected, lists]
    · cases r <;> simp [lists]
  | @interface target l pairs htarget hr _ _ hpairs =>
    rw [forall_target_iff htarget hr, forall_target_iff htarget hr]
    have hunique : (∀ pairs', Declared ctx target.asMap pairs' →
        selected Identifier.propertyName required (requiredNames target.asMap) pairs =
          selected id required (requiredNames target.asMap) pairs') ↔
        selected Identifier.propertyName required (requiredNames target.asMap) pairs =
          selected id required (requiredNames target.asMap) pairs :=
      ⟨fun h => h pairs hpairs, fun h pairs' hpairs' => hpairs.unique hpairs' ▸ h⟩
    rw [hunique, selected_eq_iff hpairs]
    constructor
    · intro hall key p hp
      obtain ⟨q, hq, hkey, -⟩ := exists_right_of_mem hpairs hp
      obtain rfl : key = q.1 := by simpa using hkey
      exact hall q hq
    · intro hall q hq
      obtain ⟨⟨key, p⟩, hp, rfl, -⟩ := exists_left_of_mem hpairs hq
      exact hall q.1 p hp
  | composition htarget hr _ _ hkept hlifted hown =>
    rw [forall_target_iff htarget hr, forall_target_iff htarget hr]
    dsimp only
    rw [List.map_eq_nil_iff, List.append_eq_nil_iff, ite_eq_right_iff, ite_eq_right_iff,
      reduceOption_eq_nil_iff hkept, gathered_eq_nil_iff, List.append_eq_nil_iff,
      ownProperties_eq_nil_iff hown, hlifted, Except.ok.injEq]
  | @other target r _ htarget hr hnone _ _ =>
    rw [forall_target_iff htarget hr, forall_target_iff htarget hr]
    cases r with
    | interface => exact absurd trivial hnone
    | composition => exact absurd trivial hnone
    | _ => simp

/-! ## What a composition promotes -/

theorem promotedFrom_of_promoted {members : List Node} {lifted : List Model}
    (h : (promoted (inner ctx) ctx s members).outcome = .ok lifted) :
    ∃ parts, lifted = parts.flatten ∧
      List.Forall₂ (PromotedFrom ctx (requiredNames s)) members parts := by
  unfold promoted at h
  split at h
  · rename_i hnil
    cases h
    refine ⟨members.map fun _ => [], by simp, ?_⟩
    rw [List.forall₂_map_right_iff, List.forall₂_same]
    exact fun t _ => .nothing hnil
  · obtain ⟨parts, hparts, rfl⟩ := map_eq_ok.1 h
    exact ⟨parts, rfl, (mapM_eq_ok.1 hparts).imp fun t part => promotedFrom_of_eq_ok⟩

/-- The model behind the members of a composition begins with what is promoted from the members,
in their order. The promise is kept of all members exactly if all are clear. -/
theorem promoted_of_composition {kind : ModelKind} {members : List Node}
    (h : (model ctx s isDefinition name).outcome = .ok m)
    (hr : (rule ctx s.asMap).outcome = .ok (.composition kind members)) :
    ∃ options parts own,
      (members.mapM (member (inner ctx) kind name)).outcome = .ok options ∧
      (ownProperties (inner ctx) ctx s.asMap name).outcome = .ok own ∧
      m.properties = options.reduceOption ++ gathered (parts.flatten ++ own) ∧
      List.Forall₂ (PromotedFrom ctx (requiredNames s.asMap)) members parts ∧
      (List.Forall₂ (Faithful ctx (requiredNames s.asMap)) members parts ↔
        ∀ t ∈ members, Clear ctx (requiredNames s.asMap) t) := by
  obtain ⟨options, lifted, own, hoptions, hlifted, hown, hproperties⟩ := composition_of_model h hr
  obtain ⟨parts, rfl, hparts⟩ := promotedFrom_of_promoted hlifted
  exact ⟨options, parts, own, hoptions, hown, hproperties, hparts,
    forall₂_iff_of_forall₂ hparts fun t part => faithful_iff⟩

/-! ## A letter -/

/-- A document in which an envelope declares a sender and, under a key that is no identifier, a
postal code. -/
def post : Context :=
  let string := Node.record [("type", .text "string")]
  let envelope := Node.record [("type", .text "object"),
    ("properties", .record [("sender", string), ("postal-code", string)])]
  { dialect := .v2, document := .record [("definitions", .record [("Envelope", envelope)])] }

/-- What refers to the envelope. -/
def envelope : Node := .record [("$ref", .text "#/definitions/Envelope")]

/-- A letter requires both of its envelope. -/
def letter : Node :=
  .record [("required", .list [.text "sender", .text "postal-code"]), ("allOf", .list [envelope])]

/-- A letter promotes the sender only. -/
theorem promoted_of_composition_letter :
    ∃ (m : Model) (options : List (Option Model)) (parts : List (List Model))
      (own : List Model),
      (model post letter false "").outcome = .ok m ∧
      m.properties.map (fun p => (p.name, p.properties.map (·.name))) =
        [("", []), ("properties", ["sender"])] ∧
      m.properties = options.reduceOption ++ gathered (parts.flatten ++ own) ∧
      List.Forall₂ (PromotedFrom post (requiredNames letter)) [envelope] parts := by
  obtain ⟨m, hm, hnames⟩ : ∃ m, (model post letter false "").outcome = .ok m ∧
      m.properties.map (fun p => (p.name, p.properties.map (·.name))) =
        [("", []), ("properties", ["sender"])] := ⟨_, rfl, rfl⟩
  have hr : (rule post letter.asMap).outcome = .ok (.composition .allOf [envelope]) := rfl
  obtain ⟨options, parts, own, -, -, hproperties, hparts, -⟩ := promoted_of_composition hm hr
  exact ⟨m, options, parts, own, hm, hnames, hproperties, hparts⟩

/-- Not every composition keeps the promise: a letter does not promote the postal code. -/
theorem not_all_faithful :
    ¬ ∀ (ctx : Context) (s : Node) (isDefinition : Bool) (name : String) (m : Model)
      (kind : ModelKind) (members : List Node),
      (model ctx s isDefinition name).outcome = .ok m →
      (rule ctx s.asMap).outcome = .ok (.composition kind members) →
      ∃ options parts own,
        (members.mapM (member (inner ctx) kind name)).outcome = .ok options ∧
        (ownProperties (inner ctx) ctx s.asMap name).outcome = .ok own ∧
        m.properties = options.reduceOption ++ gathered (parts.flatten ++ own) ∧
        List.Forall₂ (Faithful ctx (requiredNames s.asMap)) members parts := by
  intro hall
  obtain ⟨m, hm, hnames⟩ : ∃ m, (model post letter false "").outcome = .ok m ∧
      m.properties.map (fun p => p.properties.map (·.name)) = [[], ["sender"]] := ⟨_, rfl, rfl⟩
  obtain ⟨options, parts, own, -, hown, hproperties, hparts⟩ :=
    hall post letter false "" m .allOf [envelope] hm rfl
  obtain ⟨pairs, hpairs, hselected⟩ : ∃ pairs,
      Declared post ((post.document.field "definitions").field "Envelope") pairs ∧
      (selected id (requiredNames letter) [] pairs).map (·.name) = ["sender", "'postal-code'"] :=
    ⟨[("sender", _), ("postal-code", _)], .cons ⟨rfl, rfl⟩ (.cons ⟨rfl, rfl⟩ .nil), rfl⟩
  obtain rfl : [] = own := Except.ok.inj hown
  cases hparts with
  | @cons _ part _ _ hpart hnil =>
    cases hnil
    have hpart : part = selected id (requiredNames letter) [] pairs :=
      hpart _ .interface rfl rfl pairs hpairs
    -- The model behind the members would hold both, but it holds the sender only.
    have hbehind : (gathered ([part].flatten ++ [])).map (fun p => p.properties.map (·.name)) =
        [["sender", "'postal-code'"]] := by
      have hne : part ≠ [] := by
        rintro rfl
        rw [← hpart] at hselected
        cases hselected
      rw [List.flatten_singleton, List.append_nil, gathered_of_ne_nil hne, List.map_singleton,
        hpart, hselected]
    rw [hproperties, List.map_append, hbehind] at hnames
    have hlast := congrArg List.getLast? hnames
    simp at hlast

end Schema

end ApiModel
