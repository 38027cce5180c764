import ApiModel.Proofs.Node.Keys
import ApiModel.Proofs.Schema.Promotion
import Mathlib.Data.List.Nodup

/-!
# Names that members offer

What a composition promotes from its members comes from each of them apart, and nothing looks for a
name that has been promoted already. `Offers` says of the schema alone which names a member offers
to the composition.

**Theorem (`names_of_promotedFrom`).** The names of what is promoted from a member are those that it
offers.

**Theorem (`nodup_gathered_iff`).** What a composition promotes and declares has different names
exactly if it `TellsApart`: no two members offer one name, none is asked for several members of its
own, which have no names, and none offers the name of a property that the composition declares.
-/

namespace ApiModel

namespace Schema

open Report

variable {ctx : Context} {name : String} {build : Builder} {s t target : Node} {m l : Model}
  {required members : List Node} {kind : ModelKind}

/-! ## Names of declared properties -/

/-- The names of the properties of a schema are the written keys, in order. -/
theorem names_of_properties {own : List Model}
    (h : (properties build ctx s name).outcome = .ok own) :
    ∃ keys : List String, (declarations s).map (·.1) = keys.map Scalar.text ∧
      own.map (·.name) = keys.map Identifier.propertyName := by
  have hforall := properties_eq_ok.1 h
  clear h
  generalize declarations s = entries at hforall
  induction hforall with
  | nil => exact ⟨[], rfl, rfl⟩
  | cons hproperty _ ih =>
    obtain ⟨keys, hkeys, hnames⟩ := ih
    obtain ⟨key, hkey, hname, -, -⟩ := property_eq_ok hproperty
    refine ⟨key :: keys, ?_, ?_⟩
    · rw [List.map_cons, List.map_cons, hkey, hkeys]
    · rw [List.map_cons, List.map_cons, hname, hnames]

/-- The properties of a schema have different names. -/
theorem nodup_properties {own : List Model} (hs : s.Keyed)
    (h : (properties build ctx s name).outcome = .ok own) : (own.map (·.name)).Nodup := by
  obtain ⟨keys, hkeys, hnames⟩ := names_of_properties h
  have hdeclared : ((declarations s).map (·.1)).Nodup := (hs.field "properties").entries.nodup
  rw [hkeys] at hdeclared
  rw [hnames]
  exact hdeclared.of_map.map Identifier.propertyName_injective

theorem mem_names_of_properties {own : List Model}
    (h : (properties build ctx s name).outcome = .ok own) {n : String} :
    n ∈ own.map (·.name) ↔
      ∃ key p, (.text key, p) ∈ declarations s ∧ n = Identifier.propertyName key := by
  obtain ⟨keys, hkeys, hnames⟩ := names_of_properties h
  have hkey {key : String} : key ∈ keys ↔ ∃ p, (.text key, p) ∈ declarations s := by
    rw [← List.mem_map_of_injective (f := Scalar.text) fun _ _ heq => Scalar.text.inj heq, ← hkeys,
      List.mem_map]
    constructor
    · rintro ⟨⟨k, p⟩, hmem, rfl⟩
      exact ⟨p, hmem⟩
    · rintro ⟨p, hmem⟩
      exact ⟨_, hmem, rfl⟩
  rw [hnames, List.mem_map]
  constructor
  · rintro ⟨key, hmem, rfl⟩
    obtain ⟨p, hp⟩ := hkey.1 hmem
    exact ⟨key, p, hp, rfl⟩
  · rintro ⟨key, p, hp, rfl⟩
    exact ⟨key, hkey.2 ⟨p, hp⟩, rfl⟩

/-! ## What is offered -/

/-- A member offers a name to a composition that requires the given names. -/
inductive Offers (ctx : Context) : List Node → Node → String → Prop
  /-- An interface offers what it declares and does not require. -/
  | property {required : List Node} {t target : Node} {key : String} {p : Node} :
      (Node.target ctx.document t).outcome = .ok target →
      (rule ctx target.asMap).outcome = .ok .interface →
      (.text key, p) ∈ declarations target.asMap →
      lists (requiredNames target.asMap) key = false →
      lists required (Identifier.propertyName key) = true →
      Offers ctx required t (Identifier.propertyName key)
  /-- A composition offers its members, which have no name. -/
  | member {required : List Node} {t target : Node} {kind : ModelKind} {members : List Node}
      {u : Node} : (Node.target ctx.document t).outcome = .ok target →
      (rule ctx target.asMap).outcome = .ok (.composition kind members) → u ∈ members →
      ¬ Dropped ctx u → lists required "" = true → Offers ctx required t ""
  /-- It offers the model behind its members, if it promotes something. -/
  | promoted {required : List Node} {t target : Node} {kind : ModelKind} {members : List Node}
      {u : Node} {n : String} : (Node.target ctx.document t).outcome = .ok target →
      (rule ctx target.asMap).outcome = .ok (.composition kind members) → u ∈ members →
      Offers ctx (requiredNames target.asMap) u n → lists required "properties" = true →
      Offers ctx required t "properties"
  /-- It offers the model behind its members, if it declares something. -/
  | declared {required : List Node} {t target : Node} {kind : ModelKind} {members : List Node} :
      (Node.target ctx.document t).outcome = .ok target →
      (rule ctx target.asMap).outcome = .ok (.composition kind members) →
      declarations target.asMap ≠ [] → lists required "properties" = true →
      Offers ctx required t "properties"

theorem Offers.lists {n : String} (h : Offers ctx required t n) : lists required n = true := by
  cases h <;> assumption

theorem not_offers_nil (n : String) : ¬ Offers ctx [] t n := fun h => nomatch h.lists

/-- A property of a model is promoted if the composition lists its name and it is not required
already. -/
def Promotable (required : List Node) (q : Model) : Prop :=
  q.isRequired = false ∧ lists required q.name = true

/-- What is promoted from a member are copies of what is promotable there. -/
theorem mem_promotedFrom {part : List Model}
    (h : (promotedFrom build ctx required t).outcome = .ok part) :
    ∃ target l, (Node.target ctx.document t).outcome = .ok target ∧
      (build target).outcome = .ok l ∧
      ∀ p, p ∈ part ↔ ∃ q ∈ l.properties, Promotable required q ∧ p = promote q := by
  obtain ⟨target, l, htarget, hl, rfl⟩ := promotedFrom_eq_ok.1 h
  refine ⟨target, l, htarget, hl, fun p => ?_⟩
  simp only [List.mem_map, List.mem_filter, Bool.and_eq_true, Bool.not_eq_true', Promotable, lists,
    promote, and_assoc, eq_comm (a := p)]

theorem promoted_eq_ok {lifted : List Model} (hrequired : requiredNames s ≠ []) :
    (promoted build ctx s members).outcome = .ok lifted ↔
      ∃ parts, List.Forall₂ (fun t part =>
        (promotedFrom build ctx (requiredNames s) t).outcome = .ok part) members parts ∧
        lifted = parts.flatten := by
  unfold promoted
  split
  · rename_i hnil
    exact absurd hnil hrequired
  · rw [map_eq_ok]
    simp only [mapM_eq_ok, eq_comm (a := lifted)]

/-- If anything is promoted, names are required, and something in the schema to which a member leads
can be promoted. -/
theorem exists_promotable_of_mem {lifted : List Model}
    (h : (promoted build ctx s members).outcome = .ok lifted) (hne : lifted ≠ []) :
    requiredNames s ≠ [] ∧ ∃ t ∈ members, ∃ target l q,
      (Node.target ctx.document t).outcome = .ok target ∧ (build target).outcome = .ok l ∧
      q ∈ l.properties ∧ Promotable (requiredNames s) q := by
  obtain ⟨p, hp⟩ := List.exists_mem_of_ne_nil _ hne
  obtain ⟨hrequired, t, ht, target, l, q, htarget, hl, hq, hfree, hlisted, -⟩ := mem_promoted h hp
  exact ⟨hrequired, t, ht, target, l, q, htarget, hl, hq, hfree, hlisted⟩

theorem promoted_eq_nil {lifted : List Model}
    (h : (promoted build ctx s members).outcome = .ok lifted) (hrequired : requiredNames s = []) :
    lifted = [] := by
  by_contra hne
  exact (exists_promotable_of_mem h hne).1 hrequired

/-- What could be promoted from the schema to which a member leads, the member offers. -/
theorem offers_of_promotable (htarget : (Node.target ctx.document t).outcome = .ok target)
    (hl : (inner ctx target).outcome = .ok l) {q : Model} (hq : q ∈ l.properties)
    (hpromotable : Promotable required q) : Offers ctx required t q.name := by
  refine made_induction (R := fun target l => ∀ {required t q},
    (Node.target ctx.document t).outcome = .ok target → q ∈ l.properties →
      Promotable required q → Offers ctx required t q.name) ?_ hl htarget hq hpromotable
  rintro name s r m hr hmade hvisited required t q htarget hq ⟨hfree, hlisted⟩
  have hother (hnil : m.properties = []) : Offers ctx required t q.name := by
    rw [hnil] at hq
    cases hq
  cases hmade with
  | interface hown hcore =>
    rw [(properties_of_core hcore :)] at hq
    obtain ⟨entries, key, p, hentries, hmem, hname, hrequired, -⟩ := mem_properties hown hq
    rw [← declarations_eq hentries] at hmem
    rw [hname] at hlisted ⊢
    exact .property htarget hr hmem (hrequired.symm.trans hfree) hlisted
  | @composition kind members options lifted own _ hoptions hlifted hown hcore =>
    rw [(properties_of_core hcore :)] at hq
    rcases List.mem_append.1 hq with hq | hq
    · obtain ⟨u, hu, hbare, hbuilt, hempty⟩ := mem_kept hoptions hq
      rw [name_model hbuilt] at hlisted ⊢
      refine .member htarget hr hu ?_ hlisted
      rintro (hbare' | hhollow)
      · rw [hbare] at hbare'
        cases hbare'
      · rw [(isEmptyMember_iff_hollow hbuilt).2 hhollow] at hempty
        cases hempty
    · rw [(label_of_mem_gathered q hq).1] at hlisted ⊢
      by_cases hown' : own = []
      · have hlifted' : lifted ≠ [] := by
          rintro rfl
          rw [hown'] at hq
          cases hq
        obtain ⟨hrequired, u, hu, target', l', q', htarget', hl', hq', hpromotable'⟩ :=
          exists_promotable_of_mem hlifted hlifted'
        have hoffers := hvisited target' (.target hr hrequired hu htarget') l' hl' htarget' hq'
          hpromotable'
        exact .promoted htarget hr hu hoffers hlisted
      · exact .declared htarget hr (mt (ownProperties_eq_nil_iff hown).2 hown') hlisted
  | reference hcore => exact hother (properties_of_core hcore)
  | enumeration hcore => exact hother (properties_of_core hcore)
  | referenceContainer _ hcore => exact hother (properties_of_core hcore)
  | container _ _ hcore => exact hother (properties_of_core hcore)
  | named hcore => exact hother (properties_of_core hcore)
  | anything hcore => exact hother (properties_of_core hcore)

/-- The model behind the members can be promoted from a composition that has it. -/
theorem exists_gathered {options : List (Option Model)} {extra : List Model}
    (hproperties : l.properties = options.reduceOption ++ gathered extra) (hextra : extra ≠ [])
    (hlisted : lists required "properties" = true) :
    ∃ q ∈ l.properties, Promotable required q ∧ q.name = "properties" := by
  rw [hproperties, gathered_of_ne_nil hextra]
  exact ⟨_, List.mem_append_right _ List.mem_cons_self, ⟨rfl, hlisted⟩, rfl⟩

/-- What a member offers is promotable in the schema to which the member leads. -/
theorem exists_promotable {n : String} (h : Offers ctx required t n) :
    ∀ {target l}, (Node.target ctx.document t).outcome = .ok target →
      (inner ctx target).outcome = .ok l →
      ∃ q ∈ l.properties, Promotable required q ∧ q.name = n := by
  induction h with
  | property htarget hr hmem hfree hlisted =>
    intro target l htarget' hl
    obtain rfl := Except.ok.inj (htarget.symm.trans htarget')
    obtain ⟨r, hr', hmade⟩ := model_made hl
    obtain rfl := Except.ok.inj (hr.symm.trans hr')
    cases hmade with
    | interface hown hcore =>
      obtain ⟨q, hq, hproperty⟩ := exists_right_of_mem (properties_eq_ok.1 hown) hmem
      obtain ⟨key, hkey, hname, hrequired, -⟩ := property_eq_ok hproperty
      cases hkey
      rw [(properties_of_core hcore :)]
      exact ⟨q, hq, ⟨hrequired.trans hfree, hname ▸ hlisted⟩, hname⟩
  | member htarget hr hu hkept hlisted =>
    intro target l htarget' hl
    obtain rfl := Except.ok.inj (htarget.symm.trans htarget')
    obtain ⟨options, lifted, own, hoptions, -, -, hproperties⟩ := composition_of_model hl hr
    have hbare : isBareObject _ = false := Bool.eq_false_iff.2 fun hbare => hkept (.inl hbare)
    obtain ⟨k, hk⟩ := built_member hoptions hu hbare
    have hempty : isEmptyMember k = false := Bool.eq_false_iff.2 fun hempty =>
      hkept (.inr ((isEmptyMember_iff_hollow hk).1 hempty))
    rw [hproperties]
    refine ⟨k, List.mem_append_left _ (mem_kept_of_member hoptions hu hbare hk hempty),
      ⟨isRequired_model hk, ?_⟩, name_model hk⟩
    rwa [name_model hk]
  | promoted htarget hr hu hoffers hlisted ih =>
    intro target l htarget' hl
    obtain rfl := Except.ok.inj (htarget.symm.trans htarget')
    obtain ⟨options, lifted, own, -, hlifted, -, hproperties⟩ := composition_of_model hl hr
    have hrequired : requiredNames _ ≠ [] := fun hnil =>
      not_offers_nil _ (hnil ▸ hoffers)
    obtain ⟨parts, hparts, rfl⟩ := (promoted_eq_ok hrequired).1 hlifted
    obtain ⟨part, hpart, hfrom⟩ := exists_right_of_mem hparts hu
    obtain ⟨_, _, htarget', hl', hmem⟩ := mem_promotedFrom hfrom
    obtain ⟨q, hq, hpromotable, -⟩ := ih htarget' hl'
    have hcopy : promote q ∈ parts.flatten :=
      List.mem_flatten.2 ⟨part, hpart, (hmem _).2 ⟨q, hq, hpromotable, rfl⟩⟩
    exact exists_gathered hproperties
      (List.ne_nil_of_mem (List.mem_append_left own hcopy)) hlisted
  | declared htarget hr hdeclares hlisted =>
    intro target l htarget' hl
    obtain rfl := Except.ok.inj (htarget.symm.trans htarget')
    obtain ⟨options, lifted, own, -, -, hown, hproperties⟩ := composition_of_model hl hr
    have hne : own ≠ [] := mt (ownProperties_eq_nil_iff hown).1 hdeclares
    exact exists_gathered hproperties (fun hnil => hne (List.append_eq_nil_iff.1 hnil).2) hlisted

/-- The names of what is promoted from a member are those that it offers. -/
theorem names_of_promotedFrom {part : List Model}
    (h : (promotedFrom (inner ctx) ctx required t).outcome = .ok part) (n : String) :
    n ∈ part.map (·.name) ↔ Offers ctx required t n := by
  obtain ⟨target, l, htarget, hl, hmem⟩ := mem_promotedFrom h
  rw [List.mem_map]
  constructor
  · rintro ⟨p, hp, rfl⟩
    obtain ⟨q, hq, hpromotable, rfl⟩ := (hmem p).1 hp
    exact (offers_of_promotable htarget hl hq hpromotable :)
  · intro hoffers
    obtain ⟨q, hq, hpromotable, hname⟩ := exists_promotable hoffers htarget hl
    exact ⟨promote q, (hmem _).2 ⟨q, hq, hpromotable, rfl⟩, hname⟩

/-! ## What a member offers once -/

/-- If the empty name is required, then of the composition to which a member leads no two members
are kept. -/
def KeepsOne (ctx : Context) (required : List Node) (t : Node) : Prop :=
  ∀ target kind members, (Node.target ctx.document t).outcome = .ok target →
    (rule ctx target.asMap).outcome = .ok (.composition kind members) →
    lists required "" = true → members.Pairwise fun u v => Dropped ctx u ∨ Dropped ctx v

theorem keepsOne_of_not_lists (h : lists required "" = false) : KeepsOne ctx required t := by
  intro _ _ _ _ _ hlisted
  rw [h] at hlisted
  cases hlisted

theorem keepsOne_iff (htarget : (Node.target ctx.document t).outcome = .ok target)
    (hr : (rule ctx target.asMap).outcome = .ok (.composition kind members)) :
    KeepsOne ctx required t ↔
      (lists required "" = true → members.Pairwise fun u v => Dropped ctx u ∨ Dropped ctx v) := by
  constructor
  · exact fun h => h target kind members htarget hr
  · intro h target' kind' members' htarget' hr'
    obtain rfl := Except.ok.inj (htarget.symm.trans htarget')
    cases Except.ok.inj (hr.symm.trans hr')
    exact h

theorem keepsOne_of_no_composition {r : Rule}
    (htarget : (Node.target ctx.document t).outcome = .ok target)
    (hr : (rule ctx target.asMap).outcome = .ok r) (hne : ∀ kind us, r ≠ .composition kind us) :
    KeepsOne ctx required t := by
  intro target' kind' members' htarget' hr'
  obtain rfl := Except.ok.inj (htarget.symm.trans htarget')
  exact absurd (Except.ok.inj (hr.symm.trans hr')) (hne _ _)

theorem name_of_kept {P : Node → Prop} {options : List (Option Model)}
    (h : LeavesOutAll ctx P members options) : ∀ k ∈ options.reduceOption, k.name = "" := by
  intro k hk
  obtain ⟨u, -, ⟨hnone, -⟩ | ⟨⟨k', hsome, hbuilt⟩, -⟩⟩ :=
    exists_left_of_mem h (List.reduceOption_mem_iff.1 hk)
  · cases hnone
  · cases hsome
    exact name_model hbuilt

/-- The members that are kept have one name, so the names repeat unless only one is kept. -/
theorem nodup_names_of_kept {P : Node → Prop} {options : List (Option Model)}
    (h : LeavesOutAll ctx P members options) :
    (options.reduceOption.map (·.name)).Nodup ↔ members.Pairwise fun u v => P u ∨ P v := by
  induction h with
  | nil => simp
  | @cons u o members options huo hrest ih =>
    rw [List.pairwise_cons]
    obtain ⟨rfl, hP⟩ | ⟨⟨k, rfl, hk⟩, hP⟩ := huo
    · rw [List.reduceOption_cons_of_none, ih, and_iff_right fun _ _ => .inl hP]
    · have hfresh : k.name ∉ options.reduceOption.map (·.name) ↔ ∀ v ∈ members, P u ∨ P v := by
        simp only [hP, false_or]
        rw [← reduceOption_eq_nil_iff hrest, name_model hk, List.mem_map]
        refine ⟨fun hnone => List.eq_nil_iff_forall_not_mem.2 fun l hl => ?_, fun hnil => ?_⟩
        · exact hnone ⟨l, hl, name_of_kept hrest l hl⟩
        · simp [hnil]
      rw [List.reduceOption_cons_of_some, List.map_cons, List.nodup_cons, hfresh, ih]

theorem nodup_names_gathered (extra : List Model) : ((gathered extra).map (·.name)).Nodup := by
  cases extra <;> simp [gathered]

theorem names_of_promote (ms : List Model) : (ms.map promote).map (·.name) = ms.map (·.name) := by
  rw [List.map_map]
  rfl

/-- What is promoted from a member has different names exactly if the member keeps one. -/
theorem nodup_promotedFrom {part : List Model}
    (htarget : (Node.target ctx.document t).outcome = .ok target) (hkeyed : target.asMap.Keyed)
    (h : (promotedFrom (inner ctx) ctx required t).outcome = .ok part) :
    (part.map (·.name)).Nodup ↔ KeepsOne ctx required t := by
  cases promotedFrom_of_eq_ok h with
  | nothing hnil =>
    subst hnil
    exact iff_of_true List.nodup_nil (keepsOne_of_not_lists rfl)
  | @interface target' l pairs htarget' hr hl hproperties hpairs =>
    obtain rfl := Except.ok.inj (htarget.symm.trans htarget')
    refine iff_of_true ?_ (keepsOne_of_no_composition htarget hr fun _ _ => nofun)
    have hnodup : (l.properties.map (·.name)).Nodup := by
      obtain ⟨r, hr', hmade⟩ := model_made hl
      obtain rfl := Except.ok.inj (hr.symm.trans hr')
      cases hmade with
      | interface hown hcore =>
        rw [(properties_of_core hcore :)]
        exact nodup_properties hkeyed hown
    rw [hproperties, List.map_map] at hnodup
    rw [selected, List.map_map]
    exact hnodup.sublist (List.filter_sublist.map _)
  | @composition target' kind members l options lifted own htarget' hr _ _ hoptions _ _ =>
    obtain rfl := Except.ok.inj (htarget.symm.trans htarget')
    rw [keepsOne_iff htarget hr, ← nodup_names_of_kept hoptions, names_of_promote,
      List.map_append, List.nodup_append']
    have hbehind : ∀ q ∈
        if lists required "properties" = true then gathered (lifted ++ own) else [],
        q.name = "properties" := by
      intro q hq
      split_ifs at hq
      · exact (label_of_mem_gathered q hq).1
      · cases hq
    constructor
    · rintro ⟨hkept, -, -⟩ hlisted
      rwa [if_pos hlisted] at hkept
    · intro hkept
      refine ⟨?_, ?_, ?_⟩
      · split_ifs with hlisted
        · exact hkept hlisted
        · exact List.nodup_nil
      · split_ifs
        · exact nodup_names_gathered _
        · exact List.nodup_nil
      · intro n hn hn'
        obtain ⟨q, hq, rfl⟩ := List.mem_map.1 hn
        obtain ⟨q', hq', hname⟩ := List.mem_map.1 hn'
        rw [hbehind q' hq'] at hname
        split_ifs at hq
        · rw [name_of_kept hoptions q hq] at hname
          simp at hname
        · cases hq
  | other htarget' hr hnone _ _ =>
    obtain rfl := Except.ok.inj (htarget.symm.trans htarget')
    refine iff_of_true List.nodup_nil (keepsOne_of_no_composition htarget hr ?_)
    rintro kind members rfl
    exact hnone trivial

/-! ## What a composition gathers -/

/-- What the members of a composition offer is told apart by its names, and from what the
composition declares. -/
structure TellsApart (ctx : Context) (s : Node) (members : List Node) : Prop where
  /-- No two members offer one name. -/
  apart : members.Pairwise fun t u => ∀ n,
    Offers ctx (requiredNames s) t n → ¬ Offers ctx (requiredNames s) u n
  /-- No member offers several models that have no name. -/
  unnamed : ∀ t ∈ members, KeepsOne ctx (requiredNames s) t
  /-- No member offers what the composition declares itself. -/
  own : ∀ t ∈ members, ∀ key p, (.text key, p) ∈ declarations s →
    ¬ Offers ctx (requiredNames s) t (Identifier.propertyName key)

/-- The names of what a composition promotes are those that its members offer. -/
theorem names_of_promoted {lifted : List Model}
    (h : (promoted (inner ctx) ctx s members).outcome = .ok lifted) (n : String) :
    n ∈ lifted.map (·.name) ↔ ∃ t ∈ members, Offers ctx (requiredNames s) t n := by
  by_cases hrequired : requiredNames s = []
  · rw [promoted_eq_nil h hrequired, hrequired]
    exact iff_of_false List.not_mem_nil fun ⟨t, _, hoffers⟩ => not_offers_nil n hoffers
  · obtain ⟨parts, hparts, rfl⟩ := (promoted_eq_ok hrequired).1 h
    rw [List.map_flatten, List.mem_flatten]
    constructor
    · rintro ⟨names, hnames, hn⟩
      obtain ⟨part, hpart, rfl⟩ := List.mem_map.1 hnames
      obtain ⟨t, ht, hfrom⟩ := exists_left_of_mem hparts hpart
      exact ⟨t, ht, (names_of_promotedFrom hfrom n).1 hn⟩
    · rintro ⟨t, ht, hoffers⟩
      obtain ⟨part, hpart, hfrom⟩ := exists_right_of_mem hparts ht
      exact ⟨_, List.mem_map_of_mem hpart, (names_of_promotedFrom hfrom n).2 hoffers⟩

/-- What a composition promotes has different names exactly if no two members offer one name, and
none offers several models that have no name. -/
theorem nodup_promoted {lifted : List Model}
    (hkeyed : ∀ t ∈ members, ∀ target, (Node.target ctx.document t).outcome = .ok target →
      target.asMap.Keyed)
    (h : (promoted (inner ctx) ctx s members).outcome = .ok lifted) :
    (lifted.map (·.name)).Nodup ↔
      (∀ t ∈ members, KeepsOne ctx (requiredNames s) t) ∧
        members.Pairwise fun t u => ∀ n,
          Offers ctx (requiredNames s) t n → ¬ Offers ctx (requiredNames s) u n := by
  by_cases hrequired : requiredNames s = []
  · rw [promoted_eq_nil h hrequired, hrequired]
    refine iff_of_true List.nodup_nil ⟨fun t _ => keepsOne_of_not_lists rfl, ?_⟩
    exact List.pairwise_of_forall fun t u n hoffers => (not_offers_nil n hoffers).elim
  · obtain ⟨parts, hparts, rfl⟩ := (promoted_eq_ok hrequired).1 h
    rw [List.map_flatten, List.nodup_flatten, List.forall_mem_map, List.pairwise_map]
    refine and_congr ?_ ?_
    · have hfrom := (List.forall₂_and_left _ _).2 ⟨fun t ht => ht, hparts⟩
      refine forall_mem_iff_of_forall₂ hfrom fun t part ⟨ht, hpart⟩ => ?_
      obtain ⟨target, -, htarget, -, -⟩ := promotedFrom_eq_ok.1 hpart
      exact nodup_promotedFrom htarget (hkeyed t ht target htarget) hpart
    · refine pairwise_iff_of_forall₂ hparts fun t part u part' hpart hpart' => ?_
      simp only [List.Disjoint, names_of_promotedFrom hpart, names_of_promotedFrom hpart',
        imp_false]

/-- The names of what a composition gathers are different exactly if it tells them apart. -/
theorem nodup_gathered_iff {lifted own : List Model} (hs : s.Keyed)
    (hkeyed : ∀ t ∈ members, ∀ target, (Node.target ctx.document t).outcome = .ok target →
      target.asMap.Keyed)
    (hlifted : (promoted (inner ctx) ctx s members).outcome = .ok lifted)
    (hown : (ownProperties (inner ctx) ctx s name).outcome = .ok own) :
    ((lifted ++ own).map (·.name)).Nodup ↔ TellsApart ctx s members := by
  have hdeclared := properties_of_ownProperties hown
  have hdisjoint : (lifted.map (·.name)).Disjoint (own.map (·.name)) ↔
      ∀ t ∈ members, ∀ key p, (.text key, p) ∈ declarations s →
        ¬ Offers ctx (requiredNames s) t (Identifier.propertyName key) := by
    simp only [List.Disjoint, names_of_promoted hlifted, mem_names_of_properties hdeclared,
      imp_false]
    constructor
    · exact fun h t ht key p hp hoffers => h ⟨t, ht, hoffers⟩ ⟨key, p, hp, rfl⟩
    · rintro h n ⟨t, ht, hoffers⟩ ⟨key, p, hp, rfl⟩
      exact h t ht key p hp hoffers
  rw [List.map_append, List.nodup_append', and_iff_right (nodup_properties hs hdeclared),
    nodup_promoted hkeyed hlifted, hdisjoint]
  exact ⟨fun ⟨⟨hone, hapart⟩, hself⟩ => ⟨hapart, hone, hself⟩,
    fun h => ⟨⟨h.unnamed, h.apart⟩, h.own⟩⟩

end Schema

end ApiModel
