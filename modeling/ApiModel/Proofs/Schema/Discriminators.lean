import ApiModel.Proofs.Schema.Definitions
import ApiModel.Proofs.Schema.Dependence
import ApiModel.Proofs.TypeExpr

/-!
# Discriminators

A schema that offers alternatives may tell them apart by a property, and where the document defines
one of the alternatives, a literal stands in the place of that property.

**Theorem (`discriminator?_eq_some_iff`).** The discriminator for a name is that of the first schema
of the document that offers an alternative of the name.

**Theorem (`isLiteral_literal`).** The literal of an alternative is the key under which the mapping
has it last, if it has it, and else its name.

**Theorem (`literals_of_definition`).** In the model of a definition, the literal stands in the
place of the property that the discriminator names. Everything else is as if there were no
discriminators, and in particular everything in schemas without names.

Index and mapping are read entry by entry, and what a new entry adds depends on what is there: so
they are compared with the lists of their entries by induction over these.
-/

namespace ApiModel

open Report

namespace Discriminator

variable {d : Dialect} {n : String} {parent discriminator : Node}

/-! ## The first schema that offers an alternative -/

/-- A schema with a discriminator offers an alternative of the given name. -/
def Offers (d : Dialect) (n : String) (parent : Node) : Prop :=
  (parent.field "discriminator").isMap = true ∧
    ∃ members, parent.field "oneOf" = .list members ∧
      ∃ t ∈ members, ∃ ref, t.ref? = some ref ∧ d.schemaName (.text ref) = n

/-- The discriminator of the first of several schemas that offers an alternative of the given
name. -/
def IsFirst (d : Dialect) (n : String) (entries : List (Scalar × Node)) (discriminator : Node) :
    Prop :=
  ∃ before key parent after, entries = before ++ (key, parent) :: after ∧
    (∀ e ∈ before, ¬ Offers d n e.2) ∧ Offers d n parent ∧
    parent.field "discriminator" = discriminator

theorem isFirst_cons {e : Scalar × Node} {entries : List (Scalar × Node)} :
    IsFirst d n (e :: entries) discriminator ↔
      (Offers d n e.2 ∧ e.2.field "discriminator" = discriminator) ∨
        ¬ Offers d n e.2 ∧ IsFirst d n entries discriminator := by
  constructor
  · rintro ⟨before, key, parent, after, heq, hbefore, hoffers, hfield⟩
    cases before with
    | nil =>
      obtain ⟨rfl, rfl⟩ := List.cons.inj heq
      exact .inl ⟨hoffers, hfield⟩
    | cons e' before =>
      obtain ⟨rfl, rfl⟩ := List.cons.inj heq
      obtain ⟨hnot, hbefore⟩ := List.forall_mem_cons.1 hbefore
      exact .inr ⟨hnot, before, key, parent, after, rfl, hbefore, hoffers, hfield⟩
  · rintro (⟨hoffers, hfield⟩ | ⟨hnot, before, key, parent, after, rfl, hbefore, hrest⟩)
    · exact ⟨[], e.1, e.2, entries, rfl, by simp, hoffers, hfield⟩
    · exact ⟨e :: before, key, parent, after, rfl, List.forall_mem_cons.2 ⟨hnot, hbefore⟩, hrest⟩

/-- References are only found among the items of a list. -/
theorem eq_list_of_ref {node t : Node} {members : List Node} {ref : String}
    (h : node.members? = some members) (ht : t ∈ members) (href : t.ref? = some ref) :
    node = .list members := by
  have hscalar (s : Scalar) : (Node.scalar s).ref? = none := rfl
  cases node with
  | list items => rw [Option.some.inj h]
  | map entries =>
    cases h
    obtain ⟨e, -, rfl⟩ := List.mem_map.1 ht
    rw [hscalar] at href
    cases href
  | scalar s =>
    cases s with
    | text s =>
      cases h
      obtain ⟨c, -, rfl⟩ := List.mem_map.1 ht
      rw [hscalar] at href
      cases href
    | _ => cases h

/-- What a schema adds to the index. -/
theorem mem_membersOf {found : List (String × Node)}
    (h : (membersOf d parent).outcome = .ok found) {e : String × Node} :
    e ∈ found ↔ Offers d e.1 parent ∧ parent.field "discriminator" = e.2 := by
  simp only [membersOf] at h
  split at h
  · rename_i hcondition
    obtain ⟨hmap, -⟩ := Bool.and_eq_true_iff.1 hcondition
    obtain ⟨members, hmembers, h⟩ := bind_eq_ok.1 h
    cases h
    have hmembers := ofOption_eq_ok.1 hmembers
    rw [List.mem_filterMap]
    constructor
    · rintro ⟨t, ht, hpair⟩
      obtain ⟨ref, href, rfl⟩ := Option.map_eq_some_iff.1 hpair
      exact ⟨⟨hmap, members, eq_list_of_ref hmembers ht href, t, ht, ref, href, rfl⟩, rfl⟩
    · rintro ⟨⟨-, members', hlist, t, ht, ref, href, hname⟩, hfield⟩
      rw [hlist] at hmembers
      cases hmembers
      exact ⟨t, ht, by rw [href, Option.map_some, hname, hfield]⟩
  · rename_i hcondition
    cases h
    refine iff_of_false List.not_mem_nil ?_
    rintro ⟨⟨hmap, members, hlist, t, ht, -⟩, -⟩
    refine hcondition ?_
    rw [hmap, hlist, Bool.true_and]
    simpa [Node.truthy] using List.ne_nil_of_mem ht

/-- What a schema adds to the index under a name. -/
theorem lookup_membersOf {found : List (String × Node)}
    (h : (membersOf d parent).outcome = .ok found) :
    (Offers d n parent → found.lookup n = some (parent.field "discriminator")) ∧
      (¬ Offers d n parent → found.lookup n = none) := by
  have hsome {value : Node} (hlookup : found.lookup n = some value) : (n, value) ∈ found := by
    obtain ⟨before, after, rfl, -⟩ := List.lookup_eq_some_iff.1 hlookup
    exact List.mem_append_right _ List.mem_cons_self
  cases hlookup : found.lookup n with
  | none =>
    refine ⟨fun hoffers => ?_, fun _ => rfl⟩
    have hmem : (n, parent.field "discriminator") ∈ found := (mem_membersOf h).2 ⟨hoffers, rfl⟩
    simpa using List.lookup_eq_none_iff.1 hlookup _ hmem
  | some value =>
    obtain ⟨hoffers, hfield⟩ := (mem_membersOf h).1 (hsome hlookup)
    exact ⟨fun _ => by rw [hfield], fun hnot => absurd hoffers hnot⟩

/-- What all schemas add to the index under a name, the first one first. -/
theorem lookup_flatten_iff {entries : List (Scalar × Node)} {found : List (List (String × Node))}
    (h : List.Forall₂ (fun e members => (membersOf d e.2).outcome = .ok members) entries found) :
    found.flatten.lookup n = some discriminator ↔ IsFirst d n entries discriminator := by
  induction h with
  | nil => simp [IsFirst]
  | @cons e members entries found he _ ih =>
    rw [List.flatten_cons, List.lookup_append, isFirst_cons]
    by_cases hoffers : Offers d n e.2
    · rw [(lookup_membersOf he).1 hoffers]
      simp [hoffers]
    · rw [(lookup_membersOf he).2 hoffers, Option.none_or, ih]
      simp [hoffers]

/-- Of several entries of one name, the first one is kept. -/
theorem lookup_firstOfName (entries : List (String × Node)) :
    (firstOfName entries).lookup n = entries.lookup n := by
  have hfold (index : List (String × Node)) :
      (entries.foldl (fun index e => if (index.lookup e.1).isSome then index else index ++ [e])
        index).lookup n = (index.lookup n).or (entries.lookup n) := by
    induction entries generalizing index with
    | nil => simp
    | cons e entries ih =>
      rw [List.foldl_cons, ih]
      split_ifs with hseen
      · -- An entry that is passed over has the name of one that is there.
        by_cases hname : n = e.1
        · subst hname
          obtain ⟨value, hvalue⟩ := Option.isSome_iff_exists.1 hseen
          rw [hvalue, Option.some_or, Option.some_or]
        · rw [List.lookup_cons, beq_false_of_ne hname]
      · rw [List.lookup_append, Option.or_assoc, ← List.lookup_append, List.singleton_append]
  rw [firstOfName, hfold, List.lookup_nil, Option.none_or]

/-! ## Literals -/

/-- The references of a mapping. -/
def references (entries : List (Scalar × Node)) : List String := entries.filterMap (·.2.text?)

/-- The literal of the alternative of the given name: the last key of the first reference by that
name in the mapping, or the name itself if there is no such reference. -/
inductive IsLiteral (d : Dialect) (discriminator : Node) (n : String) : Scalar → Prop
  | mapped {before after : List (Scalar × Node)} {key : Scalar} {ref : String} :
      discriminator.field "mapping" = .map (before ++ (key, .text ref) :: after) →
      (references (before ++ (key, .text ref) :: after)).find?
        (fun ref => d.schemaName (.text ref) = n) = some ref →
      (∀ e ∈ after, e.2 ≠ .text ref) → IsLiteral d discriminator n key
  | unmapped : (∀ entries, discriminator.field "mapping" = .map entries →
      ∀ ref ∈ references entries, d.schemaName (.text ref) ≠ n) →
      IsLiteral d discriminator n (.text n)

variable {entries : List (Scalar × Node)} {ref : String} {key : Scalar}

theorem inverted_concat (entries : List (Scalar × Node)) (e : Scalar × Node) :
    inverted (entries ++ [e]) =
      match e.2.text? with
      | some ref =>
        if ((inverted entries).lookup ref).isSome then
          (inverted entries).map fun f => if f.1 = ref then (ref, e.1) else f
        else inverted entries ++ [(ref, e.1)]
      | none => inverted entries := by
  rw [inverted, List.foldl_append]
  rfl

theorem references_concat (entries : List (Scalar × Node)) (e : Scalar × Node) :
    references (entries ++ [e]) = references entries ++ e.2.text?.toList := by
  rw [references, List.filterMap_append]
  cases he : e.2.text? <;> simp [references, he]

theorem lookup_isSome_iff {found : List (String × Scalar)} :
    (found.lookup ref).isSome = true ↔ ∃ f ∈ found, f.1 = ref := by
  rw [← Option.ne_none_iff_isSome, ne_eq, List.lookup_eq_none_iff, not_forall]
  refine exists_congr fun f => ?_
  rw [Classical.not_imp, bne_iff_ne, not_not, eq_comm]

/-- The references stand in the inverted mapping in the order of their first entries. -/
theorem find?_inverted (p : String → Bool) :
    ((inverted entries).find? fun f => p f.1).map (·.1) = (references entries).find? p := by
  induction entries using List.reverseRecOn with
  | nil => rfl
  | append_singleton entries e ih =>
    rw [inverted_concat, references_concat, List.find?_append, ← ih]
    cases he : e.2.text? with
    | none => simp
    | some ref =>
      dsimp only
      split_ifs with hseen
      · -- A reference that comes again keeps its place, and is not found at a new one.
        have hrenamed : (fun f : String × Scalar => p f.1) ∘
            (fun f => if f.1 = ref then (ref, e.1) else f) = fun f => p f.1 := by
          funext f
          dsimp only [Function.comp_apply]
          split_ifs with href <;> simp [href]
        have hkept : (·.1) ∘ (fun f => if f.1 = ref then (ref, e.1) else f) =
            fun f : String × Scalar => f.1 := by
          funext f
          dsimp only [Function.comp_apply]
          split_ifs with href <;> simp [href]
        rw [List.find?_map, hrenamed, Option.map_map, hkept]
        cases hp : p ref with
        | false => simp [hp]
        | true =>
          obtain ⟨f, hf, rfl⟩ := lookup_isSome_iff.1 hseen
          have hfound : ((inverted entries).find? fun f => p f.1).isSome = true :=
            List.find?_isSome.2 ⟨f, hf, hp⟩
          obtain ⟨g, hg⟩ := Option.isSome_iff_exists.1 hfound
          rw [hg, Option.map_some, Option.some_or]
      · rw [List.find?_append, Option.map_or]
        cases hp : p ref <;> simp [hp]

/-- With each reference stands the key of its last entry. -/
theorem last_of_mem_inverted (h : (ref, key) ∈ inverted entries) :
    ∃ before after, entries = before ++ (key, .text ref) :: after ∧
      ∀ e ∈ after, e.2 ≠ .text ref := by
  induction entries using List.reverseRecOn with
  | nil => cases h
  | append_singleton entries e ih =>
    have hkeep (hmem : (ref, key) ∈ inverted entries) (hne : e.2 ≠ .text ref) :
        ∃ before after, entries ++ [e] = before ++ (key, .text ref) :: after ∧
          ∀ e ∈ after, e.2 ≠ .text ref := by
      obtain ⟨before, after, rfl, hafter⟩ := ih hmem
      refine ⟨before, after ++ [e], by simp, fun e' he' => ?_⟩
      rcases List.mem_append.1 he' with he' | he'
      · exact hafter e' he'
      · rwa [List.mem_singleton.1 he']
    rw [inverted_concat] at h
    split at h
    · rename_i r hr
      split_ifs at h with hseen
      · obtain ⟨f, hf, heq⟩ := List.mem_map.1 h
        split_ifs at heq with hfr
        · cases heq
          exact ⟨entries, [], by rw [← Node.text?_eq_some_iff.1 hr], by simp⟩
        · subst heq
          exact hkeep hf fun htext => hfr (by rw [htext] at hr; exact Option.some.inj hr)
      · rcases List.mem_append.1 h with h | h
        · refine hkeep h fun htext => hseen (lookup_isSome_iff.2 ⟨_, h, ?_⟩)
          rw [htext] at hr
          exact Option.some.inj hr
        · cases List.mem_singleton.1 h
          exact ⟨entries, [], by rw [← Node.text?_eq_some_iff.1 hr], by simp⟩
    · rename_i hr
      exact hkeep h fun htext => by rw [htext] at hr; cases hr

/-- The literal of an alternative is as `IsLiteral` says. -/
theorem isLiteral_literal (d : Dialect) (discriminator : Node) (n : String) :
    IsLiteral d discriminator n (literal d discriminator n) := by
  unfold literal
  cases hmapping : discriminator.field "mapping" with
  | map entries =>
    have hfirst := @find?_inverted entries fun ref => d.schemaName (.text ref) = n
    simp only [Node.entries?]
    cases hfound : (inverted entries).find? fun f => d.schemaName (.text f.1) = n with
    | none =>
      refine .unmapped fun entries' heq ref href hname => ?_
      cases hmapping.symm.trans heq
      rw [hfound, Option.map_none] at hfirst
      simpa [hname] using List.find?_eq_none.1 hfirst.symm ref href
    | some f =>
      obtain ⟨before, after, rfl, hafter⟩ :=
        last_of_mem_inverted (List.mem_of_find?_eq_some hfound)
      rw [hfound, Option.map_some] at hfirst
      exact .mapped hmapping hfirst.symm hafter
  | _ =>
    refine .unmapped fun entries heq => ?_
    cases hmapping.symm.trans heq

end Discriminator

namespace Schema

variable {ctx : Context} {document s discriminator : Node} {n : String} {m : Model}

/-! ## The discriminator for a name -/

/-- The discriminator for an alternative of the given name: that of the first schema of the document
that offers it. -/
def Discriminates (ctx : Context) (n : String) (discriminator : Node) : Prop :=
  ∃ entries, definitionsOf ctx = .map entries ∧
    Discriminator.IsFirst ctx.dialect n entries discriminator

theorem definitionsOf_of_ofDocument (h : (Context.ofDocument document).outcome = .ok ctx)
    (hd : ctx.dialect = .v3) :
    ∃ entries found, (sectionEntries (definitionsOf ctx)).outcome = .ok entries ∧
      List.Forall₂ (fun e members =>
        (Discriminator.membersOf ctx.dialect e.2).outcome = .ok members) entries found ∧
      ctx.discriminators = Discriminator.firstOfName found.flatten := by
  obtain ⟨d, -, h⟩ := bind_eq_ok.1 h
  obtain ⟨index, hindex, h⟩ := bind_eq_ok.1 h
  cases h
  obtain rfl : d = .v3 := hd
  obtain ⟨entries, hentries, h⟩ := bind_eq_ok.1 hindex
  obtain ⟨found, hfound, h⟩ := bind_eq_ok.1 h
  cases h
  exact ⟨entries, found, (unless_eq_ok.1 hentries).2, mapM_eq_ok.1 hfound, rfl⟩

/-- The discriminator for a name is that of the first schema that offers an alternative of it. -/
theorem discriminator?_eq_some_iff (h : (Context.ofDocument document).outcome = .ok ctx)
    (hd : ctx.dialect = .v3) (hn : n ≠ "") :
    ctx.discriminator? n = some discriminator ↔ Discriminates ctx n discriminator := by
  obtain ⟨entries, found, hentries, hfound, hindex⟩ := definitionsOf_of_ofDocument h hd
  rw [Context.discriminator?, if_neg hn, hindex, Discriminator.lookup_firstOfName,
    Discriminator.lookup_flatten_iff hfound]
  constructor
  · intro hfirst
    have ⟨before, key, parent, after, heq, _⟩ := hfirst
    have hmem : (key, parent) ∈ entries := heq ▸ List.mem_append_right _ List.mem_cons_self
    exact ⟨entries, mem_sectionEntries hentries hmem, hfirst⟩
  · rintro ⟨entries', hmap, hfirst⟩
    rw [hmap, sectionEntries_map] at hentries
    cases hentries
    exact hfirst

end Schema

/-! ## What a discriminator changes -/

/-- The same document as if it told no alternatives apart. -/
def Context.plain (ctx : Context) : Context := { ctx with discriminators := [] }

namespace Schema

variable {ctx : Context} {document s discriminator : Node} {n : String} {m : Model}

theorem discriminator?_plain (ctx : Context) (n : String) : ctx.plain.discriminator? n = none := by
  unfold Context.discriminator?
  split_ifs <;> rfl

/-- Where no properties are built under a name that is told apart, discriminators change
nothing. -/
theorem model_plain (isDefinition : Bool) (h : ∀ r, (rule ctx s.asMap).outcome = .ok r →
    r.HasProperties → ctx.discriminator? n = none) :
    model ctx.plain s isDefinition n = model ctx s isDefinition n := by
  have hdocument : ctx.plain.document = ctx.document := rfl
  have hdialect : ctx.plain.dialect = ctx.dialect := rfl
  have halike : Alike ctx ctx.plain n s :=
    ⟨hdialect, fun r hr hp => (discriminator?_plain ctx n).trans (h r hr hp).symm,
      fun _ => hdocument⟩
  unfold model levels
  rw [hdocument, modelWithin_of_discriminators hdocument hdialect, modelStep_of_alike halike]

theorem inner_plain (ctx : Context) : inner ctx.plain = inner ctx :=
  funext fun _ => model_plain false fun _ _ _ => discriminator?_empty ctx

/-- A property that a discriminator does not name is made as if there were none. -/
theorem property_of_not_named {build : Builder} {required : List Node} {key : String} {p : Node}
    (h : (discriminator.field "propertyName").isText key = false) :
    property build ctx.plain required none n (.text key, p) =
      property build ctx required (some discriminator) n (.text key, p) := by
  simp only [property, Option.filter_some, h, Option.filter_none]
  rfl

/-- A property of an alternative: the literal if the discriminator names it, and otherwise what it
is without the discriminator. -/
structure IsTold (ctx : Context) (n : String) (discriminator : Node) (required : List Node)
    (key : String) (p : Node) (m : Model) : Prop where
  name : m.name = Identifier.propertyName key
  literal : (discriminator.field "propertyName").isText key = true →
    ∃ literal, Discriminator.IsLiteral ctx.dialect discriminator n literal ∧
      m.core = { type := "string", base := "'" ++ literal.display ++ "'", kind := .reference }
  other : (discriminator.field "propertyName").isText key = false →
    (property (inner ctx.plain) ctx.plain required none n (.text key, p)).outcome = .ok m

theorem isTold_of_property {required : List Node} {e : Scalar × Node}
    (hd : ctx.discriminator? n = some discriminator)
    (h : (property (inner ctx) ctx required (ctx.discriminator? n) n e).outcome = .ok m) :
    ∃ key, e.1 = .text key ∧ IsTold ctx n discriminator required key e.2 m := by
  obtain ⟨key, hkey, hname, -, hmade⟩ := property_eq_ok h
  refine ⟨key, hkey, hname, fun hnamed => ?_, fun hnot => ?_⟩
  · have hsub : substitute? ctx n key = some discriminator := by
      rw [substitute?, hd, Option.filter_some, if_pos hnamed]
    cases hmade with
    | literal hsub' hcore =>
      cases hsub.symm.trans hsub'
      exact ⟨_, Discriminator.isLiteral_literal _ _ _, hcore⟩
    | reference hsub' _ _ => cases hsub.symm.trans hsub'
    | embedded hsub' _ _ _ => cases hsub.symm.trans hsub'
  · obtain ⟨key', p⟩ := e
    obtain rfl : key' = .text key := hkey
    rw [inner_plain, property_of_not_named hnot, ← hd]
    exact h

/-- The model of an object or a composition with the given models of its own properties. -/
inductive HoldsOwn (ctx : Context) (n : String) (s : Node) (own : List Model) (m : Model) :
    Rule → Prop
  | interface :
      m.core =
        { kind := .interface, imports := importsOf own, enums := enumsOf own, properties := own } →
      HoldsOwn ctx n s own m .interface
  | composition {kind : ModelKind} {members : List Node} {options : List (Option Model)}
      {lifted : List Model} :
      (members.mapM (member (inner ctx) kind n)).outcome = .ok options →
      (promoted (inner ctx) ctx s members).outcome = .ok lifted →
      m.core =
        { kind
          imports := importsOf options.reduceOption ++ importsOf lifted ++ importsOf own
          enums := nestedEnums options.reduceOption ++ nestedEnums lifted ++ enumsOf own
          properties := options.reduceOption ++ gathered (lifted ++ own) } →
      HoldsOwn ctx n s own m (.composition kind members)

/-- In the model of a definition, the literal of the alternative stands in the place of the property
that the discriminator for its name names. Everything else is as if there were no discriminators:
the other properties, the models of members and of whatever has no name, and the whole model if
there is no discriminator for its name or if it has no properties of its own. -/
theorem literals_of_definition (hctx : (Context.ofDocument document).outcome = .ok ctx)
    (hd : ctx.dialect = .v3) (key : Scalar) (s : Node) :
    (∀ t isDefinition, model ctx.plain t isDefinition "" = model ctx t isDefinition "") ∧
      ((∀ discriminator,
        ¬ Discriminates ctx (ctx.dialect.schemaName (.scalar key)) discriminator) →
          definition ctx.plain (key, s) = definition ctx (key, s)) ∧
      ∀ discriminator,
        Discriminates ctx (ctx.dialect.schemaName (.scalar key)) discriminator →
          ∀ m, (definition ctx (key, s)).outcome = .ok m →
            ∃ r, (rule ctx s.asMap).outcome = .ok r ∧
              (¬ r.HasProperties → (definition ctx.plain (key, s)).outcome = .ok m) ∧
              (r.HasProperties → ∃ own,
                List.Forall₂ (fun e p => ∃ key', e.1 = .text key' ∧
                  IsTold ctx (ctx.dialect.schemaName (.scalar key)) discriminator
                    (requiredNames s.asMap) key' e.2 p) (declarations s.asMap) own ∧
                HoldsOwn ctx.plain (ctx.dialect.schemaName (.scalar key)) s.asMap own m r) := by
  generalize hn : ctx.dialect.schemaName (.scalar key) = n
  have hne : n ≠ "" := hn ▸ TypeExpr.schemaName_ne_empty ctx.dialect key
  have hdefinition : definition ctx (key, s) = model ctx s true n := by rw [← hn]; rfl
  have hplain : definition ctx.plain (key, s) = model ctx.plain s true n := by rw [← hn]; rfl
  rw [hdefinition, hplain]
  refine ⟨fun t isDefinition => ?_, fun hnone => ?_, fun discriminator hfirst m hm => ?_⟩
  · exact model_plain isDefinition fun _ _ _ => discriminator?_empty ctx
  · refine model_plain true fun _ _ _ => Option.eq_none_iff_forall_ne_some.2 fun d hsome => ?_
    exact hnone d ((discriminator?_eq_some_iff hctx hd hne).1 hsome)
  have hsome : ctx.discriminator? n = some discriminator :=
    (discriminator?_eq_some_iff hctx hd hne).2 hfirst
  have htold {own : List Model} (hown : (properties (inner ctx) ctx s.asMap n).outcome = .ok own) :=
    (properties_eq_ok.1 hown).imp fun e p hp => isTold_of_property hsome hp
  obtain ⟨r, hr, hmade⟩ := model_made hm
  refine ⟨r, hr, fun hnot => ?_, fun hhas => ?_⟩
  · rw [model_plain true fun r' hr' hp => absurd (Except.ok.inj (hr.symm.trans hr') ▸ hp) hnot]
    exact hm
  cases hmade with
  | interface hown hcore => exact ⟨_, htold hown, .interface hcore⟩
  | composition hoptions hlifted hown hcore =>
    rw [← inner_plain] at hoptions hlifted
    exact ⟨_, htold (properties_of_ownProperties hown), .composition hoptions hlifted hcore⟩
  | _ => exact hhas.elim

/-- What tells pets apart: their kind, and a cat is a feline. -/
def petKinds : Node :=
  .record [("propertyName", .text "kind"),
    ("mapping", .record [("cat", .text "#/components/schemas/Cat"),
      ("feline", .text "#/components/schemas/Cat")])]

/-- A cat has a kind and a name. -/
def cat : Node :=
  .record [("type", .text "object"),
    ("properties", .record [("kind", .record [("type", .text "integer")]),
      ("name", .record [("type", .text "string")])])]

/-- A document in which a pet is a cat or a dog, and a cat is defined. -/
def shelter : Context :=
  let refersTo name := Node.record [("$ref", .text ("#/components/schemas/" ++ name))]
  { dialect := .v3
    document := .record [("openapi", .text "3.0.0"),
      ("components", .record [("schemas", .record [
        ("Pet", .record [("discriminator", petKinds),
          ("oneOf", .list [refersTo "Cat", refersTo "Dog"])]),
        ("Cat", cat)])])]
    discriminators := [("Cat", petKinds), ("Dog", petKinds)] }

/-- In the model of a cat, the last key of its reference stands in the place of its kind. -/
theorem literals_of_definition_cat :
    Discriminates shelter "Cat" petKinds ∧
      ∃ m own, (definition shelter (.text "Cat", cat)).outcome = .ok m ∧
        m.properties.map (·.base) = ["'feline'", "string"] ∧
        HoldsOwn shelter.plain "Cat" cat own m .interface := by
  have hctx : (Context.ofDocument shelter.document).outcome = .ok shelter := rfl
  have hname : shelter.dialect.schemaName (.scalar (.text "Cat")) = "Cat" := rfl
  have hfirst : Discriminates shelter "Cat" petKinds :=
    (discriminator?_eq_some_iff hctx rfl (by decide)).1 rfl
  obtain ⟨m, hm, hbases⟩ : ∃ m, (definition shelter (.text "Cat", cat)).outcome = .ok m ∧
      m.properties.map (·.base) = ["'feline'", "string"] := ⟨_, rfl, rfl⟩
  obtain ⟨-, -, htold⟩ := literals_of_definition hctx rfl (.text "Cat") cat
  rw [hname] at htold
  obtain ⟨r, hr, -, hown⟩ := htold petKinds hfirst m hm
  obtain rfl : Rule.interface = r := Except.ok.inj hr
  obtain ⟨own, -, hholds⟩ := hown trivial
  exact ⟨hfirst, m, own, hm, hbases, hholds⟩

end Schema

end ApiModel
