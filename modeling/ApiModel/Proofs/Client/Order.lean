import ApiModel.Proofs.Operation.Order

/-!
# Documents whose paths are in another order

The entries of a path and the responses of an operation may stand in any order, and the client of a
document does not show it.

**Theorem (`generate_of_reordered`).** If a document becomes a client, so does one in which the
entries of paths are in another order, and responses too where no two of them have one code. It is
the same client.

Besides the builders, only references look into the paths. A reference may lead to an operation or
to a path, and what is read of a schema, a parameter or a response stands under none of its keys.
But a reference to all paths takes them for a schema, and then a path may stand where properties are
expected. That is why no path that is in another order may have a keyword for its name; with a slash
at its front it has none.
-/

namespace ApiModel

namespace Client

open Node Report

/-! ## Documents in another order -/

/-- The paths of a document. Those whose names are among the keys are as they were. -/
def PathsReordered (keys : List String) : Node → Node → Prop :=
  ValuesBy (KeptBut (fun url => ∀ key ∈ keys, url ≠ .text key) Service.PathReordered)

/-- A document whose paths are in another order. -/
def Reordered (keys : List String) : Node → Node → Prop :=
  ValuesBy (KeptBut (· = .text "paths") (PathsReordered keys))

/-- A place in a document, and the same place in the document in another order. -/
inductive Place (keys : List String) : Node → Node → Prop
  | document {n n' : Node} : Reordered keys n n' → Place keys n n'
  | paths {n n' : Node} : PathsReordered keys n n' → Place keys n n'
  | path {n n' : Node} : Service.PathReordered n n' → Place keys n n'
  | operation {n n' : Node} : Operation.Reordered n n' → Place keys n n'
  | responses {n n' : Node} : Response.Reordered n n' → Place keys n n'

section Places

variable {keys : List String} {n n' : Node}

theorem Place.self (keys : List String) (n : Node) : Place keys n n := .responses (.same n)

/-- Under every key of a place stands a place. -/
theorem Place.keyWise (h : Place keys n n') : KeyWise (Place keys) n n' := by
  have hself := Place.self keys
  cases h with
  | document h => exact keyWise_of_kept h hself fun _ _ => .paths
  | paths h => exact keyWise_of_kept h hself fun _ _ => .path
  | operation h => exact keyWise_of_kept h hself fun _ _ => .responses
  | path h =>
    cases h with
    | same => exact .inl rfl
    | @map es mid es' hmethods hperm hkeys =>
      refine .inr ⟨⟨rfl, rfl⟩, fun key => ?_⟩
      have hget : (Node.map mid).get? key = (Node.map es').get? key :=
        getText?_perm hperm hkeys key
      rw [← hget]
      exact (keyWise_of_kept hmethods hself fun _ _ => Place.operation).get? hself key
  | responses h =>
    cases h with
    | same => exact .inl rfl
    | @map es es' hperm hkeys _ =>
      refine .inr ⟨⟨rfl, rfl⟩, fun key => ?_⟩
      have hget : (Node.map es).get? key = (Node.map es').get? key :=
        getText?_perm hperm hkeys key
      rw [hget]
      exact rel_self hself _

/-- No keyword that is read is a name of something on the way to responses. -/
def Unread (keys : List String) : Prop :=
  ∀ key ∈ keys, key ≠ "paths" ∧ key ≠ "responses" ∧ key ∉ Operation.methods

theorem unread_readKeywords (d : Dialect) : Unread (readKeywords d) := by
  unfold Unread
  cases d <;> decide

/-- What is read stands under no key where the order counts. -/
theorem Place.sameFor (hkeys : Unread keys) (h : Place keys n n') : SameFor keys n n' := by
  cases h with
  | document h =>
    exact sameFor_of_kept h fun key hkey heq => (hkeys key hkey).1 (Scalar.text.inj heq)
  | paths h => exact sameFor_of_kept h fun key hkey hother => hother key hkey rfl
  | operation h =>
    exact sameFor_of_kept h fun key hkey heq => (hkeys key hkey).2.1 (Scalar.text.inj heq)
  | path h =>
    cases h with
    | same => exact .inl rfl
    | @map es mid es' hmethods hperm hnodup =>
      have hmid : SameFor keys (.map es) (.map mid) := by
        refine sameFor_of_kept hmethods fun key hkey ⟨method, hmethod, heq⟩ => ?_
        exact (hkeys key hkey).2.2 (Scalar.text.inj heq ▸ hmethod)
      refine .inr ⟨⟨rfl, rfl⟩, fun key hkey => (hmid.saysSame key hkey).trans ?_⟩
      exact getText?_perm hperm hnodup key
  | responses h =>
    cases h with
    | same => exact .inl rfl
    | map hperm hnodup _ =>
      exact .inr ⟨⟨rfl, rfl⟩, fun key _ => getText?_perm hperm hnodup key⟩

end Places

/-- The contexts of a document and of the document in another order are twins. -/
theorem twins_of_reordered {ctx ctx' : Context} (hdialect : ctx'.dialect = ctx.dialect)
    (h : Reordered (readKeywords ctx.dialect) ctx.document ctx'.document) : Twins ctx ctx' := by
  refine ⟨agreement_sameFor _, discerned_sameFor _, hdialect, fun {s t} hst => ?_⟩
  unfold Node.target
  rw [Schema.ref?_plain (says_plain hst)]
  cases t.ref? with
  | some ref =>
    have hplaces := paired_resolve (Place.self (readKeywords ctx.dialect))
      (fun _ _ => Place.keyWise) (.document h) ref
    exact Pairs.mono (x := .ofExcept _) (y := .ofExcept _) hplaces fun _ _ hplace =>
      hplace.sameFor (unread_readKeywords _)
  | none => exact .pure hst

/-! ## What is built -/

theorem field_reordered {keys : List String} {document document' : Node}
    (h : Reordered keys document document') {key : String} (hkey : key ≠ "paths") :
    document.field key = document'.field key :=
  field_eq_of_kept h fun heq => hkey (Scalar.text.inj heq)

theorem pathReordered_of_kept {P : Scalar → Prop} {e e' : Scalar × Node}
    (h : EntryBy (KeptBut P Service.PathReordered) e e') :
    EntryBy (fun _ => Service.PathReordered) e e' := by
  obtain ⟨hkey, heq | ⟨-, hpath⟩⟩ := h
  · exact ⟨hkey, heq ▸ .same e.2⟩
  · exact ⟨hkey, hpath⟩

section Twins

variable {ctx ctx' : Context} (htwins : Twins ctx ctx')
include htwins

theorem carries_services (h : PathsReordered (readKeywords ctx.dialect)
    (ctx.document.field "paths") (ctx'.document.field "paths")) :
    Carries (Service.ofDocument ctx) (Service.ofDocument ctx') := by
  have hentries : Pairs (List.Forall₂ (EntryBy fun _ => Service.PathReordered))
      (ofOption Fault.malformed ((ctx.document.field "paths").orElse (.map [])).entries?)
      (ofOption Fault.malformed ((ctx'.document.field "paths").orElse (.map [])).entries?) := by
    generalize ctx.document.field "paths" = n at h
    generalize ctx'.document.field "paths" = n' at h
    cases h with
    | same => exact .of_eq fun es => List.forall₂_same.2 fun e _ => ⟨rfl, .same e.2⟩
    | map hes =>
      cases hes with
      | nil => exact .pure .nil
      | cons he hes =>
        have hrest := hes.imp fun _ _ => pathReordered_of_kept
        exact .pure (.cons (pathReordered_of_kept he) hrest)
  unfold Service.ofDocument
  refine hentries.carries_bind fun es es' hes => lifting_carries.bind ?_ fun _ _ => fun _ h => h
  refine carries_mapM (hes.imp ?_)
  rintro ⟨url, n⟩ ⟨url', n'⟩ ⟨hkey, hpath⟩
  obtain rfl : url = url' := hkey
  exact Service.carries_ofPath htwins hpath url

theorem pairs_definition (hnames : ctx'.discriminators = ctx.discriminators) (e : Scalar × Node) :
    Pairs Eq (Schema.definition ctx e) (Schema.definition ctx' e) := by
  unfold Schema.definition
  rw [htwins.dialect]
  refine pairs_eq.2 (Schema.outcome_model_of_twin htwins (.inl rfl) true ?_)
  simp only [Context.discriminator?, hnames]

theorem pairs_parameterDefinition (hnames : ctx'.discriminators = ctx.discriminators)
    (e : Scalar × Node) :
    Pairs Eq (Schema.parameterDefinition ctx e) (Schema.parameterDefinition ctx' e) := by
  unfold Schema.parameterDefinition
  dsimp only
  split_ifs
  · refine (pairs_definition htwins hnames _).bind_eq fun m => ?_
    exact pairs_self _
  · exact pairs_self _

theorem pairs_definitions (hnames : ctx'.discriminators = ctx.discriminators)
    (h : Reordered (readKeywords ctx.dialect) ctx.document ctx'.document) :
    Pairs Eq (Schema.definitions ctx) (Schema.definitions ctx') := by
  have hmodels (es : List (Scalar × Node)) :
      Pairs Eq (es.mapM (Schema.definition ctx)) (es.mapM (Schema.definition ctx')) :=
    pairs_mapM_self (pairs_definition htwins hnames) es
  unfold Schema.definitions
  rw [htwins.dialect, field_reordered h (by decide : "definitions" ≠ "paths"),
    field_reordered h (by decide : "components" ≠ "paths")]
  cases ctx.dialect with
  | v2 =>
    refine (pairs_self _).bind_eq fun es => ?_
    exact hmodels es
  | v3 =>
    dsimp only
    split_ifs
    · exact .error _
    · refine (pairs_self _).bind_eq fun es => ?_
      refine (hmodels es).bind_eq fun models => ?_
      refine (pairs_self _).bind_eq fun ps => ?_
      refine (pairs_mapM_self (pairs_parameterDefinition htwins hnames) ps).bind_eq fun _ => ?_
      exact pairs_self _

end Twins

/-! ## The client -/

section Document

variable {d : Dialect} {document document' : Node}

theorem dialect_reordered {keys : List String} (h : Reordered keys document document') :
    Dialect.ofDocument document = Dialect.ofDocument document' := by
  have hmarker : Dialect.marker document = Dialect.marker document' := by
    simp (disch := decide) only [Dialect.marker, field_reordered h]
  have hmap := ValuesBy.isMap h
  unfold Dialect.ofDocument
  rw [hmarker]
  cases document with
  | map es =>
    cases document' with
    | map es' => rfl
    | _ => cases hmap
  | _ =>
    cases document' with
    | map es' => cases hmap
    | _ => rfl

/-- What is built of a document is built of it in another order too. -/
theorem carries_ofDocument (hd : Dialect.ofDocument document = .ok d)
    (h : Reordered (readKeywords d) document document') :
    Carries (ofDocument document) (ofDocument document') := by
  intro c hc
  obtain ⟨ctx, hctx, hc⟩ := bind_eq_ok.1 hc
  obtain ⟨d', hd', hctx⟩ := bind_eq_ok.1 hctx
  obtain ⟨names, hnames, hctx⟩ := bind_eq_ok.1 hctx
  obtain rfl : d = d' := Except.ok.inj (hd.symm.trans hd')
  cases hctx
  have hctx' : (Context.ofDocument document').outcome = .ok ⟨document', d, names⟩ := by
    have hindex : Discriminator.index d document = Discriminator.index d document' := by
      simp (disch := decide) only [Discriminator.index, Discriminator.schemas, field_reordered h]
    have hdialect : (ofExcept (Dialect.ofDocument document')).outcome = .ok d := by
      rw [← dialect_reordered h]
      exact hd
    exact bind_eq_ok.2 ⟨d, hdialect, bind_eq_ok.2 ⟨names, hindex ▸ hnames, rfl⟩⟩
  have htwins : Twins ⟨document, d, names⟩ ⟨document', d, names⟩ := twins_of_reordered rfl h
  have hversion : versionOf document = versionOf document' := by
    simp (disch := decide) only [versionOf, versionNode, field_reordered h]
  have hserver : serverOf ⟨document, d, names⟩ = serverOf ⟨document', d, names⟩ := by
    cases d with
    | v2 => simp (disch := decide) only [serverOf, serverOfHost, field_reordered h]
    | v3 => simp (disch := decide) only [serverOf, serverOfList, field_reordered h]
  have hpaths : PathsReordered (readKeywords d) (document.field "paths")
      (document'.field "paths") := by
    rcases keptBut_field h "paths" with heq | ⟨-, hpaths⟩
    · rw [heq]
      exact .same _
    · exact hpaths
  obtain ⟨version, hversion', hc⟩ := bind_eq_ok.1 hc
  obtain ⟨server, hserver', hc⟩ := bind_eq_ok.1 hc
  obtain ⟨models, hmodels, hc⟩ := bind_eq_ok.1 hc
  obtain ⟨services, hservices, hc⟩ := bind_eq_ok.1 hc
  refine bind_eq_ok.2 ⟨_, hctx', bind_eq_ok.2 ⟨version, hversion ▸ hversion', ?_⟩⟩
  refine bind_eq_ok.2 ⟨server, hserver ▸ hserver', ?_⟩
  refine bind_eq_ok.2 ⟨models, (pairs_definitions htwins rfl h).carries models hmodels, ?_⟩
  exact bind_eq_ok.2 ⟨services, carries_services htwins hpaths services hservices, hc⟩

/-- If a document becomes a client, then the document with its paths in another order, and with the
responses of its operations in another order where no two of them have one code, becomes the same
client. -/
theorem generate_of_reordered {c : Client} (hd : Dialect.ofDocument document = .ok d)
    (h : Reordered (readKeywords d) document document') (hc : (generate document).outcome = .ok c) :
    (generate document').outcome = .ok c := by
  obtain ⟨raw, hraw, htidy⟩ := map_eq_ok.1 hc
  exact map_eq_ok.2 ⟨raw, carries_ofDocument hd h raw hraw, htidy⟩

/-- The response that lists all pets. -/
def allPets : String × Node :=
  ("200", .record [("description", .text "all pets"), ("schema", .record [("type", .text "array"),
    ("items", .record [("type", .text "string")])])])

/-- The response for no pets. -/
def noPets : String × Node :=
  ("404", .record [("description", .text "no pets")])

/-- The method that lists pets, with the given responses. -/
def listing (responses : List (String × Node)) : String × Node :=
  ("get", .record [("operationId", .text "list"), ("responses", .record responses)])

/-- The method that removes a pet. -/
def removal : String × Node :=
  ("delete", .record [("operationId", .text "remove")])

/-- A document with the given operations on pets. -/
def petsWith (operations : List (String × Node)) : Node :=
  .record [("swagger", .text "2.0"), ("paths", .record [("/pets", .record operations)])]

/-- It does not matter whether pets are listed or removed first, nor which response comes first. -/
theorem generate_of_reordered_pets :
    ∃ c, (generate (petsWith [listing [allPets, noPets], removal])).outcome = .ok c ∧
      (generate (petsWith [removal, listing [noPets, allPets]])).outcome = .ok c ∧
      (c.services.flatMap fun s => s.operations.map (·.name)) = ["list", "remove"] := by
  obtain ⟨c, hc, hnames⟩ : ∃ c,
      (generate (petsWith [listing [allPets, noPets], removal])).outcome = .ok c ∧
        (c.services.flatMap fun s => s.operations.map (·.name)) = ["list", "remove"] :=
    ⟨_, rfl, rfl⟩
  have hresponses : Response.Reordered (.record [allPets, noPets]) (.record [noPets, allPets]) := by
    refine .map (.swap _ _ _) (by decide) ?_
    refine .cons (fun f hf code hcode hcode' => ?_) (List.pairwise_singleton _ _)
    obtain rfl := List.mem_singleton.1 hf
    cases hcode
    cases hcode'
  have hlisting : Operation.Reordered (listing [allPets, noPets]).2 (listing [noPets, allPets]).2 :=
    .map (.cons ⟨rfl, .inl rfl⟩ (.cons ⟨rfl, .inr ⟨rfl, hresponses⟩⟩ .nil))
  have hmethods : Service.MethodsReordered (.record [listing [allPets, noPets], removal])
      (.record [listing [noPets, allPets], removal]) :=
    .map (.cons ⟨rfl, .inr ⟨⟨"get", by decide, rfl⟩, hlisting⟩⟩ (.cons ⟨rfl, .inl rfl⟩ .nil))
  have hpath : Service.PathReordered (.record [listing [allPets, noPets], removal])
      (.record [removal, listing [noPets, allPets]]) :=
    .map hmethods (.swap _ _ _) (by decide)
  have hpaths : PathsReordered (readKeywords .v2)
      (.record [("/pets", .record [listing [allPets, noPets], removal])])
      (.record [("/pets", .record [removal, listing [noPets, allPets]])]) :=
    .map (.cons ⟨rfl, .inr ⟨by decide, hpath⟩⟩ .nil)
  have hreordered : Reordered (readKeywords .v2) (petsWith [listing [allPets, noPets], removal])
      (petsWith [removal, listing [noPets, allPets]]) :=
    .map (.cons ⟨rfl, .inl rfl⟩ (.cons ⟨rfl, .inr ⟨rfl, hpaths⟩⟩ .nil))
  exact ⟨c, hc, generate_of_reordered rfl hreordered hc, hnames⟩

/-- A document with a path named after a keyword: the errands are all paths, and so they have a
property for each method of that path. -/
def errands (methods : List String) : Node :=
  .record [("swagger", .text "2.0"),
    ("paths", .record [("type", .text "object"),
      ("properties", .record (methods.map fun method => (method, .record [])))]),
    ("definitions", .record [("Errands", .record [
      ("required", .list [.text "get", .text "put"]),
      ("allOf", .list [.record [("$ref", .text "#/paths")]])])])]

/-- The errands have their properties in the order in which the methods stand. -/
theorem not_all_orders_unseen :
    ¬ ∀ (document document' : Node) (c : Client), Reordered [] document document' →
      (generate document).outcome = .ok c → (generate document').outcome = .ok c := by
  intro hall
  have hreordered : Reordered [] (errands ["get", "put"]) (errands ["put", "get"]) := by
    refine .map (.cons ⟨rfl, .inl rfl⟩ (.cons ⟨rfl, .inr ⟨rfl, ?_⟩⟩ (.cons ⟨rfl, .inl rfl⟩ .nil)))
    refine .map (.cons ⟨rfl, .inl rfl⟩ (.cons ⟨rfl, .inr ⟨fun _ h => (nomatch h), ?_⟩⟩ .nil))
    exact .map (.same _) (.swap _ _ _) (by decide)
  let propertiesOf (c : Client) : List String :=
    c.models.flatMap fun m => m.properties.flatMap fun p => p.properties.map (·.name)
  obtain ⟨c, hc, hproperties⟩ : ∃ c, (generate (errands ["get", "put"])).outcome = .ok c ∧
      propertiesOf c = ["get", "put"] := ⟨_, rfl, rfl⟩
  have hsame := congrArg (Except.map propertiesOf) (hall _ _ c hreordered hc)
  have hother : (Except.ok ["put", "get"] : Except Fault _) = .ok (propertiesOf c) := hsame
  rw [hproperties] at hother
  exact absurd (Except.ok.inj hother) (by decide)

end Document

end Client

end ApiModel
