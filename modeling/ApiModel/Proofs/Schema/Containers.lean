import ApiModel.Proofs.Schema.Nesting
import ApiModel.Proofs.Schema.Recursion

/-!
# Containers and the schemas of their elements

An array or dictionary is made of a schema for its elements: the items, the further properties, or
the empty schema where the elements may be anything.

**Theorem (`containers_of_model`).** Every container in a model, at whatever depth, is made of the
schema of its elements in one of two ways. If that is a reference, the container has its type and no
link; if not, the model of the schema is its link, and the container repeats the type of the link.

The property is inherited: the copies that become properties, and those that are promoted, keep the
link and the type.
-/

namespace ApiModel

namespace Schema

open Report Model

/-! ## Elements -/

/-- The schema of the elements of which a schema makes a container. What is no mapping is read as
the empty schema. -/
inductive ElementOf (d : Dialect) (schema : Node) : ModelKind → Node → Prop
  | items : (schema.field "type").isText "array" = true → (schema.field "items").truthy = true →
      ElementOf d schema .array (schema.field "items").asMap
  | further {entries : List (Scalar × Node)} : (schema.field "type").isText "object" = true →
      schema.field "additionalProperties" = .map entries →
      ElementOf d schema .dictionary (.map entries)
  | anything : d = .v3 → (schema.field "type").isText "object" = true →
      schema.field "additionalProperties" = .bool true → ElementOf d schema .dictionary (.map [])
  | untyped : d = .v3 → (schema.field "type").isText "object" = true →
      (schema.field "properties").truthy = false → ElementOf d schema .dictionary (.map [])

variable {ctx : Context} {name : String} {s : Node} {r : Rule} {m c : Model} {isDefinition : Bool}

theorem elementOf_furtherProperties {d : Dialect} {schema e : Node}
    (h : furtherProperties? d schema = some e) : ElementOf d schema .dictionary e.asMap := by
  unfold furtherProperties? at h
  split at h
  · rename_i htype
    split at h
    · rename_i hentries
      cases h
      exact .further htype hentries
    · rename_i htrue
      split_ifs at h with hopen
      cases h
      exact .anything (eq_of_beq hopen) htype htrue
    · cases h
  · cases h

theorem elementOf_structuredRule {d : Dialect} {schema e : Node} {kind : ModelKind}
    (h : structuredRule d schema = .container kind e) : ElementOf d schema kind e.asMap := by
  simp only [structuredRule] at h
  split at h
  · rename_i hitems
    cases h
    obtain ⟨htype, htruthy⟩ := Bool.and_eq_true_iff.1 hitems
    exact .items htype htruthy
  · split at h
    · rename_i hfurther
      cases h
      exact elementOf_furtherProperties hfurther
    · cases h
    · split_ifs at h with htype hbare
      cases h
      obtain ⟨hdialect, hnone⟩ := Bool.and_eq_true_iff.1 hbare
      exact .untyped (eq_of_beq hdialect) htype (by simpa using hnone)

/-- The rule for a container names the schema of its elements. -/
theorem elementOf_rule {e : Node} {kind : ModelKind}
    (h : (rule ctx s).outcome = .ok (.container kind e)) :
    ElementOf ctx.dialect s kind e.asMap := by
  rcases rule_eq_ok h with ⟨_, -, heq⟩ | ⟨_, _, heq⟩ | heq
  · cases heq
  · cases heq
  · exact elementOf_structuredRule heq.symm

theorem ref?_asMap (n : Node) : n.asMap.ref? = n.ref? := by
  cases n <;> rfl

/-! ## Containers -/

/-- The element is a reference, and the container has its type and no link. -/
def NamesElement (ctx : Context) (e : Node) (c : Model) : Prop :=
  ∃ ref, e.ref? = some ref ∧ c.link = none ∧ c.toTypeExpr = .ofRef ctx.dialect ref

/-- The element is no reference, its model is the link of the container, and the container has the
type of its link. -/
def LinksElement (ctx : Context) (e : Node) (c : Model) : Prop :=
  e.ref? = none ∧ ∃ l, (model ctx e false "").outcome = .ok l ∧ c.link = some l ∧
    c.toTypeExpr = l.toTypeExpr

theorem NamesElement.not_links {e : Node} (h : NamesElement ctx e c) : ¬ LinksElement ctx e c := by
  rintro ⟨hnone, -⟩
  obtain ⟨ref, href, -⟩ := h
  rw [hnone] at href
  cases href

/-- If the model is a container, then it is made of elements in one of the two ways, for the schema
or for one that the schema reaches. -/
def MadeOfElements (ctx : Context) (name : String) (s : Node) (c : Model) : Prop :=
  c.kind = .array ∨ c.kind = .dictionary →
    ∃ u e, (u = s ∨ Reaches ctx name s u) ∧
      (rule ctx u.asMap).outcome = .ok (.container c.kind e) ∧
      ElementOf ctx.dialect u.asMap c.kind e.asMap ∧
      Xor (NamesElement ctx e.asMap c) (LinksElement ctx e.asMap c)

theorem madeOfElements_of_kind (h : c.kind ≠ .array ∧ c.kind ≠ .dictionary) :
    MadeOfElements ctx name s c :=
  fun hkind => (hkind.elim h.1 h.2).elim

theorem MadeOfElements.of_core (hcore : m.core = c.core) (h : MadeOfElements ctx name s c) :
    MadeOfElements ctx name s m := by
  have hkind : m.kind = c.kind := (kind_of_core hcore :)
  have hlink : m.link = c.link := (link_of_core hcore :)
  have htype : m.toTypeExpr = c.toTypeExpr := (toTypeExpr_of_core hcore :)
  unfold MadeOfElements NamesElement LinksElement at h ⊢
  rwa [hkind, hlink, htype]

theorem madeOfElements_inherited (ctx : Context) (name : String) (s : Node) :
    Inherited ctx (MadeOfElements ctx name s) where
  core := MadeOfElements.of_core
  literal _ := madeOfElements_of_kind (by simp)
  reference _ := madeOfElements_of_kind (by simp)
  gathered _ := madeOfElements_of_kind (by simp)

/-- What a visited schema reaches, the schema reaches. -/
theorem MadeOfElements.of_visit {t : Node} (hv : Visits ctx name s t)
    (h : MadeOfElements ctx "" t c) : MadeOfElements ctx name s c := by
  intro hkind
  obtain ⟨u, e, hu, hmakes⟩ := h hkind
  exact ⟨u, e, .inr (hv.reaches hu), hmakes⟩

/-- A rule for a container makes it of the elements. -/
theorem madeOfElements_of_made (hr : (rule ctx s.asMap).outcome = .ok r)
    (hmade : Made (inner ctx) ctx name s.asMap r m) : MadeOfElements ctx name s m := by
  intro hkind
  have hrule := kind_of_made hmade
  rw [hrule] at hkind
  cases hmade with
  | @referenceContainer kind e ref _ href hcore =>
    have hnames : NamesElement ctx e.asMap m :=
      ⟨ref, (ref?_asMap e).trans href, link_of_core hcore, (toTypeExpr_of_core hcore :)⟩
    refine ⟨s, e, .inl rfl, hrule ▸ hr, hrule ▸ elementOf_rule hr, .inl ?_⟩
    exact ⟨hnames, hnames.not_links⟩
  | @container kind e l _ href hlink hcore =>
    have hlinks : LinksElement ctx e.asMap m :=
      ⟨(ref?_asMap e).trans href, l, hlink, link_of_core hcore, (toTypeExpr_of_core hcore :)⟩
    refine ⟨s, e, .inl rfl, hrule ▸ hr, hrule ▸ elementOf_rule hr, .inr ?_⟩
    exact ⟨hlinks, fun hnames => hnames.not_links hlinks⟩
  | @composition kind members =>
    have hregular : kind = .oneOf ∨ kind = .anyOf ∨ kind = .allOf := regular_rule hr
    rcases hregular with rfl | rfl | rfl <;> simp [Rule.kind] at hkind
  | _ => simp [Rule.kind] at hkind

/-- Every container in a model is made of the schema of its elements, which stands in the schema of
the model or in one that is reached from there. If it is a reference, the container has its type and
no link; else the model of the elements is the link, and the container has the type of the link. -/
theorem containers_of_model (h : (model ctx s isDefinition name).outcome = .ok m)
    (hc : m.Contains c) (hkind : c.kind = .array ∨ c.kind = .dictionary) :
    ∃ u e, (u = s ∨ Reaches ctx name s u) ∧
      (rule ctx u.asMap).outcome = .ok (.container c.kind e) ∧
      ElementOf ctx.dialect u.asMap c.kind e.asMap ∧
      Xor (NamesElement ctx e.asMap c) (LinksElement ctx e.asMap c) := by
  have hall : m.Throughout (MadeOfElements ctx name s) := by
    refine model_induction (R := fun name s m => m.Throughout (MadeOfElements ctx name s)) ?_ h
    intro name s r m hr hmade hvisited
    refine (madeOfElements_inherited ctx name s).throughout hr hmade
      (madeOfElements_of_made hr hmade) fun t hv l hl => ?_
    exact (hvisited t hv l hl).imp fun p hp => hp.of_visit hv
  exact hall c hc hkind

/-- A document of a library that defines nothing. -/
def library : Context := { dialect := .v3, document := .map [] }

/-- A shelf has rows, and a row has books under their titles. -/
def shelf : Node :=
  let book := Node.record [("$ref", .text "#/components/schemas/Book")]
  let row := Node.record [("type", .text "object"), ("additionalProperties", book)]
  let rows := Node.record [("type", .text "array"), ("items", row)]
  Node.record [("type", .text "object"), ("properties", .record [("rows", rows)])]

/-- The link of the rows of a shelf is a dictionary of books. -/
theorem containers_of_model_shelf :
    ∃ m rows row, (model library shelf false "").outcome = .ok m ∧
      m.properties = [rows] ∧ rows.link = some row ∧ row.kind = .dictionary ∧
      row.imports = ["Book"] ∧
      ∃ u e : Node, (rule library u.asMap).outcome = .ok (.container row.kind e) ∧
        ElementOf .v3 u.asMap row.kind e.asMap ∧
        Xor (NamesElement library e.asMap row) (LinksElement library e.asMap row) := by
  obtain ⟨m, rows, row, hm, hproperties, hlink, hkind, himports⟩ : ∃ m rows row,
      (model library shelf false "").outcome = .ok m ∧ m.properties = [rows] ∧
      rows.link = some row ∧ row.kind = .dictionary ∧ row.imports = ["Book"] :=
    ⟨_, _, _, rfl, rfl, rfl, rfl, rfl⟩
  have hrows : rows ∈ m.properties := hproperties ▸ List.mem_cons_self
  obtain ⟨u, e, -, hmakes⟩ :=
    containers_of_model hm (.property hrows (.link hlink (.self row))) (.inr hkind)
  exact ⟨m, rows, row, hm, hproperties, hlink, hkind, himports, u, e, hmakes⟩

end Schema

end ApiModel
