import ApiModel.Proofs.Schema.Nesting
import ApiModel.Proofs.Schema.Offers

/-!
# Names of properties

An interface in a model, at whatever depth, is that of an object, or the one in which a composition
gathers what it promotes and what it declares.

**Theorem (`interfaces_of_model`).** The properties of an object have different names. What a
composition gathers has different names exactly if the composition `TellsApart`: one name may come
from two members, or from a member and from the composition itself, and both stay.

Both are about documents in which the keys of every mapping are different. Copies have the
properties of the interface that is copied, so it is enough to look at where interfaces are made.
-/

namespace ApiModel

namespace Schema

open Report Model

variable {ctx : Context} {name : String} {s t u : Node} {m p : Model} {members : List Node}
  {isDefinition : Bool}

/-- The properties of a model have different names. -/
def NamesApart (p : Model) : Prop := (p.properties.map (·.name)).Nodup

/-! ## Where interfaces come from -/

/-- The properties are those that a schema declares as an object. A schema of which nothing is known
is taken for an object without properties. -/
inductive OfObject (ctx : Context) (u : Node) (p : Model) : Prop
  | interface {label : String} : (rule ctx u.asMap).outcome = .ok .interface →
      (properties (inner ctx) ctx u.asMap label).outcome = .ok p.properties → OfObject ctx u p
  | anything : (rule ctx u.asMap).outcome = .ok .anything → p.properties = [] → OfObject ctx u p

/-- The properties are those that a composition promotes from its members, and then those that it
declares. -/
inductive OfComposition (ctx : Context) (u : Node) (members : List Node) (p : Model) : Prop
  | gathered {kind : ModelKind} {label : String} {lifted own : List Model} :
      (rule ctx u.asMap).outcome = .ok (.composition kind members) →
      (promoted (inner ctx) ctx u.asMap members).outcome = .ok lifted →
      (ownProperties (inner ctx) ctx u.asMap label).outcome = .ok own →
      p.properties = lifted ++ own → OfComposition ctx u members p

/-- If the model is an interface, then it comes from the schema or from one that is reached from
there. -/
def Originates (ctx : Context) (name : String) (s : Node) (p : Model) : Prop :=
  p.kind = .interface → ∃ u, (u = s ∨ Reaches ctx name s u) ∧
    (OfObject ctx u p ∨ ∃ members, OfComposition ctx u members p)

theorem OfObject.congr (h : OfObject ctx u p) (heq : m.properties = p.properties) :
    OfObject ctx u m := by
  cases h with
  | interface hr hown => exact .interface hr (heq ▸ hown)
  | anything hr hnil => exact .anything hr (heq.trans hnil)

theorem OfComposition.congr (h : OfComposition ctx u members p)
    (heq : m.properties = p.properties) : OfComposition ctx u members m := by
  obtain ⟨hr, hlifted, hown, hproperties⟩ := h
  exact .gathered hr hlifted hown (heq.trans hproperties)

theorem originates_of_kind (h : p.kind ≠ .interface) : Originates ctx name s p :=
  fun hkind => absurd hkind h

theorem Originates.of_core (hcore : m.core = p.core) (h : Originates ctx name s p) :
    Originates ctx name s m := by
  intro hkind
  obtain ⟨u, hu, horigin⟩ := h ((kind_of_core hcore).symm.trans hkind)
  have hproperties : m.properties = p.properties := (properties_of_core hcore :)
  refine ⟨u, hu, ?_⟩
  rcases horigin with hobject | ⟨members, hgathered⟩
  · exact .inl (hobject.congr hproperties)
  · exact .inr ⟨members, hgathered.congr hproperties⟩

theorem originates_copied (ctx : Context) (name : String) (s : Node) :
    Copied ctx (Originates ctx name s) where
  core := Originates.of_core
  literal _ := originates_of_kind (by simp)
  reference _ := originates_of_kind (by simp)

/-- What a visited schema reaches, the schema reaches. -/
theorem Originates.of_visit (hv : Visits ctx name s t) (h : Originates ctx "" t p) :
    Originates ctx name s p := by
  intro hkind
  obtain ⟨u, hu, horigin⟩ := h hkind
  exact ⟨u, .inr (hv.reaches hu), horigin⟩

/-- The rules that make an interface make that of an object. -/
theorem originates_of_made {r : Rule} (hr : (rule ctx s.asMap).outcome = .ok r)
    (hmade : Made (inner ctx) ctx name s.asMap r m) : Originates ctx name s m := by
  intro hkind
  have hregular : r.Regular := regular_rule hr
  rw [kind_of_made hmade] at hkind
  cases hmade with
  | interface hown hcore =>
    have hall : (properties (inner ctx) ctx s.asMap name).outcome = .ok m.properties := by
      rwa [(properties_of_core hcore :)]
    exact ⟨s, .inl rfl, .inl (.interface hr hall)⟩
  | anything hcore => exact ⟨s, .inl rfl, .inl (.anything hr (properties_of_core hcore))⟩
  | referenceContainer | container =>
    rcases hregular with rfl | rfl <;> simp [Rule.kind] at hkind
  | composition => rcases hregular with rfl | rfl | rfl <;> simp [Rule.kind] at hkind
  | _ => simp [Rule.kind] at hkind

/-- Every interface in a model is that of an object, or a composition gathers it. -/
theorem originates_of_contains (h : (model ctx s isDefinition name).outcome = .ok m)
    (hp : m.Contains p) : Originates ctx name s p := by
  have hall : m.Throughout (Originates ctx name s) := by
    refine model_induction (R := fun name s m => m.Throughout (Originates ctx name s)) ?_ h
    intro name s r m hr hmade hvisited
    refine (originates_copied ctx name s).throughout_of_gathered hr hmade
      (originates_of_made hr hmade) ?_ fun t hv l hl => ?_
    · rintro kind members lifted own rfl hlifted hown -
      exact ⟨s, .inl rfl, .inr ⟨members, .gathered hr hlifted hown rfl⟩⟩
    · exact (hvisited t hv l hl).imp fun p hp => hp.of_visit hv
  exact hall p hp

/-! ## Names of an interface -/

theorem keyed_asMap (h : s.Keyed) : s.asMap.Keyed := by
  rcases asMap_eq s with heq | heq <;> rw [heq]
  · exact h
  · exact Node.keyed_map .nil fun _ he => nomatch he

theorem keyed_of_mem_territory (hdocument : ctx.document.Keyed) (hs : s.Keyed)
    (ht : t ∈ territory ctx s) : t.Keyed := by
  rcases List.mem_cons.1 ht with rfl | ht
  · exact Node.keyed_map .nil fun _ he => nomatch he
  · exact (List.mem_append.1 ht).elim hs.of_mem_parts hdocument.of_mem_parts

theorem namesApart_of_object (hu : u.Keyed) (h : OfObject ctx u p) : NamesApart p := by
  cases h with
  | interface _ hown => exact nodup_properties (keyed_asMap hu) hown
  | anything _ hnil =>
    rw [NamesApart, hnil]
    exact List.nodup_nil

theorem namesApart_of_composition_iff (hdocument : ctx.document.Keyed) (hu : u.Keyed)
    (h : OfComposition ctx u members p) : NamesApart p ↔ TellsApart ctx u.asMap members := by
  obtain ⟨hr, hlifted, hown, hproperties⟩ := h
  rw [NamesApart, hproperties]
  refine nodup_gathered_iff (keyed_asMap hu) (fun t ht target htarget => keyed_asMap ?_)
    hlifted hown
  rcases Node.target_eq_ok htarget with rfl | hmem
  · exact (keyed_asMap hu).of_mem_parts (inside_combination (combination_of_rule hr) ht).1
  · exact hdocument.of_mem_parts hmem

/-- Every interface in a model is that of an object, and its properties have different names; or a
composition gathers it, and its properties have different names exactly if the composition tells
them apart. -/
theorem interfaces_of_model (hdocument : ctx.document.Keyed) (hs : s.Keyed)
    (h : (model ctx s isDefinition name).outcome = .ok m) (hp : m.Contains p)
    (hkind : p.kind = .interface) :
    ∃ u, (u = s ∨ Reaches ctx name s u) ∧
      ((OfObject ctx u p ∧ NamesApart p) ∨
        ∃ members, OfComposition ctx u members p ∧
          (NamesApart p ↔ TellsApart ctx u.asMap members)) := by
  obtain ⟨u, hu, horigin⟩ := originates_of_contains h hp hkind
  have hkeyed : u.Keyed := by
    have hself : s ∈ territory ctx s := by simp [territory, Node.self_mem_parts]
    refine keyed_of_mem_territory hdocument hs ?_
    rcases hu with rfl | hu
    · exact hself
    · exact hu.mem_territory hself
  refine ⟨u, hu, ?_⟩
  rcases horigin with hobject | ⟨members, hgathered⟩
  · exact .inl ⟨hobject, namesApart_of_object hkeyed hobject⟩
  · exact .inr ⟨members, hgathered, namesApart_of_composition_iff hdocument hkeyed hgathered⟩

/-- The entries of a ledger are composed. They require the number of one member and the note of
another one, and say themselves whether they are paid. -/
def ledger : Node :=
  let object (key type : String) : Node := .record [("type", .text "object"),
    ("properties", .record [(key, .record [("type", .text type)])])]
  let entry : Node := .record [("required", .list [.text "number", .text "note"]),
    ("allOf", .list [object "number" "integer", object "note" "string"]),
    ("properties", .record [("paid", .record [("type", .text "boolean")])])]
  .record [("type", .text "object"), ("properties", .record [("entry", entry)])]

/-- What an entry of a ledger gathers has the three names. -/
theorem interfaces_of_model_ledger :
    ∃ m p, (model blank ledger false "").outcome = .ok m ∧ m.Contains p ∧
      p.kind = .interface ∧ p.properties.map (·.name) = ["number", "note", "paid"] ∧
      ∃ u, (u = ledger ∨ Reaches blank "" ledger u) ∧
        ((OfObject blank u p ∧ NamesApart p) ∨
          ∃ members, OfComposition blank u members p ∧
            (NamesApart p ↔ TellsApart blank u.asMap members)) := by
  obtain ⟨m, q, front, p, hm, hproperties, hlast, hkind, hnames⟩ : ∃ m q front p,
      (model blank ledger false "").outcome = .ok m ∧ m.properties = [q] ∧
      q.properties = front ++ [p] ∧ p.kind = .interface ∧
      p.properties.map (·.name) = ["number", "note", "paid"] :=
    ⟨_, _, [_, _], _, rfl, rfl, rfl, rfl, rfl⟩
  have hq : q ∈ m.properties := hproperties ▸ List.mem_cons_self
  have hp : p ∈ q.properties := hlast ▸ List.mem_append_right front List.mem_cons_self
  have hcontains : m.Contains p := .property hq (.property hp (.self p))
  exact ⟨m, p, hm, hcontains, hkind, hnames,
    interfaces_of_model (by decide) (by decide) hm hcontains hkind⟩

/-- A composition that requires the identifier of its member, and declares one itself. -/
def renumbered : Node :=
  let identifier (type : String) : Node :=
    .record [("id", .record [("type", .text type)])]
  .record [("required", .list [.text "id"]),
    ("allOf", .list [.record [("type", .text "object"), ("properties", identifier "string")]]),
    ("properties", identifier "integer")]

/-- There are interfaces with two properties of one name. -/
theorem not_all_namesApart :
    ¬ ∀ (ctx : Context) (s : Node) (isDefinition : Bool) (name : String) (m p : Model),
      ctx.document.Keyed → s.Keyed → (model ctx s isDefinition name).outcome = .ok m →
      m.Contains p → p.kind = .interface → NamesApart p := by
  intro hall
  obtain ⟨m, q, p, hm, hproperties, hkind, hnames⟩ : ∃ m q p,
      (model blank renumbered false "").outcome = .ok m ∧ m.properties = [q, p] ∧
      p.kind = .interface ∧ p.properties.map (·.name) = ["id", "id"] :=
    ⟨_, _, _, rfl, rfl, rfl, rfl⟩
  have hp : p ∈ m.properties := hproperties ▸ List.mem_cons_of_mem q List.mem_cons_self
  have hapart := hall blank renumbered false "" m p (by decide) (by decide) hm
    (.property hp (.self p)) hkind
  rw [NamesApart, hnames] at hapart
  simp at hapart

end Schema

end ApiModel
