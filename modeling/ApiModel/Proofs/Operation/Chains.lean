import ApiModel.Operation.Builder
import ApiModel.Proofs.Node.Parts
import ApiModel.Proofs.Node.Related
import ApiModel.Proofs.Parallel

/-!
# Entries that are references

A parameter, a response or the body of a request may be a reference to the object that says what it
is. One reference is followed. The object it leads to may be a reference again, and so on: `Chain`
counts the references to the object at the end.

**Theorem (`built_of_replaced`).** An operation is the same with the object at the end of a single
reference in the place of an entry. A chain of more references is not followed to its end: if
nothing else is said on the way, the operation is that with the empty object in the place of the
entry.

So an entry counts by its target only. A parameter without a name or a place is left out, a response
keeps its code and has no type, and a body is of any type.
-/

namespace ApiModel

/-- So many references lead from a node to an object that is no reference. -/
inductive Node.Chain (document : Node) : Nat → Node → Node → Prop
  | arrived {n : Node} : n.isMap = true → n.ref? = none → Chain document 0 n n
  | follow {k : Nat} {n t u : Node} {ref : String} :
      n.ref? = some ref → Pointer.resolve document ref = .ok t → Chain document k t u →
      Chain document (k + 1) n u

namespace Operation

open Node

/-- A reference that says nothing else. -/
def bare (ref : String) : Node := .record [("$ref", .text ref)]

/-- What may stand in the place of an entry: the entry itself, the object to which its one reference
leads, or the empty object if there are more references. -/
inductive Replaced (document : Node) : Node → Node → Prop
  | itself (n : Node) : Replaced document n n
  | final {n u : Node} : Chain document 1 n u → Replaced document n u
  | lost {k : Nat} {n u : Node} {ref next : String} : Chain document (k + 2) n u →
      n.ref? = some ref → Pointer.resolve document ref = .ok (bare next) →
      Replaced document n (.map [])

/-- A value in an operation, and one whose entries have been replaced where the key says that there
are entries. -/
def ReplacedIn (R : Node → Node → Prop) (key : Scalar) (v w : Node) : Prop :=
  if key = .text "parameters" then ItemsBy R v w
  else if key = .text "responses" then ValuesBy (fun _ => R) v w
  else if key = .text "requestBody" then R v w
  else v = w

section Replaced

variable {ctx : Context} {v w : Node}

theorem target_of_ref {document n : Node} {ref : String} (h : n.ref? = some ref) :
    Node.target document n = .ofExcept (Pointer.resolve document ref) := by
  rw [Node.target, h]

/-- An entry has the target of what stands in its place, or a target that is a reference. -/
theorem Replaced.target_cases {document : Node} (h : Replaced document v w) :
    Node.target document v = Node.target document w ∨
      w = .map [] ∧ ∃ next, Node.target document v = pure (bare next) := by
  cases h with
  | itself => exact .inl rfl
  | final hchain =>
    cases hchain with
    | follow href htarget hrest =>
      cases hrest with
      | arrived _ hnone =>
        left
        rw [target_of_ref href, htarget, Node.target, hnone]
        rfl
  | lost _ href htarget =>
    right
    exact ⟨rfl, _, by rw [target_of_ref href, htarget]; rfl⟩

theorem Replaced.isMap {document : Node} (h : Replaced document v w) : v.isMap = w.isMap := by
  cases h with
  | itself => rfl
  | final hchain =>
    cases hchain with
    | follow href _ hrest =>
      cases hrest with
      | arrived hmap _ => rw [isMap_of_ref href, hmap]
  | lost _ href _ => rw [isMap_of_ref href]; rfl

theorem entry_of_replaced (h : Replaced ctx.document v w) :
    Parameters.entry ctx v = Parameters.entry ctx w := by
  obtain htarget | ⟨rfl, next, htarget⟩ := h.target_cases
  · unfold Parameters.entry
    rw [htarget]
  · unfold Parameters.entry
    rw [htarget]
    rfl

theorem parameters_of_replaced (h : ItemsBy (Replaced ctx.document) v w) :
    Parameters.ofNode ctx v = Parameters.ofNode ctx w := by
  cases h with
  | same => rfl
  | @list ms ms' hms =>
    have hentries : ms.mapM (Parameters.entry ctx) = ms'.mapM (Parameters.entry ctx) :=
      Report.mapM_eq_of_forall₂ (hms.imp fun m m' hm => entry_of_replaced hm)
    have htruthy : (Node.list ms).truthy = (Node.list ms').truthy := by cases hms <;> rfl
    unfold Parameters.ofNode
    rw [htruthy]
    simp only [members?, Report.ofOption, pure_bind, hentries]

theorem responses_of_replaced (h : ValuesBy (fun _ => Replaced ctx.document) v w) :
    Response.ofNodes ctx v = Response.ofNodes ctx w := by
  cases h with
  | same => rfl
  | @map es es' hes =>
    have hentries : es.mapM (Response.entry ctx) = es'.mapM (Response.entry ctx) := by
      refine Report.mapM_eq_of_forall₂ (hes.imp ?_)
      rintro ⟨key, n⟩ ⟨key', n'⟩ ⟨hkey, hn⟩
      obtain rfl : key = key' := hkey
      obtain htarget | ⟨hempty, next, htarget⟩ := Replaced.target_cases hn
      · simp only [Response.entry, htarget]
      · obtain rfl : n' = .map [] := hempty
        simp only [Response.entry, htarget]
        rfl
    simp only [Response.ofNodes, hentries]

theorem body_of_replaced {node node' : Node}
    (h : Replaced ctx.document (node.field "requestBody") (node'.field "requestBody"))
    (ps : Parameters) : withRequestBody ctx node ps = withRequestBody ctx node' ps := by
  simp only [withRequestBody, h.isMap]
  cases hcontent : ctx.dialect.negotiatesContent with
  | false => rfl
  | true =>
    obtain htarget | ⟨hempty, next, htarget⟩ := h.target_cases
    · rw [htarget]
    · -- Of a body, only what is said of it besides the reference counts.
      have hbody : Parameter.ofRequestBody ctx (bare next) =
          Parameter.ofRequestBody ctx (.map []) := by
        unfold Parameter.ofRequestBody
        cases ctx.dialect <;> rfl
      have htarget' : Node.target ctx.document (.map []) = pure (.map []) := rfl
      have hmap : (bare next).isMap = (Node.map []).isMap := rfl
      rw [htarget, hempty, htarget']
      simp only [pure_bind, hbody, hmap]

end Replaced

/-- An operation and the parameters of its path are made in the same way with the object at the end
of a single reference in the place of an entry, and with the empty object in the place of one that
leads to a bare reference. -/
theorem built_of_replaced {ctx : Context} {shared shared' node node' : Node}
    (hshared : ItemsBy (Replaced ctx.document) shared shared')
    (hnode : ValuesBy (ReplacedIn (Replaced ctx.document)) node node') (url : Node)
    (method tag : String) :
    (Parameters.ofNode ctx shared >>= ofNode ctx url method tag node) =
      (Parameters.ofNode ctx shared' >>= ofNode ctx url method tag node') := by
  have hself (key : Scalar) (n : Node) : ReplacedIn (Replaced ctx.document) key n n := by
    unfold ReplacedIn
    split_ifs
    · exact .same n
    · exact .same n
    · exact .itself n
    · rfl
  have hfield := hnode.field hself
  have hparameters : ItemsBy (Replaced ctx.document) (node.field "parameters")
      (node'.field "parameters") := hfield "parameters"
  have hresponses : ValuesBy (fun _ => Replaced ctx.document) (node.field "responses")
      (node'.field "responses") := hfield "responses"
  have hbody : Replaced ctx.document (node.field "requestBody") (node'.field "requestBody") :=
    hfield "requestBody"
  have hother {key : String} (hkey : key ∉ ["parameters", "responses", "requestBody"]) :
      node.field key = node'.field key := by
    simp only [List.mem_cons, List.not_mem_nil, or_false, not_or] at hkey
    simpa [ReplacedIn, hkey] using hfield key
  rw [parameters_of_replaced hshared]
  congr 1
  funext ps
  simp (disch := decide) only [ofNode, hnode.isMap, parameters_of_replaced hparameters,
    body_of_replaced hbody, responses_of_replaced hresponses, hresponses.isMap, identifier?,
    complaints, hother]

/-- A document in which a limit is the size of a page, and a page of pets is a page. -/
def pages : Context :=
  let refersTo (place name : String) := bare ("#/" ++ place ++ "/" ++ name)
  { dialect := .v2
    document := .record [
      ("parameters", .record [("Limit", refersTo "parameters" "PageSize"),
        ("PageSize", .record [("name", .text "limit"), ("in", .text "query"),
          ("type", .text "integer")])]),
      ("responses", .record [("Pets", refersTo "responses" "Page"),
        ("Page", .record [("description", .text "a page")])])] }

/-- The object of the given name. -/
def pagesObject (place name : String) : Node := (pages.document.field place).field name

/-- A list of pets takes the size of a page itself as well as a reference to it; a page of pets is a
reference to a reference, so nothing is known of the response. -/
theorem built_of_replaced_pages :
    (Parameters.ofNode pages (.list [bare "#/parameters/PageSize"]) >>=
        ofNode pages (.text "/pets") "get" "Pets"
          (.record [("responses", .record [("200", bare "#/responses/Pets")])])) =
      (Parameters.ofNode pages (.list [pagesObject "parameters" "PageSize"]) >>=
        ofNode pages (.text "/pets") "get" "Pets"
          (.record [("responses", .record [("200", .map [])])])) := by
  have hparameter : Replaced pages.document (bare "#/parameters/PageSize")
      (pagesObject "parameters" "PageSize") := .final (.follow rfl rfl (.arrived rfl rfl))
  have hresponse : Replaced pages.document (bare "#/responses/Pets") (.map []) :=
    .lost (.follow rfl rfl (.follow rfl rfl (.arrived rfl rfl))) rfl rfl
  have hresponses : ValuesBy (fun _ => Replaced pages.document)
      (.record [("200", bare "#/responses/Pets")]) (.record [("200", .map [])]) :=
    .map (.cons ⟨rfl, hresponse⟩ .nil)
  have hnode : ValuesBy (ReplacedIn (Replaced pages.document))
      (.record [("responses", .record [("200", bare "#/responses/Pets")])])
      (.record [("responses", .record [("200", .map [])])]) :=
    .map (.cons ⟨rfl, hresponses⟩ .nil)
  exact built_of_replaced (.list (.cons hparameter .nil)) hnode _ _ _

/-- A limit is the size of a page by two references, and an operation that refers to the limit has
no parameter: the object at the end of a chain does not always make the same operation. -/
theorem not_all_chains_followed :
    ¬ ∀ (ctx : Context) (shared shared' node node' url : Node) (method tag : String),
      ItemsBy (fun n u => n = u ∨ ∃ k, Chain ctx.document k n u) shared shared' →
      ValuesBy (ReplacedIn fun n u => n = u ∨ ∃ k, Chain ctx.document k n u) node node' →
      (Parameters.ofNode ctx shared >>= ofNode ctx url method tag node).outcome =
        (Parameters.ofNode ctx shared' >>= ofNode ctx url method tag node').outcome := by
  intro hall
  have hchain : Chain pages.document 2 (bare "#/parameters/Limit")
      (pagesObject "parameters" "PageSize") := .follow rfl rfl (.follow rfl rfl (.arrived rfl rfl))
  have hsame := hall pages .null .null (.record [("parameters", .list [bare "#/parameters/Limit"])])
    (.record [("parameters", .list [pagesObject "parameters" "PageSize"])]) (.text "/pets") "get"
    "Pets" (.same _) (.map (.cons ⟨rfl, .list (.cons (.inr ⟨2, hchain⟩) .nil)⟩ .nil))
  have hcounts : (Except.ok 0 : Except Fault Nat) = .ok 1 :=
    congrArg (Except.map fun o : Operation => o.parameters.length) hsame
  cases hcounts

end Operation

end ApiModel
