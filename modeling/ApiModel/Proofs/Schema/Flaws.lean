import ApiModel.Proofs.Schema.Rule

/-!
# What is wrong with a schema by itself

Little can go wrong before the schemas inside a schema are looked at. Each section says what of one
kind of work, as a property of the document, and shows that the work fails by that and by nothing
else.

* A record refuses descriptions and constraints that do not fit (`Model.failsBy_settle`).
* To find the rule, vendor keywords are gone through and numbers in a description are read
  (`failsBy_rule`).
* A reference that is followed may lead nowhere (`Node.failsBy_target`).

None of these flaws is a want of budget, so all the work here ends.
-/

namespace ApiModel

open Report

/-! ## Records -/

namespace Model

/-- A record refuses values about which there are so many complaints. -/
def Refused (record : String) (n : Nat) (f : Fault) : Prop := n ≠ 0 ∧ f = .rejected record n

theorem failsBy_refuse (record : String) (n : Nat) :
    FailsBy (refuse record n) (Refused record n) := by
  unfold refuse
  split_ifs with h
  · exact (FailsBy.pure ()).congr fun f => iff_of_false id fun hf => hf.1 h
  · exact (FailsBy.fail _).congr fun f => (and_iff_right h).symm

theorem failsBy_settle (m : Model) : FailsBy m.settle (Refused "Model" m.complaints) :=
  (failsBy_refuse _ _).before fun _ _ => FailsBy.pure _

end Model

theorem failsBy_default (members : List EnumMember) (schema : Node) :
    FailsBy (Default.ofSchema members schema) fun _ => False := by
  unfold Default.ofSchema
  split
  · exact .pure _
  · split_ifs
    · exact .pure _
    · split
      · exact .pure _
      · exact (FailsBy.note _).after fun _ _ => .pure _

theorem failsBy_withDefault (m : Model) (schema : Node) :
    FailsBy (m.withDefault schema) fun _ => False :=
  (failsBy_default _ _).after fun _ _ => .pure _

/-- Both last steps of a rule. -/
theorem failsBy_last (m : Model) (schema : Node) :
    FailsBy (m.settle >>= (·.withDefault schema)) (Model.Refused "Model" m.complaints) :=
  m.failsBy_settle.before fun _ _ => failsBy_withDefault _ _

/-! ## Enumerations -/

/-- A node says something, but cannot be gone through. -/
def Node.Unlistable (n : Node) : Prop := n.truthy = true ∧ n.members? = none

namespace Enumeration

/-- One of the vendor keywords cannot be gone through. -/
def HasUnlistable (s : Node) : Prop :=
  ∃ keyword ∈ ["x-enum-varnames", "x-enum-descriptions"], (s.field keyword).Unlistable

/-- The values that a node lists as the members of an enumeration. -/
def valuesOf : Node → List Scalar
  | .list values => memberValues values
  | _ => []

/-- The name of the member of a pair. -/
def pairName (pair : List Char × List Char) : String :=
  Identifier.memberName (String.ofList pair.1)

/-- A number that is to be read has too many digits. Only the first pair of a name is read, and none
if the name has been seen before. -/
def HasOverlong (seen : List String) (pairs : List (List Char × List Char)) : Prop :=
  ∃ before pair after, pairs = before ++ pair :: after ∧
    pairName pair ∉ seen ++ before.map pairName ∧ Decimal.readInt? pair.2 = none

/-- A description lists a number with too many digits. -/
def ListsOverlong (description : String) : Prop :=
  beginsWithPair description.toList = true ∧
    HasOverlong [] (pairsFrom (.word []) description.toList)

/-- The description of an integer lists a number with too many digits. -/
def DescribesOverlong (s : Node) : Prop :=
  Schema.isInteger (s.field "type") = true ∧
    ∃ description ∈ (s.field "description").text?, ListsOverlong description

theorem failsBy_vendorTexts (s : Node) (keyword : String) :
    FailsBy (vendorTexts s keyword) fun f => (s.field keyword).Unlistable ∧ f = .malformed := by
  simp only [vendorTexts, Node.Unlistable]
  split_ifs with htruthy
  · exact (FailsBy.ofOption _ _).map.congr fun f => by simp [htruthy]
  · exact (FailsBy.pure _).congr fun f => by simp [htruthy]

theorem failsBy_extend (s : Node) (members : List EnumMember) :
    FailsBy (extend s members) fun f => HasUnlistable s ∧ f = .malformed := by
  refine ((failsBy_vendorTexts s _).bind fun _ _ =>
    (failsBy_vendorTexts s _).before fun _ _ => .pure _).congr fun f => ?_
  rw [← or_and_right, HasUnlistable]
  simp

theorem failsBy_distinct (seen values : List Scalar) :
    FailsBy (distinct seen values) fun _ => False := by
  induction values generalizing seen with
  | nil => exact .pure _
  | cons s rest ih =>
    unfold distinct
    split_ifs
    · exact (FailsBy.note _).after fun _ _ => ih seen
    · exact (ih _).after fun _ _ => .pure _

theorem failsBy_ofNode (n : Node) : FailsBy (ofNode n) fun _ => False := by
  unfold ofNode
  split
  · exact (failsBy_distinct _ _).after fun _ _ => .pure _
  · exact .pure _

theorem distinct_eq_nil_iff {values kept : List Scalar}
    (h : (distinct [] values).outcome = .ok kept) : kept = [] ↔ values = [] := by
  cases values with
  | nil =>
    cases h
    exact iff_of_true rfl rfl
  | cons s rest =>
    obtain ⟨kept', -, h⟩ := bind_eq_ok.1 h
    cases h
    simp

/-- There are members exactly if there are values. -/
theorem extend_eq_nil_iff {s n : Node} {members : List EnumMember}
    (h : (ofNode n >>= extend s).outcome = .ok members) : members = [] ↔ valuesOf n = [] := by
  obtain ⟨listed, hlisted, h⟩ := bind_eq_ok.1 h
  obtain ⟨names, -, h⟩ := bind_eq_ok.1 h
  obtain ⟨descriptions, -, h⟩ := bind_eq_ok.1 h
  cases h
  have hannotate : annotate names descriptions listed = [] ↔ listed = [] := by simp [annotate]
  rw [hannotate]
  unfold ofNode at hlisted
  split at hlisted
  · obtain ⟨kept, hkept, hlisted⟩ := bind_eq_ok.1 hlisted
    cases hlisted
    rw [List.map_eq_nil_iff]
    exact distinct_eq_nil_iff hkept
  · rename_i hlist
    cases hlisted
    refine iff_of_true rfl ?_
    cases n with
    | list values => exact absurd rfl (hlist values)
    | _ => rfl

theorem not_hasOverlong_nil (seen : List String) : ¬ HasOverlong seen [] := by
  rintro ⟨before, pair, after, h, -⟩
  simp at h

theorem hasOverlong_cons {seen : List String} {pair : List Char × List Char}
    {rest : List (List Char × List Char)} :
    HasOverlong seen (pair :: rest) ↔
      (pairName pair ∉ seen ∧ Decimal.readInt? pair.2 = none) ∨
        HasOverlong (pairName pair :: seen) rest := by
  constructor
  · rintro ⟨before, p, after, h, hnew, hread⟩
    cases before with
    | nil =>
      obtain ⟨rfl, rfl⟩ := List.cons.inj h
      exact .inl ⟨by simpa using hnew, hread⟩
    | cons q before =>
      obtain ⟨rfl, rfl⟩ := List.cons.inj h
      refine .inr ⟨before, p, after, rfl, ?_, hread⟩
      simpa [and_left_comm] using hnew
  · rintro (⟨hnew, hread⟩ | ⟨before, p, after, rfl, hnew, hread⟩)
    · exact ⟨[], pair, rest, rfl, by simpa using hnew, hread⟩
    · refine ⟨pair :: before, p, after, rfl, ?_, hread⟩
      simpa [and_left_comm] using hnew

/-- A name that has been seen twice has been seen. -/
theorem hasOverlong_seen {name : String} {seen : List String} (h : name ∈ seen)
    (pairs : List (List Char × List Char)) :
    HasOverlong (name :: seen) pairs ↔ HasOverlong seen pairs := by
  have hmem (n : String) : n ∈ name :: seen ↔ n ∈ seen := by
    rw [List.mem_cons, or_iff_right_of_imp (· ▸ h)]
  simp only [HasOverlong, List.mem_append, hmem]

theorem failsBy_ofPairs (seen : List String) (pairs : List (List Char × List Char)) :
    FailsBy (ofPairs seen pairs) fun f => HasOverlong seen pairs ∧ f = .malformed := by
  induction pairs generalizing seen with
  | nil => exact (FailsBy.pure _).congr fun f => by simp [not_hasOverlong_nil]
  | cons pair rest ih =>
    unfold ofPairs
    split_ifs with hcontains
    · have hseen : pairName pair ∈ seen := List.contains_iff_mem.1 hcontains
      refine (ih seen).congr fun f => ?_
      rw [hasOverlong_cons, hasOverlong_seen hseen, or_iff_right fun h => h.1 hseen]
    · have hseen : pairName pair ∉ seen := mt List.contains_iff_mem.2 hcontains
      have hpair : FailsBy (ofPair pair) fun f =>
          Decimal.readInt? pair.2 = none ∧ f = .malformed :=
        (FailsBy.ofOption _ _).before fun _ _ => .pure _
      have hrest (m : EnumMember) (hm : (ofPair pair).outcome = .ok m) :
          FailsBy (ofPairs (m.name :: seen) rest) fun f =>
            HasOverlong (pairName pair :: seen) rest ∧ f = .malformed := by
        obtain ⟨n, -, hm⟩ := bind_eq_ok.1 hm
        cases hm
        exact ih _
      refine (hpair.bind fun m hm => (hrest m hm).before fun _ _ => .pure _).congr fun f => ?_
      rw [← or_and_right, hasOverlong_cons, and_iff_right hseen]

theorem failsBy_ofDescription (description : String) :
    FailsBy (ofDescription description) fun f => ListsOverlong description ∧ f = .malformed := by
  unfold ofDescription ListsOverlong
  split_ifs with h
  · exact (failsBy_ofPairs _ _).congr fun f => by simp [h]
  · exact (FailsBy.pure _).congr fun f => by simp [h]

end Enumeration

/-! ## References -/

namespace Pointer

variable {document n : Node} {ref : String} {step : List Char} {f : Fault}

theorem fault_of_follow (h : follow ref n step = .error f) :
    f = .unresolved ref ∨ f = .malformed := by
  unfold follow at h
  split at h
  · split at h
    · cases h
    · exact .inl (Except.error.inj h).symm
  · split_ifs at h
    · split at h
      · exact .inr (Except.error.inj h).symm
      · split at h
        · cases h
        · exact .inl (Except.error.inj h).symm
    · exact .inl (Except.error.inj h).symm
  · exact .inl (Except.error.inj h).symm

theorem fault_of_followAll {steps : List (List Char)} (h : followAll ref n steps = .error f) :
    f = .unresolved ref ∨ f = .malformed := by
  induction steps generalizing n with
  | nil => cases h
  | cons step rest ih =>
    unfold followAll at h
    split at h
    · exact ih h
    · rename_i hstep
      cases h
      exact fault_of_follow hstep

end Pointer

namespace Node

/-- A reference leads nowhere in a document, and this is the fault. -/
def Dangles (document n : Node) (f : Fault) : Prop :=
  ∃ ref, n.ref? = some ref ∧ Pointer.resolve document ref = .error f

theorem failsBy_target (document n : Node) :
    FailsBy (target document n) (Dangles document n) := by
  unfold target Dangles
  cases n.ref? with
  | none => exact (FailsBy.pure n).congr fun f => by simp
  | some ref => exact (FailsBy.self _).congr fun f => by simp

theorem Dangles.fault {document n : Node} {f : Fault} (h : Dangles document n f) :
    (∃ ref, f = .unresolved ref) ∨ f = .malformed := by
  obtain ⟨ref, -, h⟩ := h
  exact (Pointer.fault_of_followAll h).imp_left fun hf => ⟨ref, hf⟩

/-- The node to which a reference that begins with a mark leads; any other node stands for
itself. -/
def targetAmong (mark : String) (document n : Node) : Built Node :=
  match n.ref? with
  | some ref => if ref.startsWith mark then target document n else pure n
  | none => pure n

/-- A reference that begins with a mark leads nowhere, and this is the fault. -/
def DanglesAmong (mark : String) (document n : Node) (f : Fault) : Prop :=
  (∃ ref ∈ n.ref?, ref.startsWith mark = true) ∧ Dangles document n f

theorem targetAmong_eq_self {mark : String} (document : Node) {n : Node}
    (h : ∀ ref, n.ref? = some ref → ref.startsWith mark = false) :
    targetAmong mark document n = pure n := by
  unfold targetAmong
  split
  · rename_i ref href
    simp [h ref href]
  · rfl

theorem failsBy_targetAmong (mark : String) (document n : Node) :
    FailsBy (targetAmong mark document n) (DanglesAmong mark document n) := by
  unfold targetAmong DanglesAmong
  split
  · rename_i ref href
    simp only [href, Option.mem_def, Option.some.injEq, exists_eq_left']
    split_ifs with hmark
    · exact (failsBy_target document n).congr fun f => (and_iff_right hmark).symm
    · exact (FailsBy.pure n).congr fun f => iff_of_false id fun hf => hmark hf.1
  · rename_i href
    exact (FailsBy.pure n).congr fun f => by simp [href]

end Node

/-! ## Rules -/

namespace Schema

/-- The values that a schema lists as the members of an enumeration. -/
def listedValues (d : Dialect) (s : Node) : List Scalar :=
  if mayEnumerate d s then Enumeration.valuesOf (s.field "enum") else []

/-- Something keeps the rule for a schema from being found. -/
inductive RuleFlaw (d : Dialect) (s : Node) : Prop
  /-- The names or descriptions of the members of an enumeration cannot be gone through. -/
  | unlistable : s.ref? = none → mayEnumerate d s = true → Enumeration.HasUnlistable s →
      RuleFlaw d s
  /-- A number that stands for a member in a description has too many digits. -/
  | overlong : s.ref? = none → listedValues d s = [] → d.hasDescribedEnums = true →
      Enumeration.DescribesOverlong s → RuleFlaw d s

theorem failsBy_listedMembers (ctx : Context) (s : Node) :
    FailsBy (listedMembers ctx s) fun f =>
      mayEnumerate ctx.dialect s = true ∧ Enumeration.HasUnlistable s ∧ f = .malformed := by
  unfold listedMembers
  split_ifs with hmay
  · refine ((Enumeration.failsBy_ofNode _).after fun _ _ =>
      Enumeration.failsBy_extend s _).congr fun f => ?_
    rw [and_iff_right hmay]
  · exact (FailsBy.pure _).congr fun f => by simp [hmay]

theorem failsBy_describedMembers (ctx : Context) (s : Node) :
    FailsBy (describedMembers ctx s) fun f =>
      ctx.dialect.hasDescribedEnums = true ∧ Enumeration.DescribesOverlong s ∧ f = .malformed := by
  unfold describedMembers Enumeration.DescribesOverlong
  split
  · rename_i description hread hdescription
    rw [Bool.and_eq_true] at hread
    exact (Enumeration.failsBy_ofDescription _).congr fun f => by simp [hread, hdescription]
  · rename_i hnone
    refine (FailsBy.pure _).congr fun f => iff_of_false id ?_
    rintro ⟨hd, ⟨hinteger, description, hdescription, -⟩, -⟩
    exact hnone description (by rw [hd, hinteger]; rfl) hdescription

theorem listedMembers_eq_nil_iff {ctx : Context} {s : Node} {members : List EnumMember}
    (h : (listedMembers ctx s).outcome = .ok members) :
    members = [] ↔ listedValues ctx.dialect s = [] := by
  unfold listedMembers at h
  unfold listedValues
  split_ifs at h ⊢
  · exact Enumeration.extend_eq_nil_iff h
  · cases h
    exact iff_of_true rfl rfl

/-- Finding the rule fails exactly by what `RuleFlaw` says. -/
theorem failsBy_rule (ctx : Context) (s : Node) :
    FailsBy (rule ctx s) fun f => RuleFlaw ctx.dialect s ∧ f = .malformed := by
  unfold rule
  cases href : s.ref? with
  | some ref =>
    refine (FailsBy.pure _).congr fun f => iff_of_false id ?_
    rintro ⟨hflaw, -⟩
    cases hflaw <;> simp_all
  | none =>
    refine ((failsBy_listedMembers ctx s).bind (G := fun f => listedValues ctx.dialect s = [] ∧
      ctx.dialect.hasDescribedEnums = true ∧ Enumeration.DescribesOverlong s ∧ f = .malformed)
      fun listed hlisted => ?_).congr fun f => ?_
    · rw [← listedMembers_eq_nil_iff hlisted]
      cases listed with
      | cons m ms => exact (FailsBy.pure _).congr fun f => by simp
      | nil =>
        refine ((failsBy_describedMembers ctx s).before fun described _ => ?_).congr fun f =>
          (and_iff_right rfl).symm
        cases described <;> exact FailsBy.pure _
    constructor
    · rintro (⟨hmay, hunlistable, hf⟩ | ⟨hnone, hd, hoverlong, hf⟩)
      · exact ⟨.unlistable href hmay hunlistable, hf⟩
      · exact ⟨.overlong href hnone hd hoverlong, hf⟩
    · rintro ⟨hflaw, hf⟩
      cases hflaw with
      | unlistable _ hmay hunlistable => exact .inl ⟨hmay, hunlistable, hf⟩
      | overlong _ hnone hd hoverlong => exact .inr ⟨hnone, hd, hoverlong, hf⟩

theorem failsBy_reference (ctx : Context) (schema : Node) (ref : String) (base : Model) :
    FailsBy (reference ctx schema ref base) (Model.Refused "Model" base.complaints) :=
  (failsBy_default _ _).after fun _ _ => Model.failsBy_settle _

theorem failsBy_referring (ctx : Context) (schema : Node) (ref : String) (isNullable : Bool)
    (base : Model) :
    FailsBy (referring ctx schema ref isNullable base) (Model.Refused "Model" base.complaints) :=
  (failsBy_default _ _).after fun _ _ => Model.failsBy_settle _

theorem failsBy_enumeration (schema : Node) (type : String) (members : List EnumMember)
    (base : Model) :
    FailsBy (enumeration schema type members base) (Model.Refused "Model" base.complaints) :=
  failsBy_last _ _

theorem failsBy_named (ctx : Context) (schema type : Node) (base : Model) :
    FailsBy (named ctx schema type base) (Model.Refused "Model" base.complaints) :=
  failsBy_last _ _

/-! ## All this ends -/

theorem ends_settle (m : Model) : Ends m.settle := m.failsBy_settle.ends fun h => nomatch h.2

theorem ends_default (members : List EnumMember) (schema : Node) :
    Ends (Default.ofSchema members schema) := (failsBy_default _ _).ends id

theorem ends_withDefault (m : Model) (schema : Node) : Ends (m.withDefault schema) :=
  (failsBy_withDefault _ _).ends id

theorem ends_rule (ctx : Context) (schema : Node) : Ends (rule ctx schema) :=
  (failsBy_rule _ _).ends fun h => nomatch h.2

theorem ends_reference (ctx : Context) (schema : Node) (ref : String) (base : Model) :
    Ends (reference ctx schema ref base) := (failsBy_reference _ _ _ _).ends fun h => nomatch h.2

theorem ends_enumeration (schema : Node) (type : String) (members : List EnumMember)
    (base : Model) : Ends (enumeration schema type members base) :=
  (failsBy_enumeration _ _ _ _).ends fun h => nomatch h.2

theorem ends_named (ctx : Context) (schema type : Node) (base : Model) :
    Ends (named ctx schema type base) := (failsBy_named _ _ _ _).ends fun h => nomatch h.2

theorem ends_target (document n : Node) : Ends (Node.target document n) :=
  (Node.failsBy_target _ _).ends fun h => by
    rcases h.fault with ⟨ref, hf⟩ | hf <;> cases hf

end Schema

end ApiModel
