import ApiModel.Proofs.Node.Keys
import ApiModel.Proofs.Node.Related
import ApiModel.Proofs.Parallel
import Mathlib.Data.List.Perm.Basic

/-!
# Mappings that differ in order

The value of a key does not depend on the order of the entries, where the keys are pairwise
different (`getText?_perm`). So a reference leads through both of two mappings that differ in order,
and what it leads to is related if the values are (`paired_resolve`).
-/

namespace ApiModel

namespace Node

variable {n n' : Node} {es es' : List (Scalar × Node)}

/-! ## The order of entries -/

theorem getText?_eq_some_iff (hkeys : (es.map (·.1)).Nodup) {key : String} {v : Node} :
    getText? key es = some v ↔ (.text key, v) ∈ es := by
  refine ⟨mem_of_getText?, fun hmem => ?_⟩
  induction es with
  | nil => cases hmem
  | cons e es ih =>
    obtain ⟨k, u⟩ := e
    obtain ⟨hk, hrest⟩ := List.nodup_cons.1 hkeys
    rcases List.mem_cons.1 hmem with heq | hlater
    · cases heq
      exact if_pos rfl
    · have hne : k ≠ .text key := by
        rintro rfl
        exact hk (List.mem_map.2 ⟨_, hlater, rfl⟩)
      cases k with
      | text k =>
        rw [getText?, if_neg fun heq => hne (congrArg _ heq)]
        exact ih hrest hlater
      | _ => exact ih hrest hlater

/-- The value of a key does not depend on the order of the entries. -/
theorem getText?_perm (hperm : es.Perm es') (hkeys : (es.map (·.1)).Nodup) (key : String) :
    getText? key es = getText? key es' := by
  have hkeys' : (es'.map (·.1)).Nodup := (hperm.map _).nodup_iff.1 hkeys
  refine Option.ext fun v => ?_
  rw [getText?_eq_some_iff hkeys, getText?_eq_some_iff hkeys', hperm.mem_iff]

/-! ## Mappings that are related key by key -/

/-- One node, or two mappings that say the same under the given keys. -/
def SameFor (keys : List String) (n n' : Node) : Prop :=
  n = n' ∨ (n.isMap = true ∧ n'.isMap = true) ∧ SaysSame keys n n'

theorem SameFor.saysSame {keys : List String} (h : SameFor keys n n') : SaysSame keys n n' := by
  rcases h with rfl | ⟨-, h⟩
  · exact fun _ _ => rfl
  · exact h

theorem SameFor.isMap {keys : List String} (h : SameFor keys n n') : n.isMap = n'.isMap := by
  rcases h with rfl | ⟨⟨hn, hn'⟩, -⟩
  · rfl
  · rw [hn, hn']

/-- One node, or two mappings with related values under every text key. -/
def KeyWise (S : Node → Node → Prop) (n n' : Node) : Prop :=
  n = n' ∨ (n.isMap = true ∧ n'.isMap = true) ∧ ∀ key, Option.Rel S (n.get? key) (n'.get? key)

theorem rel_self {S : Node → Node → Prop} (hS : ∀ n, S n n) (o : Option Node) :
    Option.Rel S o o := by
  cases o with
  | none => exact .none
  | some n => exact .some (hS n)

theorem KeyWise.get? {S : Node → Node → Prop} (hS : ∀ n, S n n) (h : KeyWise S n n')
    (key : String) : Option.Rel S (n.get? key) (n'.get? key) := by
  rcases h with rfl | ⟨-, hvalues⟩
  · exact rel_self hS _
  · exact hvalues key

/-- Values stay the same, except under certain keys. -/
def KeptBut (P : Scalar → Prop) (Q : Node → Node → Prop) (key : Scalar) (v w : Node) : Prop :=
  v = w ∨ P key ∧ Q v w

section KeptBut

variable {P : Scalar → Prop} {Q S : Node → Node → Prop} (h : ValuesBy (KeptBut P Q) n n')
include h

theorem keptBut_field (key : String) : KeptBut P Q (.text key) (n.field key) (n'.field key) :=
  h.field (fun _ _ => .inl rfl) key

/-- Under a key that is no such key, the value stays. -/
theorem field_eq_of_kept {key : String} (hkey : ¬ P (.text key)) : n.field key = n'.field key :=
  (keptBut_field h key).resolve_right fun hvalue => hkey hvalue.1

theorem keyWise_of_kept (hS : ∀ n, S n n) (hQ : ∀ v w, Q v w → S v w) : KeyWise S n n' := by
  cases h with
  | same => exact .inl rfl
  | @map es es' hes =>
    refine .inr ⟨⟨rfl, rfl⟩, fun key => ?_⟩
    have hvalue := getText?_related hes key
    show Option.Rel S (getText? key es) (getText? key es')
    generalize getText? key es = a at hvalue
    generalize getText? key es' = b at hvalue
    cases hvalue with
    | none => exact .none
    | some hvw =>
      rcases hvw with rfl | ⟨-, hvw⟩
      · exact .some (hS _)
      · exact .some (hQ _ _ hvw)

theorem sameFor_of_kept {keys : List String} (hP : ∀ key ∈ keys, ¬ P (.text key)) :
    SameFor keys n n' := by
  cases h with
  | same => exact .inl rfl
  | @map es es' hes =>
    refine .inr ⟨⟨rfl, rfl⟩, fun key hkey => ?_⟩
    have hvalue := getText?_related hes key
    show getText? key es = getText? key es'
    generalize getText? key es = a at hvalue
    generalize getText? key es' = b at hvalue
    cases hvalue with
    | none => rfl
    | some hvw =>
      rcases hvw with rfl | ⟨hno, -⟩
      · rfl
      · exact absurd hno (hP key hkey)

end KeptBut

/-! ## Where references lead -/

section References

open Report

variable {S : Node → Node → Prop}

theorem paired_follow (hS : ∀ n, S n n) (h : KeyWise S n n') (ref : String) (step : List Char) :
    Paired S (Pointer.follow ref n step) (Pointer.follow ref n' step) := by
  have hself (x : Except Fault Node) : Paired S x x := by
    cases x with
    | ok n => exact .ok (hS n)
    | error e => exact .error e
  rcases h with rfl | ⟨⟨hn, hn'⟩, hvalues⟩
  · exact hself _
  · cases n with
    | map es =>
      cases n' with
      | map es' =>
        have hvalue : Option.Rel S (getText? (String.ofList step) es)
            (getText? (String.ofList step) es') := hvalues _
        simp only [Pointer.follow]
        generalize getText? (String.ofList step) es = a at hvalue
        generalize getText? (String.ofList step) es' = b at hvalue
        cases hvalue with
        | none => exact .error _
        | some hvw => exact .ok hvw
      | _ => cases hn'
    | _ => cases hn

/-- A reference leads to related nodes through related documents. -/
theorem paired_resolve (hself : ∀ n, S n n) (hS : ∀ n n', S n n' → KeyWise S n n') (h : S n n')
    (ref : String) : Paired S (Pointer.resolve n ref) (Pointer.resolve n' ref) := by
  unfold Pointer.resolve
  generalize Pointer.steps ref = steps
  induction steps generalizing n n' with
  | nil => exact .ok h
  | cons step rest ih =>
    have hstep := paired_follow hself (hS n n' h) ref step
    unfold Pointer.followAll
    generalize Pointer.follow ref n step = a at hstep
    generalize Pointer.follow ref n' step = b at hstep
    cases hstep with
    | ok hnext => exact ih hnext
    | error e => exact .error e

end References

end Node

end ApiModel
