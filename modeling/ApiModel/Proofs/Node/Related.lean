import ApiModel.Pointer
import Mathlib.Data.List.Forall2
import Mathlib.Tactic.SplitIfs

/-!
# Nodes that are related part by part

Two nodes may say the same under the keys that are looked at and differ otherwise (`SaysSame`), or
they may be two lists or two mappings of one shape whose parts are related in turn (`ItemsBy`,
`ValuesBy`). How the values of two mappings are related may depend on their key.
-/

namespace ApiModel.Node

variable {n n' : Node}

/-! ## The same under some keys -/

/-- Two nodes have the same values under the given keys. -/
def SaysSame (keys : List String) (n n' : Node) : Prop := ∀ key ∈ keys, n.get? key = n'.get? key

namespace SaysSame

variable {keys : List String} {key : String}

theorem field (h : SaysSame keys n n') (hkey : key ∈ keys) : n.field key = n'.field key := by
  rw [Node.field, h key hkey, Node.field]

theorem subset {keys' : List String} (h : SaysSame keys n n') (hkeys : keys' ⊆ keys) :
    SaysSame keys' n n' := fun key hkey => h key (hkeys hkey)

theorem ref? (h : SaysSame keys n n') (hkey : "$ref" ∈ keys) : n.ref? = n'.ref? := by
  rw [Node.ref?, h.field hkey, Node.ref?]

end SaysSame

/-! ## Lists -/

/-- One node, or two lists whose items are related. -/
inductive ItemsBy (R : Node → Node → Prop) : Node → Node → Prop
  | same (n : Node) : ItemsBy R n n
  | list {ms ms' : List Node} : List.Forall₂ R ms ms' → ItemsBy R (list ms) (list ms')

/-! ## Mappings -/

/-- Two entries have one key, and values that are related as the key says. -/
def EntryBy (Q : Scalar → Node → Node → Prop) (e e' : Scalar × Node) : Prop :=
  e.1 = e'.1 ∧ Q e.1 e.2 e'.2

/-- One node, or two mappings with the same keys in the same order, and related values. -/
inductive ValuesBy (Q : Scalar → Node → Node → Prop) : Node → Node → Prop
  | same (n : Node) : ValuesBy Q n n
  | map {es es' : List (Scalar × Node)} :
      List.Forall₂ (EntryBy Q) es es' → ValuesBy Q (map es) (map es')

namespace ValuesBy

variable {Q : Scalar → Node → Node → Prop}

theorem truthy (h : ValuesBy Q n n') : n.truthy = n'.truthy := by
  cases h with
  | same n => rfl
  | map hes => cases hes <;> rfl

theorem isMap (h : ValuesBy Q n n') : n.isMap = n'.isMap := by
  cases h <;> rfl

end ValuesBy

/-- Under a text key, related entries have related values or none. -/
theorem getText?_related {Q : Scalar → Node → Node → Prop} {es es' : List (Scalar × Node)}
    (h : List.Forall₂ (EntryBy Q) es es') (key : String) :
    Option.Rel (Q (.text key)) (getText? key es) (getText? key es') := by
  induction h with
  | nil => exact .none
  | @cons e e' es es' he _ ih =>
    obtain ⟨k, v⟩ := e
    obtain ⟨k', v'⟩ := e'
    obtain ⟨rfl, hv⟩ : k = k' ∧ Q k v v' := he
    cases k with
    | text k =>
      rw [getText?, getText?]
      split_ifs with hkey
      · exact .some (hkey ▸ hv)
      · exact ih
    | _ => exact ih

/-- And so under every text key, where nothing stands for what is not there. -/
theorem ValuesBy.field {Q : Scalar → Node → Node → Prop} (hQ : ∀ key n, Q key n n)
    (h : ValuesBy Q n n') (key : String) : Q (.text key) (n.field key) (n'.field key) := by
  cases h with
  | same n => exact hQ _ _
  | map hes =>
    have hvalue := getText?_related hes key
    unfold Node.field Node.get?
    dsimp only
    generalize getText? key _ = a at hvalue
    generalize getText? key _ = b at hvalue
    cases hvalue with
    | some hv => exact hv
    | none => exact hQ _ _

end ApiModel.Node
