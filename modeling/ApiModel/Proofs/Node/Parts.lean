import ApiModel.Pointer
import Mathlib.Tactic.SplitIfs

/-!
# The parts of a node

A node and all the nodes in it, in a list that is as long as the node's `count`. Whatever a
builder reads from a node is a part of it with a smaller count, and whatever a reference leads to
is a part of the document.
-/

namespace ApiModel

namespace Node

mutual

/-- A node and all nodes in it. -/
def parts : Node → List Node
  | scalar s => [scalar s]
  | list items => list items :: partsOfItems items
  | map entries => map entries :: partsOfValues entries

/-- The parts of the nodes of a list. -/
def partsOfItems : List Node → List Node
  | [] => []
  | n :: rest => n.parts ++ partsOfItems rest

/-- The parts of the values of entries. -/
def partsOfValues : List (Scalar × Node) → List Node
  | [] => []
  | (_, n) :: rest => n.parts ++ partsOfValues rest

end

mutual

theorem length_parts : ∀ n : Node, n.parts.length = n.count
  | scalar _ => rfl
  | list items => by simp [parts, count, length_partsOfItems items]
  | map entries => by simp [parts, count, length_partsOfValues entries]

theorem length_partsOfItems : ∀ ns : List Node, (partsOfItems ns).length = countAll ns
  | [] => rfl
  | n :: rest => by
    simp [partsOfItems, countAll, length_parts n, length_partsOfItems rest]

theorem length_partsOfValues :
    ∀ es : List (Scalar × Node), (partsOfValues es).length = countValues es
  | [] => rfl
  | (_, n) :: rest => by
    simp [partsOfValues, countValues, length_parts n, length_partsOfValues rest]

end

theorem self_mem_parts (n : Node) : n ∈ n.parts := by
  cases n <;> simp [parts]

theorem mem_partsOfItems {u : Node} {ns : List Node} :
    u ∈ partsOfItems ns ↔ ∃ n ∈ ns, u ∈ n.parts := by
  induction ns with
  | nil => simp [partsOfItems]
  | cons n rest ih => simp [partsOfItems, ih]

theorem mem_partsOfValues {u : Node} {es : List (Scalar × Node)} :
    u ∈ partsOfValues es ↔ ∃ k n, (k, n) ∈ es ∧ u ∈ n.parts := by
  induction es with
  | nil => simp [partsOfValues]
  | cons e rest ih =>
    obtain ⟨k, n⟩ := e
    rw [partsOfValues, List.mem_append, ih]
    constructor
    · rintro (h | ⟨k', n', hmem, h⟩)
      · exact ⟨k, n, List.mem_cons_self, h⟩
      · exact ⟨k', n', List.mem_cons_of_mem _ hmem, h⟩
    · rintro ⟨k', n', hmem, h⟩
      rcases List.mem_cons.1 hmem with heq | hmem
      · obtain ⟨-, rfl⟩ := Prod.mk.inj heq
        exact .inl h
      · exact .inr ⟨k', n', hmem, h⟩

mutual

/-- A part of a part is a part. -/
theorem mem_parts_trans {t u : Node} (hu : u ∈ t.parts) : ∀ {s : Node}, t ∈ s.parts → u ∈ s.parts
  | scalar v, ht => by
    obtain rfl : t = scalar v := by simpa [parts] using ht
    exact hu
  | list items, ht => by
    rw [parts, List.mem_cons] at ht ⊢
    rcases ht with rfl | ht
    · rwa [parts, List.mem_cons] at hu
    · exact .inr (mem_partsOfItems_trans hu ht)
  | map entries, ht => by
    rw [parts, List.mem_cons] at ht ⊢
    rcases ht with rfl | ht
    · rwa [parts, List.mem_cons] at hu
    · exact .inr (mem_partsOfValues_trans hu ht)

theorem mem_partsOfItems_trans {t u : Node} (hu : u ∈ t.parts) :
    ∀ {ns : List Node}, t ∈ partsOfItems ns → u ∈ partsOfItems ns
  | [], ht => by simp [partsOfItems] at ht
  | n :: rest, ht => by
    rw [partsOfItems, List.mem_append] at ht ⊢
    exact ht.imp (mem_parts_trans hu) (mem_partsOfItems_trans hu)

theorem mem_partsOfValues_trans {t u : Node} (hu : u ∈ t.parts) :
    ∀ {es : List (Scalar × Node)}, t ∈ partsOfValues es → u ∈ partsOfValues es
  | [], ht => by simp [partsOfValues] at ht
  | (_, n) :: rest, ht => by
    rw [partsOfValues, List.mem_append] at ht ⊢
    exact ht.imp (mem_parts_trans hu) (mem_partsOfValues_trans hu)

end

/-! ## What is inside -/

/-- A part of a node that is not the whole. -/
def Inside (t s : Node) : Prop := t ∈ s.parts ∧ t.count < s.count

theorem count_pos (n : Node) : 0 < n.count := by
  cases n <;> simp [count]

theorem Inside.trans {t u s : Node} (h : Inside u t) (h' : Inside t s) : Inside u s :=
  ⟨mem_parts_trans h.1 h'.1, Nat.lt_trans h.2 h'.2⟩

theorem inside_list {items : List Node} {n : Node} (h : n ∈ items) : Inside n (list items) := by
  refine ⟨?_, ?_⟩
  · rw [parts, List.mem_cons, mem_partsOfItems]
    exact .inr ⟨n, h, self_mem_parts n⟩
  · rw [count, Nat.lt_succ_iff]
    induction items with
    | nil => simp at h
    | cons i rest ih =>
      rw [countAll]
      rcases List.mem_cons.1 h with rfl | h
      · omega
      · have := ih h
        omega

theorem inside_map {entries : List (Scalar × Node)} {k : Scalar} {n : Node}
    (h : (k, n) ∈ entries) : Inside n (map entries) := by
  refine ⟨?_, ?_⟩
  · rw [parts, List.mem_cons, mem_partsOfValues]
    exact .inr ⟨k, n, h, self_mem_parts n⟩
  · rw [count, Nat.lt_succ_iff]
    induction entries with
    | nil => simp at h
    | cons e rest ih =>
      obtain ⟨k', n'⟩ := e
      rw [countValues]
      rcases List.mem_cons.1 h with heq | h
      · obtain ⟨-, rfl⟩ := Prod.mk.inj heq
        omega
      · have := ih h
        omega

theorem text?_eq_some_iff {n : Node} {s : String} : n.text? = some s ↔ n = text s := by
  refine ⟨fun h => ?_, fun h => by rw [h]; rfl⟩
  cases n with
  | scalar v =>
    cases v with
    | text t => rw [Option.some.inj h]
    | _ => cases h
  | _ => cases h

/-- Only a mapping can be a reference. -/
theorem isMap_of_ref {n : Node} {ref : String} (h : n.ref? = some ref) : n.isMap = true := by
  cases n with
  | map entries => rfl
  | _ => cases h

theorem mem_of_getText? {key : String} {n : Node} {entries : List (Scalar × Node)}
    (h : getText? key entries = some n) : (.text key, n) ∈ entries := by
  induction entries with
  | nil => simp [getText?] at h
  | cons e rest ih =>
    obtain ⟨k, v⟩ := e
    cases k with
    | text k =>
      rw [getText?] at h
      split_ifs at h with hk
      · obtain rfl : v = n := by simpa using h
        subst hk
        exact List.mem_cons_self
      · exact List.mem_cons_of_mem _ (ih h)
    | _ => exact List.mem_cons_of_mem _ (ih h)

/-- What a keyword says is inside the node, unless the keyword says nothing. -/
theorem inside_of_field {key : String} {s n : Node} (h : s.field key = n) (hn : n ≠ null) :
    Inside n s := by
  unfold field at h
  cases hget : s.get? key with
  | none => rw [hget] at h; exact absurd h.symm hn
  | some v =>
    rw [hget, Option.getD_some] at h
    subst h
    cases s with
    | map entries => exact inside_map (mem_of_getText? hget)
    | _ => simp [get?] at hget

/-! ## Where references lead -/

theorem follow_mem_parts {ref : String} {n next : Node} {step : List Char}
    (h : Pointer.follow ref n step = .ok next) : next ∈ n.parts := by
  unfold Pointer.follow at h
  split at h
  · split at h
    · rename_i entries value hget
      obtain rfl : value = next := by simpa using h
      exact (inside_map (mem_of_getText? hget)).1
    · simp at h
  · split_ifs at h
    split at h
    · simp at h
    · split at h
      · rename_i item hitem
        obtain rfl : item = next := by simpa using h
        exact (inside_list (List.mem_of_getElem? hitem)).1
      · simp at h
  · simp at h

theorem followAll_mem_parts {ref : String} {n t : Node} {steps : List (List Char)}
    (h : Pointer.followAll ref n steps = .ok t) : t ∈ n.parts := by
  induction steps generalizing n with
  | nil =>
    obtain rfl : n = t := by simpa [Pointer.followAll] using h
    exact self_mem_parts n
  | cons step rest ih =>
    unfold Pointer.followAll at h
    split at h
    · rename_i next hnext
      exact mem_parts_trans (ih h) (follow_mem_parts hnext)
    · simp at h

/-- A node stands for itself or for a part of the document. -/
theorem target_eq_ok {document n t : Node} (h : (Node.target document n).outcome = .ok t) :
    t = n ∨ t ∈ document.parts := by
  unfold Node.target at h
  split at h
  · exact .inr (followAll_mem_parts h)
  · left
    simpa using h.symm

end Node

end ApiModel
