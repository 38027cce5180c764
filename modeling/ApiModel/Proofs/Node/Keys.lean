import ApiModel.Proofs.Node.Parts

/-!
# Keys of mappings

In a document the keys of a mapping are pairwise different. The tree does not enforce it: two
entries may be given one key. `Keyed` says it of a whole tree. Whatever is put together with
`insert` has it, and so has whatever stands in a tree that has it.
-/

namespace ApiModel.Node

/-- No two entries have the same key. -/
def KeysApart (entries : List (Scalar × Node)) : Prop :=
  entries.Pairwise fun e f => e.1.sameKey f.1 = false

instance (entries : List (Scalar × Node)) : Decidable (KeysApart entries) :=
  inferInstanceAs (Decidable (List.Pairwise _ entries))

/-- The keys of every mapping in the tree are pairwise different. -/
def Keyed (n : Node) : Prop := ∀ t ∈ n.parts, KeysApart (t.entries?.getD [])

instance (n : Node) : Decidable n.Keyed :=
  inferInstanceAs (Decidable (∀ t ∈ n.parts, KeysApart (t.entries?.getD [])))

variable {es : List (Scalar × Node)}

/-! ## The entries of a mapping -/

theorem sameKey_self (k : Scalar) : k.sameKey k = true := by
  simp [Scalar.sameKey]

theorem KeysApart.nodup (h : KeysApart es) : (es.map (·.1)).Nodup := by
  rw [List.Nodup, List.pairwise_map]
  refine List.Pairwise.imp (fun {e f} hef heq => ?_) h
  rw [heq, sameKey_self] at hef
  cases hef

theorem mem_insert {key : Scalar} {value : Node} {e : Scalar × Node}
    (he : e ∈ insert key value es) : e.1 = key ∨ e.1 ∈ es.map (·.1) := by
  induction es with
  | nil => exact .inl (congrArg Prod.fst (List.mem_singleton.1 he))
  | cons f rest ih =>
    obtain ⟨k, v⟩ := f
    rw [insert] at he
    split_ifs at he
    · rcases List.mem_cons.1 he with rfl | he
      · exact .inr List.mem_cons_self
      · exact .inr (List.mem_cons_of_mem _ (List.mem_map_of_mem he))
    · rcases List.mem_cons.1 he with rfl | he
      · exact .inr List.mem_cons_self
      · exact (ih he).imp_right (List.mem_cons_of_mem _)

/-- A key that is there already is not put in once more. -/
theorem KeysApart.insert (h : KeysApart es) (key : Scalar) (value : Node) :
    KeysApart (insert key value es) := by
  induction es with
  | nil => exact List.pairwise_singleton _ _
  | cons e rest ih =>
    obtain ⟨k, v⟩ := e
    obtain ⟨hk, hrest⟩ := List.pairwise_cons.1 h
    rw [Node.insert]
    split_ifs with hsame
    · exact List.pairwise_cons.2 ⟨hk, hrest⟩
    · refine List.pairwise_cons.2 ⟨fun f hf => ?_, ih hrest⟩
      rcases mem_insert hf with hkey | hold
      · rw [hkey]
        exact Bool.eq_false_iff.2 hsame
      · obtain ⟨g, hg, hgf⟩ := List.mem_map.1 hold
        rw [← hgf]
        exact hk g hg

/-! ## Trees -/

theorem Keyed.of_mem_parts {n t : Node} (h : n.Keyed) (ht : t ∈ n.parts) : t.Keyed :=
  fun u hu => h u (mem_parts_trans hu ht)

/-- The keys of a mapping in order are different. -/
theorem Keyed.entries {n : Node} (h : n.Keyed) : KeysApart (n.entries?.getD []) :=
  h n (self_mem_parts n)

theorem Keyed.values (h : (map es).Keyed) : ∀ e ∈ es, e.2.Keyed := by
  intro e he
  refine h.of_mem_parts ?_
  rw [parts, List.mem_cons, mem_partsOfValues]
  exact .inr ⟨e.1, e.2, he, self_mem_parts e.2⟩

theorem keyed_scalar (s : Scalar) : (scalar s).Keyed := by
  intro t ht
  obtain rfl : t = scalar s := by simpa [parts] using ht
  exact .nil

theorem keyed_list {items : List Node} (h : ∀ n ∈ items, n.Keyed) : (list items).Keyed := by
  intro t ht
  rw [parts, List.mem_cons, mem_partsOfItems] at ht
  obtain rfl | ⟨n, hn, ht⟩ := ht
  · exact .nil
  · exact h n hn t ht

theorem keyed_map (hkeys : KeysApart es) (h : ∀ e ∈ es, e.2.Keyed) :
    (map es).Keyed := by
  intro t ht
  rw [parts, List.mem_cons, mem_partsOfValues] at ht
  obtain rfl | ⟨k, n, hn, ht⟩ := ht
  · exact hkeys
  · exact h (k, n) hn t ht

theorem Keyed.field {n : Node} (h : n.Keyed) (key : String) : (n.field key).Keyed := by
  by_cases hnull : n.field key = null
  · rw [hnull]
    exact keyed_scalar _
  · exact h.of_mem_parts (inside_of_field rfl hnull).1

theorem keyed_insert (key : Scalar) {value : Node} (hvalue : value.Keyed)
    (h : ∀ e ∈ es, e.2.Keyed) : ∀ e ∈ insert key value es, e.2.Keyed := by
  induction es with
  | nil => simpa [insert] using hvalue
  | cons f rest ih =>
    obtain ⟨k, v⟩ := f
    obtain ⟨hv, hrest⟩ := List.forall_mem_cons.1 h
    rw [insert]
    split_ifs
    · exact List.forall_mem_cons.2 ⟨hvalue, hrest⟩
    · exact List.forall_mem_cons.2 ⟨hv, ih hrest⟩

/-- What a sequence of entries leaves has each key once. -/
theorem keyed_ofEntries (h : ∀ e ∈ es, e.2.Keyed) : (ofEntries es).Keyed := by
  suffices hfold : ∀ done : List (Scalar × Node), KeysApart done → (∀ e ∈ done, e.2.Keyed) →
      (map (es.foldl (fun m e => Node.insert e.1 e.2 m) done)).Keyed from
    hfold [] .nil fun _ hmem => absurd hmem List.not_mem_nil
  induction es with
  | nil => exact fun done hkeys hdone => keyed_map hkeys hdone
  | cons e rest ih =>
    obtain ⟨he, hrest⟩ := List.forall_mem_cons.1 h
    exact fun done hkeys hdone =>
      ih hrest (Node.insert e.1 e.2 done) (hkeys.insert e.1 e.2) (keyed_insert e.1 he hdone)

end ApiModel.Node
