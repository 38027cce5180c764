import Mathlib.Data.List.Basic
import Mathlib.Data.List.Induction
import Mathlib.Data.List.Nodup
import Mathlib.Data.List.Perm.Basic

/-!
# Keys and groups

The keys of a list, each once in the order in which they first occur, and the groups that they make
of the list.

**Theorem (`perm_flatMap_groups`).** The groups hold every item of the list, and each as often as
the list does.

**Theorem (`nodup_groups_iff`).** In each group the values of the items are different exactly if
no two items of the list have both the same key and the same value.
-/

namespace ApiModel

variable {α β κ : Type}

/-- Lists that are put one behind the other, and whose items are told apart by their keys, repeat
nothing exactly if none of them does. -/
theorem nodup_flatMap_iff_of_key {f : α → List β} (key : β → κ) (keyOf : α → κ) {items : List α}
    (hkey : ∀ a ∈ items, ∀ b ∈ f a, key b = keyOf a) (hkeys : (items.map keyOf).Nodup) :
    (items.flatMap f).Nodup ↔ ∀ a ∈ items, (f a).Nodup := by
  rw [List.nodup_flatMap, and_iff_left]
  refine List.Pairwise.imp_of_mem (fun ha ha' hne b hb hb' => hne ?_) (List.pairwise_map.1 hkeys)
  rw [← hkey _ ha b hb, ← hkey _ ha' b hb']

variable [DecidableEq κ]

theorem eraseDups_concat (keys : List κ) (k : κ) :
    (keys ++ [k]).eraseDups = keys.eraseDups ++ if k ∈ keys then [] else [k] := by
  rw [List.eraseDups_append, List.removeAll]
  split_ifs with h
  · simp [h]
  · simp [h, List.eraseDups_cons]

theorem nodup_eraseDups (keys : List κ) : keys.eraseDups.Nodup := by
  induction keys using List.reverseRecOn with
  | nil => exact List.nodup_nil
  | append_singleton keys k ih =>
    rw [eraseDups_concat]
    split_ifs with h
    · rwa [List.append_nil]
    · rw [← List.concat_eq_append]
      exact ih.concat fun hmem => h (List.mem_eraseDups.1 hmem)

/-- Keys that stand once are left as they are, and keys behind them that are among them are not
kept. -/
theorem eraseDups_append_of_subset {keys more : List κ} (hkeys : keys.Nodup)
    (hmore : more ⊆ keys) : (keys ++ more).eraseDups = keys := by
  induction more using List.reverseRecOn with
  | nil =>
    rw [List.append_nil]
    induction keys using List.reverseRecOn with
    | nil => rfl
    | append_singleton keys k ih =>
      rw [← List.concat_eq_append] at hkeys
      obtain ⟨hk, hrest⟩ := (List.nodup_concat keys k).1 hkeys
      rw [eraseDups_concat, if_neg hk, ih hrest (List.nil_subset _)]
  | append_singleton more k ih =>
    have hk : k ∈ keys := hmore (List.mem_append_right _ List.mem_cons_self)
    rw [← List.append_assoc, eraseDups_concat, if_pos (List.mem_append_left _ hk), List.append_nil,
      ih fun _ hmem => hmore (List.mem_append_left _ hmem)]

/-- The groups of different keys, one behind the other, are all items in another order. -/
theorem perm_flatMap_groups (key : α → κ) {keys : List κ} (hkeys : keys.Nodup) {items : List α}
    (hitems : ∀ a ∈ items, key a ∈ keys) :
    (keys.flatMap fun k => items.filter (key · = k)).Perm items := by
  induction keys generalizing items with
  | nil =>
    obtain rfl : items = [] := List.eq_nil_iff_forall_not_mem.2 fun a ha =>
      List.not_mem_nil (hitems a ha)
    exact List.Perm.refl []
  | cons k keys ih =>
    obtain ⟨hk, hkeys⟩ := List.nodup_cons.1 hkeys
    -- The other groups are those of the items with other keys.
    have hrest : (keys.flatMap fun k' => items.filter (key · = k')) =
        keys.flatMap fun k' => (items.filter fun a => !decide (key a = k)).filter (key · = k') := by
      refine List.flatMap_congr fun k' hk' => ?_
      rw [List.filter_filter]
      refine List.filter_congr fun a _ => ?_
      have hne : k' ≠ k := fun h => hk (h ▸ hk')
      by_cases hak : key a = k'
      · simp [hak, hne]
      · simp [hak]
    rw [List.flatMap_cons, hrest]
    refine List.Perm.trans (List.Perm.append_left _ (ih hkeys fun a ha => ?_))
      (List.filter_append_perm _ items)
    obtain ⟨ha, hak⟩ := List.mem_filter.1 ha
    exact (List.mem_cons.1 (hitems a ha)).resolve_left (by simpa using hak)

/-- In each group the values are different exactly if no two items have both the same key and the
same value. -/
theorem nodup_groups_iff (key : α → κ) (value : α → β) (keys : List κ) {items : List α}
    (hitems : ∀ a ∈ items, key a ∈ keys) :
    (∀ k ∈ keys, ((items.filter (key · = k)).map value).Nodup) ↔
      (items.map fun a => (key a, value a)).Nodup := by
  simp only [List.Nodup, List.pairwise_map, List.pairwise_filter, decide_eq_true_eq, ne_eq,
    Prod.mk.injEq, not_and]
  simp only [List.pairwise_iff_forall_sublist]
  constructor
  · intro h a b hab heq
    have hb : key b ∈ keys := hitems b (hab.subset (by simp))
    exact h (key b) hb hab heq rfl
  · intro h k _ a b hab ha hb
    exact h hab (ha.trans hb.symm)

end ApiModel
