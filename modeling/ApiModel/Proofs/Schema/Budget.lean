import ApiModel.Proofs.Parallel
import ApiModel.Proofs.Schema.Halting

/-!
# What a larger budget decides

`model` computes a budget of levels from the sizes of the document and of the schema, and the same
schema within a larger document gets a larger one. `below_modelWithin` says that a larger budget
changes nothing but work that used its budget up.

**Theorem (`outcome_modelStep_of_le`).** Work that uses up the budget that `model` computes uses up
every larger one too, so every larger budget gives the same outcome.

The proof is about schemas on the brink: those that come to an end with one level more. One of the
schemas that such a schema visits is on the brink with one level less, and no schema is on the
brink with two numbers of levels. So a schema on the brink with `n` levels leads to `n` more, all
different, and there are not enough of them.
-/

namespace ApiModel

namespace Schema

open Report

variable {ctx : Context} {name : String} {n k : Nat} {root s : Node}

/-- Work on a schema uses up so many levels, but not one more. -/
def Brink (ctx : Context) (n : Nat) (s : Node) : Prop :=
  ¬ Ends (modelWithin ctx n s) ∧ Ends (modelWithin ctx (n + 1) s)

theorem outcome_of_not_brink (h : ¬ Brink ctx n s) :
    (modelWithin ctx n s).outcome = (modelWithin ctx (n + 1) s).outcome := by
  rcases below_modelWithin (Nat.le_succ n) s with hendless | heq
  · by_contra hne
    exact h ⟨fun hends => hends hendless, fun hendless' => hne (hendless.trans hendless'.symm)⟩
  · rw [heq]

/-- One of the schemas that a schema on the brink visits is on the brink as well. -/
theorem Brink.exists_visits (h : Brink ctx (n + 1) s) :
    ∃ t, Visits ctx "" s t ∧ Brink ctx n t := by
  by_contra hnone
  have hsame : (modelWithin ctx (n + 1) s).outcome = (modelWithin ctx (n + 2) s).outcome :=
    modelStep_lift lifting_outcome fun t hv =>
      outcome_of_not_brink fun ht => hnone ⟨t, hv, ht⟩
  refine h.1 fun hendless => h.2 ?_
  rw [← hsame, hendless]

theorem Brink.not_lt (hn : Brink ctx n s) (hk : Brink ctx k s) : ¬ n < k := by
  intro hlt
  rcases below_modelWithin (Nat.succ_le_of_lt hlt) s with hendless | heq
  · exact hn.2 hendless
  · exact hk.1 (heq ▸ hn.2)

/-- The schemas on the way are on the brink with more levels, so they are all different. -/
theorem Brink.lt_length_of_seen (seen : List Node) (h : Brink ctx n s)
    (hs : s ∈ territory ctx root) (hseen : seen.Nodup) (hsub : seen ⊆ territory ctx root)
    (hway : ∀ w ∈ seen, ∃ k > n, Brink ctx k w) :
    n + seen.length < (territory ctx root).length := by
  have hfresh : s ∉ seen := by
    intro hmem
    obtain ⟨k, hlt, hk⟩ := hway s hmem
    exact h.not_lt hk hlt
  have hnodup : (s :: seen).Nodup := List.nodup_cons.2 ⟨hfresh, hseen⟩
  have hsubset : s :: seen ⊆ territory ctx root := List.cons_subset.2 ⟨hs, hsub⟩
  induction n generalizing s seen with
  | zero =>
    have := (hnodup.subperm hsubset).length_le
    rw [List.length_cons] at this
    omega
  | succ n ih =>
    obtain ⟨t, hv, ht⟩ := h.exists_visits
    have hway' : ∀ w ∈ s :: seen, ∃ k > n, Brink ctx k w := by
      intro w hw
      rcases List.mem_cons.1 hw with rfl | hw
      · exact ⟨n + 1, Nat.lt_succ_self n, h⟩
      · obtain ⟨k, hlt, hk⟩ := hway w hw
        exact ⟨k, Nat.lt_of_succ_lt hlt, hk⟩
    have hfresh' : t ∉ s :: seen := by
      intro hmem
      obtain ⟨k, hlt, hk⟩ := hway' t hmem
      exact ht.not_lt hk hlt
    have hlength := ih (s :: seen) ht (hv.mem_territory hs) hnodup hsubset hway' hfresh'
      (List.nodup_cons.2 ⟨hfresh', hnodup⟩) (List.cons_subset.2 ⟨hv.mem_territory hs, hsubset⟩)
    rw [List.length_cons] at hlength
    omega

theorem Brink.lt_length (h : Brink ctx n s) (hs : s ∈ territory ctx root) :
    n < (territory ctx root).length :=
  h.lt_length_of_seen [] hs List.nodup_nil (List.nil_subset _) fun _ hw => nomatch hw

/-- From the size of the territory on, more levels change nothing. -/
theorem outcome_modelWithin_of_le (hs : s ∈ territory ctx root)
    (hn : (territory ctx root).length ≤ n) (h : n ≤ k) :
    (modelWithin ctx n s).outcome = (modelWithin ctx k s).outcome := by
  induction h with
  | refl => rfl
  | step hk ih =>
    refine ih.trans (outcome_of_not_brink fun hbrink => ?_)
    exact Nat.not_lt.2 (Nat.le_trans hn hk) (hbrink.lt_length hs)

/-- Every budget that is not smaller than the one that `model` computes gives what `model` gives. -/
theorem outcome_modelStep_of_le (isDefinition : Bool) (h : levels ctx s ≤ n) :
    (modelStep (modelWithin ctx n) ctx isDefinition name s).outcome =
      (model ctx s isDefinition name).outcome := by
  refine modelStep_lift lifting_outcome fun t hv => ?_
  have hroot : s ∈ territory ctx s :=
    List.mem_cons_of_mem _ (List.mem_append_left _ (Node.self_mem_parts s))
  have hlength := length_territory ctx s
  exact (outcome_modelWithin_of_le (hv.mem_territory hroot) (by omega) h).symm

end Schema

end ApiModel
