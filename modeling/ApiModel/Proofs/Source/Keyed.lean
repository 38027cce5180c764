import ApiModel.Proofs.Json.Readings
import ApiModel.Proofs.Node.Keys
import ApiModel.Source.Load

/-!
# Keys of the documents that are read

Every document that is read, as JSON or as YAML, has each key of a mapping once: the readers give
the entries of a mapping to `insert` one by one, and a key that comes again takes the place of
the first.

**Theorem (`keyed_load`).** The keys of every mapping in a loaded document are pairwise different,
if the reader of YAML sees to it for its part, as the one of this library does (`keyed_read`).

For JSON this is a property that the readers keep (`closed_keyed`); a YAML document is built of its
tree, and the proof follows the tree (`keyed_toNode`).
-/

namespace ApiModel

/-! ## Readings that succeed -/

namespace Source

variable {ε α β : Type} {b : β}

theorem bind_eq_ok {x : Except ε α} {f : α → Except ε β} :
    (x >>= f) = .ok b ↔ ∃ a, x = .ok a ∧ f a = .ok b := by
  cases x <;> simp [bind, Except.bind]

theorem map_eq_ok {x : Except ε α} {f : α → β} : x.map f = .ok b ↔ ∃ a, x = .ok a ∧ f a = b := by
  cases x <;> simp [Except.map]

theorem mapError_eq_ok {ε' : Type} {x : Except ε β} {f : ε → ε'} :
    x.mapError f = .ok b ↔ x = .ok b := by
  cases x <;> simp [Except.mapError]

end Source

/-! ## JSON -/

namespace Json

open Node

/-- The readers put the entries of a mapping together with `insert`. -/
theorem closed_keyed : Closed Node.Keyed where
  scalar := keyed_scalar
  list _ hitems := keyed_list hitems
  empty := keyed_map .nil fun _ hmem => absurd hmem List.not_mem_nil
  insert _ key _ hentries hvalue :=
    keyed_map (hentries.entries.insert key _) (keyed_insert key hvalue hentries.values)

theorem keyed_read {s : String} {n : Node} (h : read s = .ok n) : n.Keyed := of_read closed_keyed h

end Json

/-! ## YAML -/

namespace Yaml

open Node Source

theorem both_eq_ok {α β γ : Type} {f : α → β → γ} {x : Except Flaw α} {y : Except Flaw β} {c : γ}
    (h : both f x y = .ok c) : ∃ a b, x = .ok a ∧ y = .ok b ∧ c = f a b := by
  cases x <;> cases y <;> cases h
  exact ⟨_, _, rfl, rfl, rfl⟩

/-- Every result of a list is what one of its items became. -/
theorem exists_of_every {α : Type} {rs : List (Except Flaw α)} {as : List α}
    (h : every rs = .ok as) : ∀ a ∈ as, .ok a ∈ rs := by
  induction rs generalizing as with
  | nil =>
    cases h
    exact fun a ha => absurd ha List.not_mem_nil
  | cons r rest ih =>
    obtain ⟨a, as', rfl, hrest, rfl⟩ := both_eq_ok h
    refine List.forall_mem_cons.2 ⟨List.mem_cons_self, fun b hb => ?_⟩
    exact List.mem_cons_of_mem _ (ih hrest b hb)

theorem keyed_toNode {budget depth : Nat} {t : Tree} {n : Node}
    (h : toNode budget depth t = .ok n) : n.Keyed := by
  induction budget generalizing depth t n with
  | zero => cases h
  | succ budget ih =>
    unfold toNode at h
    split at h
    · cases h
      exact keyed_scalar _
    · cases h
    · obtain ⟨nodes, hevery, rfl⟩ := map_eq_ok.1 h
      refine keyed_list fun i hi => ?_
      obtain ⟨u, -, hu⟩ := List.mem_map.1 (exists_of_every hevery i hi)
      exact ih hu
    · split at h
      · cases h
      · obtain ⟨entries, hevery, rfl⟩ := map_eq_ok.1 h
        refine keyed_ofEntries fun e he => ?_
        obtain ⟨u, -, hu⟩ := List.mem_map.1 (exists_of_every hevery e he)
        obtain ⟨k, v, -, hv, rfl⟩ := both_eq_ok hu
        exact ih hv
    · cases h
    · cases h
    · obtain ⟨s, -, rfl⟩ := map_eq_ok.1 h
      exact keyed_scalar s

/-- Every document of the reader has each key of a mapping once. -/
def Reader.Keyed (yaml : Reader) : Prop := ∀ s d, yaml s = .ok d → d.root.Keyed

theorem keyed_read : Reader.Keyed read := by
  intro s d h
  obtain ⟨ts, -, h⟩ := bind_eq_ok.1 h
  obtain ⟨tree, -, h⟩ := bind_eq_ok.1 h
  cases tree with
  | none =>
    cases h
    exact keyed_scalar _
  | some t =>
    obtain ⟨root, hroot, h⟩ := bind_eq_ok.1 h
    cases h
    exact keyed_toNode (mapError_eq_ok.1 hroot)

end Yaml

/-! ## Documents -/

namespace Source

variable {yaml : Yaml.Reader} {text source : String} {hint : Hint} {d : Yaml.Document} {n : Node}

theorem keyed_requireMapping {document : Yaml.Document} (hdocument : document.root.Keyed)
    (h : requireMapping source document = .ok d) : d.root.Keyed := by
  unfold requireMapping at h
  split_ifs at h
  cases h
  exact hdocument

section Keyed

variable (hyaml : yaml.Keyed)

include hyaml

theorem keyed_decodeYaml {json : Option Json.Error} (h : decodeYaml yaml source text json = .ok d) :
    d.root.Keyed := by
  unfold decodeYaml at h
  split at h
  · rename_i document hread
    exact keyed_requireMapping (hyaml text document hread) h
  · cases h
  · cases h

theorem keyed_decodeJson (h : decodeJson yaml source text hint = .ok d) : d.root.Keyed := by
  unfold decodeJson at h
  split at h
  · rename_i root hread
    have hroot : (⟨root, false⟩ : Yaml.Document).root.Keyed := Json.keyed_read hread
    exact keyed_requireMapping hroot h
  · split_ifs at h
    exact keyed_decodeYaml hyaml h

theorem keyed_readBy (h : readBy yaml text hint source = .ok n) : n.Keyed := by
  obtain ⟨d, hdecode, h⟩ := bind_eq_ok.1 h
  split_ifs at h
  cases h
  unfold decode at hdecode
  split_ifs at hdecode
  · exact keyed_decodeYaml hyaml hdecode
  · exact keyed_decodeJson hyaml hdecode

theorem keyed_loadText {blank : Fault} (h : loadText yaml blank hint source text = .ok n) :
    n.Keyed := by
  unfold loadText at h
  split_ifs at h
  exact keyed_readBy hyaml h

end Keyed

/-- The keys of every mapping in a loaded document are pairwise different. -/
theorem keyed_load {around : Surroundings} (hyaml : around.yaml.Keyed)
    (h : load around source = .ok n) : n.Keyed := by
  unfold load at h
  split_ifs at h
  · unfold loadInput at h
    split at h
    · cases h
    · cases h
    · exact keyed_loadText hyaml h
  · unfold loadFetched at h
    split at h
    · cases h
    · cases h
    · split_ifs at h
      exact keyed_readBy hyaml h
  · unfold loadFile at h
    split at h
    · cases h
    · cases h
    · cases h
    · split at h
      · cases h
      · cases h
      · exact keyed_loadText hyaml h

end Source

end ApiModel
