import ApiModel.Proofs.Decimal.Reading
import ApiModel.Proofs.Node.Parts
import ApiModel.Proofs.Pointer

/-!
# Pointers along paths

A path goes from the root of a document down to one of its nodes, by the keys of mappings and the
positions in lists. Written as a pointer, each step stands behind a slash: a key with its tildes,
slashes and percent signs escaped, a position in decimal.

**Theorem (`resolve_ofPath`).** The pointer along a path leads to the node at the end of the path,
whatever the keys are made of. Only a position of more than `maxDigits` digits is in the way, and a
list that has one is longer than any list can be.

The reading undoes the writing step by step: no written step holds a slash, so the pointer is cut
where the steps were joined (`steps_ofPath`), and what a step says is what was written, because the
two escapes that begin with a tilde are undone one after the other and the percent signs come last
(`decodeStep_escapeStep`).
-/

namespace ApiModel

namespace Pointer

/-! ## Paths -/

/-- A step down from a node: the key of a mapping or the position in a list. -/
inductive Step where
  | key (name : String)
  | position (i : Nat)

/-- The path leads from the node down to the other one, by keys that are not empty. -/
inductive Leads : Node → List Step → Node → Prop
  | here (n : Node) : Leads n [] n
  | key {n v t : Node} {name : String} {path : List Step} : name ≠ "" → n.get? name = some v →
      Leads v path t → Leads n (.key name :: path) t
  | position {items : List Node} {i : Nat} {v t : Node} {path : List Step} :
      items[i]? = some v → Leads v path t → Leads (.list items) (.position i :: path) t

/-- What a step says. -/
def Step.text : Step → List Char
  | key name => name.toList
  | position i => Nat.toDigits 10 i

/-- A step as it stands between two slashes. -/
def Step.written : Step → List Char
  | key name => escapeStep name.toList
  | position i => Nat.toDigits 10 i

/-- The pointer along a path from the root. -/
def ofPath (path : List Step) : String :=
  String.ofList ('#' :: path.flatMap fun step => '/' :: step.written)

/-! ## Written steps -/

/-- Nothing has to be escaped in a number. -/
theorem escapeStep_toDigits (i : Nat) : escapeStep (Nat.toDigits 10 i) = Nat.toDigits 10 i := by
  have hdigits : ∀ c ∈ Nat.toDigits 10 i, c.isDigit = true :=
    fun c hc => Decimal.isDigit_of_mem_digits hc
  generalize Nat.toDigits 10 i = s at hdigits ⊢
  induction s with
  | nil => rfl
  | cons c s ih =>
    rw [List.forall_mem_cons] at hdigits
    have hne (a : Char) (ha : a.isDigit = false) : c ≠ a := by
      rintro rfl
      exact Bool.false_ne_true (ha.symm.trans hdigits.1)
    rw [escapeStep_cons (hne '~' rfl) (hne '/' rfl) (hne '%' rfl), ih hdigits.2]

theorem Step.written_eq (step : Step) : step.written = escapeStep step.text := by
  cases step with
  | key name => rfl
  | position i => exact (escapeStep_toDigits i).symm

theorem Leads.text_ne_nil {n t : Node} {path : List Step} (h : Leads n path t) :
    ∀ step ∈ path, step.text ≠ [] := by
  induction h with
  | here => exact fun _ hmem => absurd hmem List.not_mem_nil
  | key hname _ _ ih =>
    exact List.forall_mem_cons.2 ⟨fun hnil => hname (String.toList_eq_nil_iff.1 hnil), ih⟩
  | position _ _ ih => exact List.forall_mem_cons.2 ⟨Nat.toDigits_ne_nil, ih⟩

/-- A pointer is read step by step as it was written. -/
theorem steps_ofPath {path : List Step} (h : ∀ step ∈ path, step.text ≠ []) :
    steps (ofPath path) = path.map Step.text := by
  have hfront : (ofPath path).toList.dropWhile (· == '#') =
      path.flatMap fun step => '/' :: step.written := by
    rw [ofPath, String.toList_ofList, List.dropWhile_cons_of_pos (by simp)]
    cases path with
    | nil => rfl
    | cons step path => exact List.dropWhile_cons_of_neg (by simp)
  have hcut : Text.split '/' (path.flatMap fun step => '/' :: step.written) =
      [] :: path.map Step.written := by
    rw [← List.flatMap_map (f := Step.written) (g := fun piece => '/' :: piece)]
    refine Text.split_flatMap (List.not_mem_nil) fun piece hpiece => ?_
    obtain ⟨step, -, rfl⟩ := List.mem_map.1 hpiece
    rw [step.written_eq]
    exact slash_not_mem_escapeStep step.text
  have hkept : ((path.map Step.written).filter (!·.isEmpty)) = path.map Step.written := by
    refine List.filter_eq_self.2 fun piece hpiece => ?_
    obtain ⟨step, hstep, rfl⟩ := List.mem_map.1 hpiece
    rw [step.written_eq]
    simpa using escapeStep_ne_nil (h step hstep)
  rw [steps, hfront, hcut, List.filter_cons_of_neg (by simp), hkept, List.map_map]
  refine List.map_congr_left fun step _ => ?_
  rw [Function.comp_apply, step.written_eq, decodeStep_escapeStep]

/-! ## Where a pointer leads -/

/-- A position leads to the item that stands there, unless it has too many digits. -/
theorem follow_position (ref : String) {items : List Node} {i : Nat} {v : Node}
    (h : items[i]? = some v) :
    follow ref (.list items) (Nat.toDigits 10 i) =
      if i < 10 ^ Decimal.maxDigits then .ok v else .error .malformed := by
  have hdigits : (!(Nat.toDigits 10 i).isEmpty && (Nat.toDigits 10 i).all Unicode.isDigit) =
      true := by
    rw [Bool.and_eq_true, List.all_eq_true]
    refine ⟨by simp [Nat.toDigits_ne_nil], fun c hc => ?_⟩
    exact Unicode.isDigit_of_isDigit (Decimal.isDigit_of_mem_digits hc)
  simp only [follow, if_pos hdigits, Decimal.readInt?_toDigits]
  split_ifs
  · simp only [Int.toNat_natCast, h]
  · rfl

/-- The steps of a path are followed to its end, unless a position has too many digits. -/
theorem followAll_path {ref : String} {n t : Node} {path : List Step} (h : Leads n path t) :
    followAll ref n (path.map Step.text) = .ok t ↔
      ∀ i, .position i ∈ path → i < 10 ^ Decimal.maxDigits := by
  induction h with
  | here n => exact iff_of_true rfl fun i hi => absurd hi List.not_mem_nil
  | @key n v t name path _ hget _ ih =>
    have hstep : follow ref n (Step.key name).text = .ok v := follow_get? hget
    rw [List.map_cons, followAll, hstep]
    simpa using ih
  | @position items i v t path hitem _ ih =>
    have hstep := follow_position ref hitem
    rw [List.map_cons, followAll, Step.text, hstep]
    split_ifs with hsmall
    · simpa [hsmall] using ih
    · simp [hsmall]

/-- A position on a path stands in a list of the document. -/
theorem Leads.exists_list {n t : Node} {path : List Step} {i : Nat} (h : Leads n path t)
    (hi : .position i ∈ path) : ∃ items, .list items ∈ n.parts ∧ i < items.length := by
  induction h with
  | here => exact absurd hi List.not_mem_nil
  | @key n v t name path _ hget _ ih =>
    obtain ⟨items, hitems, hlt⟩ := ih ((List.mem_cons.1 hi).resolve_left nofun)
    refine ⟨items, ?_, hlt⟩
    cases n with
    | map entries =>
      have hinside := Node.inside_map (Node.mem_of_getText? hget)
      exact Node.mem_parts_trans hitems hinside.1
    | _ => cases hget
  | @position items j v t path hitem _ ih =>
    rcases List.mem_cons.1 hi with heq | hi
    · cases heq
      exact ⟨items, Node.self_mem_parts _, (List.getElem?_eq_some_iff.1 hitem).1⟩
    · obtain ⟨items', hitems, hlt⟩ := ih hi
      have hinside := Node.inside_list (List.mem_of_getElem? hitem)
      exact ⟨items', Node.mem_parts_trans hitems hinside.1, hlt⟩

/-- The pointer along a path leads to the node at its end exactly if no position on the path has
too many digits. In a document whose lists are not too long to be counted none has. -/
theorem resolve_ofPath {document n : Node} {path : List Step} (h : Leads document path n) :
    (resolve document (ofPath path) = .ok n ↔
      ∀ i, .position i ∈ path → i < 10 ^ Decimal.maxDigits) ∧
    ((∀ items, .list items ∈ document.parts → items.length ≤ 10 ^ Decimal.maxDigits) →
      resolve document (ofPath path) = .ok n) := by
  have hiff : resolve document (ofPath path) = .ok n ↔
      ∀ i, .position i ∈ path → i < 10 ^ Decimal.maxDigits := by
    rw [resolve, steps_ofPath h.text_ne_nil]
    exact followAll_path h
  refine ⟨hiff, fun hlists => hiff.2 fun i hi => ?_⟩
  obtain ⟨items, hitems, hlt⟩ := h.exists_list hi
  exact Nat.lt_of_lt_of_le hlt (hlists items hitems)

/-- A document with servers, of which the second has a key that looks like a pointer and holds a
key that looks like a position. -/
def atlas : Node :=
  .record [("servers", .list [.null, .record [("#/a~1b%2F", .record [("0", .text "here")])]])]

/-- The pointer into the atlas is written with all its marks escaped, and leads where it should. -/
theorem resolve_ofPath_atlas :
    ∃ path, Leads atlas path (.text "here") ∧
      ofPath path = "#/servers/1/#~1a~01b%252F/0" ∧
      resolve atlas (ofPath path) = .ok (.text "here") := by
  have hpath : Leads atlas [.key "servers", .position 1, .key "#/a~1b%2F", .key "0"]
      (.text "here") :=
    .key (by decide) rfl (.position rfl (.key (by decide) rfl (.key (by decide) rfl (.here _))))
  refine ⟨_, hpath, by decide, (resolve_ofPath hpath).2 fun items hitems => ?_⟩
  -- The servers are the only list.
  have hlength : items.length = 2 := by
    simp only [atlas, Node.record, List.map_cons, List.map_nil, Node.parts, Node.partsOfItems,
      Node.partsOfValues, List.append_nil, List.nil_append, List.cons_append, List.mem_cons,
      reduceCtorEq, Node.list.injEq, List.not_mem_nil, or_false, false_or] at hitems
    rw [hitems]
    rfl
  rw [hlength]
  exact Nat.le_trans (by decide) (Nat.le_self_pow (by decide) 10)

end Pointer

end ApiModel
