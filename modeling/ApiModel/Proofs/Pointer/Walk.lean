import ApiModel.Pointer
import ApiModel.Proofs.Decimal.Reading

/-!
# Where pointers lead, and where they do not

The steps of a pointer are walked from the root of a document. In a mapping, a step leads to the
value of its key; in a list, a row of decimal digits leads to the item at the position that the row
spells. A walk is stuck where a step has no such successor.

**Theorem (`wellResolved_iff`).** A pointer is resolved to the end of its walk, and is reported as
unresolved exactly if its walk gets stuck, unless the walk comes to a list with a step that is taken
for a position and cannot be read as a number: a row of digits one of which has no decimal value,
or of more digits than a number may have. Then resolving fails in another way.

A walk that does not get stuck has an end (`exists_walk_iff`). So it is enough to say what a single
step comes to, in the three cases that it has a successor, has none, or cannot be read; each case
goes from the step to the walk by induction.
-/

namespace ApiModel

namespace Pointer

/-! ## Walks -/

/-- What a step leads to from a node. -/
inductive Successor : Node → List Char → Node → Prop
  | key {entries : List (Scalar × Node)} {step : List Char} {v : Node} :
      Node.getText? (String.ofList step) entries = some v → Successor (.map entries) step v
  | position {items : List Node} {step : List Char} {i : Nat} {v : Node} :
      Decimal.Spells step i → items[i]? = some v → Successor (.list items) step v

/-- The steps lead from a node to the other one. -/
inductive Walk : Node → List (List Char) → Node → Prop
  | here (n : Node) : Walk n [] n
  | step {n next t : Node} {step : List Char} {rest : List (List Char)} :
      Successor n step next → Walk next rest t → Walk n (step :: rest) t

/-- On the way along the steps, some node and the step that is due there are as said. -/
def Meets (P : Node → List Char → Prop) (n : Node) (steps : List (List Char)) : Prop :=
  ∃ front step rest m, steps = front ++ step :: rest ∧ Walk n front m ∧ P m step

/-- The step has no successor. -/
def LeadsNowhere (n : Node) (step : List Char) : Prop := ∀ v, ¬ Successor n step v

/-- The walk along the steps gets stuck. -/
def Stuck (n : Node) (steps : List (List Char)) : Prop := Meets LeadsNowhere n steps

/-- A row of digits, in the wider sense. -/
def IsRow (step : List Char) : Prop := step ≠ [] ∧ ∀ c ∈ step, Unicode.isDigit c = true

/-- A row of digits that is not read as a number: one of its digits has no decimal value, or there
are too many of them. -/
def Unreadable (step : List Char) : Prop :=
  IsRow step ∧ ((∃ c ∈ step, Unicode.isDecimal c = false) ∨ Decimal.maxDigits < step.length)

/-- The step is taken for a position in a list, and cannot be read. -/
def Baffles (n : Node) (step : List Char) : Prop := (∃ items, n = .list items) ∧ Unreadable step

/-- The walk along the steps comes to a step that cannot be read. -/
def Baffled (n : Node) (steps : List (List Char)) : Prop := Meets Baffles n steps

/-- The reference is resolved to the node at the end of its walk, and is reported as unresolved
exactly if the walk gets stuck. Nothing else is reported. -/
structure WellResolved (document : Node) (ref : String) : Prop where
  found : ∀ n, resolve document ref = .ok n ↔ Walk document (steps ref) n
  missing : resolve document ref = .error (.unresolved ref) ↔ Stuck document (steps ref)
  documented : ∀ f, resolve document ref = .error f → f = .unresolved ref

section Walks

variable {P : Node → List Char → Prop} {n t t' v v' : Node} {step : List Char}
  {rest front : List (List Char)}

theorem Successor.unique (h : Successor n step v) (h' : Successor n step v') : v = v' := by
  cases h with
  | key hget =>
    cases h' with
    | key hget' => exact Option.some.inj (hget.symm.trans hget')
  | position hspells hitem =>
    cases h' with
    | position hspells' hitem' =>
      rw [hspells.unique hspells'] at hitem
      exact Option.some.inj (hitem.symm.trans hitem')

theorem Walk.unique (h : Walk n front t) (h' : Walk n front t') : t = t' := by
  induction h with
  | here n => cases h'; rfl
  | step hnext _ ih =>
    cases h' with
    | step hnext' hwalk' =>
      rw [hnext'.unique hnext] at hwalk'
      exact ih hwalk'

theorem not_meets_nil : ¬ Meets P n [] := by
  rintro ⟨front, step, rest, m, h, -⟩
  simp at h

theorem meets_cons :
    Meets P n (step :: rest) ↔ P n step ∨ ∃ next, Successor n step next ∧ Meets P next rest := by
  constructor
  · rintro ⟨front, due, back, m, heq, hwalk, hP⟩
    cases hwalk with
    | here =>
      obtain ⟨rfl, rfl⟩ := List.cons.inj heq
      exact .inl hP
    | step hnext hwalk =>
      obtain ⟨rfl, rfl⟩ := List.cons.inj heq
      exact .inr ⟨_, hnext, _, due, back, m, rfl, hwalk, hP⟩
  · rintro (hP | ⟨next, hnext, front, due, back, m, rfl, hwalk, hP⟩)
    · exact ⟨[], step, rest, n, rfl, .here n, hP⟩
    · exact ⟨step :: front, due, back, m, rfl, .step hnext hwalk, hP⟩

/-- A walk has an end unless it gets stuck. -/
theorem exists_walk_iff : (∃ t, Walk n front t) ↔ ¬ Stuck n front := by
  induction front generalizing n with
  | nil => exact iff_of_true ⟨n, .here n⟩ not_meets_nil
  | cons step rest ih =>
    rw [Stuck, meets_cons, not_or, not_exists]
    constructor
    · rintro ⟨t, hwalk⟩
      cases hwalk with
      | @step _ next _ _ _ hnext hwalk =>
        refine ⟨fun hnowhere => hnowhere next hnext, fun other hother => ?_⟩
        rw [hother.1.unique hnext] at hother
        exact ih.1 ⟨t, hwalk⟩ hother.2
    · rintro ⟨hleads, hfree⟩
      simp only [LeadsNowhere, not_forall, not_not] at hleads
      obtain ⟨next, hnext⟩ := hleads
      obtain ⟨t, hwalk⟩ := ih.2 fun hstuck => hfree next ⟨hnext, hstuck⟩
      exact ⟨t, .step hnext hwalk⟩

end Walks

/-! ## One step -/

section Steps

variable {n v : Node} {step : List Char} (ref : String)

theorem isRow_of_spells {i : Nat} (h : Decimal.Spells step i) : IsRow step := by
  obtain ⟨hne, hdecimal⟩ := Decimal.exists_spells_iff.1 ⟨i, h⟩
  exact ⟨hne, fun c hc => Unicode.isDigit_of_isDecimal (hdecimal c hc)⟩

theorem isRow_iff : IsRow step ↔ (!step.isEmpty && step.all Unicode.isDigit) = true := by
  simp [IsRow]

/-- What is no row of digits is no position. -/
theorem follow_of_not_isRow {items : List Node} (h : ¬ IsRow step) :
    follow ref (.list items) step = .error (.unresolved ref) := by
  have hrow : ¬ (!step.isEmpty && step.all Unicode.isDigit) = true :=
    fun hrow => h (isRow_iff.2 hrow)
  simp only [follow, if_neg hrow]

/-- A row of digits that can be read is the position that it spells. -/
theorem follow_of_isRow {items : List Node} (h : IsRow step) (hread : ¬ Unreadable step) :
    ∃ i, Decimal.Spells step i ∧
      follow ref (.list items) step = items[i]?.elim (.error (.unresolved ref)) .ok := by
  have hdigits : step.all Unicode.isDigit = true := List.all_eq_true.2 h.2
  have hsome : Decimal.readInt? step ≠ none := fun hnone =>
    hread ⟨h, (Decimal.readInt?_eq_none_iff h.1 hdigits).1 hnone⟩
  obtain ⟨j, hj⟩ := Option.ne_none_iff_exists'.1 hsome
  obtain ⟨-, i, hspells, rfl⟩ := (Decimal.readInt?_eq_some_iff hdigits).1 hj
  refine ⟨i, hspells, ?_⟩
  simp only [follow, if_pos (isRow_iff.1 h), hj, Int.toNat_natCast]
  cases items[i]? <;> rfl

theorem follow_of_successor (h : Successor n step v) (hread : ¬ Baffles n step) :
    follow ref n step = .ok v := by
  cases h with
  | key hget => simp only [follow, hget]
  | @position items step i v hspells hitem =>
    have hreadable : ¬ Unreadable step := fun hunreadable => hread ⟨⟨items, rfl⟩, hunreadable⟩
    obtain ⟨j, hj, hfollow⟩ := follow_of_isRow ref (isRow_of_spells hspells) hreadable
    rw [hfollow, hj.unique hspells, hitem, Option.elim_some]

theorem follow_of_leadsNowhere (h : LeadsNowhere n step) (hread : ¬ Baffles n step) :
    follow ref n step = .error (.unresolved ref) := by
  cases n with
  | scalar s => rfl
  | map entries =>
    cases hget : Node.getText? (String.ofList step) entries with
    | none => simp only [follow, hget]
    | some v => exact absurd (.key hget) (h v)
  | list items =>
    by_cases hrow : IsRow step
    · have hreadable : ¬ Unreadable step := fun hunreadable => hread ⟨⟨items, rfl⟩, hunreadable⟩
      obtain ⟨i, hspells, hfollow⟩ := follow_of_isRow ref hrow hreadable
      cases hitem : items[i]? with
      | none => rw [hfollow, hitem, Option.elim_none]
      | some v => exact absurd (.position hspells hitem) (h v)
    · exact follow_of_not_isRow ref hrow

theorem follow_of_baffles (h : Baffles n step) : follow ref n step = .error .malformed := by
  obtain ⟨⟨items, rfl⟩, hrow, hunread⟩ := h
  have hdigits : step.all Unicode.isDigit = true := List.all_eq_true.2 hrow.2
  have hnone : Decimal.readInt? step = none :=
    (Decimal.readInt?_eq_none_iff hrow.1 hdigits).2 hunread
  simp only [follow, if_pos (isRow_iff.1 hrow), hnone]

end Steps

/-! ## All steps -/

section Resolving

variable {document n t : Node} {front : List (List Char)} (ref : String)

theorem followAll_of_walk (h : Walk n front t) (hread : ¬ Baffled n front) :
    followAll ref n front = .ok t := by
  induction h with
  | here n => rfl
  | step hnext _ ih =>
    rw [Baffled, meets_cons, not_or, not_exists] at hread
    rw [followAll, follow_of_successor ref hnext hread.1]
    exact ih fun hbaffled => hread.2 _ ⟨hnext, hbaffled⟩

theorem followAll_of_stuck (h : Stuck n front) (hread : ¬ Baffled n front) :
    followAll ref n front = .error (.unresolved ref) := by
  induction front generalizing n with
  | nil => exact absurd h not_meets_nil
  | cons step rest ih =>
    rw [Baffled, meets_cons, not_or, not_exists] at hread
    rcases meets_cons.1 h with hnowhere | ⟨next, hnext, hstuck⟩
    · rw [followAll, follow_of_leadsNowhere ref hnowhere hread.1]
    · rw [followAll, follow_of_successor ref hnext hread.1]
      exact ih hstuck fun hbaffled => hread.2 next ⟨hnext, hbaffled⟩

theorem followAll_of_baffled (h : Baffled n front) : followAll ref n front = .error .malformed := by
  induction front generalizing n with
  | nil => exact absurd h not_meets_nil
  | cons step rest ih =>
    by_cases hhere : Baffles n step
    · rw [followAll, follow_of_baffles ref hhere]
    · obtain ⟨next, hnext, hbaffled⟩ := (meets_cons.1 h).resolve_left hhere
      rw [followAll, follow_of_successor ref hnext hhere]
      exact ih hbaffled

theorem wellResolved_of_not_baffled (h : ¬ Baffled document (steps ref)) :
    WellResolved document ref := by
  by_cases hstuck : Stuck document (steps ref)
  · have hresolve : resolve document ref = .error (.unresolved ref) :=
      followAll_of_stuck ref hstuck h
    have hno (n : Node) : ¬ Walk document (steps ref) n :=
      fun hwalk => exists_walk_iff.1 ⟨n, hwalk⟩ hstuck
    exact
      { found := fun n => by simp [hresolve, hno n]
        missing := by simp [hresolve, hstuck]
        documented := fun f hf => by
          rw [hresolve] at hf
          exact (Except.error.inj hf).symm }
  · obtain ⟨t, hwalk⟩ := exists_walk_iff.2 hstuck
    have hresolve : resolve document ref = .ok t := followAll_of_walk ref hwalk h
    exact
      { found := fun n => by
          rw [hresolve, Except.ok.injEq]
          exact ⟨fun heq => heq ▸ hwalk, fun hwalk' => hwalk.unique hwalk'⟩
        missing := by simp [hresolve, hstuck]
        documented := fun f hf => by simp [hresolve] at hf }

end Resolving

/-- A reference is resolved as it should be exactly if its walk comes to no step that cannot be
read. With such a step, resolving fails, and it is not reported that the reference is unresolved. -/
theorem wellResolved_iff (document : Node) (ref : String) :
    (WellResolved document ref ↔ ¬ Baffled document (steps ref)) ∧
      (resolve document ref = .error .malformed ↔ Baffled document (steps ref)) := by
  have hmalformed (h : Baffled document (steps ref)) :
      resolve document ref = .error .malformed :=
    followAll_of_baffled ref h
  have hwell : ¬ Baffled document (steps ref) → WellResolved document ref :=
    wellResolved_of_not_baffled ref
  refine ⟨⟨fun hall hbaffled => ?_, hwell⟩, fun h => ?_, hmalformed⟩
  · cases hall.documented _ (hmalformed hbaffled)
  · by_contra hread
    cases (hwell hread).documented _ h

/-- A superscript is a digit, but no position: it has no decimal value. -/
theorem not_all_references_wellResolved : ¬ ∀ document ref, WellResolved document ref := by
  intro hall
  have hmalformed : resolve (.record [("tags", .list [.text "cats"])]) "#/tags/²" =
      .error .malformed := rfl
  cases (hall _ _).documented _ hmalformed

end Pointer

end ApiModel
