import ApiModel.Report
import Mathlib.Data.List.Forall2

/-!
# Outcomes of composed work

What is built from a document is built step by step, and nearly every proof about it begins by
taking the steps apart. Here are the three ways to do that.

* Work that succeeds: the lemmas `…_eq_ok` say that a sequence succeeds exactly when its steps
  do, one after the other.
* Work that fails: `FailsBy` says by which faults, and goes from the steps to the whole too. Which
  of several faults is reported depends on the order of the steps, but that there is one does not.
* Work that is done in two ways: a `Lifting` is a relation between reports that goes from the
  steps to the whole. That work `Ends`, that it is `Below` the same work done with a larger
  budget, and that it `Carries` over to other work are such relations.
-/

namespace ApiModel.Report

variable {ε α β : Type}

/-! ## Two steps -/

theorem bind_of_ok {x : Report ε α} {f : α → Report ε β} {a : α} (h : x.outcome = .ok a) :
    x >>= f = { notices := x.notices ++ (f a).notices, outcome := (f a).outcome } := by
  show Report.bind x f = _
  rw [Report.bind, h]

theorem bind_of_error {x : Report ε α} {f : α → Report ε β} {e : ε} (h : x.outcome = .error e) :
    x >>= f = { notices := x.notices, outcome := .error e } := by
  show Report.bind x f = _
  rw [Report.bind, h]

/-! ## Work that succeeds -/

theorem bind_eq_ok {x : Report ε α} {f : α → Report ε β} {b : β} :
    (x >>= f).outcome = .ok b ↔ ∃ a, x.outcome = .ok a ∧ (f a).outcome = .ok b := by
  rw [outcome_bind]
  cases x.outcome <;> simp [Except.bind]

theorem map_eq_ok {x : Report ε α} {f : α → β} {b : β} :
    (f <$> x).outcome = .ok b ↔ ∃ a, x.outcome = .ok a ∧ f a = b := by
  rw [map_eq_pure_bind, bind_eq_ok]
  simp

theorem mapM_eq_ok {f : α → Report ε β} {as : List α} {bs : List β} :
    (as.mapM f).outcome = .ok bs ↔ List.Forall₂ (fun a b => (f a).outcome = .ok b) as bs := by
  induction as generalizing bs with
  | nil =>
    rw [List.mapM_nil, List.forall₂_nil_left_iff, outcome_pure, Except.ok.injEq, eq_comm]
  | cons a as ih =>
    rw [List.mapM_cons, List.forall₂_cons_left_iff]
    constructor
    · intro h
      obtain ⟨b, hb, h⟩ := bind_eq_ok.1 h
      obtain ⟨bs', hbs, h⟩ := bind_eq_ok.1 h
      rw [outcome_pure, Except.ok.injEq] at h
      exact ⟨b, bs', hb, ih.1 hbs, h.symm⟩
    · rintro ⟨b, bs', hb, hbs, rfl⟩
      exact bind_eq_ok.2 ⟨b, hb, bind_eq_ok.2 ⟨bs', ih.2 hbs, rfl⟩⟩

/-- What an item is related to is in the other list. -/
theorem exists_right_of_mem {R : α → β → Prop} {as : List α} {bs : List β}
    (h : List.Forall₂ R as bs) {a : α} (ha : a ∈ as) : ∃ b ∈ bs, R a b := by
  induction h with
  | nil => simp at ha
  | @cons a' b' as bs hab _ ih =>
    rcases List.mem_cons.1 ha with rfl | ha
    · exact ⟨b', List.mem_cons_self, hab⟩
    · obtain ⟨b, hb, hR⟩ := ih ha
      exact ⟨b, List.mem_cons_of_mem b' hb, hR⟩

theorem exists_left_of_mem {R : α → β → Prop} {as : List α} {bs : List β}
    (h : List.Forall₂ R as bs) {b : β} (hb : b ∈ bs) : ∃ a ∈ as, R a b := by
  have hflip : List.Forall₂ (flip R) bs as := List.Forall₂.flip h
  exact exists_right_of_mem hflip hb

/-- Lists that are related item by item are related in another way too exactly if it depends on
the items of the first list only, and is so of them. -/
theorem forall₂_iff_of_forall₂ {R Q : α → β → Prop} {P : α → Prop} {as : List α} {bs : List β}
    (h : List.Forall₂ R as bs) (hP : ∀ a b, R a b → (Q a b ↔ P a)) :
    List.Forall₂ Q as bs ↔ ∀ a ∈ as, P a := by
  induction h with
  | nil => simp
  | cons hab _ ih => rw [List.forall₂_cons, List.forall_mem_cons, ih, hP _ _ hab]

/-- Of lists that are related item by item, all items of one are as said exactly if those of the
other are. -/
theorem forall_mem_iff_of_forall₂ {R : α → β → Prop} {P : α → Prop} {Q : β → Prop} {as : List α}
    {bs : List β} (h : List.Forall₂ R as bs) (hPQ : ∀ a b, R a b → (Q b ↔ P a)) :
    (∀ b ∈ bs, Q b) ↔ ∀ a ∈ as, P a := by
  induction h with
  | nil => simp
  | cons hab _ ih => rw [List.forall_mem_cons, List.forall_mem_cons, ih, hPQ _ _ hab]

/-- And so for what is said of any two items. -/
theorem pairwise_iff_of_forall₂ {R : α → β → Prop} {P : α → α → Prop} {Q : β → β → Prop}
    {as : List α} {bs : List β} (h : List.Forall₂ R as bs)
    (hPQ : ∀ a b a' b', R a b → R a' b' → (Q b b' ↔ P a a')) :
    bs.Pairwise Q ↔ as.Pairwise P := by
  induction h with
  | nil => simp
  | cons hab hrest ih =>
    rw [List.pairwise_cons, List.pairwise_cons, ih,
      forall_mem_iff_of_forall₂ hrest fun a' b' hab' => hPQ _ _ a' b' hab hab']

/-- What an item becomes is among the results. -/
theorem exists_mem_of_mapM {f : α → Report ε β} {as : List α} {bs : List β}
    (h : (as.mapM f).outcome = .ok bs) {a : α} (ha : a ∈ as) :
    ∃ b ∈ bs, (f a).outcome = .ok b :=
  exists_right_of_mem (mapM_eq_ok.1 h) ha

/-- A result is what some item became. -/
theorem exists_of_mem_mapM {f : α → Report ε β} {as : List α} {bs : List β}
    (h : (as.mapM f).outcome = .ok bs) {b : β} (hb : b ∈ bs) :
    ∃ a ∈ as, (f a).outcome = .ok b :=
  exists_left_of_mem (mapM_eq_ok.1 h) hb

/-- Lists that are made item by item are related as a whole to what they are made of. -/
theorem forall₂_flatten_of_mapM {γ : Type} {R : γ → β → Prop} {f : α → Report ε (List β)}
    {g : α → List γ} {as : List α} {bss : List (List β)} (h : (as.mapM f).outcome = .ok bss)
    (hf : ∀ a ∈ as, ∀ bs, (f a).outcome = .ok bs → List.Forall₂ R (g a) bs) :
    List.Forall₂ R (as.flatMap g) bss.flatten := by
  have hparts : List.Forall₂ (List.Forall₂ R) (as.map g) bss := by
    rw [List.forall₂_map_left_iff]
    exact List.Forall₂.imp (fun a bs hab => hf a hab.1 bs hab.2)
      ((List.forall₂_and_left _ _).2 ⟨fun a ha => ha, mapM_eq_ok.1 h⟩)
  exact List.rel_flatten hparts

theorem ofOption_eq_ok {e : ε} {o : Option α} {a : α} :
    (ofOption e o).outcome = .ok a ↔ o = some a := by
  cases o <;> simp [ofOption]

/-- Work behind a condition that has to be met. -/
theorem unless_eq_ok {refused : Bool} {e : ε} {f : Unit → Report ε β} {b : β} :
    (if refused = true then fail e >>= f else f ()).outcome = .ok b ↔
      refused = false ∧ (f ()).outcome = .ok b := by
  cases refused with
  | true =>
    rw [if_pos rfl, outcome_bind]
    simp [Except.bind]
  | false => simp

/-! ## Work that fails -/

/-- The work fails by one of the given faults if it fails at all, and where there is one it does not
succeed. -/
structure FailsBy (x : Built α) (F : Fault → Prop) : Prop where
  sound : ∀ f, x.outcome = .error f → F f
  complete : ∀ f, F f → ∀ a, x.outcome ≠ .ok a

namespace FailsBy

variable {x : Built α} {F G : Fault → Prop}

theorem congr (h : FailsBy x F) (hFG : ∀ f, F f ↔ G f) : FailsBy x G where
  sound f hf := (hFG f).1 (h.sound f hf)
  complete f hf := h.complete f ((hFG f).2 hf)

/-- There is a result exactly if there is no fault. -/
theorem exists_ok_iff (h : FailsBy x F) : (∃ a, x.outcome = .ok a) ↔ ∀ f, ¬ F f := by
  refine ⟨fun ⟨a, ha⟩ f hf => h.complete f hf a ha, fun hnone => ?_⟩
  cases hx : x.outcome with
  | ok a => exact ⟨a, rfl⟩
  | error f => exact absurd (h.sound f hx) (hnone f)

/-- Work of which nothing is known but its outcome. -/
theorem self (x : Built α) : FailsBy x fun f => x.outcome = .error f where
  sound _ hf := hf
  complete f hf a ha := by
    rw [hf] at ha
    cases ha

/-- Work that always succeeds. -/
theorem never {a : α} (h : x.outcome = .ok a) : FailsBy x fun _ => False where
  sound f hf := by
    rw [h] at hf
    cases hf
  complete f hf := hf.elim

theorem pure (a : α) : FailsBy (Pure.pure a) fun _ => False := never rfl

theorem note (n : Notice) : FailsBy (Report.note n) fun _ => False := never rfl

theorem fail (e : Fault) : FailsBy (Report.fail e : Built α) (· = e) where
  sound f hf := (Except.error.inj hf).symm
  complete f _ a ha := by cases ha

theorem ofOption (e : Fault) (o : Option α) :
    FailsBy (Report.ofOption e o) fun f => o = none ∧ f = e := by
  cases o with
  | none => exact (fail e).congr fun f => ⟨fun hf => ⟨rfl, hf⟩, And.right⟩
  | some a => exact (pure a).congr fun f => ⟨False.elim, fun hf => nomatch hf.1⟩

/-- Work after other work; what is wrong with it may depend on the first result. -/
theorem bindAt {f : α → Built β} {H : α → Fault → Prop} (hx : FailsBy x F)
    (hf : ∀ a, x.outcome = .ok a → FailsBy (f a) (H a)) :
    FailsBy (x >>= f) fun e => F e ∨ ∃ a, x.outcome = .ok a ∧ H a e where
  sound e he := by
    rw [outcome_bind] at he
    cases hxa : x.outcome with
    | error e' =>
      rw [hxa] at he
      cases he
      exact .inl (hx.sound e hxa)
    | ok a =>
      rw [hxa] at he
      exact .inr ⟨a, rfl, (hf a hxa).sound e he⟩
  complete e he b hb := by
    obtain ⟨a, ha, hb⟩ := bind_eq_ok.1 hb
    rcases he with he | ⟨a', ha', he⟩
    · exact hx.complete e he a ha
    · obtain rfl := Except.ok.inj (ha.symm.trans ha')
      exact (hf a ha).complete e he b hb

theorem bind {f : α → Built β} (hx : FailsBy x F)
    (hf : ∀ a, x.outcome = .ok a → FailsBy (f a) G) : FailsBy (x >>= f) fun e => F e ∨ G e where
  sound e he := ((hx.bindAt hf).sound e he).imp_right fun ⟨_, _, h⟩ => h
  complete e he b hb := by
    obtain ⟨a, ha, hb'⟩ := bind_eq_ok.1 hb
    exact (hx.bindAt hf).complete e (he.imp_right fun h => ⟨a, ha, h⟩) b hb

/-- Work after other work that always succeeds. -/
theorem after {f : α → Built β} (hx : FailsBy x fun _ => False)
    (hf : ∀ a, x.outcome = .ok a → FailsBy (f a) G) : FailsBy (x >>= f) G :=
  (hx.bind hf).congr fun _ => iff_of_eq (false_or _)

/-- What is done with a result in the end cannot fail any more. -/
theorem before {f : α → Built β} (hx : FailsBy x F)
    (hf : ∀ a, x.outcome = .ok a → FailsBy (f a) fun _ => False) : FailsBy (x >>= f) F :=
  (hx.bind hf).congr fun _ => iff_of_eq (or_false _)

theorem map {g : α → β} (hx : FailsBy x F) : FailsBy (g <$> x) F := by
  rw [map_eq_pure_bind]
  exact hx.before fun a _ => pure (g a)

/-- Work behind a condition that has to be met. -/
theorem guarded {refused : Bool} {e : Fault} {f : Unit → Built β} (he : refused = true → G e)
    (hf : refused = false → FailsBy (f ()) G) :
    FailsBy (if refused = true then Report.fail e >>= f else f ()) G := by
  cases refused with
  | true =>
    refine ⟨fun e' herror => ?_, fun _ _ b hb => nomatch hb⟩
    cases herror
    exact he rfl
  | false => exact hf rfl

/-- Items one after the other. -/
theorem mapM {f : α → Built β} {H : α → Fault → Prop} {as : List α}
    (h : ∀ a ∈ as, FailsBy (f a) (H a)) : FailsBy (as.mapM f) fun e => ∃ a ∈ as, H a e := by
  induction as with
  | nil => exact (pure []).congr fun e => by simp
  | cons a as ih =>
    rw [List.mapM_cons]
    have htail : FailsBy (as.mapM f) fun e => ∃ a' ∈ as, H a' e :=
      ih fun a' ha' => h a' (List.mem_cons_of_mem a ha')
    have hall := (h a List.mem_cons_self).bind fun b _ => htail.before fun bs _ => pure (b :: bs)
    exact hall.congr fun e => by simp

end FailsBy

/-! ## Work that is done in two ways -/

/-- The work comes to an end: it does not fail for want of a budget. -/
def Ends (x : Built α) : Prop := x.outcome ≠ .error .endless

/-- The second report is what the first one is, unless the first fails for want of a budget. -/
def Below (x y : Built α) : Prop := x.outcome = .error .endless ∨ x = y

/-- What the first report has made, the second one has made too. -/
def Carries (x y : Built α) : Prop := ∀ a, x.outcome = .ok a → y.outcome = .ok a

/-- A relation that holds of work done in two ways when it holds of the steps. The second step
counts only after a first one that succeeds. -/
structure Lifting (R : (α : Type) → Built α → Built α → Prop) : Prop where
  refl : ∀ {α : Type} {x : Built α}, Ends x → R α x x
  bind : ∀ {α β : Type} {x y : Built α} {f g : α → Built β},
    R α x y → (∀ a, x.outcome = .ok a → R β (f a) (g a)) → R β (x >>= f) (y >>= g)

section Ends

theorem ends_pure (a : α) : Ends (pure a : Built α) := by simp [Ends]

theorem ends_note (n : Notice) : Ends (note n : Built Unit) := by simp [Ends]

theorem ends_fail {e : Fault} (h : e ≠ .endless) : Ends (fail e : Built α) := by
  simpa [Ends] using h

theorem ends_bind {x : Built α} {f : α → Built β} (hx : Ends x)
    (hf : ∀ a, x.outcome = .ok a → Ends (f a)) : Ends (x >>= f) := by
  unfold Ends at hx ⊢
  rw [outcome_bind]
  cases h : x.outcome with
  | error e => rw [h] at hx; simpa [Except.bind] using hx
  | ok a => exact hf a h

theorem FailsBy.ends {x : Built α} {F : Fault → Prop} (h : FailsBy x F) (hF : ¬ F .endless) :
    Ends x := fun hx => hF (h.sound _ hx)

end Ends

theorem lifting_ends : Lifting fun _ x _ => Ends x := ⟨id, ends_bind⟩

theorem lifting_eq : Lifting fun _ x y => x = y where
  refl _ := rfl
  bind {α β x y f g} hxy hfg := by
    subst hxy
    cases hx : x.outcome with
    | error e => rw [bind_of_error hx, bind_of_error hx]
    | ok a => rw [bind_of_ok hx, bind_of_ok hx, hfg a hx]

theorem lifting_below : Lifting fun _ x y => Below x y where
  refl _ := .inr rfl
  bind {α β x y f g} hxy hfg := by
    rcases hxy with hx | rfl
    · exact .inl (by rw [outcome_bind, hx]; rfl)
    · cases hx : x.outcome with
      | error e => exact .inr (by rw [bind_of_error hx, bind_of_error hx])
      | ok a =>
        rcases hfg a hx with hf | hf
        · exact .inl (by rw [outcome_bind, hx]; exact hf)
        · exact .inr (by rw [bind_of_ok hx, bind_of_ok hx, hf])

theorem Below.carries {x y : Built α} (h : Below x y) : Carries x y := by
  intro a ha
  rcases h with hx | rfl
  · rw [hx] at ha
    cases ha
  · exact ha

theorem lifting_carries : Lifting fun _ x y => Carries x y where
  refl _ _ h := h
  bind hxy hfg b h := by
    obtain ⟨a, ha, hb⟩ := bind_eq_ok.1 h
    exact bind_eq_ok.2 ⟨a, hxy a ha, hfg a ha b hb⟩

/-- Items one after the other. -/
theorem Lifting.mapM {R : (α : Type) → Built α → Built α → Prop} (hR : Lifting R)
    {f g : α → Built β} {as : List α} (h : ∀ a ∈ as, R β (f a) (g a)) :
    R (List β) (as.mapM f) (as.mapM g) := by
  induction as with
  | nil =>
    rw [List.mapM_nil, List.mapM_nil]
    exact hR.refl (ends_pure [])
  | cons a as ih =>
    rw [List.mapM_cons, List.mapM_cons]
    refine hR.bind (h a List.mem_cons_self) fun b _ => ?_
    refine hR.bind (ih fun a' ha' => h a' (List.mem_cons_of_mem a ha')) fun bs _ => ?_
    exact hR.refl (ends_pure (b :: bs))

end ApiModel.Report
