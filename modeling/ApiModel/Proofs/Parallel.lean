import ApiModel.Proofs.Outcome

/-!
# The same work in two places

Two documents that say the same in different ways are compared by doing the same work on both.
The results on the way need not be equal: a schema on one side has a counterpart on the other.
`Pairs` says of two reports that they come out alike, with results that are related or with the
same failure, and it goes from the steps to the whole like a `Lifting` does. Notices do not count.
-/

namespace ApiModel.Report

variable {ε α β γ δ : Type} {Q : α → β → Prop} {P : γ → δ → Prop}

/-- Two outcomes are alike: two results that are related, or one failure. -/
inductive Paired (Q : α → β → Prop) : Except ε α → Except ε β → Prop
  | ok {a : α} {b : β} : Q a b → Paired Q (.ok a) (.ok b)
  | error (e : ε) : Paired Q (.error e) (.error e)

/-- Two reports come out alike. -/
def Pairs (Q : α → β → Prop) (x : Report ε α) (y : Report ε β) : Prop :=
  Paired Q x.outcome y.outcome

namespace Pairs

theorem pure {a : α} {b : β} (h : Q a b) : Pairs Q (Pure.pure a : Report ε α) (Pure.pure b) := .ok h

theorem bind {x : Report ε α} {y : Report ε β} {f : α → Report ε γ} {g : β → Report ε δ}
    (h : Pairs Q x y) (hfg : ∀ a b, Q a b → Pairs P (f a) (g b)) :
    Pairs P (x >>= f) (y >>= g) := by
  unfold Pairs at h ⊢
  rw [outcome_bind, outcome_bind]
  generalize x.outcome = r at h
  generalize y.outcome = r' at h
  cases h with
  | ok hab => exact hfg _ _ hab
  | error e => exact .error e

theorem map {x : Report ε α} {y : Report ε β} {f : α → γ} {g : β → δ} (h : Pairs Q x y)
    (hfg : ∀ a b, Q a b → P (f a) (g b)) : Pairs P (f <$> x) (g <$> y) := by
  rw [map_eq_pure_bind, map_eq_pure_bind]
  exact h.bind fun a b hab => .pure (hfg a b hab)

/-- Items one after the other. -/
theorem mapM {f : α → Report ε γ} {g : β → Report ε δ} {as : List α} {bs : List β}
    (h : List.Forall₂ (fun a b => Pairs P (f a) (g b)) as bs) :
    Pairs (List.Forall₂ P) (as.mapM f) (bs.mapM g) := by
  induction h with
  | nil =>
    rw [List.mapM_nil, List.mapM_nil]
    exact .pure .nil
  | cons hab _ ih =>
    rw [List.mapM_cons, List.mapM_cons]
    exact hab.bind fun c d hcd => ih.bind fun cs ds hrest => .pure (.cons hcd hrest)

theorem mono {Q' : α → β → Prop} {x : Report ε α} {y : Report ε β} (h : Pairs Q x y)
    (hQ : ∀ a b, Q a b → Q' a b) : Pairs Q' x y := by
  unfold Pairs at h ⊢
  generalize x.outcome = r at h
  generalize y.outcome = r' at h
  cases h with
  | ok hab => exact .ok (hQ _ _ hab)
  | error e => exact .error e

/-- What comes out on one side has a counterpart on the other. -/
theorem exists_ok {x : Report ε α} {y : Report ε β} (h : Pairs Q x y) {a : α}
    (ha : x.outcome = .ok a) : ∃ b, y.outcome = .ok b ∧ Q a b := by
  unfold Pairs at h
  rw [ha] at h
  generalize y.outcome = r at h
  cases h with
  | ok hab => exact ⟨_, rfl, hab⟩

end Pairs

/-- Reports with equal results come out the same. -/
theorem pairs_eq {x y : Report ε α} : Pairs Eq x y ↔ x.outcome = y.outcome := by
  unfold Pairs
  generalize x.outcome = r
  generalize y.outcome = r'
  constructor
  · intro h
    cases h with
    | ok hab => rw [hab]
    | error e => rfl
  · rintro rfl
    cases r with
    | ok a => exact .ok rfl
    | error e => exact .error e

theorem pairs_self (x : Report ε α) : Pairs Eq x x := pairs_eq.2 rfl

/-- The same report on both sides comes out with one result. -/
theorem Pairs.of_eq {x : Report ε α} {Q : α → α → Prop} (hQ : ∀ a, Q a a) : Pairs Q x x :=
  (pairs_self x).mono fun a _ hab => hab ▸ hQ a

/-- The work goes on with one result. -/
theorem Pairs.bind_eq {x y : Report ε α} {f : α → Report ε γ} {g : α → Report ε δ}
    (h : Pairs Eq x y) (hfg : ∀ a, Pairs P (f a) (g a)) : Pairs P (x >>= f) (y >>= g) :=
  h.bind fun a _ hab => hab ▸ hfg a

/-- Items one after the other, with equal results. -/
theorem pairs_mapM_eq {f : α → Report ε γ} {g : β → Report ε γ} {as : List α} {bs : List β}
    (h : List.Forall₂ (fun a b => Pairs Eq (f a) (g b)) as bs) :
    Pairs Eq (as.mapM f) (bs.mapM g) :=
  (Pairs.mapM h).mono fun _ _ heq => by rwa [List.forall₂_eq_eq_eq] at heq

/-- The same items on both sides, one after the other. -/
theorem pairs_mapM_self {f g : α → Report ε γ} (h : ∀ a, Pairs Eq (f a) (g a)) (as : List α) :
    Pairs Eq (as.mapM f) (as.mapM g) :=
  pairs_mapM_eq (List.forall₂_same.2 fun a _ => h a)

/-- Items that are worked on in the same way, one after the other. -/
theorem mapM_eq_of_forall₂ {f : α → Report ε γ} {g : β → Report ε γ} {as : List α} {bs : List β}
    (h : List.Forall₂ (fun a b => f a = g b) as bs) : as.mapM f = bs.mapM g := by
  induction h with
  | nil => rw [List.mapM_nil, List.mapM_nil]
  | cons hab _ ih => rw [List.mapM_cons, List.mapM_cons, hab, ih]

/-- That two reports come out the same goes from the steps to the whole. -/
theorem lifting_outcome : Lifting fun _ x y => x.outcome = y.outcome where
  refl _ := rfl
  bind {α β x y f g} hxy hfg := by
    rw [outcome_bind, outcome_bind, ← hxy]
    cases hx : x.outcome with
    | ok a => exact hfg a hx
    | error e => rfl

end ApiModel.Report
