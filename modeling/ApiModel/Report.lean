import ApiModel.Fault
import ApiModel.Notice

/-!
# Reports

A `Report` is the outcome of some work, together with the notices given on the way. The notices
up to a failure survive the failure. Reports form a monad: notices are collected in order, and
the first failure ends the work. Of two reports in a row, the second one cannot undo the notices
of the first.

What is built from a document is `Built`: a report that fails with a fault of the document.
-/

namespace ApiModel

/-- An outcome, and the notices given on the way to it. -/
structure Report (ε α : Type) where
  notices : List Notice
  outcome : Except ε α

/-- What is built from a document. -/
abbrev Built (α : Type) : Type := Report Fault α

namespace Report

variable {ε ε' α β : Type}

/-- Nothing but a value. -/
protected def pure (a : α) : Report ε α := ⟨[], .ok a⟩

/-- One after the other: the second part needs the value of the first. -/
protected def bind (x : Report ε α) (f : α → Report ε β) : Report ε β :=
  match x.outcome with
  | .ok a => ⟨x.notices ++ (f a).notices, (f a).outcome⟩
  | .error e => ⟨x.notices, .error e⟩

instance : Monad (Report ε) where
  pure := Report.pure
  bind := Report.bind

instance : LawfulMonad (Report ε) := LawfulMonad.mk' (Report ε)
  (by
    intro α x
    obtain ⟨ns, out⟩ := x
    cases out <;> simp [Functor.map, Report.bind, Report.pure])
  (by intro α β x f; simp [Bind.bind, Pure.pure, Report.bind, Report.pure])
  (by
    intro α β γ x f g
    obtain ⟨ns, out⟩ := x
    cases out with
    | error e => rfl
    | ok a =>
      simp only [Bind.bind, Report.bind]
      cases (f a).outcome <;> simp)

/-- Stop with a failure. -/
def fail (e : ε) : Report ε α := ⟨[], .error e⟩

/-- Give a notice. -/
def note (n : Notice) : Report ε Unit := ⟨[n], .ok ()⟩

/-- A value, or a failure if there is none. -/
def ofOption (e : ε) : Option α → Report ε α
  | some a => pure a
  | none => fail e

/-- An outcome on the way to which nothing is noticed. -/
def ofExcept (r : Except ε α) : Report ε α := ⟨[], r⟩

/-- The same report with its failure seen as another. -/
def mapFailure (f : ε → ε') (x : Report ε α) : Report ε' α :=
  ⟨x.notices, x.outcome.mapError f⟩

@[simp] theorem outcome_pure (a : α) : (pure a : Report ε α).outcome = .ok a := rfl

@[simp] theorem notices_pure (a : α) : (pure a : Report ε α).notices = [] := rfl

@[simp] theorem outcome_fail (e : ε) : (fail e : Report ε α).outcome = .error e := rfl

@[simp] theorem outcome_note (n : Notice) : (note n : Report ε Unit).outcome = .ok () := rfl

@[simp] theorem outcome_ofExcept (r : Except ε α) : (ofExcept r).outcome = r := rfl

/-- The outcome of a sequence is the sequence of outcomes. -/
@[simp] theorem outcome_bind (x : Report ε α) (f : α → Report ε β) :
    (x >>= f).outcome = x.outcome.bind fun a => (f a).outcome := by
  show (Report.bind x f).outcome = _
  unfold Report.bind
  cases x.outcome <;> rfl

end Report

end ApiModel
