/-!
# Checked values

A `Checked` value comes with the number of complaints about what it was read from. Reading goes
on after a complaint, with a default in place of what was refused, so that one reading counts all
complaints. The value counts only if there are none.
-/

namespace ApiModel

/-- A value, and the number of complaints about what it was read from. -/
structure Checked (α : Type) where
  value : α
  complaints : Nat := 0

namespace Checked

variable {α β : Type}

instance : Monad Checked where
  pure a := ⟨a, 0⟩
  bind x f := ⟨(f x.value).value, x.complaints + (f x.value).complaints⟩

instance : LawfulMonad Checked := LawfulMonad.mk' Checked
  (by intro α x; cases x; simp [Functor.map])
  (by intro α β x f; simp [Bind.bind, Pure.pure])
  (by intro α β γ x f g; simp [Bind.bind, Nat.add_assoc])

/-- Complain about a value and go on with a default. -/
def refuse [Inhabited α] : Checked α := ⟨default, 1⟩

/-- A value, or a complaint if there is none. -/
def ofOption [Inhabited α] : Option α → Checked α
  | some a => pure a
  | none => refuse

/-- The value, if there are no complaints, else their number. -/
def result (x : Checked α) : Except Nat α :=
  if x.complaints = 0 then .ok x.value else .error x.complaints

end Checked

end ApiModel
