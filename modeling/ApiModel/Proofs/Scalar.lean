import ApiModel.Proofs.Decimal.Equality
import ApiModel.Schema.Enumeration

/-!
# Texts and numbers that are the same value

Integers and doubles are compared by value, so the values that are the same as a given one may be
written in different ways.

**Theorem (`same_trans`).** What is the same as something in between is the same. A double in
between decides: it is one integer at most.

NaN is not the same as itself, so this is no equivalence.
-/

namespace ApiModel.Scalar

/-- Texts and numbers that are the same value, as they may be written. -/
inductive SameMember : Scalar → Scalar → Prop
  | text (s : String) : SameMember (.text s) (.text s)
  | int (n : Int) : SameMember (.int n) (.int n)
  | intFloat {n : Int} {x : Float} : Decimal.whole? x = some n → SameMember (.int n) (.float x)
  | floatInt {x : Float} {n : Int} : Decimal.whole? x = some n → SameMember (.float x) (.int n)
  | float {x y : Float} : (x == y) = true → SameMember (.float x) (.float y)

variable {a b c : Scalar}

theorem same_iff (ha : a.isMember = true) (hb : b.isMember = true) :
    a.same b = true ↔ SameMember a b := by
  constructor
  · intro h
    match a, b with
    | .text s, .text t =>
      obtain rfl : s = t := by simpa [same] using h
      exact .text s
    | .int n, .int m =>
      obtain rfl : n = m := by simpa [same, integer?] using h
      exact .int n
    | .int n, .float x => exact .intFloat (by simpa [same, integer?] using h)
    | .float x, .int n => exact .floatInt (by simpa [same, integer?] using h)
    | .float x, .float y => exact .float h
    | .text _, .int _ | .int _, .text _ | .text _, .float _ | .float _, .text _ =>
      simp [same, integer?] at h
  · intro h
    cases h <;> simp [same, integer?, *]

/-- A text or number that is the same value as one in between is the same. -/
theorem same_trans (ha : a.isMember = true) (hb : b.isMember = true) (hc : c.isMember = true)
    (h : a.same b = true) (h' : b.same c = true) : a.same c = true := by
  rw [same_iff ha hc]
  cases (same_iff ha hb).1 h with
  | text s => exact (same_iff hb hc).1 h'
  | int n => exact (same_iff hb hc).1 h'
  | intFloat hx =>
    cases (same_iff hb hc).1 h' with
    | floatInt hx' =>
      obtain rfl := Option.some.inj (hx.symm.trans hx')
      exact .int _
    | float hxy => exact .intFloat ((Decimal.whole?_eq_of_beq hxy).symm.trans hx)
  | floatInt hx =>
    cases (same_iff hb hc).1 h' with
    | int n => exact .floatInt hx
    | intFloat hy => exact .float (Decimal.beq_of_whole? hx hy)
  | float hxy =>
    cases (same_iff hb hc).1 h' with
    | floatInt hy => exact .floatInt ((Decimal.whole?_eq_of_beq hxy).trans hy)
    | float hyz => exact .float (Decimal.beq_trans hxy hyz)

end ApiModel.Scalar
