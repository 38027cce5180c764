import ApiModel.Decimal.Binary
import Mathlib

/-!
# Equal doubles

Doubles are compared by value: NaN is not equal to itself, and the two zeros are equal. Any other
two doubles are equal only if they are the same, and then they have the same parts.

**Theorem (`whole?_eq_of_beq`).** Equal doubles are the same integer, if they are one.

**Theorem (`beq_of_whole?`).** Doubles that are the same integer are equal: a number has only one
mantissa and exponent, because a mantissa that is not of the least exponent uses all its bits.
-/

namespace ApiModel.Decimal

/-! ## Equality -/

theorem beq_trans {x y z : Float} (h : (x == y) = true) (h' : (y == z) = true) :
    (x == z) = true := by
  rw [Float.beq_iff_ne_nan_and_eq] at *
  grind

/-- Equal doubles are the same integer, if they are one. -/
theorem whole?_eq_of_beq {x y : Float} (h : (x == y) = true) : whole? x = whole? y := by
  -- Where they differ, they are the two zeros.
  obtain ⟨-, -, rfl | ⟨rfl, rfl⟩ | ⟨rfl, rfl⟩⟩ := Float.beq_iff_ne_nan_and_eq.1 h <;> rfl

/-! ## Parts -/

/-- A mantissa has at most 53 bits, and it uses all of them unless the exponent is the least. -/
def Parts.Canonical : Parts → Prop
  | .finite _ m e => m < 2 ^ 53 ∧ leastExponent ≤ e ∧ (e = leastExponent ∨ 2 ^ 52 ≤ m)
  | _ => True

theorem canonical_parts (x : Float) : (parts x).Canonical := by
  have hlt : x.toBits.toNat % 0x10000000000000 < 2 ^ 52 := Nat.mod_lt _ (by decide)
  simp only [parts]
  split_ifs with hfull hzero hnone
  · trivial
  · trivial
  · exact ⟨by omega, Int.le_refl _, .inl rfl⟩
  · have hpos : 0 < (x.toBits.toNat >>> 52) % 0x800 := by
      rw [beq_iff_eq] at hnone
      exact Nat.pos_of_ne_zero hnone
    refine ⟨by omega, ?_, .inr (by omega)⟩
    rw [leastExponent, Int.ofNat_eq_natCast]
    omega

/-- The parts of a finite double tell its bits. -/
theorem toNat_of_parts {x : Float} {negative : Bool} {m : Nat} {e : Int}
    (h : parts x = .finite negative m e) :
    x.toBits.toNat = (if negative then 1 else 0) * 2 ^ 63 +
      ((e - leastExponent).toNat + m / 2 ^ 52) * 2 ^ 52 + m % 2 ^ 52 := by
  have hlt : x.toBits.toNat < 2 ^ 64 := x.toBits.toNat_lt
  have hsign : (if x.toBits.toNat >>> 63 == 1 then 1 else 0) = x.toBits.toNat >>> 63 := by
    split_ifs with hone
    · exact (beq_iff_eq.1 hone).symm
    · have hone : x.toBits.toNat >>> 63 ≠ 1 := fun h => hone (beq_iff_eq.2 h)
      omega
  simp only [parts] at h
  split_ifs at h with hfull hzero hnone
  · cases h
    rw [beq_iff_eq] at hnone
    rw [hsign, Int.sub_self]
    omega
  · cases h
    rw [beq_iff_eq] at hnone
    rw [hsign, leastExponent, Int.ofNat_eq_natCast]
    omega

/-- Finite doubles with the same parts are the same. -/
theorem eq_of_parts {x y : Float} {negative : Bool} {m : Nat} {e : Int}
    (hx : parts x = .finite negative m e) (hy : parts y = .finite negative m e) : x = y := by
  rw [← Float.toBits_inj, ← UInt64.toNat_inj, toNat_of_parts hx, toNat_of_parts hy]

theorem parts_ne_nan {x : Float} {negative : Bool} {m : Nat} {e : Int}
    (h : parts x = .finite negative m e) : x ≠ Float.nan := by
  rintro rfl
  cases h

/-! ## Whole doubles -/

/-- Two canonical mantissas with one value have the same exponent. -/
theorem eq_of_mul_two_pow {m n i j : Nat} (hm : m < 2 ^ 53) (hn : n < 2 ^ 53)
    (hi : i = 0 ∨ 2 ^ 52 ≤ m) (hj : j = 0 ∨ 2 ^ 52 ≤ n) (h : m * 2 ^ i = n * 2 ^ j) :
    m = n ∧ i = j := by
  -- With a larger exponent, the other mantissa would have one bit more.
  have hle {m n i j : Nat} (hm : m < 2 ^ 53) (hj : j = 0 ∨ 2 ^ 52 ≤ n)
      (h : m * 2 ^ i = n * 2 ^ j) : j ≤ i := by
    by_contra hlt
    obtain ⟨k, rfl⟩ : ∃ k, j = i + (k + 1) := ⟨j - i - 1, by omega⟩
    have hmn : m = n * 2 ^ (k + 1) := by
      rw [Nat.pow_add, Nat.mul_left_comm, Nat.mul_comm] at h
      exact Nat.eq_of_mul_eq_mul_left (Nat.two_pow_pos i) h
    have hk : 2 ≤ 2 ^ (k + 1) := Nat.le_self_pow (by omega) 2
    have hbits : 2 ^ 52 * 2 ≤ n * 2 ^ (k + 1) := Nat.mul_le_mul (by omega) hk
    omega
  obtain rfl : i = j := Nat.le_antisymm (hle hn hi h.symm) (hle hm hj h)
  exact ⟨Nat.eq_of_mul_eq_mul_right (Nat.two_pow_pos i) h, rfl⟩

/-- A natural number with its sign. -/
def signed (negative : Bool) (n : Nat) : Int := if negative then -(n : Int) else n

/-- The size of a whole double, in units of the least power of two. -/
theorem exists_size_of_whole? {x : Float} {n : Int} (h : whole? x = some n) :
    ∃ negative m e size, parts x = .finite negative m e ∧ n = signed negative size ∧
      m * 2 ^ (e - leastExponent).toNat = size * 2 ^ (-leastExponent).toNat := by
  have hcanonical := canonical_parts x
  unfold whole? at h
  split at h
  · rename_i negative m e hparts
    rw [hparts] at hcanonical
    obtain ⟨-, hleast, -⟩ := hcanonical
    replace h : (if 0 ≤ e then some (signed negative (m <<< e.toNat))
        else if m % (1 <<< (-e).toNat) == 0 then some (signed negative (m / (1 <<< (-e).toNat)))
        else none) = some n := h
    split_ifs at h with hwhole hdvd
    · refine ⟨negative, m, e, m <<< e.toNat, hparts, (Option.some.inj h).symm, ?_⟩
      have hbelow : leastExponent ≤ 0 := by decide
      have hplaces : (e - leastExponent).toNat = e.toNat + (-leastExponent).toNat := by omega
      rw [Nat.shiftLeft_eq, Nat.mul_assoc, ← Nat.pow_add, hplaces]
    · rw [Nat.one_shiftLeft] at h hdvd
      refine ⟨negative, m, e, m / 2 ^ (-e).toNat, hparts, (Option.some.inj h).symm, ?_⟩
      have hplaces : (-leastExponent).toNat = (-e).toNat + (e - leastExponent).toNat := by omega
      have hdvd : 2 ^ (-e).toNat ∣ m := Nat.dvd_of_mod_eq_zero (beq_iff_eq.1 hdvd)
      rw [hplaces, Nat.pow_add, ← Nat.mul_assoc, Nat.div_mul_cancel hdvd]
  · cases h

theorem signed_inj {negative negative' : Bool} {m n : Nat}
    (h : signed negative m = signed negative' n) : m = n ∧ (negative = negative' ∨ n = 0) := by
  cases negative <;> cases negative' <;> simp [signed] at h ⊢ <;> omega

/-- Doubles that are the same integer are equal. -/
theorem beq_of_whole? {x y : Float} {n : Int} (hx : whole? x = some n) (hy : whole? y = some n) :
    (x == y) = true := by
  obtain ⟨negative, m, e, size, hparts, hsize, hvalue⟩ := exists_size_of_whole? hx
  obtain ⟨negative', m', e', size', hparts', hsize', hvalue'⟩ := exists_size_of_whole? hy
  obtain ⟨rfl, hsign⟩ := signed_inj (hsize.symm.trans hsize')
  have hcanonical := canonical_parts x
  have hcanonical' := canonical_parts y
  rw [hparts] at hcanonical
  rw [hparts'] at hcanonical'
  obtain ⟨hm, hleast, hfull⟩ := hcanonical
  obtain ⟨hm', hleast', hfull'⟩ := hcanonical'
  obtain ⟨rfl, hexponent⟩ := eq_of_mul_two_pow hm hm' (hfull.imp_left (by omega))
    (hfull'.imp_left (by omega)) (hvalue.trans hvalue'.symm)
  obtain rfl : e = e' := by omega
  refine Float.beq_iff_ne_nan_and_eq.2 ⟨parts_ne_nan hparts, parts_ne_nan hparts', ?_⟩
  rcases hsign with rfl | rfl
  · exact .inl (eq_of_parts hparts hparts')
  · -- Only a zero has a size that is zero, and its exponent is the least.
    rw [Nat.zero_mul] at hvalue
    obtain rfl : m = 0 :=
      (Nat.mul_eq_zero.1 hvalue).resolve_right (Nat.ne_of_gt (Nat.two_pow_pos _))
    obtain rfl : e = leastExponent := hfull.resolve_right (by omega)
    have hpositive : parts 0 = .finite false 0 leastExponent := rfl
    have hnegative : parts (-0) = .finite true 0 leastExponent := rfl
    cases negative <;> cases negative'
    · exact .inl (eq_of_parts hparts hparts')
    · exact .inr (.inl ⟨eq_of_parts hparts hpositive, eq_of_parts hparts' hnegative⟩)
    · exact .inr (.inr ⟨eq_of_parts hparts hnegative, eq_of_parts hparts' hpositive⟩)
    · exact .inl (eq_of_parts hparts hparts')

end ApiModel.Decimal
