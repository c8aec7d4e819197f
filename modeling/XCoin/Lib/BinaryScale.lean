import Mathlib

/-!
# Scaling a natural number by a signed power of two

`scaleTwo x s` is the floor of `x * 2 ^ s` for a signed `s`: a left shift when
`s` is not negative, a right shift otherwise.  Fixed-point code that splits an
exponent into a whole and a fractional part shifts by the whole part in one
of the two directions; the lemmas below let a proof treat both as one operation.

The last section is about rounding down to a multiple of a power of two whose
exponent grows with the number, as a floating-point format does.
-/

namespace Nat

/-- The floor of `x * 2 ^ s`. -/
def scaleTwo (x : ℕ) (s : ℤ) : ℕ :=
  if s < 0 then x / 2 ^ (-s).toNat else x * 2 ^ s.toNat

theorem scaleTwo_of_neg {x : ℕ} {s : ℤ} (hs : s < 0) : scaleTwo x s = x / 2 ^ (-s).toNat := by
  rw [scaleTwo, if_pos hs]

theorem scaleTwo_of_nonneg {x : ℕ} {s : ℤ} (hs : 0 ≤ s) : scaleTwo x s = x * 2 ^ s.toNat := by
  rw [scaleTwo, if_neg (not_lt.mpr hs)]

@[simp] theorem scaleTwo_zero_right (x : ℕ) : scaleTwo x 0 = x := by
  simp [scaleTwo]

/-! ## Composition -/

theorem scaleTwo_mul_two_pow (x k : ℕ) (s : ℤ) : scaleTwo (x * 2 ^ k) s = scaleTwo x (s + k) := by
  by_cases hs : 0 ≤ s
  · rw [scaleTwo_of_nonneg hs, scaleTwo_of_nonneg (by omega), mul_assoc, ← pow_add]
    congr 2
    omega
  · rw [scaleTwo_of_neg (not_le.mp hs)]
    by_cases hsum : 0 ≤ s + k
    · -- the right shift removes only part of the factor
      rw [scaleTwo_of_nonneg hsum]
      have hk : k = (s + k).toNat + (-s).toNat := by omega
      conv_lhs => rw [hk, pow_add, ← mul_assoc]
      exact Nat.mul_div_cancel _ (Nat.two_pow_pos _)
    · rw [scaleTwo_of_neg (not_le.mp hsum)]
      have hk : (-s).toNat = k + (-(s + k)).toNat := by omega
      rw [hk, pow_add, ← Nat.div_div_eq_div_mul, Nat.mul_div_cancel _ (Nat.two_pow_pos _)]

theorem scaleTwo_div_two_pow (x k : ℕ) (s : ℤ) : scaleTwo x s / 2 ^ k = scaleTwo x (s - k) := by
  by_cases hs : 0 ≤ s
  · rw [scaleTwo_of_nonneg hs]
    by_cases hk : (k : ℤ) ≤ s
    · rw [scaleTwo_of_nonneg (by omega)]
      have hsplit : s.toNat = (s - k).toNat + k := by omega
      rw [hsplit, pow_add, ← mul_assoc, Nat.mul_div_cancel _ (Nat.two_pow_pos _)]
    · rw [scaleTwo_of_neg (by omega)]
      have hsplit : k = s.toNat + (-(s - k)).toNat := by omega
      conv_lhs => rw [hsplit, pow_add, ← Nat.div_div_eq_div_mul]
      rw [Nat.mul_div_cancel _ (Nat.two_pow_pos _)]
  · rw [scaleTwo_of_neg (not_le.mp hs), scaleTwo_of_neg (by omega), Nat.div_div_eq_div_mul,
      ← pow_add]
    congr 2
    omega

/-- Scaling there and back loses only what a right shift drops. -/
theorem scaleTwo_scaleTwo_neg (x : ℕ) (s : ℤ) :
    scaleTwo (scaleTwo x (-s)) s = x / 2 ^ s.toNat * 2 ^ s.toNat := by
  by_cases hs : 0 < s
  · rw [scaleTwo_of_neg (x := x) (by omega), scaleTwo_of_nonneg hs.le, neg_neg]
  · have hzero : s.toNat = 0 := by omega
    rw [scaleTwo_of_nonneg (x := x) (by omega), scaleTwo_mul_two_pow, hzero]
    convert scaleTwo_zero_right x using 2
    · omega
    · simp

/-! ## Order -/

theorem scaleTwo_mono_left {x y : ℕ} (hxy : x ≤ y) (s : ℤ) : scaleTwo x s ≤ scaleTwo y s := by
  unfold scaleTwo
  split_ifs
  · exact Nat.div_le_div_right hxy
  · exact Nat.mul_le_mul_right _ hxy

theorem scaleTwo_mono_right (x : ℕ) {s t : ℤ} (hst : s ≤ t) : scaleTwo x s ≤ scaleTwo x t := by
  obtain ⟨k, hk⟩ := Int.le.dest hst
  have hstep : scaleTwo x s = scaleTwo x t / 2 ^ k := by
    rw [scaleTwo_div_two_pow]
    congr 1
    omega
  rw [hstep]
  exact Nat.div_le_self _ _

theorem scaleTwo_lt_two_pow {x b e : ℕ} {s : ℤ} (hx : x < 2 ^ b) (he : (b : ℤ) + s ≤ e) :
    scaleTwo x s < 2 ^ e := by
  by_cases hs : 0 ≤ s
  · rw [scaleTwo_of_nonneg hs]
    calc x * 2 ^ s.toNat < 2 ^ b * 2 ^ s.toNat :=
          Nat.mul_lt_mul_of_pos_right hx (Nat.two_pow_pos _)
      _ = 2 ^ (b + s.toNat) := (pow_add 2 b _).symm
      _ ≤ 2 ^ e := Nat.pow_le_pow_right two_pos (by omega)
  · rw [scaleTwo_of_neg (not_le.mp hs), Nat.div_lt_iff_lt_mul (Nat.two_pow_pos _), ← pow_add]
    exact hx.trans_le (Nat.pow_le_pow_right two_pos (by omega))

theorem two_pow_le_scaleTwo {x b e : ℕ} {s : ℤ} (hx : 2 ^ b ≤ x) (he : (e : ℤ) ≤ b + s) :
    2 ^ e ≤ scaleTwo x s := by
  by_cases hs : 0 ≤ s
  · rw [scaleTwo_of_nonneg hs]
    calc 2 ^ e ≤ 2 ^ (b + s.toNat) := Nat.pow_le_pow_right two_pos (by omega)
      _ = 2 ^ b * 2 ^ s.toNat := pow_add 2 b _
      _ ≤ x * 2 ^ s.toNat := Nat.mul_le_mul_right _ hx
  · rw [scaleTwo_of_neg (not_le.mp hs), Nat.le_div_iff_mul_le (Nat.two_pow_pos _), ← pow_add]
    exact (Nat.pow_le_pow_right two_pos (by omega)).trans hx

/-- Whether a left shift passes a bound can be decided by shifting the bound. -/
theorem div_two_pow_lt_iff {bound x k : ℕ} : bound / 2 ^ k < x ↔ bound < x * 2 ^ k :=
  Nat.div_lt_iff_lt_mul (Nat.two_pow_pos k)

/-! ## Rounding down to a multiple of a power of two -/

/-- Rounding down keeps the order of two numbers if it is to the same grid, or if
a point of the coarser grid lies between them. -/
theorem floor_two_pow_le_floor_two_pow {x y j k : ℕ} (hxy : x ≤ y)
    (hgrid : j = k ∨ ∃ m, x ≤ 2 ^ (k + m) ∧ 2 ^ (k + m) ≤ y) :
    x / 2 ^ j * 2 ^ j ≤ y / 2 ^ k * 2 ^ k := by
  rcases hgrid with rfl | ⟨m, hx, hy⟩
  · exact Nat.mul_le_mul_right _ (Nat.div_le_div_right hxy)
  · have hpoint : 2 ^ m ≤ y / 2 ^ k := by
      rw [Nat.le_div_iff_mul_le (Nat.two_pow_pos k), ← pow_add, add_comm]
      exact hy
    calc x / 2 ^ j * 2 ^ j ≤ x := Nat.div_mul_le_self x _
      _ ≤ 2 ^ (k + m) := hx
      _ = 2 ^ m * 2 ^ k := by rw [pow_add, mul_comm]
      _ ≤ y / 2 ^ k * 2 ^ k := Nat.mul_le_mul_right _ hpoint

end Nat
