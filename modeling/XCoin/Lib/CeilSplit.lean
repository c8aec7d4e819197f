import Mathlib

/-!
# Rounding a product up without forming it

`value * rate / denominator`, rounded up, from the quotient and the remainder of the
value alone.  The products that are formed are then no larger than the result and
the square of the denominator.  `split_ceil_le_iff` is the rule to reason with: the
rounded quotient is at most a number exactly if the product is at most that number
of denominators.
-/

namespace CeilSplit

variable {value rate denominator bound : ℤ}

/-- Splitting at the denominator rounds the product up. -/
theorem split_ceil_le_iff (hpositive : 0 < denominator) :
    value / denominator * rate + (value % denominator * rate + denominator - 1) / denominator ≤
      bound ↔ value * rate ≤ bound * denominator := by
  have hsplit : value * rate =
      value / denominator * rate * denominator + value % denominator * rate := by
    conv_lhs => rw [← Int.mul_ediv_add_emod value denominator]
    ring
  have hrest : (value % denominator * rate + denominator - 1) / denominator ≤
      bound - value / denominator * rate ↔
      value % denominator * rate + denominator - 1 <
        (bound - value / denominator * rate + 1) * denominator := by
    rw [← Int.ediv_lt_iff_lt_mul hpositive, Int.lt_add_one_iff]
  have hexpand : (bound - value / denominator * rate + 1) * denominator =
      bound * denominator - value / denominator * rate * denominator + denominator := by ring
  rw [hexpand] at hrest
  rw [hsplit]
  constructor
  · intro hle
    have := hrest.mp (by omega)
    omega
  · intro hle
    have := hrest.mpr (by omega)
    omega

end CeilSplit
