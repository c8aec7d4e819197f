import XCoin.Primitives.Transaction
import XCoin.Lib.BinaryScale

/-!
# 256-bit arithmetic and compact targets

The operations of `arith_uint256` that the difficulty rules use.  A value is a
natural number; an operation that can leave the 256-bit range reduces its result
modulo `2 ^ 256`, as the limb arithmetic does.

`SetCompact` and `GetCompact` convert between targets and the 32-bit `nBits`
form, a base-256 floating-point format with a 23-bit mantissa.  Decoding an
encoded target rounds it down to a multiple of a power of 256
(`setCompact_getCompact`), and the rounding is monotone
(`compactFloor_mono`).
-/

namespace XCoin.Pow

open Nat (scaleTwo)

/-! ## Limb arithmetic -/

/-- `base_uint::operator<<=`. -/
def shl256 (x shift : ℕ) : ℕ := x * 2 ^ shift % 2 ^ 256

/-- `base_uint::operator*=(uint32_t)`.  A 64-bit factor is converted to 32 bits:
the built-in conversion wins over the one to `base_uint`. -/
def mulUint32 (x factor : ℕ) : ℕ := x * (factor % 2 ^ 32) % 2 ^ 256

/-- `base_uint::bits`, the position of the highest set bit plus one. -/
def bits (x : ℕ) : ℕ := if x = 0 then 0 else x.log2 + 1

theorem bits_le_iff {x n : ℕ} : bits x ≤ n ↔ x < 2 ^ n := by
  unfold bits
  split_ifs with hx
  · simp [hx]
  · rw [Nat.succ_le_iff, Nat.log2_lt hx]

theorem lt_two_pow_bits (x : ℕ) : x < 2 ^ bits x := bits_le_iff.mp le_rfl

theorem two_pow_le_of_lt_bits {x n : ℕ} (hn : n < bits x) : 2 ^ n ≤ x := by
  by_contra hlt
  exact absurd (bits_le_iff.mpr (not_le.mp hlt)) (not_le.mpr hn)

theorem bits_mono {x y : ℕ} (hxy : x ≤ y) : bits x ≤ bits y :=
  bits_le_iff.mpr (hxy.trans_lt (lt_two_pow_bits y))

/-! ## The compact form -/

/-- `arith_uint256::SetCompact`. -/
def setCompact (nCompact : ℕ) : ℕ :=
  if nCompact / 2 ^ 24 ≤ 3 then
    nCompact % 2 ^ 23 / 2 ^ (8 * (3 - nCompact / 2 ^ 24))
  else
    shl256 (nCompact % 2 ^ 23) (8 * (nCompact / 2 ^ 24 - 3))

/-- The mantissa that `SetCompact` tests for its two flags: the 23-bit word,
already shifted right when the size byte is at most 3. -/
def compactWord (nCompact : ℕ) : ℕ :=
  if nCompact / 2 ^ 24 ≤ 3 then
    nCompact % 2 ^ 23 / 2 ^ (8 * (3 - nCompact / 2 ^ 24))
  else
    nCompact % 2 ^ 23

/-- The flag `*pfNegative`. -/
def compactNegative (nCompact : ℕ) : Bool :=
  compactWord nCompact != 0 && nCompact.testBit 23

/-- The flag `*pfOverflow`. -/
def compactOverflow (nCompact : ℕ) : Bool :=
  compactWord nCompact != 0 &&
    (decide (34 < nCompact / 2 ^ 24) ||
      (decide (0xff < compactWord nCompact) && decide (33 < nCompact / 2 ^ 24)) ||
      (decide (0xffff < compactWord nCompact) && decide (32 < nCompact / 2 ^ 24)))

/-- The number of bytes of a target. -/
def compactSize (x : ℕ) : ℕ := (bits x + 7) / 8

/-- The mantissa that `GetCompact` takes before it makes room for the sign bit. -/
def compactMantissa (x : ℕ) : ℕ :=
  if compactSize x ≤ 3 then
    x % 2 ^ 64 * 2 ^ (8 * (3 - compactSize x)) % 2 ^ 64 % 2 ^ 32
  else
    x / 2 ^ (8 * (compactSize x - 3)) % 2 ^ 64 % 2 ^ 32

/-- `arith_uint256::GetCompact`.  The mantissa is below `2 ^ 23` when the size byte
is put in front of it, so the bitwise or is a sum. -/
def getCompact (x : ℕ) : ℕ :=
  if (compactMantissa x).testBit 23 then
    compactMantissa x / 2 ^ 8 + (compactSize x + 1) * 2 ^ 24
  else
    compactMantissa x + compactSize x * 2 ^ 24

/-! ## Encoding and decoding -/

/-- The size byte of an encoded positive target: one more than its whole bytes, as
the sign bit needs room. -/
def sizeByte (x : ℕ) : ℕ := bits x / 8 + 1

theorem shift_to_three_bytes (x size : ℕ) :
    (if size ≤ 3 then x * 2 ^ (8 * (3 - size)) else x / 2 ^ (8 * (size - 3))) =
      scaleTwo x (24 - 8 * (size : ℤ)) := by
  split_ifs with hsmall
  · rw [Nat.scaleTwo_of_nonneg (by omega)]
    congr 2
    omega
  · rw [Nat.scaleTwo_of_neg (by omega)]
    congr 2
    omega

theorem three_bytes_lt (x : ℕ) : scaleTwo x (24 - 8 * (compactSize x : ℤ)) < 2 ^ 24 :=
  Nat.scaleTwo_lt_two_pow (lt_two_pow_bits x) (by unfold compactSize; push_cast; omega)

theorem compactMantissa_eq (x : ℕ) :
    compactMantissa x = scaleTwo x (24 - 8 * (compactSize x : ℤ)) := by
  have hlt := three_bytes_lt x
  rw [← shift_to_three_bytes] at hlt ⊢
  unfold compactMantissa
  split_ifs with hsmall
  · rw [if_pos hsmall] at hlt
    have hx : x < 2 ^ 24 := bits_le_iff.mp (by unfold compactSize at hsmall; omega)
    rw [Nat.mod_eq_of_lt (hx.trans (by norm_num)), Nat.mod_eq_of_lt (hlt.trans (by norm_num)),
      Nat.mod_eq_of_lt (hlt.trans (by norm_num))]
  · rw [if_neg hsmall] at hlt
    rw [Nat.mod_eq_of_lt (hlt.trans (by norm_num)), Nat.mod_eq_of_lt (hlt.trans (by norm_num))]

theorem testBit_compactMantissa {x : ℕ} (hx : x ≠ 0) :
    (compactMantissa x).testBit 23 = decide (bits x % 8 = 0) := by
  have hpos : 0 < bits x := Nat.pos_of_ne_zero fun hzero =>
    hx (by simpa using bits_le_iff.mp (le_of_eq hzero))
  rw [compactMantissa_eq]
  by_cases hfull : bits x % 8 = 0
  · -- the leading byte is full, so the mantissa has exactly 24 bits
    have hge : 2 ^ 23 ≤ scaleTwo x (24 - 8 * (compactSize x : ℤ)) :=
      Nat.two_pow_le_scaleTwo (two_pow_le_of_lt_bits (Nat.sub_one_lt_of_lt hpos))
        (by unfold compactSize; omega)
    have hlt := three_bytes_lt x
    rw [Nat.testBit_eq_decide_div_mod_eq]
    simp only [hfull, decide_true, decide_eq_true_eq]
    omega
  · have hlt : scaleTwo x (24 - 8 * (compactSize x : ℤ)) < 2 ^ 23 :=
      Nat.scaleTwo_lt_two_pow (lt_two_pow_bits x) (by unfold compactSize; push_cast; omega)
    rw [Nat.testBit_lt_two_pow hlt]
    simp [hfull]

theorem getCompact_zero : getCompact 0 = 0 := by decide

theorem mantissa_lt (x : ℕ) : scaleTwo x (24 - 8 * (sizeByte x : ℤ)) < 2 ^ 23 :=
  Nat.scaleTwo_lt_two_pow (lt_two_pow_bits x) (by unfold sizeByte; push_cast; omega)

theorem getCompact_eq {x : ℕ} (hx : x ≠ 0) :
    getCompact x = scaleTwo x (24 - 8 * (sizeByte x : ℤ)) + sizeByte x * 2 ^ 24 := by
  unfold getCompact
  rw [testBit_compactMantissa hx, compactMantissa_eq]
  by_cases hfull : bits x % 8 = 0
  · have hsize : compactSize x + 1 = sizeByte x := by unfold compactSize sizeByte; omega
    simp only [hfull, decide_true, if_true]
    rw [Nat.scaleTwo_div_two_pow, hsize]
    congr 2
    push_cast [← hsize]
    ring
  · have hsize : compactSize x = sizeByte x := by unfold compactSize sizeByte; omega
    simp only [hfull, decide_false, hsize]
    simp

theorem setCompact_eq {word size : ℕ} (hword : word < 2 ^ 23) :
    setCompact (word + size * 2 ^ 24) =
      if size ≤ 3 then scaleTwo word (8 * (size : ℤ) - 24)
      else scaleTwo word (8 * (size : ℤ) - 24) % 2 ^ 256 := by
  have hsize : (word + size * 2 ^ 24) / 2 ^ 24 = size := by omega
  have hmod : (word + size * 2 ^ 24) % 2 ^ 23 = word := by omega
  unfold setCompact shl256
  rw [hsize, hmod]
  split_ifs with hsmall
  · by_cases hthree : size = 3
    · subst hthree
      simp
    · rw [Nat.scaleTwo_of_neg (by omega)]
      congr 2
      omega
  · rw [Nat.scaleTwo_of_nonneg (by omega)]
    congr 3
    omega

/-- What a target becomes when it is encoded and decoded again. -/
def compactFloor (x : ℕ) : ℕ :=
  x / 2 ^ (8 * (bits x / 8 - 2)) * 2 ^ (8 * (bits x / 8 - 2))

theorem compactFloor_le (x : ℕ) : compactFloor x ≤ x := Nat.div_mul_le_self x _

theorem setCompact_getCompact {x : ℕ} (hx : x < 2 ^ 256) :
    setCompact (getCompact x) = compactFloor x := by
  by_cases hzero : x = 0
  · subst hzero
    decide
  rw [getCompact_eq hzero, setCompact_eq (mantissa_lt x)]
  have hscale : scaleTwo (scaleTwo x (24 - 8 * (sizeByte x : ℤ))) (8 * (sizeByte x : ℤ) - 24) =
      compactFloor x := by
    have hneg : 24 - 8 * (sizeByte x : ℤ) = -(8 * (sizeByte x : ℤ) - 24) := by ring
    have hgrid : (8 * (sizeByte x : ℤ) - 24).toNat = 8 * (bits x / 8 - 2) := by
      unfold sizeByte
      omega
    rw [hneg, Nat.scaleTwo_scaleTwo_neg, hgrid, compactFloor]
  rw [hscale]
  split_ifs
  · rfl
  · exact Nat.mod_eq_of_lt ((compactFloor_le x).trans_lt hx)

/-- **Compact rounding is monotone.**  Where the size byte changes, a power of two that
both formats represent lies between the two targets. -/
theorem compactFloor_mono {x y : ℕ} (hxy : x ≤ y) : compactFloor x ≤ compactFloor y := by
  apply Nat.floor_two_pow_le_floor_two_pow hxy
  by_cases hsame : bits x / 8 - 2 = bits y / 8 - 2
  · left
    rw [hsame]
  · right
    have hbits := bits_mono hxy
    refine ⟨15, ?_, ?_⟩
    · exact (bits_le_iff.mp (by omega)).le
    · exact two_pow_le_of_lt_bits (by omega)

theorem getCompact_lt {x : ℕ} (hx : x < 2 ^ 256) : getCompact x < 2 ^ 32 := by
  by_cases hzero : x = 0
  · rw [hzero, getCompact_zero]
    norm_num
  · have hsize : sizeByte x ≤ 33 := by
      have := bits_le_iff.mpr hx
      unfold sizeByte
      omega
    have hword := mantissa_lt x
    rw [getCompact_eq hzero]
    omega

theorem compactFloor_pos {x : ℕ} (hx : 0 < x) : 0 < compactFloor x :=
  calc 0 < compactFloor 1 := by decide
    _ ≤ compactFloor x := compactFloor_mono hx

end XCoin.Pow
