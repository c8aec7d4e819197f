import Mathlib

/-!
# The bytes of a 64-bit lane

A lane of 64 bits is eight bytes, the lowest first.  A byte is read out of a lane by a
shift to the right and put into one by a shift to the left, so a byte may be added to a
lane (by exclusive or) without touching the other seven.  A lane is decided by its
bytes, which makes an array of lanes and an array of eight times as many bytes two views
of one state.
-/

namespace ByteLane

/-- Byte `k` of a lane. -/
def byteAt (lane : UInt64) (k : ℕ) : UInt8 := (lane >>> UInt64.ofNat (8 * k)).toUInt8

/-- The lane whose byte `k` is the given one, all others being zero. -/
def placed (byte : UInt8) (k : ℕ) : UInt64 := byte.toUInt64 <<< UInt64.ofNat (8 * k)

/-- The lane of eight bytes, the lowest first. -/
def ofBytes (byte : ℕ → UInt8) : UInt64 :=
  (List.range 8).foldl (fun lane k => lane ^^^ placed (byte k) k) 0

variable {lane other : UInt64} {byte : UInt8} {j k : ℕ}

theorem toNat_shift (hk : k < 8) : (UInt64.ofNat (8 * k)).toNat % 64 = 8 * k := by
  rw [UInt64.toNat_ofNat']
  omega

theorem testBit_byteAt (hk : k < 8) (i : ℕ) :
    (byteAt lane k).toNat.testBit i = (decide (i < 8) && lane.toNat.testBit (8 * k + i)) := by
  rw [byteAt, UInt64.toNat_toUInt8, UInt64.toNat_shiftRight, toNat_shift hk,
    Nat.testBit_mod_two_pow, Nat.testBit_shiftRight]

theorem testBit_placed (hk : k < 8) (i : ℕ) : (placed byte k).toNat.testBit i =
    (decide (i < 64) && (decide (8 * k ≤ i) && byte.toNat.testBit (i - 8 * k))) := by
  rw [placed, UInt64.toNat_shiftLeft, toNat_shift hk, Nat.testBit_mod_two_pow,
    Nat.testBit_shiftLeft]
  rfl

theorem testBit_byte_of_le {i : ℕ} (hi : 8 ≤ i) : byte.toNat.testBit i = false :=
  Nat.testBit_lt_two_pow (byte.toNat_lt.trans_le (Nat.pow_le_pow_right (by decide) hi))

theorem byteAt_placed (hj : j < 8) (hk : k < 8) :
    byteAt (placed byte j) k = if k = j then byte else 0 := by
  apply UInt8.toNat.inj
  apply Nat.eq_of_testBit_eq
  intro i
  rw [testBit_byteAt hk, testBit_placed hj]
  rcases Nat.lt_or_ge i 8 with hi | hi
  · split_ifs with hkj
    · subst hkj
      simp [hi, show 8 * k + i < 64 by omega]
    · -- bit `i` of byte `k` is outside the eight bits that start at `8 * j`
      rcases Nat.lt_or_gt_of_ne hkj with hlt | hgt
      · simp [show ¬ 8 * j ≤ 8 * k + i by omega]
      · simp [testBit_byte_of_le (show 8 ≤ 8 * k + i - 8 * j by omega)]
  · split_ifs with hkj
    · simp [Nat.not_lt.mpr hi, testBit_byte_of_le hi]
    · simp [Nat.not_lt.mpr hi]

theorem byteAt_xor (hk : k < 8) : byteAt (lane ^^^ other) k = byteAt lane k ^^^ byteAt other k := by
  apply UInt8.toNat.inj
  apply Nat.eq_of_testBit_eq
  intro i
  rw [UInt8.toNat_xor, Nat.testBit_xor, testBit_byteAt hk, testBit_byteAt hk, testBit_byteAt hk,
    UInt64.toNat_xor, Nat.testBit_xor, Bool.and_xor_distrib_left]

theorem byteAt_xor_placed (hj : j < 8) (hk : k < 8) : byteAt (lane ^^^ placed byte j) k =
    if k = j then byteAt lane k ^^^ byte else byteAt lane k := by
  rw [byteAt_xor hk, byteAt_placed hj hk]
  split_ifs
  · rfl
  · exact UInt8.xor_zero

theorem eq_of_byteAt (hbytes : ∀ k < 8, byteAt lane k = byteAt other k) : lane = other := by
  apply UInt64.toNat.inj
  apply Nat.eq_of_testBit_eq
  intro i
  rcases Nat.lt_or_ge i 64 with hi | hi
  · have hbit := congrArg (fun b => b.toNat.testBit (i % 8)) (hbytes (i / 8) (by omega))
    simp only [testBit_byteAt (show i / 8 < 8 by omega), Nat.mod_lt i (show 0 < 8 by decide),
      decide_true, Bool.true_and, Nat.div_add_mod] at hbit
    exact hbit
  · have hzero : ∀ word : UInt64, word.toNat.testBit i = false := fun word =>
      Nat.testBit_lt_two_pow (word.toNat_lt.trans_le (Nat.pow_le_pow_right (by decide) hi))
    rw [hzero, hzero]

theorem byteAt_foldl (bytes : ℕ → UInt8) (hk : k < 8) : ∀ n ≤ 8,
    byteAt ((List.range n).foldl (fun lane j => lane ^^^ placed (bytes j) j) 0) k =
      if k < n then bytes k else 0 := by
  intro n
  induction n with
  | zero =>
    intro _
    apply UInt8.toNat.inj
    apply Nat.eq_of_testBit_eq
    intro i
    rw [testBit_byteAt hk]
    simp
  | succ n ih =>
    intro hn
    rw [List.range_succ, List.foldl_append, List.foldl_cons, List.foldl_nil,
      byteAt_xor_placed (by omega) hk, ih (by omega)]
    rcases Nat.lt_trichotomy k n with hlt | rfl | hgt
    · rw [if_neg (by omega), if_pos hlt, if_pos (by omega)]
    · rw [if_pos rfl, if_neg (by omega), if_pos (by omega), UInt8.zero_xor]
    · rw [if_neg (by omega), if_neg (by omega), if_neg (by omega)]

theorem byteAt_ofBytes (bytes : ℕ → UInt8) (hk : k < 8) : byteAt (ofBytes bytes) k = bytes k := by
  rw [ofBytes, byteAt_foldl bytes hk 8 le_rfl, if_pos hk]

theorem ofBytes_byteAt {bytes : ℕ → UInt8} (hbytes : ∀ k < 8, bytes k = byteAt lane k) :
    ofBytes bytes = lane := by
  apply eq_of_byteAt
  intro k hk
  rw [byteAt_ofBytes bytes hk, hbytes k hk]

end ByteLane
