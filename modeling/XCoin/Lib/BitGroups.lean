import Mathlib

/-!
# Numbers as groups of bits

A list of numbers below `2 ^ w` is a string of bits, `w` for each number and the highest
first.  Regrouping the bits of a list into groups of another width is then a statement
about one string of bits read in two ways, and a list of groups is decided by its bits.
-/

namespace BitGroups

/-- The lowest `w` bits of `v`, the highest first. -/
def bitsOf : ℕ → ℕ → List Bool
  | 0, _ => []
  | w + 1, v => v.testBit w :: bitsOf w v

/-- The bits of a list of groups of width `w`. -/
def flat (w : ℕ) (groups : List ℕ) : List Bool := groups.flatMap (bitsOf w)

variable {w a b : ℕ} {groups others : List ℕ}

@[simp] theorem length_bitsOf (w v : ℕ) : (bitsOf w v).length = w := by
  induction w with
  | zero => rfl
  | succ w ih => simp [bitsOf, ih]

theorem bitsOf_eq_iff : bitsOf w a = bitsOf w b ↔ ∀ i < w, a.testBit i = b.testBit i := by
  induction w with
  | zero => simp [bitsOf]
  | succ w ih =>
    rw [bitsOf, bitsOf, List.cons.injEq, ih]
    constructor
    · rintro ⟨htop, hrest⟩ i hi
      rcases Nat.lt_succ_iff_lt_or_eq.mp hi with hlt | rfl
      · exact hrest i hlt
      · exact htop
    · intro h
      exact ⟨h w (Nat.lt_succ_self w), fun i hi => h i (hi.trans (Nat.lt_succ_self w))⟩

theorem eq_of_bitsOf_eq (ha : a < 2 ^ w) (hb : b < 2 ^ w) (h : bitsOf w a = bitsOf w b) :
    a = b := by
  apply Nat.eq_of_testBit_eq
  intro i
  rcases Nat.lt_or_ge i w with hi | hi
  · exact bitsOf_eq_iff.mp h i hi
  · have hpow : 2 ^ w ≤ 2 ^ i := Nat.pow_le_pow_right (by decide) hi
    rw [Nat.testBit_lt_two_pow (ha.trans_le hpow), Nat.testBit_lt_two_pow (hb.trans_le hpow)]

theorem bitsOf_add (m n v : ℕ) : bitsOf (m + n) v = bitsOf m (v >>> n) ++ bitsOf n v := by
  induction m with
  | zero => simp [bitsOf]
  | succ m ih =>
    rw [Nat.succ_add, bitsOf, ih, bitsOf, Nat.testBit_shiftRight, Nat.add_comm n m]
    rfl

theorem bitsOf_zero (w : ℕ) : bitsOf w 0 = List.replicate w false := by
  induction w with
  | zero => rfl
  | succ w ih => rw [bitsOf, ih, Nat.zero_testBit, List.replicate_succ]

theorem bitsOf_mask {m : ℕ} (h : w ≤ m) (v : ℕ) :
    bitsOf w (v &&& ((1 <<< m) - 1)) = bitsOf w v := by
  rw [bitsOf_eq_iff]
  intro i hi
  rw [Nat.one_shiftLeft, Nat.testBit_and, Nat.testBit_two_pow_sub_one,
    decide_eq_true (hi.trans_le h), Bool.and_true]

theorem mask_lt (v m : ℕ) : v &&& ((1 <<< m) - 1) < 2 ^ m := by
  rw [Nat.one_shiftLeft, Nat.and_two_pow_sub_one_eq_mod]
  exact Nat.mod_lt _ (Nat.two_pow_pos m)

theorem bitsOf_shiftLeft_or (m : ℕ) (ha : b < 2 ^ w) :
    bitsOf (m + w) ((a <<< w) ||| b) = bitsOf m a ++ bitsOf w b := by
  rw [bitsOf_add]
  congr 1
  · rw [bitsOf_eq_iff]
    intro i _
    rw [Nat.testBit_shiftRight, Nat.testBit_or, Nat.testBit_shiftLeft,
      Nat.testBit_lt_two_pow (ha.trans_le (Nat.pow_le_pow_right (by decide) (Nat.le_add_right w i)))]
    simp
  · rw [bitsOf_eq_iff]
    intro i hi
    rw [Nat.testBit_or, Nat.testBit_shiftLeft]
    simp [Nat.not_le.mpr hi]

/-- Into the zeros that a shift leaves, exclusive or writes like or. -/
theorem shiftLeft_xor_eq_or (hb : b < 2 ^ w) : (a <<< w) ^^^ b = (a <<< w) ||| b := by
  apply Nat.eq_of_testBit_eq
  intro i
  rw [Nat.testBit_xor, Nat.testBit_or, Nat.testBit_shiftLeft]
  rcases Nat.lt_or_ge i w with hi | hi
  · simp [Nat.not_le.mpr hi]
  · rw [Nat.testBit_lt_two_pow (hb.trans_le (Nat.pow_le_pow_right (by decide) hi))]
    simp

theorem bitsOf_shiftLeft (m v : ℕ) :
    bitsOf (m + w) (v <<< w) = bitsOf m v ++ List.replicate w false := by
  have h := bitsOf_shiftLeft_or (a := v) m (Nat.two_pow_pos w)
  rwa [Nat.or_zero, bitsOf_zero] at h

@[simp] theorem flat_nil : flat w [] = [] := rfl

@[simp] theorem flat_cons (v : ℕ) : flat w (v :: groups) = bitsOf w v ++ flat w groups := rfl

@[simp] theorem flat_append : flat w (groups ++ others) = flat w groups ++ flat w others :=
  List.flatMap_append

@[simp] theorem length_flat : (flat w groups).length = w * groups.length := by
  induction groups with
  | nil => rfl
  | cons v groups ih =>
    rw [flat_cons, List.length_append, ih, length_bitsOf, List.length_cons]
    ring

theorem length_eq_of_mul_add_eq {j k m n : ℕ} (hj : j < w) (hk : k < w)
    (h : w * m + j = w * n + k) : m = n := by
  have hpos : 0 < w := Nat.zero_lt_of_lt hj
  have hquotient := congrArg (· / w) h
  simpa only [Nat.mul_add_div hpos, Nat.div_eq_of_lt hj, Nat.div_eq_of_lt hk, Nat.add_zero]
    using hquotient

/-- **Groups from bits.**  Equally many groups with the same bits are the same groups. -/
theorem eq_of_flat_eq :
    ∀ {groups others : List ℕ}, groups.length = others.length → (∀ v ∈ groups, v < 2 ^ w) →
      (∀ v ∈ others, v < 2 ^ w) → flat w groups = flat w others → groups = others := by
  intro groups
  induction groups with
  | nil =>
    intro others hlength _ _ _
    exact (List.length_eq_zero_iff.mp hlength.symm).symm
  | cons v groups ih =>
    intro others hlength hlt hlt' hflat
    cases others with
    | nil => simp at hlength
    | cons v' others =>
      rw [flat_cons, flat_cons] at hflat
      obtain ⟨hfirst, hrest⟩ := List.append_inj hflat (by simp)
      rw [eq_of_bitsOf_eq (hlt v List.mem_cons_self) (hlt' v' List.mem_cons_self) hfirst,
        ih (Nat.succ.inj hlength) (fun u hu => hlt u (List.mem_cons_of_mem _ hu))
          (fun u hu => hlt' u (List.mem_cons_of_mem _ hu)) hrest]

/-- Whole groups and less than a group: the two parts of a string are determined. -/
theorem eq_of_flat_append_eq {rest rest' : List Bool} (hgroups : ∀ v ∈ groups, v < 2 ^ w)
    (hothers : ∀ v ∈ others, v < 2 ^ w) (hrest : rest.length < w) (hrest' : rest'.length < w)
    (h : flat w groups ++ rest = flat w others ++ rest') : groups = others ∧ rest = rest' := by
  have hlengths := congrArg List.length h
  rw [List.length_append, List.length_append, length_flat, length_flat] at hlengths
  have hcount := length_eq_of_mul_add_eq hrest hrest' hlengths
  obtain ⟨hflat, heq⟩ := List.append_inj h (by rw [length_flat, length_flat, hcount])
  exact ⟨eq_of_flat_eq hcount hgroups hothers hflat, heq⟩

/-- A string is filled up to whole groups in one way only, if less than a group is added. -/
theorem eq_of_flat_eq_filled {string : List Bool} {j k : ℕ} (hgroups : ∀ v ∈ groups, v < 2 ^ w)
    (hothers : ∀ v ∈ others, v < 2 ^ w) (hj : j < w) (hk : k < w)
    (h : flat w groups = string ++ List.replicate j false)
    (h' : flat w others = string ++ List.replicate k false) : groups = others := by
  have hlength := congrArg List.length h
  have hlength' := congrArg List.length h'
  rw [List.length_append, length_flat, List.length_replicate] at hlength hlength'
  have hcount := length_eq_of_mul_add_eq hk hj (m := groups.length) (n := others.length) (by omega)
  have hzeros : j = k := by
    rw [hcount] at hlength
    omega
  exact eq_of_flat_eq hcount hgroups hothers (by rw [h, h', hzeros])

end BitGroups
