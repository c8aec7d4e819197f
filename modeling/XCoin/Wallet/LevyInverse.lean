import XCoin.Validation.LevySchedule
import XCoin.Wallet.LevyFee

/-!
# The least fee that covers its own levy

A spender who lets the rest of the inputs go to outputs pays a fee `f` on outputs of
`valueIn - f`.  `SettlementLevyFromInputs` computes the least such fee in closed form.
The condition on `f` is linear after the rounding is cleared: `f` covers the rounded
levy exactly if `valueIn * bp ≤ f * (10000 + bp)`, or if it reaches the cap.

The `64` versions form every intermediate value in signed 64-bit arithmetic, in the
order of the source, and fail where one does not fit.
-/

namespace XCoin.Wallet

open Consensus Validation Except CeilSplit

/-! ## The arithmetic in 64 bits -/

/-- A signed 64-bit intermediate value. -/
def int64 (x : ℤ) : Except Failure ℤ := if Int64Range x then .ok x else .error .overflow

theorem int64_of_range {x : ℤ} (hlow : 0 ≤ x) (hhigh : x ≤ 2 * maxMoney) : int64 x = .ok x := by
  have hmax := maxMoney_eq
  rw [int64, if_pos]
  unfold Int64Range
  constructor <;> omega

/-- `whole * levy_bp + (rest * levy_bp + d - 1) / d`, which both levy functions return. -/
def splitCeil64 (value levyBp d : ℤ) : Except Failure ℤ := do
  let proportional ← int64 (value.tdiv d * levyBp)
  let product ← int64 (value.tmod d * levyBp)
  let raised ← int64 (product + d)
  let numerator ← int64 (raised - 1)
  int64 (proportional + numerator.tdiv d)

/-- `SettlementLevyUncapped`. -/
def settlementLevyUncapped64 (valueOut levyBp : ℤ) : Except Failure ℤ :=
  if levyBp ≤ 0 ∨ valueOut ≤ 0 then .ok 0 else splitCeil64 valueOut levyBp levyDenominator

/-- `SettlementLevy`. -/
def settlementLevy64 (valueOut : ℤ) (rule : SettlementLevyRule) : Except Failure ℤ := do
  let uncapped ← settlementLevyUncapped64 valueOut rule.bp
  .ok (min uncapped rule.capSat)

/-- `SettlementLevyFromInputs`. -/
def settlementLevyFromInputs64 (valueIn : ℤ) (rule : SettlementLevyRule) : Except Failure ℤ :=
  if rule.bp ≤ 0 ∨ valueIn ≤ 0 then .ok 0
  else do
    let d ← int64 (levyDenominator + rule.bp)
    let fee ← splitCeil64 valueIn rule.bp d
    .ok (min fee rule.capSat)

section

variable {value bp d : ℤ}

/-- No intermediate value is larger than the amount or the square of the denominator. -/
theorem splitCeil64_eq (hvalue : 0 ≤ value) (hmoney : value ≤ maxMoney) (hbp : 0 ≤ bp)
    (hrate : bp ≤ d) (hd : 0 < d) (hbound : d ≤ 20000) :
    splitCeil64 value bp d = .ok (value / d * bp + (value % d * bp + d - 1) / d) := by
  have hmax := maxMoney_eq
  have hwhole : 0 ≤ value / d := Int.ediv_nonneg hvalue hd.le
  have hrest : 0 ≤ value % d := Int.emod_nonneg value hd.ne'
  have hrest' : value % d < d := Int.emod_lt_of_pos value hd
  have hproportional : value / d * bp ≤ maxMoney :=
    calc value / d * bp
        ≤ value / d * d := mul_le_mul_of_nonneg_left hrate hwhole
      _ ≤ value := Int.ediv_mul_le value hd.ne'
      _ ≤ maxMoney := hmoney
  have hproduct : value % d * bp ≤ 20000 * 20000 :=
    mul_le_mul (by omega) (by omega) hbp (by decide)
  have hproportional' : 0 ≤ value / d * bp := mul_nonneg hwhole hbp
  have hproduct' : 0 ≤ value % d * bp := mul_nonneg hrest hbp
  have hquotient : 0 ≤ (value % d * bp + d - 1) / d := Int.ediv_nonneg (by omega) hd.le
  have hquotient' : (value % d * bp + d - 1) / d ≤ value % d * bp + d - 1 :=
    Int.ediv_le_self _ (by omega)
  rw [splitCeil64, Int.tdiv_eq_ediv_of_nonneg hvalue, Int.tmod_eq_emod_of_nonneg hvalue,
    int64_of_range hproportional' (by omega), ok_bind, int64_of_range hproduct' (by omega), ok_bind,
    int64_of_range (by omega) (by omega), ok_bind, int64_of_range (by omega) (by omega), ok_bind,
    Int.tdiv_eq_ediv_of_nonneg (by omega), int64_of_range (by omega) (by omega)]

theorem settlementLevy64_eq {rule : SettlementLevyRule} (hvalue : 0 ≤ value)
    (hmoney : value ≤ maxMoney) (hbp : 0 ≤ rule.bp) (hbp' : rule.bp ≤ 10000) :
    settlementLevy64 value rule = .ok (settlementLevy value rule) := by
  have huncapped : settlementLevyUncapped64 value rule.bp =
      .ok (settlementLevyUncapped value rule.bp) := by
    unfold settlementLevyUncapped64 settlementLevyUncapped
    split_ifs
    · rfl
    · exact splitCeil64_eq hvalue hmoney hbp hbp' (by decide) (by decide)
  rw [settlementLevy64, huncapped, ok_bind, settlementLevy]

theorem settlementLevyFromInputs64_eq {rule : SettlementLevyRule} (hvalue : 0 ≤ value)
    (hmoney : value ≤ maxMoney) (hbp : 0 ≤ rule.bp) (hbp' : rule.bp ≤ 10000) :
    settlementLevyFromInputs64 value rule =
      .ok (SpendContext.settlementLevyFromInputs value rule) := by
  have hdenominator : levyDenominator = 10000 := rfl
  have hmax := maxMoney_eq
  unfold settlementLevyFromInputs64 SpendContext.settlementLevyFromInputs
  split_ifs
  · rfl
  · rw [int64_of_range (by omega) (by omega), ok_bind,
      splitCeil64_eq hvalue hmoney hbp (by omega) (by omega) (by omega), ok_bind]

end

/-! ## The least fee -/

section

variable {valueIn fee : ℤ} {rule : SettlementLevyRule}

theorem fromInputs_nonneg (hvalue : 0 ≤ valueIn) (hbp : 0 ≤ rule.bp) (hcap : 0 ≤ rule.capSat) :
    0 ≤ SpendContext.settlementLevyFromInputs valueIn rule := by
  have hd : 0 < levyDenominator + rule.bp := by
    have hdenominator : 0 < levyDenominator := by decide
    omega
  unfold SpendContext.settlementLevyFromInputs
  split_ifs
  · exact le_rfl
  · apply le_min
    · apply add_nonneg
      · exact mul_nonneg (Int.ediv_nonneg hvalue hd.le) hbp
      · apply Int.ediv_nonneg _ hd.le
        have hproduct := mul_nonneg (Int.emod_nonneg valueIn hd.ne') hbp
        omega
    · exact hcap

theorem fromInputs_le_valueIn (hvalue : 0 ≤ valueIn) :
    SpendContext.settlementLevyFromInputs valueIn rule ≤ valueIn := by
  have hdenominator : 0 < levyDenominator := by decide
  unfold SpendContext.settlementLevyFromInputs
  split_ifs with hnone
  · exact hvalue
  · apply (min_le_left _ _).trans
    rw [split_ceil_le_iff (by omega)]
    exact mul_le_mul_of_nonneg_left (by omega) hvalue

theorem fromInputs_le_of_covers (hbp : 0 ≤ rule.bp) (hnonneg : 0 ≤ fee) (hle : fee ≤ valueIn)
    (hcovers : settlementLevy (valueIn - fee) rule ≤ fee) :
    SpendContext.settlementLevyFromInputs valueIn rule ≤ fee := by
  have hdenominator : 0 < levyDenominator := by decide
  unfold SpendContext.settlementLevyFromInputs
  split_ifs with hnone
  · exact hnonneg
  · rcases min_le_iff.mp hcovers with hlevy | hcap
    · -- the levy is below its cap: clear the roundings
      apply (min_le_left _ _).trans
      rw [settlementLevyUncapped_le_iff (by omega) hbp] at hlevy
      rw [split_ceil_le_iff (by omega)]
      linarith
    · exact (min_le_right _ _).trans hcap

end

/-- **The inverse of the levy.** `SettlementLevyFromInputs` is the least fee that covers the levy on
what it leaves, the levy is the rounded and capped product, and both are computed without
overflow. -/
theorem settlementLevyFromInputs_isLeast (v : ℤ) (rule : SettlementLevyRule) (hv : 0 ≤ v)
    (hmoney : v ≤ maxMoney) (hbp : 0 ≤ rule.bp) (hbp' : rule.bp ≤ 10000) (hcap : 0 ≤ rule.capSat) :
    IsLeast {f | 0 ≤ f ∧ f ≤ v ∧ settlementLevy (v - f) rule ≤ f}
        (SpendContext.settlementLevyFromInputs v rule) ∧
      settlementLevyFromInputs64 v rule = .ok (SpendContext.settlementLevyFromInputs v rule) ∧
      ∀ x : ℤ, 0 ≤ x → x ≤ maxMoney →
        settlementLevy x rule = min rule.capSat ⌈(x * rule.bp : ℚ) / 10000⌉ ∧
          settlementLevy64 x rule = .ok (settlementLevy x rule) := by
  refine ⟨⟨⟨?_, ?_, ?_⟩, ?_⟩, settlementLevyFromInputs64_eq hv hmoney hbp hbp', ?_⟩
  · exact fromInputs_nonneg hv hbp hcap
  · exact fromInputs_le_valueIn hv
  · exact settlementLevy_le_of_fromInputs (fromInputs_nonneg hv hbp hcap) le_rfl
  · rintro fee ⟨hnonneg, hle, hcovers⟩
    exact fromInputs_le_of_covers hbp hnonneg hle hcovers
  · intro x hx hx'
    refine ⟨?_, settlementLevy64_eq hx hx' hbp hbp'⟩
    rw [settlementLevy, settlementLevyUncapped_eq_ceil hx hbp, min_comm]

theorem referenceRule_isLeast :
    IsLeast {f | 0 ≤ f ∧ f ≤ 10005 ∧ settlementLevy (10005 - f) ⟨0, 5, 10000⟩ ≤ f} 5 :=
  (settlementLevyFromInputs_isLeast 10005 ⟨0, 5, 10000⟩ (by decide) (by decide) (by decide)
    (by decide) (by decide)).1

end XCoin.Wallet
