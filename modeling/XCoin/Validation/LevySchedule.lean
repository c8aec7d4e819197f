import XCoin.Lib.CeilSplit
import XCoin.Validation.TxVerify

/-!
# A levy schedule only ever rises

`SettlementLevyScheduleIsSoftForkOnly` accepts a schedule whose rows rise in height and
never fall in rate or cap.  The rule in force at a height is the last row that has
started, so a later height has a rule that is at least as strict (`AtMost`), and the
levy follows the rule and the amount.
-/

namespace XCoin.Validation

open Consensus CeilSplit

/-- `SETTLEMENT_LEVY_BP_MAX`. -/
def settlementLevyBpMax : ℤ := 10000

/-- The loop of `SettlementLevyScheduleIsSoftForkOnly` after a row. -/
def softForkOnlyLoop : Option SettlementLevyRule → List SettlementLevyRule → Bool
  | _, [] => true
  | prev, r :: rules =>
    if r.bp < 0 ∨ settlementLevyBpMax < r.bp ∨ r.capSat < 0 then false
    else
      match prev with
      | none => softForkOnlyLoop (some r) rules
      | some prev =>
        if r.startHeight ≤ prev.startHeight ∨ r.bp < prev.bp ∨ r.capSat < prev.capSat then false
        else softForkOnlyLoop (some r) rules

/-- `SettlementLevyScheduleIsSoftForkOnly`. -/
def settlementLevyScheduleIsSoftForkOnly (schedule : List SettlementLevyRule) : Bool :=
  match schedule with
  | [] => false
  | first :: _ => if first.startHeight ≠ 0 then false else softForkOnlyLoop none schedule

/-! ## The levy of a rule -/

/-- The other rule asks for at least as much. -/
structure AtMost (rule other : SettlementLevyRule) : Prop where
  bp_nonneg : 0 ≤ rule.bp
  bp_le : rule.bp ≤ other.bp
  capSat_le : rule.capSat ≤ other.capSat

theorem AtMost.refl {rule : SettlementLevyRule} (hbp : 0 ≤ rule.bp) : AtMost rule rule :=
  ⟨hbp, le_refl _, le_refl _⟩

theorem AtMost.trans {rule other third : SettlementLevyRule} (h : AtMost rule other)
    (h' : AtMost other third) : AtMost rule third :=
  ⟨h.bp_nonneg, h.bp_le.trans h'.bp_le, h.capSat_le.trans h'.capSat_le⟩

theorem settlementLevyUncapped_le_iff {value bp fee : ℤ} (hvalue : 0 ≤ value) (hbp : 0 ≤ bp) :
    settlementLevyUncapped value bp ≤ fee ↔ value * bp ≤ fee * levyDenominator := by
  have hdenominator : 0 < levyDenominator := by decide
  unfold settlementLevyUncapped
  split_ifs with hzero
  · -- one of the factors is zero
    have hproduct : value * bp = 0 := by
      rcases hzero with hbp' | hvalue'
      · rw [le_antisymm hbp' hbp, mul_zero]
      · rw [le_antisymm hvalue' hvalue, zero_mul]
    rw [hproduct]
    exact (mul_nonneg_iff_of_pos_right hdenominator).symm
  · exact split_ceil_le_iff hdenominator

theorem settlementLevyUncapped_eq_ceil {value bp : ℤ} (hvalue : 0 ≤ value) (hbp : 0 ≤ bp) :
    settlementLevyUncapped value bp = ⌈(value * bp : ℚ) / 10000⌉ := by
  have hpositive : (0 : ℚ) < 10000 := by norm_num
  apply eq_of_forall_ge_iff
  intro fee
  rw [settlementLevyUncapped_le_iff hvalue hbp, Int.ceil_le, div_le_iff₀ hpositive]
  exact_mod_cast Iff.rfl

theorem settlementLevy_mono {rule other : SettlementLevyRule} {value value' : ℤ}
    (hrule : AtMost rule other) (hvalue : 0 ≤ value) (hle : value ≤ value') :
    settlementLevy value rule ≤ settlementLevy value' other := by
  have hbp' : 0 ≤ other.bp := hrule.bp_nonneg.trans hrule.bp_le
  apply min_le_min
  · rw [settlementLevyUncapped_le_iff hvalue hrule.bp_nonneg]
    calc value * rule.bp
        ≤ value' * other.bp := mul_le_mul hle hrule.bp_le hrule.bp_nonneg (hvalue.trans hle)
      _ ≤ settlementLevyUncapped value' other.bp * levyDenominator :=
          (settlementLevyUncapped_le_iff (hvalue.trans hle) hbp').mp le_rfl
  · exact hrule.capSat_le

/-! ## The rule in force -/

theorem atMost_of_softForkOnlyLoop {prev r : SettlementLevyRule} {rules : List SettlementLevyRule}
    (hbp : 0 ≤ prev.bp) (haccepted : softForkOnlyLoop (some prev) (r :: rules) = true) :
    AtMost prev r ∧ softForkOnlyLoop (some r) rules = true := by
  unfold softForkOnlyLoop at haccepted
  split_ifs at haccepted with hrange
  dsimp only at haccepted
  split_ifs at haccepted with hfalls
  exact ⟨⟨hbp, by omega, by omega⟩, haccepted⟩

theorem atMost_settlementLevyAtLoop (height : ℤ) :
    ∀ (rules : List SettlementLevyRule) {prev : SettlementLevyRule}, 0 ≤ prev.bp →
      softForkOnlyLoop (some prev) rules = true →
        AtMost prev (settlementLevyAtLoop height rules prev) := by
  intro rules
  induction rules with
  | nil =>
    intro prev hbp _
    exact .refl hbp
  | cons r rules ih =>
    intro prev hbp haccepted
    obtain ⟨hrow, hrest⟩ := atMost_of_softForkOnlyLoop hbp haccepted
    unfold settlementLevyAtLoop
    split_ifs with hstart
    · exact .refl hbp
    · exact hrow.trans (ih (hbp.trans hrow.bp_le) hrest)

/-- **A later rule is stricter**, over the rest of a schedule. -/
theorem settlementLevyAtLoop_mono {height height' : ℤ} (hheight : height ≤ height') :
    ∀ (rules : List SettlementLevyRule) {prev : SettlementLevyRule}, 0 ≤ prev.bp →
      softForkOnlyLoop (some prev) rules = true →
        AtMost (settlementLevyAtLoop height rules prev)
          (settlementLevyAtLoop height' rules prev) := by
  intro rules
  induction rules with
  | nil =>
    intro prev hbp _
    exact .refl hbp
  | cons r rules ih =>
    intro prev hbp haccepted
    have hlater := atMost_settlementLevyAtLoop height' (r :: rules) hbp haccepted
    obtain ⟨hrow, hrest⟩ := atMost_of_softForkOnlyLoop hbp haccepted
    by_cases hstart : r.startHeight > height
    · -- the row has not started at the lower height
      rw [settlementLevyAtLoop, if_pos hstart]
      exact hlater
    · have hstart' : ¬r.startHeight > height' := by omega
      rw [settlementLevyAtLoop, if_neg hstart, settlementLevyAtLoop, if_neg hstart']
      exact ih (hbp.trans hrow.bp_le) hrest

theorem settlementLevyAt_mono {params : Params} {height height' : ℤ}
    (haccepted : settlementLevyScheduleIsSoftForkOnly params.settlementLevySchedule = true)
    (hheight : height ≤ height') :
    AtMost (params.settlementLevyAt height) (params.settlementLevyAt height') := by
  unfold Params.settlementLevyAt
  cases hschedule : params.settlementLevySchedule with
  | nil => exact .refl le_rfl
  | cons first rules =>
    rw [hschedule, settlementLevyScheduleIsSoftForkOnly] at haccepted
    split_ifs at haccepted with hfirst
    unfold softForkOnlyLoop at haccepted
    split_ifs at haccepted with hrange
    have hgenesis : AtMost ⟨0, 0, 0⟩ first :=
      ⟨le_rfl, show 0 ≤ first.bp by omega, show 0 ≤ first.capSat by omega⟩
    by_cases hstart : first.startHeight > height
    · -- before the first row there is no levy
      rw [settlementLevyAtLoop, if_pos hstart]
      unfold settlementLevyAtLoop
      split_ifs
      · exact .refl le_rfl
      · exact hgenesis.trans (atMost_settlementLevyAtLoop height' rules (by omega) haccepted)
    · have hstart' : ¬first.startHeight > height' := by omega
      rw [settlementLevyAtLoop, if_neg hstart, settlementLevyAtLoop, if_neg hstart']
      exact settlementLevyAtLoop_mono hheight rules (by omega) haccepted

/-- **Levies only rise.** Under an accepted schedule a later height and larger outputs owe at
least as much, and a transaction that pays its levy at a height would have paid it at every
earlier one. -/
theorem settlementLevy_rises (params : Params)
    (haccepted : settlementLevyScheduleIsSoftForkOnly params.settlementLevySchedule = true)
    (h1 h2 : ℤ) (hheight : h1 ≤ h2) :
    (∀ v1 v2 : ℤ, 0 ≤ v1 → v1 ≤ v2 → v2 ≤ maxMoney →
      settlementLevy v1 (params.settlementLevyAt h1) ≤
        settlementLevy v2 (params.settlementLevyAt h2)) ∧
      ∀ (tx : Transaction) (txfee : ℤ), tx.isCoinBase = false →
        checkSettlementLevy tx txfee (params.settlementLevyAt h2) = .ok () →
          checkSettlementLevy tx txfee (params.settlementLevyAt h1) = .ok () := by
  have hrule := settlementLevyAt_mono haccepted hheight
  refine ⟨fun v1 v2 hv1 hle _ => settlementLevy_mono hrule hv1 hle, ?_⟩
  intro tx txfee hcoinbase hpasses
  rw [checkSettlementLevy, hcoinbase, if_neg Bool.false_ne_true] at hpasses ⊢
  obtain ⟨valueOut, hvalue, hpasses⟩ := bind_eq_ok.mp hpasses
  have hnonneg : 0 ≤ valueOut := getValueOut_nonneg hvalue
  have hlevy := settlementLevy_mono hrule hnonneg (le_refl valueOut)
  split_ifs at hpasses with hless
  · exact absurd hpasses (txInvalid_ne_ok _ _)
  · apply bind_eq_ok.mpr
    exact ⟨valueOut, hvalue, if_neg (by omega)⟩

/-- A levy from height 100 on, and a higher one from height 200 on. -/
def risingParams : Params :=
  { mainParams with
    settlementLevySchedule := [⟨0, 0, 0⟩, ⟨100, 5, 10000⟩, ⟨200, 8, 20000⟩] }

theorem risingParams_rises :
    settlementLevy 5000 (risingParams.settlementLevyAt 150) ≤
      settlementLevy 7000 (risingParams.settlementLevyAt 250) :=
  (settlementLevy_rises risingParams (by decide) 150 250 (by decide)).1 5000 7000 (by decide)
    (by decide) (by decide)

end XCoin.Validation
