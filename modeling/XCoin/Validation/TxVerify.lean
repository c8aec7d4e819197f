import XCoin.Validation.Coins

/-!
# Transaction checks against the coins view

`Consensus::CheckTxInputs` and the settlement levy.  The fee that
`CheckTxInputs` returns is the exact difference between the value spent and the
value paid out (`checkTxInputs_ok`).
-/

namespace XCoin.Validation

open Consensus

/-- The input loop of `CheckTxInputs`. -/
def sumInputs (inputs : CoinsView) (nSpendHeight coinbaseMaturity : ℤ) :
    List TxIn → ℤ → Except Failure ℤ
  | [], nValueIn => .ok nValueIn
  | txin :: rest, nValueIn =>
    match inputs.lookup txin.prevout with
    | none => .error (.exception .assertInputUnspent)
    | some coin =>
      if coin.fCoinBase ∧ nSpendHeight - coin.nHeight < coinbaseMaturity then
        .error (.invalid .txPrematureSpend .badTxnsPrematureSpendOfCoinbase)
      else do
        let nValueIn ← addAmount nValueIn coin.out.nValue
        if !moneyRange coin.out.nValue || !moneyRange nValueIn then
          txInvalid .badTxnsInputvaluesOutofrange
        else sumInputs inputs nSpendHeight coinbaseMaturity rest nValueIn

/-- `CheckTxInputs`; the result is the fee. -/
def checkTxInputs (tx : Transaction) (inputs : CoinsView) (nSpendHeight coinbaseMaturity : ℤ) :
    Except Failure ℤ :=
  if !haveInputs inputs tx then
    .error (.invalid .txMissingInputs .badTxnsInputsMissingorspent)
  else do
    let nValueIn ← sumInputs inputs nSpendHeight coinbaseMaturity tx.vin 0
    let valueOut ← getValueOut tx
    if nValueIn < valueOut then txInvalid .badTxnsInBelowout
    else do
      let txfee ← addAmount nValueIn (-valueOut)
      if !moneyRange txfee then txInvalid .badTxnsFeeOutofrange else .ok txfee

/-! ## Lock time -/

/-- `IsFinalTx`: the lock time has passed, or no input asks for it. -/
def isFinalTx (tx : Transaction) (nBlockHeight nBlockTime : ℤ) : Bool :=
  if tx.nLockTime = 0 then true
  else if (tx.nLockTime.toNat : ℤ) <
      (if tx.nLockTime.toNat < Script.locktimeThreshold then nBlockHeight else nBlockTime) then true
  else tx.vin.all fun txin => txin.nSequence == 0xffffffff

/-! ## The settlement levy -/

/-- `LEVY_DENOMINATOR`. -/
def levyDenominator : ℤ := 10000

/-- `ceil(value_out * levy_bp / 10,000)`, split at the denominator. -/
def settlementLevyUncapped (valueOut levyBp : ℤ) : ℤ :=
  if levyBp ≤ 0 ∨ valueOut ≤ 0 then 0
  else
    valueOut / levyDenominator * levyBp +
      (valueOut % levyDenominator * levyBp + levyDenominator - 1) / levyDenominator

/-- `SettlementLevy`. -/
def settlementLevy (valueOut : ℤ) (rule : SettlementLevyRule) : ℤ :=
  min (settlementLevyUncapped valueOut rule.bp) rule.capSat

/-- `CheckSettlementLevy`. -/
def checkSettlementLevy (tx : Transaction) (txfee : ℤ) (rule : SettlementLevyRule) :
    Except Failure Unit :=
  if tx.isCoinBase then .ok ()
  else do
    let valueOut ← getValueOut tx
    if txfee < settlementLevy valueOut rule then txInvalid .badTxnsLevy else .ok ()

/-! ## What passing means -/

section

variable {inputs : CoinsView} {nSpendHeight coinbaseMaturity : ℤ} {tx : Transaction}

theorem sumInputs_ok {vin : List TxIn} {start total : ℤ} (hrange : CoinsInRange inputs)
    (hstart : 0 ≤ start) (hbound : start ≤ maxMoney)
    (h : sumInputs inputs nSpendHeight coinbaseMaturity vin start = .ok total) :
    total = start + inputValue inputs vin ∧ 0 ≤ total ∧ total ≤ maxMoney := by
  induction vin generalizing start with
  | nil =>
    obtain rfl := Except.ok.inj h
    exact ⟨by simp [inputValue], hstart, hbound⟩
  | cons txin rest ih =>
    unfold sumInputs at h
    split at h
    · cases h
    next coin hcoin =>
      obtain ⟨hlow, hhigh⟩ := hrange _ _ hcoin
      split_ifs at h with hmature
      obtain ⟨sum, hadd, h⟩ := bind_eq_ok.mp h
      rw [addAmount_of_le hstart (by omega) hlow (by omega)] at hadd
      obtain rfl := Except.ok.inj hadd
      split_ifs at h with hsum
      · exact absurd h (txInvalid_ne_ok _ _)
      have hsum : start + coin.out.nValue ≤ maxMoney := by
        simp only [Bool.or_eq_true, Bool.not_eq_true', not_or, Bool.not_eq_false,
          moneyRange_iff] at hsum
        exact hsum.2.2
      obtain ⟨htotal, hbounds⟩ := ih (by omega) hsum h
      refine ⟨?_, hbounds⟩
      have hvalue : inputValue inputs (txin :: rest) =
          coin.out.nValue + inputValue inputs rest := by
        simp [inputValue, hcoin]
      omega

theorem sumInputs_noOverflow {vin : List TxIn} {start : ℤ} (hrange : CoinsInRange inputs)
    (hstart : 0 ≤ start) (hbound : start ≤ maxMoney) :
    NoOverflow (sumInputs inputs nSpendHeight coinbaseMaturity vin start) := by
  induction vin generalizing start with
  | nil => exact noOverflow_ok _
  | cons txin rest ih =>
    unfold sumInputs
    split
    · exact noOverflow_exception _
    next coin hcoin =>
      obtain ⟨hlow, hhigh⟩ := hrange _ _ hcoin
      split_ifs with hmature
      · exact noOverflow_invalid _ _
      have hadd := addAmount_of_le (b := coin.out.nValue) hstart (by omega) hlow (by omega)
      refine NoOverflow.bind (by rw [hadd]; exact noOverflow_ok _) fun sum hsum => ?_
      obtain rfl := Except.ok.inj (hadd.symm.trans hsum)
      split_ifs with hmoney
      · exact noOverflow_txInvalid _
      · simp only [Bool.or_eq_true, Bool.not_eq_true', not_or, Bool.not_eq_false,
          moneyRange_iff] at hmoney
        exact ih (by omega) hmoney.2.2

/-- **The fee is exact.**  When `CheckTxInputs` passes, all inputs are in the view
and the fee is what they are worth less what the transaction pays out. -/
theorem checkTxInputs_ok {txfee : ℤ} (hrange : CoinsInRange inputs) (hout : OutputsInRange tx.vout)
    (h : checkTxInputs tx inputs nSpendHeight coinbaseMaturity = .ok txfee) :
    haveInputs inputs tx = true ∧ txfee = inputValue inputs tx.vin - outputValue tx.vout ∧
      0 ≤ txfee ∧ txfee ≤ maxMoney := by
  unfold checkTxInputs at h
  split_ifs at h with hhave
  obtain ⟨nValueIn, hsum, h⟩ := bind_eq_ok.mp h
  obtain ⟨valueOut, hvalueOut, h⟩ := bind_eq_ok.mp h
  obtain rfl := Except.ok.inj (hout.getValueOut_eq.symm.trans hvalueOut)
  split_ifs at h with hbelow
  · exact absurd h (txInvalid_ne_ok _ _)
  obtain ⟨fee, hadd, h⟩ := bind_eq_ok.mp h
  obtain ⟨htotal, hlow, hhigh⟩ := sumInputs_ok hrange le_rfl (by decide) hsum
  split_ifs at h with hmoney
  · exact absurd h (txInvalid_ne_ok _ _)
  obtain rfl := Except.ok.inj h
  have hfee : nValueIn + -outputValue tx.vout = fee := by
    unfold addAmount at hadd
    split_ifs at hadd
    exact Except.ok.inj hadd
  have hmoney : 0 ≤ fee ∧ fee ≤ maxMoney := by simpa using hmoney
  exact ⟨by simpa using hhave, by omega, hmoney⟩

theorem checkTxInputs_noOverflow (hrange : CoinsInRange inputs) (hout : OutputsInRange tx.vout) :
    NoOverflow (checkTxInputs tx inputs nSpendHeight coinbaseMaturity) := by
  unfold checkTxInputs
  split_ifs with hhave
  · exact noOverflow_invalid _ _
  refine (sumInputs_noOverflow hrange le_rfl (by decide)).bind fun nValueIn hsum => ?_
  obtain ⟨-, hlow, hhigh⟩ := sumInputs_ok hrange le_rfl (by decide) hsum
  rw [hout.getValueOut_eq]
  refine (noOverflow_ok _).bind fun valueOut hvalueOut => ?_
  obtain rfl := Except.ok.inj hvalueOut
  split_ifs with hbelow
  · exact noOverflow_txInvalid _
  have hadd : addAmount nValueIn (-outputValue tx.vout) =
      .ok (nValueIn + -outputValue tx.vout) := by
    have hvalue := hout.value_nonneg
    have hmax := maxMoney_eq
    rw [addAmount, if_pos]
    unfold Int64Range
    constructor <;> omega
  refine NoOverflow.bind (by rw [hadd]; exact noOverflow_ok _) fun fee _ => ?_
  split_ifs <;> simp

theorem checkSettlementLevy_noOverflow (hout : OutputsInRange tx.vout) (txfee : ℤ)
    (rule : SettlementLevyRule) : NoOverflow (checkSettlementLevy tx txfee rule) := by
  unfold checkSettlementLevy
  split_ifs with hcoinbase
  · exact noOverflow_ok _
  rw [hout.getValueOut_eq]
  refine (noOverflow_ok _).bind fun valueOut _ => ?_
  split_ifs <;> simp

end

end XCoin.Validation
