import XCoin.Validation.TxVerify

/-!
# The wallet's transaction builder

`CreateTransactionInternal` of `wallet/spend.cpp`.  It checks the recipients, sets
the selection target, has coins selected for it, adds a change output if enough is
left, works out the fee the finished transaction needs, gives the change what was
reserved too much or takes what is missing from the recipients that asked for it,
and refuses to go on if the fee paid is below the fee needed.

What the function asks of the wallet, of the chain and of the coin control is one
record, `SpendContext`.  Coin selection, size estimation, key handling and signing
are functions in it.  Left out are the parameters that only steer coin selection
(`m_cost_of_change`, the long-term fee rate, partial spends), logging, and the fee
estimator's statistics.
-/

namespace XCoin.Wallet

open Consensus Validation

/-! ## Recipients and selected coins -/

/-- `CRecipient`, its destination given as the script and whether it is a `WitnessV2PQ`. -/
structure Recipient where
  scriptPubKey : Bytes
  isWitnessV2 : Bool
  nAmount : ℤ
  fSubtractFeeFromAmount : Bool
deriving DecidableEq, Repr

/-- The recipient's output. -/
def Recipient.txOut (recipient : Recipient) : TxOut := ⟨recipient.nAmount, recipient.scriptPubKey⟩

/-- A coin a selection picked, `COutput`. -/
structure SelectedCoin where
  outpoint : OutPoint
  nValue : ℤ
  /-- the value less the fee for spending it and the bump fees of its ancestors -/
  effectiveValue : ℤ
  ancestorBumpFees : ℤ
deriving DecidableEq, Repr

/-- `SelectionResult`. -/
structure SelectionResult where
  selectedInputs : List SelectedCoin
  target : ℤ
  useEffective : Bool
  bumpFeeGroupDiscount : ℤ
deriving DecidableEq, Repr

namespace SelectionResult

variable (result : SelectionResult)

/-- `GetSelectedValue`. -/
def getSelectedValue : ℤ := (result.selectedInputs.map SelectedCoin.nValue).sum

/-- `GetSelectedEffectiveValue`. -/
def getSelectedEffectiveValue : ℤ :=
  (result.selectedInputs.map SelectedCoin.effectiveValue).sum + result.bumpFeeGroupDiscount

/-- `GetTotalBumpFees`. -/
def getTotalBumpFees : ℤ :=
  (result.selectedInputs.map SelectedCoin.ancestorBumpFees).sum - result.bumpFeeGroupDiscount

/-- What the selection leaves after its target and the fee of a change output. -/
def leftover (changeFee : ℤ) : ℤ :=
  if result.useEffective then result.getSelectedEffectiveValue - result.target - changeFee
  else result.getSelectedValue - result.target

/-- `GetChange`. -/
def getChange (minViableChange changeFee : ℤ) : ℤ :=
  if result.leftover changeFee < minViableChange then 0 else result.leftover changeFee

end SelectionResult

/-- The ways the function ends without a transaction. -/
inductive WalletError where
  | maxWeightOutOfRange (minimum maximum : ℕ)
  | amountTooSmall
  /-- the argument says whether the chain's rules allow such outputs -/
  | v2OutputsNotPermitted (chainPermits : Bool)
  | belowMinimumOutput (amount floor : ℤ)
  | feeRateTooLow (given minimum : FeeRate)
  | fallbackFeeDisabled
  | nothingToPay
  | selectedInputs (text : String)
  | selection (text : String)
  | exceedsBalanceWithFee (fee : ℤ)
  | insufficientFunds
  | changeIndexOutOfRange
  | missingSolvingData
  | feePaidNegative
  | changeAdjustmentMismatch
  | tooSmallToPayFee
  | tooSmallAfterFee
  | sffoMismatch
  | feeNeededExceedsFeePaid
  | changeAddress (text : String)
  | signingFailed
  | consensusRule (failure : Failure)
  | tooLarge
  | maxFeeExceeded
  | chainLimits (text : String)

/-! ## What the function reads -/

/-- `TxSize`: the estimated virtual size and weight of the signed transaction. -/
structure TxSize where
  vsize : ℕ
  weight : ℕ
deriving DecidableEq, Repr

/-- Why `SelectCoins` gave nothing: its own text, and the balances the caller looks at. -/
structure SelectionFailure where
  text : String
  availableBalance : ℤ
  availableEffectiveBalance : ℤ

/-- What the wallet and the node give a spend. -/
structure SpendContext where
  params : Params
  /-- `GetLastBlockHeight` -/
  lastBlockHeight : ℤ
  version : UInt32
  maxTxWeight : ℕ
  /-- `PermitsV2Outputs` of the wallet -/
  permitsV2Outputs : Bool
  /-- `IsDust` at the relay dust fee -/
  isDust : TxOut → Bool
  /-- the script of the change output; empty if no change address could be had -/
  scriptChange : Bytes
  changeAddressError : String
  /-- `CalculateMaximumSignedInputSize` of the change output -/
  changeSpendSize : Option ℕ
  /-- `GetDustThreshold` of the change output at the discard fee rate -/
  changeDust : ℤ
  effectiveFeerate : FeeRate
  discardFeerate : FeeRate
  /-- the fee rate the user gave -/
  userFeerate : Option FeeRate
  /-- the fee rate is the fallback one and the wallet does not allow it -/
  fallbackRefused : Bool
  randrange : ℤ → ℤ
  /-- inputs were selected by the user -/
  hasSelected : Bool
  /-- the error of `FetchSelectedInputs`, if it has one -/
  fetchError : Option String
  selectCoins : ℤ → Except SelectionFailure SelectionResult
  /-- where the caller wants the change output -/
  changePos : Option ℕ
  /-- the random place of the change output among so many outputs -/
  randomPos : (outputs : ℕ) → Fin (outputs + 1)
  /-- the inputs in their final order, with sequence numbers, and the lock time -/
  fillInputs : SelectionResult → List TxIn × UInt32
  /-- `CalculateMaximumSignedTxSize` -/
  signedSize : Transaction → Option TxSize
  sign : Bool
  /-- the inputs after signing -/
  signTransaction : Transaction → Option (List TxIn)
  defaultMaxTxFee : ℤ
  /-- the error of the mempool's chain limits, when `-walletrejectlongchains` asks for it -/
  chainLimitsError : Transaction → Option String

namespace SpendContext

variable (ctx : SpendContext) (vecSend : List Recipient) (result : SelectionResult) (sizes : TxSize)
  (draft : Draft)

/-- The chain's smallest output value. -/
def outputFloor : ℤ := ctx.params.minOutputValueSat

/-- The levy rule of the next block. -/
def levy : SettlementLevyRule := ctx.params.settlementLevyAt (ctx.lastBlockHeight + 1)

/-! ## Amounts the function works with -/

/-- `m_subtract_fee_outputs` -/
def subtractFeeOutputs : Bool :=
  vecSend.any Recipient.fSubtractFeeFromAmount

/-- `m_change_fee` -/
def changeFee : ℤ := ctx.effectiveFeerate.getFee (serializeTxOut ⟨0, ctx.scriptChange⟩).length

/-- The smallest change worth an output: more than it costs to spend, not dust and not
below the chain's floor. -/
def minViableChange : ℤ :=
  max (max (ctx.discardFeerate.getFee (ctx.changeSpendSize.getD 91) + 1) ctx.changeDust)
    ctx.outputFloor

/-- `MAX_STANDARD_TX_WEIGHT`. -/
def maxStandardTxWeight : ℕ := 400000

/-- The outputs so far, and where the change is. -/
structure Draft where
  vout : List TxOut
  changePos : Option ℕ
deriving DecidableEq, Repr

/-- The recipients' outputs. -/
def payments : List TxOut := vecSend.map Recipient.txOut

/-- The payments with a change output at a place. -/
def withChange (amount : ℤ) (pos : ℕ) : Draft :=
  ⟨(payments vecSend).insertIdx pos ⟨amount, ctx.scriptChange⟩, some pos⟩

/-- The outputs: the payments, and the change if there is any. -/
def addChange (changeAmount : ℤ) : Except WalletError Draft :=
  if 0 < changeAmount then
    match ctx.changePos with
    | none => .ok (ctx.withChange vecSend changeAmount (ctx.randomPos vecSend.length))
    | some pos =>
      if vecSend.length < pos then .error .changeIndexOutOfRange
      else .ok (ctx.withChange vecSend changeAmount pos)
  else .ok ⟨payments vecSend, none⟩

/-- The transaction with these outputs. -/
def makeTx (vout : List TxOut) : Transaction where
  version := ctx.version
  vin := (ctx.fillInputs result).1
  vout := vout
  nLockTime := (ctx.fillInputs result).2

/-- `SettlementLevyFromInputs`: the smallest fee that covers the levy on the rest. -/
def settlementLevyFromInputs (valueIn : ℤ) (rule : SettlementLevyRule) : ℤ :=
  if rule.bp ≤ 0 ∨ valueIn ≤ 0 then 0
  else
    min (valueIn / (levyDenominator + rule.bp) * rule.bp +
      (valueIn % (levyDenominator + rule.bp) * rule.bp + (levyDenominator + rule.bp) - 1) /
        (levyDenominator + rule.bp)) rule.capSat

/-- The fee for the size and for ancestors. -/
def sizeFee : ℤ :=
  ctx.effectiveFeerate.getFee sizes.vsize + result.getTotalBumpFees

/-- `fee_needed`: the size fee, or the levy if that is higher. -/
def feeNeeded (sizes : TxSize) : ℤ :=
  if 0 < ctx.levy.bp then
    max (ctx.sizeFee result sizes)
      (if draft.changePos.isSome || subtractFeeOutputs vecSend then
        settlementLevyFromInputs result.getSelectedValue ctx.levy
      else settlementLevy (outputValue draft.vout) ctx.levy)
  else ctx.sizeFee result sizes

/-- `current_fee` -/
def currentFee (vout : List TxOut) : ℤ :=
  result.getSelectedValue - outputValue vout

/-- What was reserved too much goes to the change. -/
def adjustChange (needed : ℤ) (draft : Draft) : Except WalletError Draft :=
  match draft.changePos with
  | none => .ok draft
  | some pos =>
    if needed < currentFee result draft.vout then
      let vout := draft.vout.modify pos fun txout =>
        { txout with nValue := txout.nValue + (currentFee result draft.vout - needed) }
      if needed ≠ currentFee result vout then .error .changeAdjustmentMismatch
      else .ok { draft with vout := vout }
    else .ok draft

/-- The loop that takes the fee from the recipients that asked for it, `i` being the
output of the next one. -/
def reduceLoop (changePos : Option ℕ) (toReduce outputs : ℤ) :
    List Recipient → ℕ → Bool → List TxOut → Except WalletError (List TxOut)
  | [], _, _, vout => .ok vout
  | recipient :: vecSend, next, fFirst, vout =>
    let i := if changePos = some next then next + 1 else next
    if recipient.fSubtractFeeFromAmount then
      let part := toReduce.tdiv outputs + if fFirst then toReduce.tmod outputs else 0
      let vout := vout.modify i fun txout => { txout with nValue := txout.nValue - part }
      let txout := vout.getD i ⟨0, []⟩
      if ctx.isDust txout ∨ txout.nValue < ctx.outputFloor then
        .error (if txout.nValue < 0 then .tooSmallToPayFee else .tooSmallAfterFee)
      else reduceLoop changePos toReduce outputs vecSend (i + 1) false vout
    else reduceLoop changePos toReduce outputs vecSend (i + 1) fFirst vout

/-- The reduction of the recipients' amounts. -/
def reduceOutputs (needed : ℤ) (draft : Draft) : Except WalletError Draft :=
  if subtractFeeOutputs vecSend then do
    let vout ← ctx.reduceLoop draft.changePos (needed - currentFee result draft.vout)
      (vecSend.countP Recipient.fSubtractFeeFromAmount) vecSend 0 true draft.vout
    if needed ≠ currentFee result vout then .error .sffoMismatch
    else .ok { draft with vout := vout }
  else .ok draft

/-- From the first outputs to those whose fee is right. -/
def settle (sizes : TxSize) : Except WalletError Draft :=
  if currentFee result draft.vout < 0 then .error .feePaidNegative
  else do
    let draft' ← adjustChange result (ctx.feeNeeded vecSend result draft sizes) draft
    let draft' ← ctx.reduceOutputs vecSend result (ctx.feeNeeded vecSend result draft sizes) draft'
    if currentFee result draft'.vout < ctx.feeNeeded vecSend result draft sizes then
      .error .feeNeededExceedsFeePaid
    else .ok draft'

/-! ## The finished transaction -/

/-- `CreatedTransactionResult`. -/
structure CreatedTransaction where
  tx : Transaction
  fee : ℤ
  changePos : Option ℕ
deriving DecidableEq, Repr

/-- The checks of the signed transaction. -/
def checkFinished (created : CreatedTransaction) : Except WalletError CreatedTransaction :=
  match checkTransaction created.tx ctx.params.permitV2Outputs ctx.params.minOutputValueSat with
  | .error failure => .error (.consensusRule failure)
  | .ok () =>
    if maxStandardTxWeight <
        (if ctx.sign then getTransactionWeight created.tx else sizes.weight) then
      .error .tooLarge
    else if ctx.defaultMaxTxFee < created.fee then .error .maxFeeExceeded
    else
      match ctx.chainLimitsError created.tx with
      | some text => .error (.chainLimits text)
      | none => .ok created

/-- Signing and the last checks. -/
def complete : Except WalletError CreatedTransaction :=
  let tx := ctx.makeTx result draft.vout
  if ctx.scriptChange.isEmpty && draft.changePos.isSome then
    .error (.changeAddress ctx.changeAddressError)
  else
    match if ctx.sign then ctx.signTransaction tx else some tx.vin with
    | none => .error .signingFailed
    | some vin =>
      ctx.checkFinished sizes
        ⟨{ tx with vin := vin }, currentFee result draft.vout, draft.changePos⟩

/-- From the selected coins to the finished transaction. -/
def build : Except WalletError CreatedTransaction := do
  let draft ← ctx.addChange vecSend (result.getChange ctx.minViableChange ctx.changeFee)
  match ctx.signedSize (ctx.makeTx result draft.vout) with
  | none => .error .missingSolvingData
  | some sizes => do
    let draft ← ctx.settle vecSend result draft sizes
    ctx.complete result sizes draft

end SpendContext

end XCoin.Wallet
