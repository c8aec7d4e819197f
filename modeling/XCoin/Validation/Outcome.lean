import XCoin.Primitives.Transaction

/-!
# Outcomes of validation

A modelled validation function can reject (with the reject reason the source
passes to `state.Invalid`), throw or fail an assertion, or form a sum of amounts
outside the signed 64-bit range.  The last is undefined behaviour in C++; here
it is an outcome of its own, so that "no sum overflows" is the statement that it
never happens.

The debug messages that accompany a reject reason are left out.
-/

namespace XCoin.Validation

open Consensus

/-- The reject reasons of the modelled checks. -/
inductive RejectReason where
  | badTxnsVinEmpty
  | badTxnsVoutEmpty
  | badTxnsOversize
  | badTxnsVoutNegative
  | badTxnsVoutToolarge
  | badTxnsTxouttotalToolarge
  | badTxoutNotPq
  | badTxoutBelowMin
  | badTxnsInputsDuplicate
  | badCbLength
  | badTxnsPrevoutNull
  | badTxnsInputsMissingorspent
  | badTxnsPrematureSpendOfCoinbase
  | badTxnsInputvaluesOutofrange
  | badTxnsInBelowout
  | badTxnsFeeOutofrange
  | badTxnsLevy
  | highHash
  | badTxnmrklroot
  | badTxnsDuplicate
  | badBlkLength
  | badCbMissing
  | badCbMultiple
  | badBlkSigops
  | badTxnsBIP30
  | badTxnsAccumulatedFeeOutofrange
  | badTxnsNonfinal
  | blockScriptVerifyFlagFailed
  | badCbAmount
deriving DecidableEq, Repr

/-- The class of a rejection, over `TxValidationResult` and `BlockValidationResult`. -/
inductive ResultClass where
  | txConsensus
  | txMissingInputs
  | txPrematureSpend
  | blockConsensus
  | blockInvalidHeader
  | blockMutated
deriving DecidableEq, Repr

/-- Why the code stops by an exception or an assertion. -/
inductive Exception where
  /-- `CTransaction::GetValueOut: value out of range` -/
  | valueOutOfRange
  /-- `Attempted to overwrite an unspent coin (when possible_overwrite is false)` -/
  | overwriteUnspentCoin
  /-- `assert(!coin.IsSpent())` in `AddCoin` -/
  | assertAddedCoinUnspent
  /-- `assert(!coin.IsSpent())` in `CheckTxInputs` -/
  | assertInputUnspent
  /-- `assert(is_spent)` in `UpdateCoins` -/
  | assertIsSpent
  /-- `assert(hashPrevBlock == view.GetBestBlock())` in `ConnectBlock` -/
  | assertBestBlock
deriving DecidableEq, Repr

/-- Why validation stops. -/
inductive Failure where
  | invalid (result : ResultClass) (reason : RejectReason)
  | exception (what : Exception)
  /-- A sum of amounts left the signed 64-bit range. -/
  | overflow
deriving DecidableEq, Repr

/-- The computation stays clear of signed overflow, whatever else it does. -/
def NoOverflow {α : Type} (x : Except Failure α) : Prop := x ≠ .error .overflow

section NoOverflow

variable {α β : Type}

@[simp] theorem noOverflow_ok (a : α) : NoOverflow (.ok a : Except Failure α) := by
  simp [NoOverflow]

@[simp] theorem noOverflow_invalid (result : ResultClass) (reason : RejectReason) :
    NoOverflow (.error (.invalid result reason) : Except Failure α) := by
  simp [NoOverflow]

@[simp] theorem noOverflow_exception (what : Exception) :
    NoOverflow (.error (.exception what) : Except Failure α) := by
  simp [NoOverflow]

theorem NoOverflow.bind {x : Except Failure α} {f : α → Except Failure β} (hx : NoOverflow x)
    (hf : ∀ a, x = .ok a → NoOverflow (f a)) : NoOverflow (x >>= f) := by
  cases x with
  | error failure => exact fun h => hx (congrArg Except.error (Except.error.inj h))
  | ok a => exact hf a rfl

theorem bind_eq_ok {x : Except Failure α} {f : α → Except Failure β} {b : β} :
    (x >>= f) = .ok b ↔ ∃ a, x = .ok a ∧ f a = .ok b := by
  cases x with
  | error failure => simp [bind, Except.bind]
  | ok a => simp [bind, Except.bind]

end NoOverflow

/-- `a + b` on `CAmount`. -/
def addAmount (a b : ℤ) : Except Failure ℤ :=
  if Int64Range (a + b) then .ok (a + b) else .error .overflow

theorem addAmount_of_le {a b : ℤ} (ha : 0 ≤ a) (ha' : a ≤ 2 * maxMoney) (hb : 0 ≤ b)
    (hb' : b ≤ 2 * maxMoney) : addAmount a b = .ok (a + b) := by
  have hmax := maxMoney_eq
  rw [addAmount, if_pos]
  unfold Int64Range
  constructor <;> omega

/-! ## The value of a transaction's outputs -/

/-- The loop of `GetValueOut`. -/
def getValueOutLoop : List TxOut → ℤ → Except Failure ℤ
  | [], nValueOut => .ok nValueOut
  | txout :: rest, nValueOut =>
    if !moneyRange txout.nValue then .error (.exception .valueOutOfRange)
    else do
      let total ← addAmount nValueOut txout.nValue
      if !moneyRange total then .error (.exception .valueOutOfRange)
      else getValueOutLoop rest total

/-- `GetValueOut`. -/
def getValueOut (tx : Transaction) : Except Failure ℤ := getValueOutLoop tx.vout 0

/-- The exact value of a list of outputs. -/
def outputValue (vout : List TxOut) : ℤ := (vout.map TxOut.nValue).sum

@[simp] theorem outputValue_nil : outputValue [] = 0 := rfl

@[simp] theorem outputValue_cons (txout : TxOut) (rest : List TxOut) :
    outputValue (txout :: rest) = txout.nValue + outputValue rest := rfl

theorem addAmount_ok {a b sum : ℤ} (hsum : addAmount a b = .ok sum) : sum = a + b := by
  unfold addAmount at hsum
  split_ifs at hsum
  exact (Except.ok.inj hsum).symm

theorem getValueOutLoop_ok : ∀ (vout : List TxOut) {start total : ℤ},
    getValueOutLoop vout start = .ok total → total = start + outputValue vout := by
  intro vout
  induction vout with
  | nil =>
    intro start total h
    rw [outputValue_nil, add_zero]
    exact (Except.ok.inj h).symm
  | cons txout rest ih =>
    intro start total h
    unfold getValueOutLoop at h
    split_ifs at h
    obtain ⟨sum, hsum, h⟩ := bind_eq_ok.mp h
    split_ifs at h
    rw [ih h, addAmount_ok hsum, outputValue_cons, add_assoc]

theorem getValueOutLoop_nonneg : ∀ (vout : List TxOut) {start total : ℤ}, 0 ≤ start →
    getValueOutLoop vout start = .ok total → 0 ≤ total := by
  intro vout
  induction vout with
  | nil =>
    intro start total hstart h
    obtain rfl := Except.ok.inj h
    exact hstart
  | cons txout rest ih =>
    intro start total _ h
    unfold getValueOutLoop at h
    split_ifs at h
    obtain ⟨sum, -, h⟩ := bind_eq_ok.mp h
    split_ifs at h with hrange
    have hsum : 0 ≤ sum := (moneyRange_iff.mp (by simpa using hrange)).1
    exact ih hsum h

theorem getValueOut_nonneg {tx : Transaction} {valueOut : ℤ} (h : getValueOut tx = .ok valueOut) :
    0 ≤ valueOut := getValueOutLoop_nonneg tx.vout le_rfl h

/-- Outputs as `CheckTransaction` lets them pass: each in range, and their sum. -/
structure OutputsInRange (vout : List TxOut) : Prop where
  nonneg : ∀ txout ∈ vout, 0 ≤ txout.nValue
  sum_le : outputValue vout ≤ maxMoney

namespace OutputsInRange

theorem tail {txout : TxOut} {rest : List TxOut} (h : OutputsInRange (txout :: rest)) :
    OutputsInRange rest where
  nonneg out hout := h.nonneg out (List.mem_cons_of_mem _ hout)
  sum_le := by
    have hhead := h.nonneg txout List.mem_cons_self
    have hsum := h.sum_le
    rw [outputValue_cons] at hsum
    omega

theorem value_nonneg {vout : List TxOut} (h : OutputsInRange vout) : 0 ≤ outputValue vout := by
  induction vout with
  | nil => exact le_rfl
  | cons txout rest ih =>
    have hhead := h.nonneg txout List.mem_cons_self
    have := ih h.tail
    rw [outputValue_cons]
    omega

theorem le_value {vout : List TxOut} (h : OutputsInRange vout) {txout : TxOut}
    (hmem : txout ∈ vout) : txout.nValue ≤ outputValue vout := by
  induction vout with
  | nil => cases hmem
  | cons first rest ih =>
    have hrest := h.tail.value_nonneg
    rw [outputValue_cons]
    rcases List.mem_cons.mp hmem with rfl | hmem
    · omega
    · have hhead := h.nonneg first List.mem_cons_self
      have := ih h.tail hmem
      omega

/-- On such outputs `GetValueOut` returns the exact sum: it neither throws nor overflows. -/
theorem getValueOutLoop_eq {vout : List TxOut} (h : OutputsInRange vout) {nValueOut : ℤ}
    (hstart : 0 ≤ nValueOut) (hsum : nValueOut + outputValue vout ≤ maxMoney) :
    getValueOutLoop vout nValueOut = .ok (nValueOut + outputValue vout) := by
  induction vout generalizing nValueOut with
  | nil => simp [getValueOutLoop]
  | cons txout rest ih =>
    have hhead := h.nonneg txout List.mem_cons_self
    have hrest := h.tail.value_nonneg
    rw [outputValue_cons] at hsum
    have hrange : moneyRange txout.nValue = true := moneyRange_iff.mpr ⟨hhead, by omega⟩
    have htotal : moneyRange (nValueOut + txout.nValue) = true :=
      moneyRange_iff.mpr ⟨by omega, by omega⟩
    have hadd : addAmount nValueOut txout.nValue = .ok (nValueOut + txout.nValue) :=
      addAmount_of_le hstart (by omega) hhead (by omega)
    simp only [getValueOutLoop, hrange, Bool.not_true, Bool.false_eq_true, if_false, hadd, htotal,
      bind, Except.bind]
    rw [ih h.tail (by omega) (by omega), outputValue_cons, add_assoc]

theorem getValueOut_eq {tx : Transaction} (h : OutputsInRange tx.vout) :
    getValueOut tx = .ok (outputValue tx.vout) := by
  rw [getValueOut, h.getValueOutLoop_eq le_rfl (by simpa using h.sum_le), zero_add]

end OutputsInRange

end XCoin.Validation
