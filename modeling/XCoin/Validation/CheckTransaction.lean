import XCoin.Script.Solver
import XCoin.Validation.Outcome

/-!
# Context-free transaction checks

`CheckTransaction` in the order of the source: emptiness, size, output values,
output types with the value floor, duplicate inputs, and the coinbase's script
length or the null inputs of other transactions.  What the rest of validation
relies on is collected in `CheckedTransaction`.
-/

namespace XCoin.Validation

open Consensus Script

variable {tx : Transaction} {permitV2Outputs : Bool} {minOutputValue : ℤ} {vout : List TxOut}

/-- A rejection by `CheckTransaction`. -/
def txInvalid {α : Type} (reason : RejectReason) : Except Failure α :=
  .error (.invalid .txConsensus reason)

/-- The loop that checks the output values and their running total. -/
def checkOutputValues : List TxOut → ℤ → Except Failure ℤ
  | [], nValueOut => .ok nValueOut
  | txout :: rest, nValueOut =>
    if txout.nValue < 0 then txInvalid .badTxnsVoutNegative
    else if txout.nValue > maxMoney then txInvalid .badTxnsVoutToolarge
    else do
      let total ← addAmount nValueOut txout.nValue
      if !moneyRange total then txInvalid .badTxnsTxouttotalToolarge
      else checkOutputValues rest total

/-- What the output-type loop counts. -/
structure OutputTally where
  spendableOutputs : ℕ := 0
  belowFloor : Bool := false
  zeroValue : Bool := false

/-- One output of the output-type loop, its type being allowed. -/
def OutputTally.count (tally : OutputTally) (txout : TxOut) (minOutputValue : ℤ) : OutputTally :=
  if solver txout.scriptPubKey = .nullData then tally
  else
    { spendableOutputs := tally.spendableOutputs + 1
      belowFloor := tally.belowFloor || decide (txout.nValue < minOutputValue)
      zeroValue := tally.zeroValue || decide (txout.nValue < 1) }

/-- Whether an output of this type may be created. -/
def allowedOutput (permitV2Outputs : Bool) (whichType : TxoutType) : Bool :=
  whichType == .witnessV3Pq || whichType == .nullData ||
    (permitV2Outputs && whichType == .witnessV2Pq)

/-- The loop that checks the output types. -/
def checkOutputTypes (permitV2Outputs : Bool) (minOutputValue : ℤ) :
    List TxOut → OutputTally → Except Failure OutputTally
  | [], tally => .ok tally
  | txout :: rest, tally =>
    if allowedOutput permitV2Outputs (solver txout.scriptPubKey) then
      checkOutputTypes permitV2Outputs minOutputValue rest (tally.count txout minOutputValue)
    else txInvalid .badTxoutNotPq

/-- The output-value floor, with the exemption of a coinbase that has exactly one
spendable output worth at least 1 sat. -/
def belowOutputFloor (tx : Transaction) (minOutputValue : ℤ) (tally : OutputTally) : Bool :=
  decide (minOutputValue > 0) && tally.belowFloor &&
    !(tx.isCoinBase && tally.spendableOutputs == 1 && !tally.zeroValue)

/-- The last part of `CheckTransaction`: the inputs. -/
def checkInputs (tx : Transaction) : Except Failure Unit :=
  if ¬ (tx.vin.map TxIn.prevout).Nodup then txInvalid .badTxnsInputsDuplicate
  else if tx.isCoinBase then
    match tx.vin with
    | txin :: _ =>
      if txin.scriptSig.length < 2 ∨ txin.scriptSig.length > 100 then txInvalid .badCbLength
      else .ok ()
    | [] => .ok ()
  else if tx.vin.any fun txin => txin.prevout.isNull then txInvalid .badTxnsPrevoutNull
  else .ok ()

/-- `CheckTransaction`. -/
def checkTransaction (tx : Transaction) (permitV2Outputs : Bool) (minOutputValue : ℤ) :
    Except Failure Unit :=
  if tx.vin.isEmpty then txInvalid .badTxnsVinEmpty
  else if tx.vout.isEmpty then txInvalid .badTxnsVoutEmpty
  else if (serializeTransaction false tx).length * witnessScaleFactor > maxBlockWeight then
    txInvalid .badTxnsOversize
  else do
    let _ ← checkOutputValues tx.vout 0
    let tally ← checkOutputTypes permitV2Outputs minOutputValue tx.vout {}
    if belowOutputFloor tx minOutputValue tally then txInvalid .badTxoutBelowMin
    else checkInputs tx

@[simp] theorem noOverflow_txInvalid {α : Type} (reason : RejectReason) :
    NoOverflow (txInvalid reason : Except Failure α) :=
  noOverflow_invalid _ _

@[simp] theorem txInvalid_ne_ok {α : Type} (reason : RejectReason) (a : α) :
    txInvalid reason ≠ .ok a := by
  simp [txInvalid]

/-! ## What a passing transaction satisfies -/

theorem checkOutputValues_ok {start total : ℤ} (hstart : 0 ≤ start) (hbound : start ≤ maxMoney)
    (h : checkOutputValues vout start = .ok total) :
    (∀ txout ∈ vout, 0 ≤ txout.nValue) ∧ start + outputValue vout ≤ maxMoney := by
  induction vout generalizing start with
  | nil => simpa using hbound
  | cons txout rest ih =>
    unfold checkOutputValues at h
    split_ifs at h with hneg hlarge
    · exact absurd h (txInvalid_ne_ok _ _)
    · exact absurd h (txInvalid_ne_ok _ _)
    obtain ⟨sum, hadd, h⟩ := bind_eq_ok.mp h
    rw [addAmount_of_le hstart (by omega) (by omega) (by omega)] at hadd
    obtain rfl := Except.ok.inj hadd
    split_ifs at h with hrange
    · exact absurd h (txInvalid_ne_ok _ _)
    have hrange : 0 ≤ start + txout.nValue ∧ start + txout.nValue ≤ maxMoney := by
      simpa using hrange
    obtain ⟨hrest, hsum⟩ := ih hrange.1 hrange.2 h
    refine ⟨?_, by rw [outputValue_cons]; omega⟩
    intro out hout
    rcases List.mem_cons.mp hout with rfl | hmem
    · omega
    · exact hrest out hmem

theorem checkOutputValues_noOverflow {start : ℤ} (hstart : 0 ≤ start) (hbound : start ≤ maxMoney) :
    NoOverflow (checkOutputValues vout start) := by
  induction vout generalizing start with
  | nil => exact noOverflow_ok _
  | cons txout rest ih =>
    unfold checkOutputValues
    split_ifs with hneg hlarge
    · exact noOverflow_txInvalid _
    · exact noOverflow_txInvalid _
    have hadd := addAmount_of_le (b := txout.nValue) hstart (by omega) (by omega) (by omega)
    refine NoOverflow.bind (by rw [hadd]; exact noOverflow_ok _) fun total htotal => ?_
    obtain rfl := Except.ok.inj (hadd.symm.trans htotal)
    split_ifs with hrange
    · exact noOverflow_txInvalid _
    · have hrange : 0 ≤ start + txout.nValue ∧ start + txout.nValue ≤ maxMoney := by
        simpa using hrange
      exact ih hrange.1 hrange.2

theorem checkOutputTypes_noOverflow {tally : OutputTally} :
    NoOverflow (checkOutputTypes permitV2Outputs minOutputValue vout tally) := by
  induction vout generalizing tally with
  | nil => exact noOverflow_ok _
  | cons txout rest ih =>
    unfold checkOutputTypes
    split
    · exact ih
    · exact noOverflow_txInvalid _

theorem checkInputs_noOverflow : NoOverflow (checkInputs tx) := by
  unfold checkInputs
  repeat' split
  all_goals simp

/-- A transaction that passed `CheckTransaction`. -/
structure CheckedTransaction (tx : Transaction) : Prop where
  vin_ne_nil : tx.vin ≠ []
  outputs : OutputsInRange tx.vout
  prevouts_nodup : (tx.vin.map TxIn.prevout).Nodup

theorem prevouts_nodup_of_checkInputs (h : checkInputs tx = .ok ()) :
    (tx.vin.map TxIn.prevout).Nodup := by
  by_contra hdup
  rw [checkInputs, if_pos hdup] at h
  exact txInvalid_ne_ok _ _ h

theorem checkedTransaction_of_ok (h : checkTransaction tx permitV2Outputs minOutputValue = .ok ()) :
    CheckedTransaction tx := by
  unfold checkTransaction at h
  split_ifs at h with hvin hvout hsize
  · exact absurd h (txInvalid_ne_ok _ _)
  · exact absurd h (txInvalid_ne_ok _ _)
  · exact absurd h (txInvalid_ne_ok _ _)
  obtain ⟨total, hvalues, h⟩ := bind_eq_ok.mp h
  obtain ⟨tally, -, h⟩ := bind_eq_ok.mp h
  split_ifs at h with hfloor
  · exact absurd h (txInvalid_ne_ok _ _)
  obtain ⟨hnonneg, hsum⟩ := checkOutputValues_ok le_rfl (by decide) hvalues
  exact
    { vin_ne_nil := by simpa using hvin
      outputs := ⟨hnonneg, by simpa using hsum⟩
      prevouts_nodup := prevouts_nodup_of_checkInputs h }

theorem checkTransaction_noOverflow :
    NoOverflow (checkTransaction tx permitV2Outputs minOutputValue) := by
  unfold checkTransaction
  split_ifs with hvin hvout hsize
  · exact noOverflow_txInvalid _
  · exact noOverflow_txInvalid _
  · exact noOverflow_txInvalid _
  refine (checkOutputValues_noOverflow le_rfl (by decide)).bind fun total _ => ?_
  refine checkOutputTypes_noOverflow.bind fun tally _ => ?_
  split_ifs with hfloor
  · exact noOverflow_txInvalid _
  · exact checkInputs_noOverflow

end XCoin.Validation
