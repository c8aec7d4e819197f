import XCoin.Script.WitnessV3
import XCoin.Validation.CheckTransaction

/-!
# What CheckTransaction accepts

The loops of `CheckTransaction` against what they test.  The value loop accepts outputs
whose values are in range with their sum.  The type loop accepts outputs of allowed types,
and the tally it keeps says how many outputs are not `NULL_DATA`, whether one of them is
below the floor and whether one is worth nothing.  Together: a transaction passes exactly
if it has inputs and outputs, is small enough, and satisfies `OutputsInRange`,
`OutputRules` and the input checks.

Under the mainnet rule an output that is not `NULL_DATA` is `OP_3 <root>` with a root of
32 bytes, and `NULL_DATA` never becomes a coin.
-/

namespace XCoin.Validation

open Consensus Script

variable {tx : Transaction} {permitV2Outputs : Bool} {minOutputValue : ℤ} {vout : List TxOut}

/-! ## Values -/

theorem checkOutputValues_isOk :
    ∀ start : ℤ, 0 ≤ start → (∀ txout ∈ vout, 0 ≤ txout.nValue) →
      start + outputValue vout ≤ maxMoney → ∃ total, checkOutputValues vout start = .ok total := by
  induction vout with
  | nil =>
    intro start _ _ _
    exact ⟨start, rfl⟩
  | cons txout rest ih =>
    intro start hstart hnonneg hsum
    rw [outputValue_cons] at hsum
    have hfirst : 0 ≤ txout.nValue := hnonneg txout List.mem_cons_self
    have hrest : ∀ other ∈ rest, 0 ≤ other.nValue := fun other hother =>
      hnonneg other (List.mem_cons_of_mem _ hother)
    have htail : 0 ≤ outputValue rest := List.sum_nonneg (by simpa using hrest)
    have hsmall : start + txout.nValue ≤ maxMoney := by omega
    have hrange : moneyRange (start + txout.nValue) = true :=
      moneyRange_iff.mpr ⟨by omega, hsmall⟩
    obtain ⟨total, htotal⟩ := ih (start + txout.nValue) (by omega) hrest (by omega)
    refine ⟨total, ?_⟩
    rw [checkOutputValues, if_neg (by omega), if_neg (by omega),
      addAmount_of_le hstart (by omega) hfirst (by omega), Except.ok_bind, hrange]
    exact htotal

/-! ## Types -/

/-- The outputs that are not `NULL_DATA`. -/
def spendableOutputs (vout : List TxOut) : List TxOut :=
  vout.filter fun txout => decide (solver txout.scriptPubKey ≠ .nullData)

theorem mem_spendableOutputs {txout : TxOut} :
    txout ∈ spendableOutputs vout ↔ txout ∈ vout ∧ solver txout.scriptPubKey ≠ .nullData := by
  simp [spendableOutputs]

theorem spendableOutputs_cons (txout : TxOut) (rest : List TxOut) :
    spendableOutputs (txout :: rest) =
      if solver txout.scriptPubKey = .nullData then spendableOutputs rest
      else txout :: spendableOutputs rest := by
  by_cases hnull : solver txout.scriptPubKey = .nullData
  · simp [spendableOutputs, hnull]
  · simp [spendableOutputs, hnull]

/-- What the type loop has counted after these outputs. -/
def OutputTally.countAll (tally : OutputTally) (vout : List TxOut) (minOutputValue : ℤ) :
    OutputTally where
  spendableOutputs := tally.spendableOutputs + (Validation.spendableOutputs vout).length
  belowFloor := tally.belowFloor ||
    (Validation.spendableOutputs vout).any fun txout => decide (txout.nValue < minOutputValue)
  zeroValue := tally.zeroValue ||
    (Validation.spendableOutputs vout).any fun txout => decide (txout.nValue < 1)

theorem OutputTally.countAll_nil (tally : OutputTally) : tally.countAll [] minOutputValue = tally := by
  simp [countAll, Validation.spendableOutputs]

theorem OutputTally.countAll_cons (tally : OutputTally) (txout : TxOut) (rest : List TxOut) :
    tally.countAll (txout :: rest) minOutputValue =
      (tally.count txout minOutputValue).countAll rest minOutputValue := by
  by_cases hnull : solver txout.scriptPubKey = .nullData
  · simp only [countAll, count, spendableOutputs_cons, if_pos hnull]
  · simp only [countAll, count, spendableOutputs_cons, if_neg hnull, List.length_cons,
      List.any_cons, Bool.or_assoc]
    congr 1
    omega

theorem checkOutputTypes_eq_ok :
    ∀ tally tally' : OutputTally,
      checkOutputTypes permitV2Outputs minOutputValue vout tally = .ok tally' ↔
        (∀ txout ∈ vout, allowedOutput permitV2Outputs (solver txout.scriptPubKey) = true) ∧
          tally' = tally.countAll vout minOutputValue := by
  induction vout with
  | nil =>
    intro tally tally'
    rw [checkOutputTypes, OutputTally.countAll_nil, Except.ok.injEq]
    exact ⟨fun h => ⟨nofun, h.symm⟩, fun h => h.2.symm⟩
  | cons txout rest ih =>
    intro tally tally'
    rw [checkOutputTypes]
    by_cases hallowed : allowedOutput permitV2Outputs (solver txout.scriptPubKey) = true
    · rw [if_pos hallowed, ih, OutputTally.countAll_cons]
      simp [hallowed]
    · rw [if_neg hallowed]
      simp [hallowed]

/-- The output rules: the types, and the value floor with its exemption. -/
structure OutputRules (permitV2Outputs : Bool) (minOutputValue : ℤ) (tx : Transaction) : Prop where
  allowed : ∀ txout ∈ tx.vout, allowedOutput permitV2Outputs (solver txout.scriptPubKey) = true
  floor : 0 < minOutputValue →
    (∀ txout ∈ spendableOutputs tx.vout, minOutputValue ≤ txout.nValue) ∨
      (tx.isCoinBase = true ∧ ∃ txout, spendableOutputs tx.vout = [txout] ∧ 1 ≤ txout.nValue)

theorem belowOutputFloor_eq_false_iff :
    belowOutputFloor tx minOutputValue (OutputTally.countAll {} tx.vout minOutputValue) = false ↔
      (0 < minOutputValue →
        (∀ txout ∈ spendableOutputs tx.vout, minOutputValue ≤ txout.nValue) ∨
          (tx.isCoinBase = true ∧
            ∃ txout, spendableOutputs tx.vout = [txout] ∧ 1 ≤ txout.nValue)) := by
  have hbelow : ((spendableOutputs tx.vout).any fun txout =>
      decide (txout.nValue < minOutputValue)) = false ↔
      ∀ txout ∈ spendableOutputs tx.vout, minOutputValue ≤ txout.nValue := by
    simp
  have hexempt : (tx.isCoinBase && (spendableOutputs tx.vout).length == 1 &&
      !(spendableOutputs tx.vout).any fun txout => decide (txout.nValue < 1)) = true ↔
      tx.isCoinBase = true ∧ ∃ txout, spendableOutputs tx.vout = [txout] ∧ 1 ≤ txout.nValue := by
    constructor
    · intro h
      simp only [Bool.and_eq_true, beq_iff_eq, Bool.not_eq_true'] at h
      obtain ⟨⟨hcoinbase, hlength⟩, hzero⟩ := h
      obtain ⟨txout, hsingle⟩ := List.length_eq_one_iff.mp hlength
      rw [hsingle] at hzero
      exact ⟨hcoinbase, txout, hsingle, by simpa using hzero⟩
    · rintro ⟨hcoinbase, txout, hsingle, hvalue⟩
      simp [hcoinbase, hsingle, hvalue]
  rw [← hbelow, ← hexempt]
  simp only [belowOutputFloor, OutputTally.countAll, Bool.false_or, Nat.zero_add]
  cases hmin : decide (minOutputValue > 0) with
  | false =>
    have hmin : ¬0 < minOutputValue := by simpa using hmin
    simp [hmin]
  | true =>
    have hmin : 0 < minOutputValue := by simpa using hmin
    simp only [hmin, forall_const, Bool.true_and]
    cases (spendableOutputs tx.vout).any fun txout => decide (txout.nValue < minOutputValue) with
    | false => simp
    | true => simp

/-! ## The whole check -/

/-- **What passes.**  `CheckTransaction` accepts exactly these transactions. -/
theorem checkTransaction_eq_ok_iff :
    checkTransaction tx permitV2Outputs minOutputValue = .ok () ↔
      tx.vin ≠ [] ∧ tx.vout ≠ [] ∧
      (serializeTransaction false tx).length * witnessScaleFactor ≤ maxBlockWeight ∧
      OutputsInRange tx.vout ∧ OutputRules permitV2Outputs minOutputValue tx ∧
      checkInputs tx = .ok () := by
  constructor
  · intro h
    have hrange := (checkedTransaction_of_ok h).outputs
    unfold checkTransaction at h
    split_ifs at h with hvin hvout hsize
    · exact absurd h (txInvalid_ne_ok _ _)
    · exact absurd h (txInvalid_ne_ok _ _)
    · exact absurd h (txInvalid_ne_ok _ _)
    obtain ⟨total, -, h⟩ := bind_eq_ok.mp h
    obtain ⟨tally, htypes, h⟩ := bind_eq_ok.mp h
    obtain ⟨hallowed, rfl⟩ := (checkOutputTypes_eq_ok _ _).mp htypes
    split_ifs at h with hfloor
    · exact absurd h (txInvalid_ne_ok _ _)
    have hfloor := belowOutputFloor_eq_false_iff.mp (by simpa using hfloor)
    exact ⟨by simpa using hvin, by simpa using hvout, by omega, hrange, ⟨hallowed, hfloor⟩, h⟩
  · rintro ⟨hvin, hvout, hsize, hrange, hrules, hinputs⟩
    obtain ⟨total, htotal⟩ := checkOutputValues_isOk 0 le_rfl hrange.nonneg
      (by rw [zero_add]; exact hrange.sum_le)
    have htypes : checkOutputTypes permitV2Outputs minOutputValue tx.vout {} =
        .ok (OutputTally.countAll {} tx.vout minOutputValue) :=
      (checkOutputTypes_eq_ok _ _).mpr ⟨hrules.allowed, rfl⟩
    have hfloor := belowOutputFloor_eq_false_iff.mpr hrules.floor
    rw [checkTransaction, if_neg (by simpa using hvin), if_neg (by simpa using hvout),
      if_neg (by omega), htotal, Except.ok_bind, htypes, Except.ok_bind, hfloor]
    exact hinputs

/-! ## The mainnet rule -/

/-- An output script `OP_3 <root>` with a root of 32 bytes. -/
def IsV3Output (script : Bytes) : Prop := ∃ root : Bytes, root.length = 32 ∧ script = v3Output root

theorem isV3Output_of_isWitnessProgram {script program : Bytes} (hlength : program.length = 32)
    (h : isWitnessProgram script = some (3, program)) : IsV3Output script := by
  unfold isWitnessProgram at h
  split_ifs at h with hsize hopcode hpush
  obtain ⟨hversion, rfl⟩ := Prod.mk.inj (Option.some.inj h)
  refine ⟨script.drop 2, hlength, ?_⟩
  match script with
  | [] => simp at hlength
  | [_] => simp at hlength
  | opcode :: size :: root =>
    have hroot : root.length = 32 := hlength
    have hsize : size.toNat + 2 = root.length + 2 := hpush
    have hopcode : opcode.toNat = 0x53 := by
      have hdecode : decodeOpN opcode.toNat = 3 := hversion
      unfold decodeOpN op0 op1 at hdecode
      split_ifs at hdecode
      omega
    have hfirst : opcode = 0x53 := UInt8.toNat_inj.mp hopcode
    have hsecond : size = 0x20 := UInt8.toNat_inj.mp (by rw [hroot] at hsize; simpa using hsize)
    rw [hfirst, hsecond]
    rfl

theorem solver_eq_witnessV3Pq_iff {script : Bytes} :
    solver script = .witnessV3Pq ↔ IsV3Output script := by
  constructor
  · intro h
    by_cases hp2sh : isPayToScriptHash script = true
    · rw [solver, if_pos hp2sh] at h
      cases h
    rw [solver, if_neg hp2sh] at h
    cases hprogram : isWitnessProgram script with
    | none =>
      simp only [hprogram] at h
      split_ifs at h
    | some program =>
      obtain ⟨version, witnessProgram⟩ := program
      simp only [hprogram] at h
      split_ifs at h with h0 h1 h2 h3 h4
      obtain ⟨rfl, hlength⟩ := h4
      exact isV3Output_of_isWitnessProgram hlength hprogram
  · rintro ⟨root, hroot, rfl⟩
    have hp2sh : isPayToScriptHash (v3Output root) = false := by
      simp [isPayToScriptHash, v3Output, hroot]
    rw [solver, hp2sh, isWitnessProgram_v3Output hroot]
    simp [hroot]

theorem isUnspendable_of_nullData {script : Bytes} (h : solver script = .nullData) :
    isUnspendable script = true := by
  by_cases hp2sh : isPayToScriptHash script = true
  · rw [solver, if_pos hp2sh] at h
    cases h
  rw [solver, if_neg hp2sh] at h
  cases hprogram : isWitnessProgram script with
  | some program =>
    simp only [hprogram] at h
    split_ifs at h
  | none =>
    simp only [hprogram] at h
    split_ifs at h with hnull
    have hnonempty : 0 < script.length := hnull.1
    simp [isUnspendable, hnonempty, hnull.2.1]

end XCoin.Validation
