import XCoin.Script.LeafSpend

/-!
# When the precomputed data is complete

`PrecomputedTransactionData::Init` scans the inputs for what their spends need and stops as soon as
it has seen a need of BIP 341 and one of BIP 143.  What it has seen by then is a function of the
outputs that inputs with a witness spend, in order (`scanInputs_eq`):

```text
BIP 143 data      some spend that looks like neither taproot nor v3
BIP 341 data      some spend that looks like taproot or v3
template data     some v3 spend, unless the spends before the first one
                  have both a taproot look-alike and another kind
```

A v3 spend behind a taproot and a v0 spend finds no template data.  The other gap is in the word
"looks": 34 bytes that start with `OP_1` or `OP_3` need not be a witness program.
-/

namespace XCoin.Script

/-! ## Kinds of spends -/

/-- 34 bytes that start with `OP_1`. -/
def looksTaproot (txout : TxOut) : Bool := looksLikeProgram op1 txout.scriptPubKey

/-- 34 bytes that start with `OP_3`. -/
def looksV3 (txout : TxOut) : Bool := looksLikeProgram op3 txout.scriptPubKey

/-- Neither taproot nor witness v3. -/
def looksOther (txout : TxOut) : Bool := !looksTaproot txout && !looksV3 txout

/-- The output is the program of 32 bytes of this witness version. -/
def isProgramOf (version : ℕ) (txout : TxOut) : Bool :=
  match isWitnessProgram txout.scriptPubKey with
  | some (found, program) => found == version && program.length == 32
  | none => false

/-- The outputs that are spent with a witness. -/
def witnessSpends (vin : List TxIn) (spentOutputs : List TxOut) : List TxOut :=
  ((vin.zip spentOutputs).filter fun input => decide (input.1.scriptWitness ≠ [])).map Prod.snd

theorem not_looksTaproot_of_looksV3 {txout : TxOut} (h : looksV3 txout = true) :
    looksTaproot txout = false := by
  unfold looksTaproot looksLikeProgram
  have hfirst : byteAt txout.scriptPubKey 0 = op3 := by
    simp only [looksV3, looksLikeProgram, Bool.and_eq_true, beq_iff_eq] at h
    exact h.2
  rw [hfirst, show (op3 == op1) = false by decide, Bool.and_false]

theorem addSpend_eq (uses : Features) (txout : TxOut) :
    uses.addSpend (some txout) =
      ⟨uses.bip143Segwit || looksOther txout,
        uses.bip341Taproot || (looksTaproot txout || looksV3 txout),
        uses.xcoinV3 || looksV3 txout⟩ := by
  unfold Features.addSpend looksOther
  cases htaproot : looksTaproot txout with
  | true =>
    have hv3 : looksV3 txout = false := by
      by_contra hv3
      rw [not_looksTaproot_of_looksV3 (Bool.eq_true_of_not_eq_false hv3)] at htaproot
      cases htaproot
    rw [looksTaproot] at htaproot
    simp [htaproot, hv3]
  | false =>
    rw [looksTaproot] at htaproot
    cases hv3 : looksV3 txout with
    | true =>
      rw [looksV3] at hv3
      simp [htaproot, hv3]
    | false =>
      rw [looksV3] at hv3
      simp [htaproot, hv3]

/-! ## The scan -/

/-- The scan over the spends with a witness. -/
def scanSpends (uses : Features) : List TxOut → Features
  | [] => uses
  | txout :: rest =>
    if (uses.addSpend (some txout)).bip341Taproot &&
        (uses.addSpend (some txout)).bip143Segwit then
      uses.addSpend (some txout)
    else scanSpends (uses.addSpend (some txout)) rest

theorem scanInputs_eq :
    ∀ (vin : List TxIn) (spentOutputs : List TxOut) (uses : Features),
      spentOutputs.length = vin.length → (uses.bip341Taproot && uses.bip143Segwit) = false →
      scanInputs uses vin spentOutputs = scanSpends uses (witnessSpends vin spentOutputs) := by
  intro vin
  induction vin with
  | nil =>
    intro spentOutputs uses _ _
    rfl
  | cons txin rest ih =>
    intro spentOutputs uses hlength hopen
    cases spentOutputs with
    | nil => cases hlength
    | cons txout others =>
      have hothers : others.length = rest.length := Nat.succ.inj hlength
      have hall : ¬(uses.bip143Segwit && uses.bip341Taproot && uses.xcoinV3) = true := by
        rw [Bool.and_comm uses.bip143Segwit, hopen]
        simp
      rw [scanInputs, if_neg hall, List.head?_cons, List.tail_cons, Features.addInput]
      by_cases hwitness : txin.scriptWitness = []
      · have hspends : witnessSpends (txin :: rest) (txout :: others) =
            witnessSpends rest others := by simp [witnessSpends, hwitness]
        rw [if_pos hwitness, hopen, if_neg (by simp), hspends]
        exact ih others uses hothers hopen
      · have hspends : witnessSpends (txin :: rest) (txout :: others) =
            txout :: witnessSpends rest others := by simp [witnessSpends, hwitness]
        rw [if_neg hwitness, hspends, scanSpends]
        split_ifs with hstop
        · rfl
        · exact ih others _ hothers (Bool.eq_false_of_not_eq_true hstop)

theorem scanSpends_bip143Segwit :
    ∀ (spends : List TxOut) (uses : Features),
      (scanSpends uses spends).bip143Segwit = (uses.bip143Segwit || spends.any looksOther) := by
  intro spends
  induction spends with
  | nil =>
    intro uses
    exact (Bool.or_false _).symm
  | cons txout rest ih =>
    intro uses
    rw [scanSpends, List.any_cons, ← Bool.or_assoc, addSpend_eq]
    split_ifs with hstop
    · have hseen := (Bool.and_eq_true_iff.mp hstop).2
      dsimp only at hseen ⊢
      rw [hseen, Bool.true_or]
    · exact ih _

theorem scanSpends_bip341Taproot :
    ∀ (spends : List TxOut) (uses : Features),
      (scanSpends uses spends).bip341Taproot =
        (uses.bip341Taproot || spends.any fun txout => looksTaproot txout || looksV3 txout) := by
  intro spends
  induction spends with
  | nil =>
    intro uses
    exact (Bool.or_false _).symm
  | cons txout rest ih =>
    intro uses
    rw [scanSpends, List.any_cons, ← Bool.or_assoc, addSpend_eq]
    split_ifs with hstop
    · have hseen := (Bool.and_eq_true_iff.mp hstop).1
      dsimp only at hseen ⊢
      rw [hseen, Bool.true_or]
    · exact ih _

theorem scanSpends_xcoinV3_of_uses :
    ∀ (spends : List TxOut) (uses : Features), uses.xcoinV3 = true →
      (scanSpends uses spends).xcoinV3 = true := by
  intro spends
  induction spends with
  | nil =>
    intro uses huses
    exact huses
  | cons txout rest ih =>
    intro uses huses
    rw [scanSpends, addSpend_eq]
    split_ifs
    · rw [huses, Bool.true_or]
    · exact ih _ (by rw [huses, Bool.true_or])

/-- The spends before the first v3 spend. -/
def beforeV3 (spends : List TxOut) : List TxOut := spends.takeWhile fun txout => !looksV3 txout

theorem scanSpends_xcoinV3 :
    ∀ (spends : List TxOut) (uses : Features), uses.xcoinV3 = false →
      (uses.bip341Taproot && uses.bip143Segwit) = false →
      (scanSpends uses spends).xcoinV3 =
        (spends.any looksV3 &&
          !((uses.bip341Taproot || (beforeV3 spends).any looksTaproot) &&
            (uses.bip143Segwit || (beforeV3 spends).any looksOther))) := by
  intro spends
  induction spends with
  | nil =>
    intro uses huses _
    exact huses
  | cons txout rest ih =>
    intro uses huses hopen
    cases hv3 : looksV3 txout with
    | true =>
      -- nothing stands before it, and the scan was still open
      have hfirst : beforeV3 (txout :: rest) = [] := by simp [beforeV3, hv3]
      rw [hfirst, List.any_cons, hv3]
      simp only [List.any_nil, Bool.or_false, hopen, Bool.true_or, Bool.not_false,
        Bool.and_self]
      rw [scanSpends, addSpend_eq, hv3]
      split_ifs
      · exact Bool.or_true _
      · exact scanSpends_xcoinV3_of_uses rest _ (Bool.or_true _)
    | false =>
      have hnext : beforeV3 (txout :: rest) = txout :: beforeV3 rest := by
        simp [beforeV3, hv3]
      rw [hnext, List.any_cons, List.any_cons, List.any_cons, hv3, Bool.false_or,
        ← Bool.or_assoc, ← Bool.or_assoc, scanSpends, addSpend_eq, hv3, huses, Bool.or_false,
        Bool.or_false]
      dsimp only
      split_ifs with hstop
      · rw [(Bool.and_eq_true_iff.mp hstop).1, (Bool.and_eq_true_iff.mp hstop).2]
        simp
      · exact ih _ rfl (Bool.eq_false_of_not_eq_true hstop)

/-! ## The data -/

/-- What the spends with a witness need is ready. -/
structure DataReady (spends : List TxOut) (data : PrecomputedTransactionData) : Prop where
  v3 : (∃ txout ∈ spends, looksV3 txout = true) →
    data.bip341TaprootReady = true ∧ data.ctvReady = true
  bip143 : (∃ txout ∈ spends, isProgramOf 1 txout = false ∧ isProgramOf 3 txout = false) →
    data.bip143SegwitReady = true

/-- The spends before the first v3 spend do not end the scan, and a spend of no 32-byte program of
version 1 or 3 comes with one that does not look like such a program. -/
structure ScanSees (spends : List TxOut) : Prop where
  template : (∃ txout ∈ spends, looksV3 txout = true) →
    (beforeV3 spends).any looksTaproot = false ∨ (beforeV3 spends).any looksOther = false
  others : (∃ txout ∈ spends, isProgramOf 1 txout = false ∧ isProgramOf 3 txout = false) →
    ∃ txout ∈ spends, looksOther txout = true

/-- **Readiness.**  With the outputs of all inputs given, the data that the spends need is ready
exactly if the scan sees every need. -/
theorem initTransactionData_ready_iff (hashes : HashFunctions) (tx : Transaction)
    (spentOutputs : List TxOut) (hcomplete : spentOutputs.length = tx.vin.length) :
    ∃ data, initTransactionData hashes tx spentOutputs false = some data ∧
      (DataReady (witnessSpends tx.vin spentOutputs) data ↔
        ScanSees (witnessSpends tx.vin spentOutputs)) := by
  have hscan := scanInputs_eq tx.vin spentOutputs ⟨false, false, false⟩ hcomplete rfl
  have hsegwit := scanSpends_bip143Segwit (witnessSpends tx.vin spentOutputs) ⟨false, false, false⟩
  have htaproot :=
    scanSpends_bip341Taproot (witnessSpends tx.vin spentOutputs) ⟨false, false, false⟩
  have hv3 :=
    scanSpends_xcoinV3 (witnessSpends tx.vin spentOutputs) ⟨false, false, false⟩ rfl rfl
  rw [← hscan, Bool.false_or] at hsegwit htaproot
  rw [← hscan, Bool.false_or, Bool.false_or] at hv3
  unfold initTransactionData
  rw [if_neg (fun h => h.2 hcomplete)]
  refine ⟨_, rfl, ?_, ?_⟩
  · -- what is ready shows what the scan saw before it stopped
    intro hready
    refine ⟨fun hspend => ?_, fun hspend => ?_⟩
    · have htemplate := (hready.v3 hspend).2
      dsimp only at htemplate
      rw [hv3] at htemplate
      have hstop := (Bool.and_eq_true_iff.mp htemplate).2
      rw [Bool.not_eq_true', Bool.and_eq_false_iff] at hstop
      exact hstop
    · have hready143 := hready.bip143 hspend
      dsimp only at hready143
      rw [hsegwit] at hready143
      exact List.any_eq_true.mp hready143
  · intro hsees
    refine ⟨fun hspend => ⟨?_, ?_⟩, fun hspend => ?_⟩
    · obtain ⟨txout, hmem, hlooks⟩ := hspend
      have hany : ((witnessSpends tx.vin spentOutputs).any fun txout =>
          looksTaproot txout || looksV3 txout) = true :=
        List.any_eq_true.mpr ⟨txout, hmem, by rw [hlooks, Bool.or_true]⟩
      have hnonempty : spentOutputs.isEmpty = false := by
        cases spentOutputs with
        | nil => simp [witnessSpends] at hmem
        | cons first rest => rfl
      dsimp only
      rw [htaproot, hany, hnonempty]
      rfl
    · have hstop := hsees.template hspend
      dsimp only
      rw [hv3, List.any_eq_true.mpr hspend, Bool.true_and, Bool.not_eq_true',
        Bool.and_eq_false_iff]
      exact hstop
    · dsimp only
      rw [hsegwit]
      exact List.any_eq_true.mpr (hsees.others hspend)

/-! ## A late v3 spend -/

/-- An input with this witness. -/
def spendWith (witness : List Bytes) (n : UInt32) : TxIn := ⟨⟨1, n⟩, [], 0, witness⟩

/-- A taproot spend, a v0 spend and a v3 spend, in this order. -/
def lateV3Transaction : Transaction :=
  ⟨2, [spendWith [[1]] 0, spendWith [[1]] 1, spendWith [[1]] 2], [], 0⟩

/-- Spent outputs, the witness v3 one last. -/
def lateV3Outputs : List TxOut :=
  [⟨1, 0x51 :: 0x20 :: List.replicate 32 1⟩, ⟨1, 0x00 :: 0x14 :: List.replicate 20 1⟩,
    ⟨1, v3Output (List.replicate 32 1)⟩]

/-- The template data is missing. -/
theorem lateV3_template_not_ready :
    ∃ data, initTransactionData constantHashes lateV3Transaction lateV3Outputs false = some data ∧
      lateV3Outputs.length = lateV3Transaction.vin.length ∧
      ¬DataReady (witnessSpends lateV3Transaction.vin lateV3Outputs) data := by
  refine ⟨_, rfl, rfl, fun hready => ?_⟩
  have hspend : ∃ txout ∈ witnessSpends lateV3Transaction.vin lateV3Outputs,
      looksV3 txout = true := by decide
  have htemplate := (hready.v3 hspend).2
  revert htemplate
  decide

/-- The v3 spend comes first. -/
def earlyV3Outputs : List TxOut := lateV3Outputs.reverse

theorem earlyV3_sees : ScanSees (witnessSpends lateV3Transaction.vin earlyV3Outputs) := by
  refine ⟨fun _ => ?_, fun _ => ?_⟩
  · decide
  · decide

theorem earlyV3_ready :
    ∃ data, initTransactionData constantHashes lateV3Transaction earlyV3Outputs false = some data ∧
      DataReady (witnessSpends lateV3Transaction.vin earlyV3Outputs) data := by
  obtain ⟨data, hdata, hiff⟩ := initTransactionData_ready_iff constantHashes lateV3Transaction
    earlyV3Outputs rfl
  exact ⟨data, hdata, hiff.mpr earlyV3_sees⟩

end XCoin.Script
