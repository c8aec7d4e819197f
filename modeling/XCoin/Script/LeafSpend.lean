import XCoin.Script.V3Spend

/-!
# Spends through a leaf template

What a leaf template means for a transaction.  A spend through it is valid exactly
when the witness holds one signature for the key (and, for ML-DSA, the public key
that hashes to it), the signature is over the v3 signature hash, and the lock is
satisfied; no other item, no other length and no other hash type gets through.
-/

namespace XCoin.Script

open Consensus

/-! ## What a lock asks of the transaction -/

theorem and_sequenceMask (n : ℕ) :
    n &&& sequenceMask = 2 ^ 22 * (n / 2 ^ 22 % 2) + n % 2 ^ 16 := by
  have hmask : sequenceMask = 2 ^ 22 ||| (2 ^ 16 - 1) := by decide
  have hbit : n &&& 2 ^ 22 = 2 ^ 22 * (n / 2 ^ 22 % 2) := by
    rw [Nat.and_two_pow, Nat.toNat_testBit, mul_comm]
  rw [hmask, Nat.and_or_distrib_left, hbit, Nat.and_two_pow_sub_one_eq_mod,
    Nat.two_pow_add_eq_or_of_lt (lt_trans (Nat.mod_lt _ (by decide)) (by decide))]

/-- The lock of a template is satisfied by an input.  An absolute lock: the transaction has a
lock time of the same kind (height or time) that is not earlier, and the input is not final.
A relative lock: the version is at least 2, and the sequence number is a relative lock of
the same kind that is not shorter. -/
def TimelockSatisfied (template : XcoinV3LeafTemplate) (tx : Transaction) (txin : TxIn) : Prop :=
  match template.timelock with
  | .none => True
  | .after =>
    (tx.nLockTime.toNat < 500000000 ↔ template.timelockValue < 500000000) ∧
      template.timelockValue ≤ tx.nLockTime.toNat ∧ txin.nSequence ≠ 0xffffffff
  | .older =>
    2 ≤ tx.version.toNat ∧ txin.nSequence.toNat < 2 ^ 31 ∧
      txin.nSequence.toNat / 2 ^ 22 % 2 = template.timelockValue / 2 ^ 22 % 2 ∧
      template.timelockValue % 2 ^ 16 ≤ txin.nSequence.toNat % 2 ^ 16

theorem lockHolds_iff {template : XcoinV3LeafTemplate} {context : SpendContext}
    {others : OtherChecks} {txin : TxIn} (hin : context.tx.vin[context.nIn]? = some txin) :
    lockHolds (context.checker others) template = true ↔
      TimelockSatisfied template context.tx txin := by
  unfold lockHolds TimelockSatisfied
  cases template.timelock with
  | none => simp
  | after =>
    simp only [SpendContext.checker, SpendContext.checkLockTime, locktimeThreshold, hin]
    split_ifs with hkind hreached
    · simp only [false_iff]
      omega
    · simp only [decide_eq_true_eq]
      constructor
      · intro hsequence
        exact ⟨by omega, by omega, hsequence⟩
      · exact fun hsatisfied => hsatisfied.2.2
    · simp only [false_iff]
      omega
  | older =>
    have hrange := txin.nSequence.toNat_lt
    simp only [SpendContext.checker, SpendContext.checkSequence, hin, Int.toNat_natCast,
      and_sequenceMask, sequenceLocktimeTypeFlag]
    split_ifs with hversion hdisabled hkind
    · simp only [false_iff]
      omega
    · simp only [false_iff]
      omega
    · simp only [decide_eq_true_eq]
      omega
    · simp only [false_iff]
      omega

/-! ## Spends through a template -/

/-- A spend of a v3 output through a leaf that is a template, with an empty script signature and
a root that is true as a stack value. -/
structure LeafSpend (hashes : HashFunctions) extends V3Spend hashes where
  template : XcoinV3LeafTemplate
  parsed : parseXcoinV3LeafTemplate algorithm.leafVersion script = some template
  root_true : castToBool root = true
  scriptSig_empty : txin.scriptSig = []

namespace LeafSpend

variable {hashes : HashFunctions} (spend : LeafSpend hashes)

/-- The items are exactly the public key and its signature, or the signature alone. -/
def ItemsValid (primitives : Primitives) : Prop :=
  match spend.template.algorithm with
  | .mldsa => ∃ pubkey sig, spend.items = [pubkey, sig] ∧ pubkey.length = pqPubkeySize ∧
      hashes.sha256 pubkey = spend.template.key ∧
      ValidSignature spend.tx spend.nIn pqSignatureSize spend.signatureHash
        primitives.verifyMldsa pubkey sig
  | .slh => ∃ sig, spend.items = [sig] ∧
      ValidSignature spend.tx spend.nIn slhSignatureSize spend.signatureHash
        primitives.verifySlh spend.template.key sig

theorem algorithm_eq : spend.template.algorithm = spend.algorithm := by
  have hversion := (parseXcoinV3LeafTemplate_eq_some spend.parsed).1
  revert hversion
  cases spend.algorithm <;> cases spend.template.algorithm <;> decide

theorem length_key : spend.template.key.length = 32 :=
  (parseXcoinV3LeafTemplate_eq_some spend.parsed).2.1

section Verify

variable (primitives : Primitives) (others : OtherChecks)

theorem length_item_le {item : Bytes} (hitem : item ∈ spend.items) :
    (item.length : ℤ) ≤ spend.execdata.validationWeightLeft := by
  have hsingle : item.length ≤ (spend.items.map List.length).sum :=
    List.single_le_sum (by simp) _ (List.mem_map_of_mem hitem)
  exact le_trans (by exact_mod_cast hsingle) spend.sum_length_items_le

/-- The stack satisfies the signature opcode exactly when the items are valid. -/
theorem signatureResult_iff :
    (∃ m, SignatureResult (spend.env primitives others) spend.template.algorithm
      ((Machine.start spend.items.reverse spend.script spend.execdata .none).atChecksig
        spend.template.key) spend.template.key spend.items.reverse [] m true) ↔
      spend.ItemsValid primitives := by
  have hcheck : ∀ keySize sigSize verify sig pubkey weight,
      ((spendContext hashes primitives spend.tx spend.spentOutputs spend.nIn).checkSigV3 keySize
        sigSize spend.algorithm.sigversion verify sig pubkey
        (((Machine.start spend.items.reverse spend.script spend.execdata .none).atChecksig
          spend.template.key).spend weight).execdata).result = .ok () ↔
      pubkey.length = keySize ∧
        ValidSignature spend.tx spend.nIn sigSize spend.signatureHash verify pubkey sig := by
    intro keySize sigSize verify sig pubkey weight
    exact spend.checkSigV3_iff ⟨rfl, rfl, rfl⟩
  have hkey := spend.length_key
  have hitems := fun item => @length_item_le hashes spend item
  unfold SignatureResult ItemsValid
  cases halgorithm : spend.template.algorithm with
  | mldsa =>
    simp only [evalChecksigXcoinV3_eq_true hkey, checkPubkeyAndSigV3_eq_ok]
    rw [← spend.algorithm_eq, halgorithm] at hcheck
    constructor
    · rintro ⟨_, sig, pubkey, hreverse, _, _, hlength, hhash, hresult, _, _⟩
      have hlist : spend.items = [pubkey, sig] := by
        rw [← List.reverse_reverse spend.items, hreverse]
        rfl
      exact ⟨pubkey, sig, hlist, hlength, hhash, ((hcheck _ _ _ _ _ _).mp hresult).2⟩
    · rintro ⟨pubkey, sig, hlist, hlength, hhash, hvalid⟩
      have hsize := hvalid.length_ge.1
      have hweight := hitems sig (by simp [hlist])
      simp only [pqSignatureSize] at hsize
      refine ⟨_, sig, pubkey, by simp [hlist], ?_, ?_, hlength, hhash,
        (hcheck _ _ _ _ _ _).mpr ⟨hlength, hvalid⟩, rfl, trivial⟩
      · rintro rfl
        simp at hsize
      · show (200 : ℤ) ≤ spend.execdata.validationWeightLeft
        omega
  | slh =>
    simp only [evalChecksigXcoinSlh_eq_true hkey, checkSigSlh_eq_ok]
    rw [← spend.algorithm_eq, halgorithm] at hcheck
    constructor
    · rintro ⟨_, sig, hreverse, _, _, hresult, _, _⟩
      have hlist : spend.items = [sig] := by
        rw [← List.reverse_reverse spend.items, hreverse]
        rfl
      exact ⟨sig, hlist, ((hcheck _ _ _ _ _ _).mp hresult).2⟩
    · rintro ⟨sig, hlist, hvalid⟩
      have hsize := hvalid.length_ge.1
      have hweight := hitems sig (by simp [hlist])
      simp only [slhSignatureSize] at hsize
      refine ⟨_, sig, by simp [hlist], ?_, ?_, (hcheck _ _ _ _ _ _).mpr ⟨hkey, hvalid⟩, rfl,
        trivial⟩
      · rintro rfl
        simp at hsize
      · show (1080 : ℤ) ≤ spend.execdata.validationWeightLeft
        omega

theorem ItemsValid.limits {spend : LeafSpend hashes} {primitives : Primitives}
    (hvalid : spend.ItemsValid primitives) :
    spend.items.length ≤ maxStackSize ∧
      ∀ item ∈ spend.items, item.length ≤ maxXcoinV3InitialElementSize := by
  unfold ItemsValid at hvalid
  unfold maxStackSize maxXcoinV3InitialElementSize
  cases halgorithm : spend.template.algorithm with
  | mldsa =>
    rw [halgorithm] at hvalid
    obtain ⟨pubkey, sig, hlist, hlength, _, hsig⟩ := hvalid
    have hsize := hsig.length_ge.2
    simp only [pqSignatureSize] at hsize
    simp only [pqPubkeySize] at hlength
    simp only [hlist, List.length_cons, List.length_nil, List.mem_cons, List.not_mem_nil,
      or_false, forall_eq_or_imp, forall_eq]
    omega
  | slh =>
    rw [halgorithm] at hvalid
    obtain ⟨sig, hlist, hsig⟩ := hvalid
    have hsize := hsig.length_ge.2
    simp only [slhSignatureSize] at hsize
    simp only [hlist, List.length_cons, List.length_nil, List.mem_cons, List.not_mem_nil,
      or_false, forall_eq]
    omega

/-- **Spends through a leaf template.**  Under the flags of a block, the check of the input
succeeds exactly when the items are the key and signature that the template asks for,
the signature is valid on the v3 signature hash, and the lock is satisfied. -/
theorem scriptCheck_isOk_iff :
    (scriptCheck hashes primitives others blockScriptFlags spend.tx spend.spentOutputs
      spend.nIn).isOk = true ↔
      spend.ItemsValid primitives ∧ TimelockSatisfied spend.template spend.tx spend.txin := by
  obtain ⟨_, hkey, ops, hops, htemplate⟩ := parseXcoinV3LeafTemplate_eq_some spend.parsed
  have hv3 : (spend.env primitives others).sigversion.isXcoinV3Tapscript = true :=
    spend.algorithm.isXcoinV3Tapscript
  have hscan : scanOpSuccess (spend.env primitives others).flags (scriptOps spend.script) =
      none := by
    rw [hops]
    exact htemplate.scanOpSuccess_eq_none _
  have hcltv : ScriptFlag.checklocktimeverify ∈ (spend.env primitives others).flags := by
    simp [V3Spend.env, inputEnv, blockScriptFlags]
  have hcsv : ScriptFlag.checksequenceverify ∈ (spend.env primitives others).flags := by
    simp [V3Spend.env, inputEnv, blockScriptFlags]
  have hlocks := @lockHolds_iff spend.template
    (spendContext hashes primitives spend.tx spend.spentOutputs spend.nIn) others spend.txin
    spend.input
  have haccepts := @TemplateOps.accepts_iff (spend.env primitives others) spend.template
    spend.script spend.items.reverse spend.execdata .none ops
    (congrArg LeafAlgorithm.sigversion spend.algorithm_eq.symm) hcltv hcsv
    V3Spend.requireMinimal_env hkey hops htemplate
  rw [spend.scriptCheck_eq spend.scriptSig_empty spend.root_true,
    executeWitnessScript_isOk_iff hv3 hscan, haccepts, spend.signatureResult_iff]
  constructor
  · rintro ⟨_, _, hitems, hlock⟩
    exact ⟨hitems, hlocks.mp hlock⟩
  · rintro ⟨hitems, hlock⟩
    exact ⟨hitems.limits.1, hitems.limits.2, hitems, hlocks.mpr hlock⟩

end Verify

end LeafSpend

/-! ## A spend -/

/-- Hash functions that return one digest, for a spend that can be written down. -/
def constantHashes : HashFunctions where
  sha256 _ := List.replicate 32 1
  sha1 _ := List.replicate 20 1
  ripemd160 _ := List.replicate 20 1
  length_sha256 _ := List.length_replicate
  length_sha1 _ := List.length_replicate
  length_ripemd160 _ := List.length_replicate

/-- Checks of the other algorithms that always fail: a leaf of a template asks none of them. -/
def noOtherChecks : OtherChecks where
  checkPQSig _ _ _ _ := false
  checkSchnorrSignature _ _ _ _ := .error .schnorrSig
  evalChecksigPreTapscript _ _ _ _ _ := .error .unknownError
  evalCheckMultisig _ _ _ _ _ := .error .unknownError
  verifyTaprootCommitment _ _ _ := false

/-- `<key> OP_CHECKSIGVERIFY 1 OP_CHECKLOCKTIMEVERIFY`. -/
def lockedLeafScript : Bytes := 0x20 :: (List.replicate 32 1 ++ [0xad, 0x51, 0xb1])

/-- The control block of a one-leaf tree. -/
def lockedLeafControl : Bytes := controlBlock constantHashes xcoinLeafPq []

/-- The input that reveals the leaf. -/
def lockedLeafInput : TxIn where
  prevout := ⟨0, 0⟩
  scriptSig := []
  nSequence := 0
  scriptWitness := [List.replicate 1952 0, List.replicate 3309 0] ++
    [lockedLeafScript, lockedLeafControl] ++ [[annexTag]]

/-- A spend with an annex through an ML-DSA leaf that is locked until height 1. -/
def lockedLeafSpend : LeafSpend constantHashes where
  tx := ⟨2, [lockedLeafInput], [], 1⟩
  spentOutputs := [⟨0, v3Output (List.replicate 32 1)⟩]
  nIn := 0
  txin := lockedLeafInput
  txout := ⟨0, v3Output (List.replicate 32 1)⟩
  root := List.replicate 32 1
  algorithm := .mldsa
  script := lockedLeafScript
  control := lockedLeafControl
  template := ⟨.mldsa, List.replicate 32 1, .after, 1⟩
  items := [List.replicate 1952 0, List.replicate 3309 0]
  annex := some [annexTag]
  parsed := by decide
  commits := ⟨[], by simp, by simp, rfl, rfl⟩
  root_true := by decide
  annex_tagged := by simp
  spentOutputs_length := rfl
  input := rfl
  output := rfl
  scriptSig_empty := rfl
  witness_eq := rfl
  scriptPubKey_eq := rfl

/-- With a primitive that accepts, the spend is valid. -/
theorem lockedLeafSpend_isOk :
    (scriptCheck constantHashes ⟨fun _ _ _ => true, fun _ _ _ => true⟩ noOtherChecks
      blockScriptFlags lockedLeafSpend.tx lockedLeafSpend.spentOutputs
      lockedLeafSpend.nIn).isOk = true := by
  rw [LeafSpend.scriptCheck_isOk_iff]
  refine ⟨⟨List.replicate 1952 0, List.replicate 3309 0, rfl, List.length_replicate, rfl,
    List.replicate 3309 0, sighashDefault, List.length_replicate, Or.inl ⟨rfl, rfl⟩, ?_, rfl⟩, ?_⟩
  · intro hsingle
    exact absurd hsingle (by decide)
  · exact ⟨by decide, by decide, by decide⟩

/-! ## Roots that are false -/

/-- **Unspendable roots.**  The root is a stack value before the witness is looked at.  An output
whose root is false as a stack value is spent by no input. -/
theorem scriptCheck_of_falseRoot (hashes : HashFunctions) (primitives : Primitives)
    (others : OtherChecks) (tx : Transaction) {spentOutputs : List TxOut} {nIn : ℕ} {txout : TxOut}
    {root : Bytes} (hout : spentOutputs[nIn]? = some txout)
    (hscript : txout.scriptPubKey = v3Output root) (hlength : root.length = 32)
    (hfalse : castToBool root = false) :
    (scriptCheck hashes primitives others blockScriptFlags tx spentOutputs nIn).isOk = false := by
  unfold scriptCheck
  rw [hout]
  cases tx.vin[nIn]? with
  | none => rfl
  | some txin =>
    simp only [hscript]
    by_cases hempty : txin.scriptSig = []
    · obtain ⟨m, heval, hstack, -⟩ := evalBase_v3Output (inputEnv hashes primitives others
        blockScriptFlags tx spentOutputs nIn) hlength .none
      have htop : checkTopTrue m = m.fail .evalFalse := by simp [checkTopTrue, hstack, hfalse]
      rw [hempty, verifyScript_of_length (by simp [v3Output, hlength]), heval, Except.ok_bind,
        htop]
      rfl
    · -- beside a witness program a script signature must be empty
      refine Bool.eq_false_iff.mpr fun hok => ?_
      rw [verifyScript] at hok
      split_ifs at hok
      · cases hok
      obtain ⟨first, -, hok⟩ := Except.isOk_bind_iff.mp hok
      obtain ⟨m, -, hok⟩ := Except.isOk_bind_iff.mp hok
      obtain ⟨-, -, hok⟩ := Except.isOk_bind_iff.mp hok
      obtain ⟨state, hprogram, -⟩ := Except.isOk_bind_iff.mp hok
      simp [verifyProgramOf, isWitnessProgram_v3Output hlength, hempty, inputEnv,
        blockScriptFlags] at hprogram

theorem zeroRoot_not_spent :
    (scriptCheck constantHashes ⟨fun _ _ _ => true, fun _ _ _ => true⟩ noOtherChecks
      blockScriptFlags lockedLeafSpend.tx [⟨0, v3Output (List.replicate 32 0)⟩] 0).isOk = false :=
  scriptCheck_of_falseRoot _ _ _ _ rfl rfl rfl (by decide)

end XCoin.Script
