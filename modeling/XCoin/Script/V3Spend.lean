import XCoin.Script.LeafTemplate

/-!
# Spends through a leaf

A spend of a v3 output through some leaf, whatever the leaf's script.  The structure carries what
the shape of the witness and the commitment give: the leaf runs on the items before it, the
precomputed data is there, a signature check of the leaf is a check on the v3 signature hash
whatever is left of the budget (`checkSigV3_iff`), and the items pay for themselves
(`sum_length_items_le`).
-/

namespace XCoin.Script

open Consensus

variable (algorithm : LeafAlgorithm)

/-- A spend of a v3 output through a leaf: input `nIn` of `tx` has a witness that ends in the leaf
script, its control block and perhaps an annex, and it spends `OP_3 <root>`. -/
structure V3Spend (hashes : HashFunctions) where
  tx : Transaction
  spentOutputs : List TxOut
  nIn : ℕ
  txin : TxIn
  txout : TxOut
  root : Bytes
  algorithm : LeafAlgorithm
  script : Bytes
  control : Bytes
  /-- the witness items before the leaf script -/
  items : List Bytes
  annex : Option Bytes
  commits : CommitsLeaf hashes algorithm.leafVersion script control root
  annex_tagged : ∀ item ∈ annex, item.head? = some annexTag
  spentOutputs_length : spentOutputs.length = tx.vin.length
  input : tx.vin[nIn]? = some txin
  output : spentOutputs[nIn]? = some txout
  witness_eq : txin.scriptWitness = items ++ [script, control] ++ annex.toList
  scriptPubKey_eq : txout.scriptPubKey = v3Output root

theorem commitsLeaf_single (hashes : HashFunctions) (leafVersion : UInt8) (script : Bytes) :
    CommitsLeaf hashes leafVersion script (controlBlock hashes leafVersion [])
      (computeXcoinLeafHash hashes leafVersion script) :=
  ⟨[], fun _ hnode => absurd hnode List.not_mem_nil, Nat.zero_le _, rfl, rfl⟩

theorem annex_tagged_none : ∀ item ∈ (none : Option Bytes), item.head? = some annexTag := by
  intro item hitem
  cases hitem

theorem LeafAlgorithm.leafVersion_mask :
    algorithm.leafVersion &&& taprootLeafMask = algorithm.leafVersion := by
  cases algorithm <;> decide

theorem LeafAlgorithm.leafVersion_bit : algorithm.leafVersion &&& ~~~taprootLeafMask = 0 := by
  cases algorithm <;> decide

theorem LeafAlgorithm.leafVersion_ne_annexTag : algorithm.leafVersion ≠ annexTag := by
  cases algorithm <;> decide

theorem LeafAlgorithm.extension_isSome : algorithm.sigversion.extension.isSome = true := by
  cases algorithm <;> rfl

theorem LeafAlgorithm.isXcoinV3Tapscript : algorithm.sigversion.isXcoinV3Tapscript = true := by
  cases algorithm <;> rfl

theorem LeafAlgorithm.scriptLimits : algorithm.sigversion.scriptLimits = true := by
  cases algorithm <;> rfl

namespace V3Spend

variable {hashes : HashFunctions} (spend : V3Spend hashes)

/-- The v3 signature hash for a hash type, the leaf and the annex. -/
def signatureHash (hashType : UInt8) : Bytes :=
  ((initTransactionData hashes spend.tx spend.spentOutputs false).bind
    (signatureHashXcoinV3 hashes spend.tx spend.nIn hashType spend.algorithm.sigversion
      ⟨computeXcoinLeafHash hashes spend.algorithm.leafVersion spend.script, 0xffffffff,
        spend.annex.map fun annex => hashes.sha256 (serializeBytes annex), 0⟩)).getD []

/-- The execution data of the leaf. -/
def execdata : ExecData :=
  leafExecData hashes spend.txin.scriptWitness
    (computeXcoinLeafHash hashes spend.algorithm.leafVersion spend.script)

/-- The environment in which the leaf runs. -/
def env (primitives : Primitives) (others : OtherChecks) : Env :=
  { inputEnv hashes primitives others blockScriptFlags spend.tx spend.spentOutputs spend.nIn with
    sigversion := spend.algorithm.sigversion }

theorem requireMinimal_env {spend : V3Spend hashes} {primitives : Primitives}
    {others : OtherChecks} : (spend.env primitives others).requireMinimal = false := by
  simp [Env.requireMinimal, env, inputEnv, blockScriptFlags]

theorem length_root : spend.root.length = 32 := by
  obtain ⟨path, _, _, _, hroot⟩ := spend.commits
  rw [hroot]
  induction path using List.reverseRecOn with
  | nil => exact length_taggedHash _ _ _
  | append_singleton path node ih =>
    rw [List.foldl_append]
    exact length_taggedHash _ _ _

theorem scriptCheck_eq (hscriptSig : spend.txin.scriptSig = [])
    (hroot : castToBool spend.root = true) (primitives : Primitives) (others : OtherChecks) :
    scriptCheck hashes primitives others blockScriptFlags spend.tx spend.spentOutputs spend.nIn =
      executeWitnessScript (spend.env primitives others) spend.items spend.script spend.execdata
        .none := by
  have hmask := spend.algorithm.leafVersion_mask
  have hcontrol := spend.commits.controlLeafVersion_eq hmask
  unfold scriptCheck
  rw [spend.input, spend.output]
  simp only [hscriptSig, spend.scriptPubKey_eq]
  rw [verifyScript_v3Output spend.length_root hroot (by simp [inputEnv, blockScriptFlags])
    (by simp [inputEnv, blockScriptFlags]), spend.witness_eq,
    verifyXcoinV3Program_of_commitsLeaf (by simp [inputEnv, blockScriptFlags]) spend.commits hmask
      spend.algorithm.leafVersion_bit spend.algorithm.leafVersion_ne_annexTag spend.annex_tagged]
  unfold executeXcoinV3Leaf controlLeafHash execdata env
  rw [hcontrol, ← spend.witness_eq]
  cases spend.algorithm <;> rfl

theorem exists_cache : ∃ cache,
    initTransactionData hashes spend.tx spend.spentOutputs false = some cache ∧
      cache.bip341TaprootReady = true ∧ cache.spentOutputsReady = true ∧
      cache.spentOutputs = spend.spentOutputs := by
  refine initTransactionData_ready spend.spentOutputs_length spend.input spend.output ?_ ?_
  · rw [spend.witness_eq]
    simp
  · rw [spend.scriptPubKey_eq]
    simp [looksLikeProgram, v3Output, spend.length_root, byteAt]

theorem annexHash_eq : spend.execdata.annexHash =
    spend.annex.map fun annex => hashes.sha256 (serializeBytes annex) := by
  have htag : spend.control.head? ≠ some annexTag := by
    obtain ⟨path, _, _, hcontrol, _⟩ := spend.commits
    rw [hcontrol, controlBlock, List.head?_cons]
    exact fun hsome => spend.algorithm.leafVersion_ne_annexTag (Option.some.inj hsome)
  simp only [execdata, leafExecData, spend.witness_eq, annexOf_append htag spend.annex_tagged]

/-- The execution data is that of the leaf, before any code separator and with any budget. -/
structure IsLeafData (execdata : ExecData) : Prop where
  tapleafHash : execdata.tapleafHash = spend.execdata.tapleafHash
  annexHash : execdata.annexHash = spend.execdata.annexHash
  codeseparatorPos : execdata.codeseparatorPos = 0xffffffff

/-- The hash that the checker computes is the leaf's, whatever is left of the budget. -/
theorem signatureHash_eq {cache : PrecomputedTransactionData} {execdata : ExecData}
    (hcache : initTransactionData hashes spend.tx spend.spentOutputs false = some cache)
    (hdata : spend.IsLeafData execdata) :
    (fun hashType => (signatureHashXcoinV3 hashes spend.tx spend.nIn hashType
      spend.algorithm.sigversion execdata cache).getD []) = spend.signatureHash := by
  funext hashType
  unfold signatureHash signatureHashXcoinV3 bip341Message messageLeaf
  simp only [hcache, hdata.tapleafHash, hdata.annexHash, hdata.codeseparatorPos,
    spend.annexHash_eq, Option.bind_some]
  rfl

/-- **Signature checks of a leaf.**  They succeed exactly on the valid signatures. -/
theorem checkSigV3_iff {primitives : Primitives} {keySize sigSize : ℕ}
    {verify : Bytes → Bytes → Bytes → Bool} {sig pubkey : Bytes} {execdata : ExecData}
    (hdata : spend.IsLeafData execdata) :
    ((spendContext hashes primitives spend.tx spend.spentOutputs spend.nIn).checkSigV3 keySize
      sigSize spend.algorithm.sigversion verify sig pubkey execdata).result = .ok () ↔
      pubkey.length = keySize ∧
        ValidSignature spend.tx spend.nIn sigSize spend.signatureHash verify pubkey sig := by
  obtain ⟨cache, hcache, hready, hspent, houtputs⟩ := spend.exists_cache
  have hout : cache.spentOutputs[spend.nIn]? = some spend.txout := by
    rw [houtputs, spend.output]
  rw [← spend.signatureHash_eq hcache hdata]
  exact checkSigV3_iff_validSignature spend.algorithm.extension_isSome hcache spend.input hready
    hspent hout

theorem sum_length_items_le :
    ((spend.items.map List.length).sum : ℤ) ≤ spend.execdata.validationWeightLeft := by
  have hitems : (spend.items.map List.length).sum ≤
      (spend.txin.scriptWitness.map List.length).sum := by
    rw [spend.witness_eq]
    simp only [List.map_append, List.sum_append, List.append_assoc]
    omega
  have hsize := sum_length_le_length_serializeStack spend.txin.scriptWitness
  simp only [execdata, leafExecData, validationWeightOffset]
  omega

end V3Spend

end XCoin.Script
