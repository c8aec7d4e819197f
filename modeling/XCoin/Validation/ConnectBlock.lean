import XCoin.Emission.Subsidy
import XCoin.Validation.TxVerify

/-!
# Connecting a block

`CheckBlock`, `Chainstate::ConnectBlock` and the chain that connecting one block
after another builds.  Script verification, sequence locks, signature-operation
counts, proof of work, Merkle roots and hashes are parameters of the model
(`Env`): nothing below depends on what they compute.

`ConnectBlock` works on a `BlockValidationState` that a failed check marks
invalid; the transaction loop then stops, but the code after the loop still runs
and forms the block reward.  `ConnectState.invalid` is that mark, and the model
computes the same sums on the same paths.  `fChecked`, a cache of an earlier
`CheckBlock` of the same block, is left out, and writing the undo data to disk is
taken to succeed.
-/

namespace XCoin.Validation

open Consensus Script

variable (env : Env) (params : Params) (pindex : BlockIndex) (block : Block) (tx : Transaction)
  (st : ConnectState) {α : Type} (reason : RejectReason) (chain : ChainState) (view : CoinsView)

/-! ## The parameters -/

/-- The outcome of `CheckMerkleRoot`. -/
inductive MerkleCheck where
  | ok
  | mismatch
  | mutated
deriving DecidableEq, Repr

/-- A block's place in the chain: its hash, its height, and the hashes of the
blocks below it, the parent first. -/
structure BlockIndex where
  hash : Uint256
  nHeight : ℤ
  ancestors : List Uint256
deriving DecidableEq, Repr

/-- What the modelled functions take from the rest of the node. -/
structure Env where
  /-- `CTransaction::GetHash` -/
  txid : Transaction → Uint256
  /-- `CBlockHeader::GetHash` -/
  getHash : BlockHeader → Uint256
  /-- `CheckProofOfWork(block, block.nBits, params)` -/
  checkProofOfWork : BlockHeader → Bool
  checkMerkleRoot : Block → MerkleCheck
  /-- `GetTransactionSigOpCost` under the flags of the block -/
  getTransactionSigOpCost : Transaction → CoinsView → BlockIndex → ℕ
  /-- `fScriptChecks`: the block is not below the assumed-valid block -/
  fScriptChecks : BlockIndex → Bool
  /-- Whether script checks run on worker threads and are collected at the end -/
  hasThreads : Bool
  /-- Whether every input script of the transaction verifies -/
  checkInputScripts : Transaction → CoinsView → BlockIndex → Bool
  /-- `SequenceLocks` on the heights of the spent coins -/
  sequenceLocks : Transaction → List ℤ → BlockIndex → Bool

/-- A rejection of the block. -/
def blockInvalid : Except Failure α :=
  .error (.invalid .blockConsensus reason)

@[simp] theorem noOverflow_blockInvalid : NoOverflow (blockInvalid reason : Except Failure α) :=
  noOverflow_invalid _ _

@[simp] theorem blockInvalid_ne_ok (a : α) : blockInvalid reason ≠ .ok a := by
  simp [blockInvalid]

/-! ## CheckBlock -/

/-- `GetLegacySigOpCount`. -/
def getLegacySigOpCount : ℕ :=
  (tx.vin.map fun txin => getSigOpCount txin.scriptSig false).sum +
    (tx.vout.map fun txout => getSigOpCount txout.scriptPubKey false).sum

/-- A transaction failure inside a block check is a block failure with its reason. -/
def asBlockFailure (x : Except Failure α) : Except Failure α :=
  match x with
  | .error (.invalid _ reason) => blockInvalid reason
  | other => other

/-- The transaction loop of `CheckBlock`. -/
def checkTransactions (permitV2Outputs : Bool) (minOutputValue : ℤ) :
    List Transaction → Except Failure Unit
  | [] => .ok ()
  | tx :: rest => do
    asBlockFailure (checkTransaction tx permitV2Outputs minOutputValue)
    checkTransactions permitV2Outputs minOutputValue rest

/-- The header and Merkle checks of `CheckBlock`. -/
def checkHeaderAndRoot (fCheckPOW fCheckMerkleRoot : Bool) : Except Failure Unit :=
  if fCheckPOW && !env.checkProofOfWork block.toBlockHeader then
    .error (.invalid .blockInvalidHeader .highHash)
  else if fCheckMerkleRoot then
    match env.checkMerkleRoot block with
    | .ok => .ok ()
    | .mismatch => .error (.invalid .blockMutated .badTxnmrklroot)
    | .mutated => .error (.invalid .blockMutated .badTxnsDuplicate)
  else .ok ()

/-- The size limits, and that the first transaction and no other is a coinbase. -/
def checkBlockShape : Except Failure Unit :=
  if block.vtx.isEmpty || decide (block.vtx.length * witnessScaleFactor > maxBlockWeight) ||
      decide ((serializeBlock false block).length * witnessScaleFactor > maxBlockWeight) then
    blockInvalid .badBlkLength
  else if !((block.vtx.head?.map Transaction.isCoinBase).getD false) then
    blockInvalid .badCbMissing
  else if block.vtx.tail.any Transaction.isCoinBase then blockInvalid .badCbMultiple
  else .ok ()

/-- The sigop check of `CheckBlock`. -/
def checkLegacySigops : Except Failure Unit :=
  if (block.vtx.map getLegacySigOpCount).sum * witnessScaleFactor > maxBlockSigopsCost then
    blockInvalid .badBlkSigops
  else .ok ()

/-- The genesis block is exempt from the output rule and the value floor. -/
def checkBlockTransactions : Except Failure Unit :=
  if env.getHash block.toBlockHeader = params.hashGenesisBlock then
    checkTransactions true 0 block.vtx
  else checkTransactions params.permitV2Outputs params.minOutputValueSat block.vtx

/-- `CheckBlock`. -/
def checkBlock (fCheckPOW fCheckMerkleRoot : Bool) : Except Failure Unit := do
  checkHeaderAndRoot env block fCheckPOW fCheckMerkleRoot
  checkBlockShape block
  checkBlockTransactions env params block
  checkLegacySigops block

/-! ## ConnectBlock -/

/-- The variables of the transaction loop. -/
structure ConnectState where
  view : CoinsView
  /-- `blockundo.vtxundo` -/
  undo : List (List Coin) := []
  nFees : ℤ := 0
  nSigOpsCost : ℕ := 0
  /-- The reason the block state is invalid, if it is. -/
  invalid : Option RejectReason := none
  /-- The script checks handed to the worker threads have all passed. -/
  scriptsOk : Bool := true

/-- A check whose rejection marks the block state invalid; the other failures pass through. -/
def orInvalid (st : ConnectState) (x : Except Failure α) (next : α → Except Failure ConnectState) :
    Except Failure ConnectState :=
  match x with
  | .error (.invalid _ reason) => .ok { st with invalid := some reason }
  | .error failure => .error failure
  | .ok a => next a

/-- The heights of the coins a transaction spends. -/
def prevHeights (tx : Transaction) : List ℤ :=
  tx.vin.map fun txin => ((view.lookup txin.prevout).map Coin.nHeight).getD 0

/-- The part of the loop for a transaction that is not a coinbase: inputs, levy,
fees and sequence locks. -/
def connectFees : Except Failure ConnectState :=
  orInvalid st (checkTxInputs tx st.view pindex.nHeight params.coinbaseMaturity) fun txfee =>
  orInvalid st (checkSettlementLevy tx txfee (params.settlementLevyAt pindex.nHeight)) fun _ => do
    let nFees ← addAmount st.nFees txfee
    if !moneyRange nFees then
      .ok { st with nFees, invalid := some .badTxnsAccumulatedFeeOutofrange }
    else if !env.sequenceLocks tx (prevHeights st.view tx) pindex then
      .ok { st with nFees, invalid := some .badTxnsNonfinal }
    else .ok { st with nFees }

/-- Whether the transaction's scripts pass, or are not looked at. -/
def scriptsPass : Bool :=
  tx.isCoinBase || !env.fScriptChecks pindex || env.checkInputScripts tx view pindex

/-- The signature operations up to and including this transaction. -/
def sigOpsAfter : ℕ :=
  st.nSigOpsCost + env.getTransactionSigOpCost tx st.view pindex

/-- The part of the loop after the fees: signature operations, scripts, coins. -/
def connectCoins (first : Bool) (tx : Transaction) (st : ConnectState) :
    Except Failure ConnectState :=
  if sigOpsAfter env pindex tx st > maxBlockSigopsCost then
    .ok { st with nSigOpsCost := sigOpsAfter env pindex tx st, invalid := some .badBlkSigops }
  else if !scriptsPass env pindex tx st.view && !env.hasThreads then
    .ok { st with
      nSigOpsCost := sigOpsAfter env pindex tx st
      invalid := some .blockScriptVerifyFlagFailed }
  else do
    let updated ← updateCoins st.view (env.txid tx) tx pindex.nHeight
    return { st with
      view := updated.1
      nSigOpsCost := sigOpsAfter env pindex tx st
      undo := if first then st.undo else st.undo ++ [updated.2]
      scriptsOk := st.scriptsOk && scriptsPass env pindex tx st.view }

/-- The fees of a transaction; a coinbase has none. -/
def chargeFees : Except Failure ConnectState :=
  if tx.isCoinBase then .ok st else connectFees env params pindex tx st

/-- One pass of the transaction loop. -/
def connectTx (first : Bool) (tx : Transaction) (st : ConnectState) :
    Except Failure ConnectState := do
  let st ← chargeFees env params pindex tx st
  if st.invalid.isSome then .ok st else connectCoins env pindex first tx st

/-- The transaction loop; it stops once the block state is invalid. -/
def connectTxs (env : Env) (params : Params) (pindex : BlockIndex) :
    Bool → List Transaction → ConnectState → Except Failure ConnectState
  | _, [], st => .ok st
  | first, tx :: rest, st =>
    if st.invalid.isSome then .ok st
    else do
      let st ← connectTx env params pindex first tx st
      connectTxs env params pindex false rest st

/-- The two blocks of the inherited chain that repeat a coinbase. -/
def isBIP30Repeat : Bool :=
  (pindex.nHeight == 91842 &&
      pindex.hash == 0x00000000000a4d0a398161ffc163c503763b1f4360639393e0e4c8e300e0caec#256) ||
    (pindex.nHeight == 91880 &&
      pindex.hash == 0x00000000000743f190a18c5577a3c2d2a1f610ae9601ac046a38084ccb7cd721#256)

/-- `BIP34_IMPLIES_BIP30_LIMIT`. -/
def bip34ImpliesBip30Limit : ℤ := 1983702

/-- `pindex->pprev->GetAncestor(height)`, as a hash. -/
def BlockIndex.ancestorHash (height : ℤ) : Option Uint256 :=
  if height < 0 ∨ pindex.nHeight ≤ height then none
  else pindex.ancestors[(pindex.nHeight - 1 - height).toNat]?

/-- Whether the block is checked against outputs that would replace unspent coins. -/
def enforceBIP30 : Bool :=
  (!isBIP30Repeat pindex && pindex.ancestorHash params.bip34Height != some params.bip34Hash) ||
    decide (bip34ImpliesBip30Limit ≤ pindex.nHeight)

/-- Whether an output of the block names a coin that is still unspent. -/
def overwritesCoin (block : Block) : Bool :=
  block.vtx.any fun tx =>
    (List.range tx.vout.length).any fun o => haveCoin view ⟨env.txid tx, UInt32.ofNat o⟩

/-- The chain that has been connected: its tip, the coins, and the block the coins
view belongs to. -/
structure ChainState where
  tip : BlockIndex
  view : CoinsView
  bestBlock : Uint256

/-- The mark on the block state after all transactions: the coinbase may claim at
most fees plus subsidy, and the collected script checks must have passed. -/
def finalInvalid (coinbaseValue blockReward : ℤ) : Option RejectReason :=
  if st.invalid.isSome then st.invalid
  else if coinbaseValue > blockReward then some .badCbAmount
  else if env.hasThreads && !st.scriptsOk then some .blockScriptVerifyFlagFailed
  else none

/-- The variables before the first transaction.  The check for duplicate outputs
marks the block state without leaving the function. -/
def startConnect (pindex : BlockIndex) (view : CoinsView) : ConnectState where
  view := view
  invalid := if enforceBIP30 params pindex && overwritesCoin env view block then
      some .badTxnsBIP30
    else none

/-- The coinbase of a block that has passed `CheckBlock`. -/
def coinbaseTx : Transaction := block.vtx.headD ⟨0, [], [], 0⟩

/-- `ConnectBlock` for a block that is not the genesis block, after `CheckBlock`. -/
def connectTransactions (pindex : BlockIndex) (view : CoinsView) : Except Failure ConnectState := do
  let st ← connectTxs env params pindex true block.vtx (startConnect env params block pindex view)
  let blockReward ← addAmount st.nFees (getBlockSubsidy pindex.nHeight params)
  let coinbaseValue ← getValueOut (coinbaseTx block)
  match finalInvalid env st coinbaseValue blockReward with
  | some reason => blockInvalid reason
  | none => .ok st

/-- The block index entry of a block connected to the tip. -/
def childIndex (block : Block) : BlockIndex where
  hash := env.getHash block.toBlockHeader
  nHeight := chain.tip.nHeight + 1
  ancestors := chain.tip.hash :: chain.tip.ancestors

/-- `ConnectBlock` after `CheckBlock`. -/
def connectChecked (block : Block) : Except Failure (ChainState × List (List Coin)) :=
  if chain.tip.hash ≠ chain.bestBlock then .error (.exception .assertBestBlock)
  else if (childIndex env chain block).hash = params.hashGenesisBlock then
    -- The genesis coinbase is unspendable: nothing of the block is connected.
    .ok (⟨childIndex env chain block, chain.view, (childIndex env chain block).hash⟩, [])
  else do
    let st ← connectTransactions env params block (childIndex env chain block) chain.view
    return (⟨childIndex env chain block, st.view, (childIndex env chain block).hash⟩, st.undo)

/-- `ConnectBlock` of a child of the tip, with `fJustCheck` off: the next chain and
the block's undo data. -/
def connectBlock (block : Block) : Except Failure (ChainState × List (List Coin)) := do
  checkBlock env params block true true
  connectChecked env params chain block

/-- The state after the genesis block: no coin exists. -/
def genesisChain : ChainState :=
  ⟨⟨params.hashGenesisBlock, 0, []⟩, ∅, params.hashGenesisBlock⟩

/-- Blocks accepted one after another. -/
def connectBlocks (env : Env) (params : Params) : ChainState → List Block → Except Failure ChainState
  | chain, [] => .ok chain
  | chain, block :: rest => do
    let next ← connectBlock env params chain block
    connectBlocks env params next.1 rest

end XCoin.Validation
