import XCoin.Emission.Subsidy
import XCoin.Pow.Difficulty
import XCoin.Primitives.Merkle
import XCoin.Script.VerifyScript
import XCoin.Validation.TxVerify

/-!
# Assembling a block template

`BlockAssembler` of `node/miner.cpp`.  The mempool's block builder offers one chunk
of transactions after another.  A chunk that fits the limits and whose transactions
pass the checks is added to the block, any other is skipped; the loop ends when the
builder has nothing left, when the next chunk pays less than the minimum rate, or
when the block is nearly full and a thousand chunks in a row were skipped.  Then the
coinbase is put in front.

What the builder offers depends on what was included and skipped before.  The model
takes the offered chunks as a list, and `Template.lean` states what may be in it.
Left out are logging, timing, and the fields of `CoinbaseTx`, which repeat those of
the coinbase.
-/

namespace XCoin.Mining

open Consensus Validation XCoin.Pow

/-! ## Mempool entries -/

/-- `CTxMemPoolEntry`, with its true weight.  A coinbase does not enter the mempool. -/
structure MempoolEntry where
  tx : Transaction
  fee : ℤ
  modifiedFee : ℤ
  sigOpCost : ℕ
  txWeight : ℕ
  txWeight_eq : txWeight = getTransactionWeight tx
  notCoinBase : tx.isCoinBase = false

/-- What the block builder offers at once, parents before children. -/
abbrev Chunk := List MempoolEntry

/-- `GetSigOpsAdjustedWeight` -/
def getSigOpsAdjustedWeight (weight sigOpCost bytesPerSigOp : ℕ) : ℕ :=
  max weight (sigOpCost * bytesPerSigOp)

/-- The fee and weight of a chunk, as the mempool's graph adds them up. -/
def chunkFeerate (bytesPerSigOp : ℕ) (chunk : Chunk) : FeeRate where
  fee := (chunk.map MempoolEntry.modifiedFee).sum
  size := (chunk.map fun entry =>
    getSigOpsAdjustedWeight entry.txWeight entry.sigOpCost bytesPerSigOp).sum

/-- `ToFeePerVSize`. -/
def toFeePerVSize (feerate : FeeRate) : FeeRate :=
  ⟨feerate.fee, (feerate.size + witnessScaleFactor - 1) / witnessScaleFactor⟩

/-- `IsDataCarrierOutput`. -/
def isDataCarrierOutput (out : TxOut) : Bool := out.scriptPubKey.head? == some 0x6a

/-- `GetTransactionDataCarrierBytes`. -/
def getTransactionDataCarrierBytes (tx : Transaction) : ℕ :=
  ((tx.vout.filter isDataCarrierOutput).map fun out => out.scriptPubKey.length).sum

/-! ## Options -/

/-- `MAX_BLOCK_DATACARRIER_BYTES`. -/
def maxBlockDatacarrierBytes : ℕ := 8000
/-- `DEFAULT_COINBASE_DATACARRIER_RESERVE`. -/
def defaultCoinbaseDatacarrierReserve : ℕ := 1000
/-- `DEFAULT_BLOCK_RESERVED_WEIGHT`. -/
def defaultBlockReservedWeight : ℕ := 8000
/-- `MINIMUM_BLOCK_RESERVED_WEIGHT`. -/
def minimumBlockReservedWeight : ℕ := 2000
/-- `MAX_RELAYABLE_BLOCK_WEIGHT`. -/
def maxRelayableBlockWeight : ℕ := 16000000

/-- `BlockAssembler::Options`. -/
structure Options where
  blockReservedWeight : Option ℕ
  coinbaseOutputMaxAdditionalSigops : ℕ
  nBlockMaxWeight : ℕ
  blockMinFeeRate : FeeRate
  useMempool : Bool
  coinbaseOutputScript : Bytes
  includeDummyExtranonce : Bool
  testBlockValidity : Bool

/-- `std::clamp`; where the bounds are the wrong way round, which the standard leaves
undefined, the upper one wins as in libstdc++. -/
def clamp (value low high : ℕ) : ℕ := min (max value low) high

/-- `block_reserved_weight` after clamping. -/
def Options.reservedWeight (options : Options) : ℕ :=
  clamp (options.blockReservedWeight.getD defaultBlockReservedWeight) minimumBlockReservedWeight
    maxBlockWeight

/-- `ClampOptions`. -/
def clampOptions (options : Options) : Options :=
  { options with
    blockReservedWeight := some options.reservedWeight
    coinbaseOutputMaxAdditionalSigops :=
      clamp options.coinbaseOutputMaxAdditionalSigops 0 maxBlockSigopsCost
    nBlockMaxWeight :=
      clamp options.nBlockMaxWeight options.reservedWeight maxRelayableBlockWeight }

/-! ## The block so far -/

/-- The lists of the template without the coinbase, and the counters. -/
structure BlockState where
  vtx : List Transaction
  vTxFees : List ℤ
  vTxSigOpsCost : List ℕ
  packageFeerates : List FeeRate
  nBlockWeight : ℕ
  nBlockTx : ℕ
  nBlockSigOpsCost : ℕ
  nBlockDataCarrierBytes : ℕ
  nFees : ℤ

/-- The chain, the clock and the options the assembler works with. -/
structure Assembler where
  params : Params
  /-- the options as given; the assembler clamps them -/
  options : Options
  pindexPrev : HeaderChain
  dsha256 : Dsha256
  getHash : BlockHeader → Uint256
  /-- `ComputeBlockVersion`, or the value of `-blockversion` -/
  blockVersion : UInt32
  now : ℤ
  bytesPerSigOp : ℕ
  segwitActive : Bool
  /-- the error of `TestBlockValidity`, if it has one -/
  testBlockValidity : Block → Option String

namespace Assembler

variable (asm : Assembler)

/-- The options after clamping. -/
def opts : Options := clampOptions asm.options

/-- The height of the new block. -/
def nHeight : ℤ := asm.pindexPrev.nHeight + 1

/-- `m_lock_time_cutoff` -/
def lockTimeCutoff : ℤ := asm.pindexPrev.getMedianTimePast

/-- The levy rule of the new block. -/
def levyRule : SettlementLevyRule := asm.params.settlementLevyAt asm.nHeight

/-- `resetBlock`. -/
def resetBlock : BlockState where
  vtx := []
  vTxFees := []
  vTxSigOpsCost := []
  packageFeerates := []
  nBlockWeight := asm.options.reservedWeight
  nBlockTx := 0
  nBlockSigOpsCost := asm.opts.coinbaseOutputMaxAdditionalSigops
  nBlockDataCarrierBytes := defaultCoinbaseDatacarrierReserve
  nFees := 0

/-! ## Adding chunks -/

/-- `TestChunkBlockLimits`. -/
def testChunkBlockLimits (state : BlockState) (chunkFeerate : FeeRate)
    (chunkSigopsCost chunkDatacarrierBytes : ℕ) : Bool :=
  if asm.opts.nBlockMaxWeight ≤ state.nBlockWeight + chunkFeerate.size then false
  else if maxBlockSigopsCost ≤ state.nBlockSigOpsCost + chunkSigopsCost then false
  else if maxBlockDatacarrierBytes < state.nBlockDataCarrierBytes + chunkDatacarrierBytes then false
  else true

/-- The levy check of a transaction; `GetValueOut` can throw. -/
def paysLevy (entry : MempoolEntry) : Except Failure Bool :=
  match checkSettlementLevy entry.tx entry.fee asm.levyRule with
  | .ok () => .ok true
  | .error (.invalid _ _) => .ok false
  | .error failure => .error failure

/-- `TestChunkTransactions`. -/
def testChunkTransactions : Chunk → Except Failure Bool
  | [] => .ok true
  | entry :: chunk =>
    if !isFinalTx entry.tx asm.nHeight asm.lockTimeCutoff then .ok false
    else do
      let pays ← asm.paysLevy entry
      if pays then testChunkTransactions chunk else .ok false

/-- Whether a chunk is added. -/
def testChunk (state : BlockState) (chunk : Chunk) : Except Failure Bool :=
  if asm.testChunkBlockLimits state (chunkFeerate asm.bytesPerSigOp chunk)
      (chunk.map MempoolEntry.sigOpCost).sum
      (chunk.map fun entry => getTransactionDataCarrierBytes entry.tx).sum then
    asm.testChunkTransactions chunk
  else .ok false

/-- `AddToBlock`. -/
def addToBlock (state : BlockState) (entry : MempoolEntry) : Except Failure BlockState := do
  let nFees ← addAmount state.nFees entry.fee
  .ok { state with
    vtx := state.vtx ++ [entry.tx]
    vTxFees := state.vTxFees ++ [entry.fee]
    vTxSigOpsCost := state.vTxSigOpsCost ++ [entry.sigOpCost]
    nBlockWeight := state.nBlockWeight + entry.txWeight
    nBlockTx := state.nBlockTx + 1
    nBlockSigOpsCost := state.nBlockSigOpsCost + entry.sigOpCost
    nBlockDataCarrierBytes :=
      state.nBlockDataCarrierBytes + getTransactionDataCarrierBytes entry.tx
    nFees := nFees }

/-- `AddToBlock` for each entry of a chunk. -/
def addAllToBlock : Chunk → BlockState → Except Failure BlockState
  | [], state => .ok state
  | entry :: chunk, state => do
    let state ← addToBlock state entry
    addAllToBlock chunk state

/-- `MAX_CONSECUTIVE_FAILURES`. -/
def maxConsecutiveFailures : ℕ := 1000
/-- `BLOCK_FULL_ENOUGH_WEIGHT_DELTA`. -/
def blockFullEnoughWeightDelta : ℕ := 4000

/-- How a round of the loop ends. -/
inductive Round where
  | finished (state : BlockState)
  | next (nConsecutiveFailed : ℕ) (state : BlockState)

/-- One round of the loop with the chunk on offer. -/
def round (chunk : Chunk) (nConsecutiveFailed : ℕ) (state : BlockState) : Except Failure Round :=
  let feerate := toFeePerVSize (chunkFeerate asm.bytesPerSigOp chunk)
  if chunk.isEmpty then .ok (.finished state)
  else if feerate.lower asm.opts.blockMinFeeRate then .ok (.finished state)
  else do
    let fits ← asm.testChunk state chunk
    if fits then do
      let state ← addAllToBlock chunk state
      .ok (.next 0 { state with packageFeerates := state.packageFeerates ++ [feerate] })
    else if maxConsecutiveFailures < nConsecutiveFailed + 1 ∧
        asm.opts.nBlockMaxWeight < state.nBlockWeight + blockFullEnoughWeightDelta then
      .ok (.finished state)
    else .ok (.next (nConsecutiveFailed + 1) state)

/-- `addChunks` over the chunks the builder offers. -/
def addChunks : List Chunk → ℕ → BlockState → Except Failure BlockState
  | [], _, state => .ok state
  | chunk :: chunks, nConsecutiveFailed, state => do
    match ← asm.round chunk nConsecutiveFailed state with
    | .finished state => .ok state
    | .next nConsecutiveFailed state => addChunks chunks nConsecutiveFailed state

/-! ## The coinbase and the header -/

/-- The test of `GetWitnessCommitmentIndex`. -/
def isWitnessCommitment (out : TxOut) : Bool :=
  decide (38 ≤ out.scriptPubKey.length) &&
    out.scriptPubKey.take 6 == [0x6a, 0x24, 0xaa, 0x21, 0xa9, 0xed]

/-- The coinbase before the witness commitment. -/
def coinbaseTx (blockReward : ℤ) : Transaction where
  version := 2
  vin := [{
    prevout := ⟨0#256, OutPoint.nullIndex⟩
    scriptSig := Script.pushInt64 asm.nHeight ++
      (if asm.options.includeDummyExtranonce then [0x00] else [])
    nSequence := 0xfffffffe
    scriptWitness := [] }]
  vout := [⟨blockReward, asm.options.coinbaseOutputScript⟩]
  nLockTime := UInt32.ofNat (asm.nHeight - 1).toNat

/-- `BlockWitnessMerkleRoot` of a block with these transactions after the coinbase. -/
def blockWitnessMerkleRoot (vtx : List Transaction) : Uint256 :=
  asm.dsha256.computeMerkleRoot
    (0#256 :: vtx.map fun tx => asm.dsha256.uint256 (serializeTransaction true tx))

/-- The commitment output of `GenerateCoinbaseCommitment`. -/
def commitmentOutput (vtx : List Transaction) : TxOut :=
  ⟨0, [0x6a, 0x24, 0xaa, 0x21, 0xa9, 0xed] ++
    asm.dsha256.hash (serializeUint256 (asm.blockWitnessMerkleRoot vtx) ++ List.replicate 32 0)⟩

/-- The witness of the coinbase, `UpdateUncommittedBlockStructures`. -/
def addWitnessNonce (coinbase : Transaction) : Transaction :=
  if coinbase.vout.any isWitnessCommitment && asm.segwitActive && !coinbase.hasWitness then
    { coinbase with
      vin := coinbase.vin.modifyHead fun txin =>
        { txin with scriptWitness := [List.replicate 32 0] } }
  else coinbase

/-- `GenerateCoinbaseCommitment`. -/
def generateCoinbaseCommitment (coinbase : Transaction) (vtx : List Transaction) : Transaction :=
  asm.addWitnessNonce
    (if coinbase.vout.any isWitnessCommitment then coinbase
    else { coinbase with vout := coinbase.vout ++ [asm.commitmentOutput vtx] })

/-- `GetMinimumTime`. -/
def getMinimumTime : ℤ :=
  let minTime := asm.pindexPrev.getMedianTimePast + 1
  if asm.nHeight.tmod asm.params.difficultyAdjustmentInterval = 0 then
    match asm.pindexPrev.head? with
    | some tip => max minTime (tip.nTime.toNat - maxTimewarp)
    | none => minTime
  else minTime

/-- The time of the new block, `UpdateTime`. -/
def blockTime : UInt32 :=
  let nOldTime := UInt32.ofNat (asm.now % 2 ^ 32).toNat
  let nNewTime := max asm.getMinimumTime asm.now
  if (nOldTime.toNat : ℤ) < nNewTime then UInt32.ofNat (nNewTime % 2 ^ 32).toNat else nOldTime

/-! ## The template -/

/-- Why no template is returned. -/
inductive TemplateError where
  | failure (failure : Failure)
  /-- a failed assertion: no tip, or `GetNextWorkRequired` without an ancestor it needs -/
  | assertion
  /-- `TestBlockValidity failed` -/
  | validity (text : String)

/-- `CBlockTemplate`. -/
structure BlockTemplate where
  block : Block
  vTxFees : List ℤ
  vTxSigOpsCost : List ℕ
  packageFeerates : List FeeRate

/-- The block of a finished selection, with its coinbase. -/
def makeBlock (state : BlockState) (blockReward : ℤ) (tip : BlockHeader) (nBits : UInt32) :
    Block where
  nVersion := asm.blockVersion
  hashPrevBlock := asm.getHash tip
  hashMerkleRoot := 0#256
  nTime := asm.blockTime
  nBits := nBits
  nNonce := 0
  vtx := asm.generateCoinbaseCommitment (asm.coinbaseTx blockReward) state.vtx :: state.vtx

/-- The header whose work is asked for. -/
def draftHeader (tip : BlockHeader) : BlockHeader where
  nVersion := asm.blockVersion
  hashPrevBlock := asm.getHash tip
  hashMerkleRoot := 0#256
  nTime := asm.blockTime
  nBits := 0
  nNonce := 0

/-- The closing `TestBlockValidity`, unless it is switched off. -/
def validTemplate (template : BlockTemplate) : Except TemplateError BlockTemplate :=
  if asm.opts.testBlockValidity then
    match asm.testBlockValidity template.block with
    | some text => .error (.validity text)
    | none => .ok template
  else .ok template

/-- The part of `CreateNewBlock` after the chunks. -/
def finishTemplate (state : BlockState) : Except TemplateError BlockTemplate :=
  match asm.pindexPrev.head? with
  | none => .error .assertion
  | some tip =>
    match addAmount state.nFees (getBlockSubsidy asm.nHeight asm.params),
        getNextWorkRequired asm.params asm.pindexPrev (asm.draftHeader tip) with
    | .ok blockReward, some nBits =>
      asm.validTemplate {
        block := asm.makeBlock state blockReward tip nBits
        vTxFees := state.vTxFees
        vTxSigOpsCost := state.vTxSigOpsCost
        packageFeerates := state.packageFeerates }
    | .error failure, _ => .error (.failure failure)
    | .ok _, none => .error .assertion

/-- `CreateNewBlock` on the chunks that the mempool's block builder offers. -/
def createNewBlock (chunks : List Chunk) : Except TemplateError BlockTemplate :=
  match if asm.opts.useMempool then asm.addChunks chunks 0 asm.resetBlock
    else .ok asm.resetBlock with
  | .error failure => .error (.failure failure)
  | .ok state => asm.finishTemplate state

end Assembler

end XCoin.Mining
