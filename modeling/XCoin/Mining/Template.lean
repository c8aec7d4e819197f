import XCoin.Lib.ExceptRun
import XCoin.Mining.BlockAssembler

/-!
# What a block template guarantees

The counters of the assembler always match the list of entries it has added
(`Tally`), and that list stays inside the limits (`Sound`).  A round of the loop adds
a whole chunk or nothing, so both are kept by one lemma about a chunk that fits, and
a run keeps them by induction over the chunks on offer.

The block builder is known by what it offers.  `Offered` asks that a transaction of a
chunk spends outputs of mempool transactions only if these are in the block already
or stand before it in the chunk.
-/

namespace XCoin.Mining

open Consensus Validation Except

namespace Assembler

variable {asm : Assembler} {state state' : BlockState} {entries : List MempoolEntry}
  {chunk : Chunk}

/-! ## The counters match the list -/

/-- The lists and counters of the block are those of these entries. -/
structure Tally (asm : Assembler) (entries : List MempoolEntry) (state : BlockState) : Prop where
  vtx_eq : state.vtx = entries.map MempoolEntry.tx
  fees_eq : state.vTxFees = entries.map MempoolEntry.fee
  sigops_eq : state.vTxSigOpsCost = entries.map MempoolEntry.sigOpCost
  weight_eq : state.nBlockWeight =
    asm.options.reservedWeight + (entries.map MempoolEntry.txWeight).sum
  count_eq : state.nBlockTx = entries.length
  sigopsCost_eq : state.nBlockSigOpsCost =
    asm.opts.coinbaseOutputMaxAdditionalSigops + (entries.map MempoolEntry.sigOpCost).sum
  dataCarrier_eq : state.nBlockDataCarrierBytes = defaultCoinbaseDatacarrierReserve +
    (entries.map fun entry => getTransactionDataCarrierBytes entry.tx).sum
  nFees_eq : state.nFees = (entries.map MempoolEntry.fee).sum

theorem tally_resetBlock : Tally asm [] asm.resetBlock :=
  ⟨rfl, rfl, rfl, rfl, rfl, rfl, rfl, rfl⟩

theorem Tally.addToBlock {entry : MempoolEntry} (htally : Tally asm entries state)
    (hadd : addToBlock state entry = .ok state') : Tally asm (entries ++ [entry]) state' := by
  obtain ⟨nFees, hfees, hstate⟩ := bind_eq_ok_iff.mp hadd
  obtain rfl := Except.ok.inj hstate
  have hsum := addAmount_ok hfees
  constructor
  case nFees_eq => simp [hsum, htally.nFees_eq]
  all_goals simp [htally.vtx_eq, htally.fees_eq, htally.sigops_eq, htally.weight_eq,
    htally.count_eq, htally.sigopsCost_eq, htally.dataCarrier_eq, Nat.add_assoc]

theorem Tally.addAllToBlock : ∀ (chunk : Chunk) {entries : List MempoolEntry} {state : BlockState},
    Tally asm entries state → addAllToBlock chunk state = .ok state' →
      Tally asm (entries ++ chunk) state' := by
  intro chunk
  induction chunk with
  | nil =>
    intro entries state htally hadd
    obtain rfl := Except.ok.inj hadd
    rw [List.append_nil]
    exact htally
  | cons entry chunk ih =>
    intro entries state htally hadd
    obtain ⟨next, hfirst, hrest⟩ := bind_eq_ok_iff.mp hadd
    have hall := ih (htally.addToBlock hfirst) hrest
    rw [List.append_assoc] at hall
    exact hall

/-! ## What a chunk that is added satisfies -/

theorem sum_txWeight_le_size (bytesPerSigOp : ℕ) (chunk : Chunk) :
    (chunk.map MempoolEntry.txWeight).sum ≤ (chunkFeerate bytesPerSigOp chunk).size := by
  apply List.sum_le_sum
  intro entry _
  exact le_max_left _ _

/-- The limits are tested with the weight adjusted for signature operations, which is
never below the weight itself. -/
theorem limits_of_testChunk (hfits : asm.testChunk state chunk = .ok true) :
    state.nBlockWeight + (chunk.map MempoolEntry.txWeight).sum < asm.opts.nBlockMaxWeight ∧
      state.nBlockSigOpsCost + (chunk.map MempoolEntry.sigOpCost).sum < maxBlockSigopsCost ∧
      state.nBlockDataCarrierBytes +
        (chunk.map fun entry => getTransactionDataCarrierBytes entry.tx).sum ≤
          maxBlockDatacarrierBytes ∧
      asm.testChunkTransactions chunk = .ok true := by
  unfold testChunk at hfits
  split_ifs at hfits with hlimits
  swap
  · cases hfits
  unfold testChunkBlockLimits at hlimits
  split_ifs at hlimits with hweight hsigops hdata
  have hle := sum_txWeight_le_size asm.bytesPerSigOp chunk
  exact ⟨by omega, by omega, by omega, hfits⟩

theorem levy_le_of_paysLevy {entry : MempoolEntry} (hpays : asm.paysLevy entry = .ok true) :
    settlementLevy (outputValue entry.tx.vout) asm.levyRule ≤ entry.fee := by
  have hcheck : checkSettlementLevy entry.tx entry.fee asm.levyRule = .ok () := by
    unfold paysLevy at hpays
    split at hpays
    · assumption
    · cases hpays
    · cases hpays
  rw [checkSettlementLevy, entry.notCoinBase, if_neg Bool.false_ne_true] at hcheck
  obtain ⟨valueOut, hvalue, hlevy⟩ := bind_eq_ok_iff.mp hcheck
  have hexact : valueOut = outputValue entry.tx.vout := by
    rw [getValueOutLoop_ok _ hvalue, zero_add]
  split_ifs at hlevy with hless
  · cases hlevy
  · rw [← hexact]
    exact not_lt.mp hless

theorem of_testChunkTransactions : ∀ chunk : Chunk, asm.testChunkTransactions chunk = .ok true →
    ∀ entry ∈ chunk, isFinalTx entry.tx asm.nHeight asm.lockTimeCutoff = true ∧
      settlementLevy (outputValue entry.tx.vout) asm.levyRule ≤ entry.fee := by
  intro chunk
  induction chunk with
  | nil => exact fun _ entry hentry => absurd hentry List.not_mem_nil
  | cons first chunk ih =>
    intro htest entry hentry
    unfold testChunkTransactions at htest
    split_ifs at htest with hfinal
    · cases htest
    obtain ⟨pays, hpays, htest⟩ := bind_eq_ok_iff.mp htest
    split_ifs at htest with htrue
    swap
    · cases htest
    subst htrue
    rcases List.mem_cons.mp hentry with rfl | hlater
    · exact ⟨by simpa using hfinal, levy_le_of_paysLevy hpays⟩
    · exact ih htest entry hlater

/-! ## Parents before children -/

/-- The transaction spends an output of another one. -/
def Spends (dsha256 : Dsha256) (tx parent : Transaction) : Prop :=
  ∃ txin ∈ tx.vin, txin.prevout.hash = dsha256.txHash parent

/-- Whatever a transaction of `vtx` spends of the mempool is in `included` or stands
before it in `vtx`. -/
def ParentsFirst (asm : Assembler) (mempool included vtx : List Transaction) : Prop :=
  ∀ before tx after, vtx = before ++ tx :: after → ∀ parent ∈ mempool,
    Spends asm.dsha256 tx parent → parent ∈ included ++ before

theorem ParentsFirst.append {mempool vtx more : List Transaction}
    (hvtx : ParentsFirst asm mempool [] vtx) (hmore : ParentsFirst asm mempool vtx more) :
    ParentsFirst asm mempool [] (vtx ++ more) := by
  intro before tx after hsplit parent hparent hspends
  rw [List.nil_append]
  rcases List.append_eq_append_iff.mp hsplit with ⟨middle, rfl, hafter⟩ | ⟨middle, hvtx', hmore'⟩
  · -- the transaction is one of `more`
    exact hmore middle tx after hafter parent hparent hspends
  · cases middle with
    | nil =>
      rw [List.append_nil] at hvtx'
      rw [← hvtx']
      have hin := hmore [] tx after hmore'.symm parent hparent hspends
      rwa [List.append_nil] at hin
    | cons head middle =>
      obtain ⟨rfl, rfl⟩ := List.cons.inj hmore'
      exact hvtx before tx middle hvtx' parent hparent hspends

/-! ## A block within its limits -/

/-- What the assembler guarantees about the transactions after the coinbase. -/
structure Sound (asm : Assembler) (mempool : List Transaction) (entries : List MempoolEntry) :
    Prop where
  weight : entries = [] ∨ asm.options.reservedWeight +
    (entries.map fun entry => getTransactionWeight entry.tx).sum < asm.opts.nBlockMaxWeight
  sigops : entries = [] ∨ asm.opts.coinbaseOutputMaxAdditionalSigops +
    (entries.map MempoolEntry.sigOpCost).sum < maxBlockSigopsCost
  dataCarrier : (entries.map fun entry => getTransactionDataCarrierBytes entry.tx).sum ≤
    maxBlockDatacarrierBytes - defaultCoinbaseDatacarrierReserve
  final : ∀ entry ∈ entries, isFinalTx entry.tx asm.nHeight asm.lockTimeCutoff = true
  levy : ∀ entry ∈ entries, settlementLevy (outputValue entry.tx.vout) asm.levyRule ≤ entry.fee
  parentsFirst : ParentsFirst asm mempool [] (entries.map MempoolEntry.tx)

theorem sound_nil (asm : Assembler) (mempool : List Transaction) : Sound asm mempool [] where
  weight := .inl rfl
  sigops := .inl rfl
  dataCarrier := Nat.zero_le _
  final _ hentry := absurd hentry List.not_mem_nil
  levy _ hentry := absurd hentry List.not_mem_nil
  parentsFirst := by
    intro before tx after hsplit
    simp at hsplit

theorem sum_txWeight (entries : List MempoolEntry) : (entries.map MempoolEntry.txWeight).sum =
    (entries.map fun entry => getTransactionWeight entry.tx).sum := by
  congr 1
  apply List.map_congr_left
  intro entry _
  exact entry.txWeight_eq

theorem Sound.addChunk {mempool : List Transaction} (hsound : Sound asm mempool entries)
    (htally : Tally asm entries state) (hfits : asm.testChunk state chunk = .ok true)
    (hparents : ParentsFirst asm mempool state.vtx (chunk.map MempoolEntry.tx)) :
    Sound asm mempool (entries ++ chunk) := by
  obtain ⟨hweight, hsigops, hdata, htest⟩ := limits_of_testChunk hfits
  rw [htally.weight_eq, sum_txWeight, sum_txWeight] at hweight
  rw [htally.sigopsCost_eq] at hsigops
  rw [htally.dataCarrier_eq] at hdata
  rw [htally.vtx_eq] at hparents
  have hchunk := of_testChunkTransactions chunk htest
  constructor
  case weight =>
    right
    rw [List.map_append, List.sum_append]
    omega
  case sigops =>
    right
    rw [List.map_append, List.sum_append]
    omega
  case dataCarrier =>
    rw [List.map_append, List.sum_append]
    omega
  case final =>
    intro entry hentry
    rcases List.mem_append.mp hentry with hold | hnew
    · exact hsound.final entry hold
    · exact (hchunk entry hnew).1
  case levy =>
    intro entry hentry
    rcases List.mem_append.mp hentry with hold | hnew
    · exact hsound.levy entry hold
    · exact (hchunk entry hnew).2
  case parentsFirst =>
    rw [List.map_append]
    exact hsound.parentsFirst.append hparents

/-! ## The loop -/

/-- A round leaves the block as it is, or adds the whole chunk. -/
theorem round_cases {failed : ℕ} {result : Round}
    (hround : asm.round chunk failed state = .ok result) :
    result = .finished state ∨ (∃ failed', result = .next failed' state) ∨
      ∃ added feerates, asm.testChunk state chunk = .ok true ∧
        addAllToBlock chunk state = .ok added ∧
        result = .next 0 { added with packageFeerates := feerates } := by
  unfold round at hround
  dsimp only at hround
  by_cases hempty : chunk.isEmpty = true
  · rw [if_pos hempty] at hround
    exact .inl (Except.ok.inj hround).symm
  rw [if_neg hempty] at hround
  by_cases hlower : (toFeePerVSize (chunkFeerate asm.bytesPerSigOp chunk)).lower
      asm.opts.blockMinFeeRate = true
  · rw [if_pos hlower] at hround
    exact .inl (Except.ok.inj hround).symm
  rw [if_neg hlower] at hround
  obtain ⟨fits, hfits, hround⟩ := bind_eq_ok_iff.mp hround
  cases fits with
  | true =>
    rw [if_pos rfl] at hround
    obtain ⟨added, hadded, hround⟩ := bind_eq_ok_iff.mp hround
    exact .inr (.inr ⟨added, _, hfits, hadded, (Except.ok.inj hround).symm⟩)
  | false =>
    rw [if_neg Bool.false_ne_true] at hround
    split_ifs at hround
    · exact .inl (Except.ok.inj hround).symm
    · exact .inr (.inl ⟨_, (Except.ok.inj hround).symm⟩)

/-- The chunks a block builder may offer to this assembler from this state on: each one
after what it depends on. -/
def Offered (asm : Assembler) (mempool : List Transaction) :
    List Chunk → ℕ → BlockState → Prop
  | [], _, _ => True
  | chunk :: chunks, failed, state =>
    ParentsFirst asm mempool state.vtx (chunk.map MempoolEntry.tx) ∧
      ∀ failed' state', asm.round chunk failed state = .ok (.next failed' state') →
        Offered asm mempool chunks failed' state'

/-- **The run.** What the loop adds is a part of what was offered, the counters match it,
and the block stays within its limits. -/
theorem addChunks_ok {mempool : List Transaction} :
    ∀ (chunks : List Chunk) {failed : ℕ} {entries : List MempoolEntry} {state final : BlockState},
      Offered asm mempool chunks failed state → Tally asm entries state →
        Sound asm mempool entries → asm.addChunks chunks failed state = .ok final →
          ∃ added, added.Sublist chunks.flatten ∧ Tally asm (entries ++ added) final ∧
            Sound asm mempool (entries ++ added) := by
  intro chunks
  induction chunks with
  | nil =>
    intro failed entries state final _ htally hsound hrun
    obtain rfl := Except.ok.inj hrun
    refine ⟨[], List.nil_sublist _, ?_⟩
    rw [List.append_nil]
    exact ⟨htally, hsound⟩
  | cons chunk chunks ih =>
    intro failed entries state final hoffered htally hsound hrun
    obtain ⟨hparents, hlater⟩ := hoffered
    obtain ⟨result, hround, hrun⟩ := bind_eq_ok_iff.mp hrun
    rcases round_cases hround with rfl | ⟨failed', rfl⟩ | ⟨added, feerates, hfits, hadded, rfl⟩
    · -- the loop is over
      obtain rfl := Except.ok.inj hrun
      refine ⟨[], List.nil_sublist _, ?_⟩
      rw [List.append_nil]
      exact ⟨htally, hsound⟩
    · -- the chunk is skipped
      obtain ⟨more, hmore, hresult⟩ := ih (hlater failed' state hround) htally hsound hrun
      exact ⟨more, hmore.trans (List.sublist_append_right chunk chunks.flatten), hresult⟩
    · -- the chunk is added
      have htally' := Tally.addAllToBlock chunk htally hadded
      obtain ⟨more, hmore, hresult⟩ := ih (hlater 0 _ hround)
        (⟨htally'.vtx_eq, htally'.fees_eq, htally'.sigops_eq, htally'.weight_eq, htally'.count_eq,
          htally'.sigopsCost_eq, htally'.dataCarrier_eq, htally'.nFees_eq⟩ :
          Tally asm (entries ++ chunk) { added with packageFeerates := feerates })
        (hsound.addChunk htally hfits hparents) hrun
      rw [List.append_assoc] at hresult
      exact ⟨chunk ++ more, hmore.append_left chunk, hresult⟩

/-! ## The template -/

theorem addWitnessNonce_vout (tx : Transaction) : (asm.addWitnessNonce tx).vout = tx.vout := by
  unfold addWitnessNonce
  split_ifs <;> rfl

theorem addWitnessNonce_isCoinBase (tx : Transaction) :
    (asm.addWitnessNonce tx).isCoinBase = tx.isCoinBase := by
  unfold addWitnessNonce
  split_ifs
  · rcases tx with ⟨version, vin, vout, nLockTime⟩
    rcases vin with _ | ⟨txin, _ | ⟨second, vin⟩⟩ <;> rfl
  · rfl

theorem outputValue_generateCoinbaseCommitment (coinbase : Transaction) (vtx : List Transaction) :
    outputValue (asm.generateCoinbaseCommitment coinbase vtx).vout = outputValue coinbase.vout := by
  rw [generateCoinbaseCommitment, addWitnessNonce_vout]
  split_ifs
  · rfl
  · simp [outputValue, commitmentOutput]

theorem generateCoinbaseCommitment_isCoinBase (coinbase : Transaction) (vtx : List Transaction) :
    (asm.generateCoinbaseCommitment coinbase vtx).isCoinBase = coinbase.isCoinBase := by
  rw [generateCoinbaseCommitment, addWitnessNonce_isCoinBase]
  split_ifs <;> rfl

theorem validTemplate_ok {draft template : BlockTemplate}
    (hvalid : asm.validTemplate draft = .ok template) : template = draft := by
  unfold validTemplate at hvalid
  split_ifs at hvalid
  · split at hvalid
    · cases hvalid
    · exact (Except.ok.inj hvalid).symm
  · exact (Except.ok.inj hvalid).symm

/-- The block of a template is the coinbase, which pays the fees and the subsidy, and
the transactions that were added. -/
theorem finishTemplate_ok {template : BlockTemplate}
    (hfinish : asm.finishTemplate state = .ok template) :
    ∃ coinbase, template.block.vtx = coinbase :: state.vtx ∧
      template.vTxFees = state.vTxFees ∧ template.vTxSigOpsCost = state.vTxSigOpsCost ∧
      coinbase.isCoinBase = true ∧
      outputValue coinbase.vout = getBlockSubsidy asm.nHeight asm.params + state.nFees := by
  unfold finishTemplate at hfinish
  split at hfinish
  · cases hfinish
  split at hfinish
  · rename_i blockReward nBits hreward _
    obtain rfl := validTemplate_ok hfinish
    refine ⟨_, rfl, rfl, rfl, ?_, ?_⟩
    · rw [generateCoinbaseCommitment_isCoinBase]
      rfl
    · rw [outputValue_generateCoinbaseCommitment, addAmount_ok hreward]
      simp [coinbaseTx, outputValue, add_comm]
  · cases hfinish
  · cases hfinish

/-- **Block template.** Whatever chunks the mempool's block builder offers, a template has
the coinbase followed by entries that were offered.  They stay within the weight, signature
operation and data-carrier limits, are final, pay the levy of the new height, stand
after their parents, and the coinbase pays exactly the subsidy and their fees. -/
theorem createNewBlock_sound (asm : Assembler) (mempool : List Transaction) (chunks : List Chunk)
    (template : BlockTemplate) (hoffered : Offered asm mempool chunks 0 asm.resetBlock)
    (htemplate : asm.createNewBlock chunks = .ok template) :
    ∃ coinbase entries, entries.Sublist chunks.flatten ∧
      template.block.vtx = coinbase :: entries.map MempoolEntry.tx ∧
      template.vTxFees = entries.map MempoolEntry.fee ∧
      template.vTxSigOpsCost = entries.map MempoolEntry.sigOpCost ∧
      Sound asm mempool entries ∧ coinbase.isCoinBase = true ∧
      outputValue coinbase.vout =
        getBlockSubsidy asm.nHeight asm.params + (entries.map MempoolEntry.fee).sum := by
  obtain ⟨state, entries, hsublist, htally, hsound, hfinish⟩ :
      ∃ state entries, entries.Sublist chunks.flatten ∧ Tally asm entries state ∧
        Sound asm mempool entries ∧ asm.finishTemplate state = .ok template := by
    unfold createNewBlock at htemplate
    by_cases hmempool : asm.opts.useMempool = true
    · rw [if_pos hmempool] at htemplate
      split at htemplate
      · cases htemplate
      · rename_i state hrun
        obtain ⟨added, hsublist, htally, hsound⟩ :=
          addChunks_ok chunks hoffered tally_resetBlock (sound_nil asm mempool) hrun
        exact ⟨state, added, hsublist, htally, hsound, htemplate⟩
    · rw [if_neg hmempool] at htemplate
      exact ⟨asm.resetBlock, [], List.nil_sublist _, tally_resetBlock, sound_nil asm mempool,
        htemplate⟩
  obtain ⟨coinbase, hvtx, hfees, hsigops, hcoinbase, hvalue⟩ := finishTemplate_ok hfinish
  refine ⟨coinbase, entries, hsublist, ?_, ?_, ?_, hsound, hcoinbase, ?_⟩
  · rw [hvtx, htally.vtx_eq]
  · rw [hfees, htally.fees_eq]
  · rw [hsigops, htally.sigops_eq]
  · rw [hvalue, htally.nFees_eq]

/-! ### The block after the genesis block -/

/-- A stand-in for the hash function: the length. -/
def lengthDsha256 : Dsha256 where
  hash bytes := Bytes.ofNatLE 32 bytes.length
  length_hash _ := Bytes.length_ofNatLE _ _

/-- An output of 20,000 sat. -/
def firstOutput : TxOut := ⟨20000, 0x53 :: 0x20 :: List.replicate 32 3⟩

/-- A payment; its id is 94. -/
def firstPayment : MempoolEntry where
  tx := ⟨2, [⟨⟨1#256, 0⟩, [], 0, []⟩], [firstOutput], 0⟩
  fee := 500
  modifiedFee := 500
  sigOpCost := 4
  txWeight := 376
  txWeight_eq := by decide +kernel
  notCoinBase := rfl

/-- A payment with three outputs, for which the block has no room. -/
def widePayment : MempoolEntry where
  tx := ⟨2, [⟨⟨1#256, 1⟩, [], 0, []⟩], List.replicate 3 firstOutput, 0⟩
  fee := 900
  modifiedFee := 900
  sigOpCost := 4
  txWeight := 720
  txWeight_eq := by decide +kernel
  notCoinBase := rfl

/-- A child of the first payment. -/
def childPayment : MempoolEntry where
  tx := ⟨2, [⟨⟨94#256, 0⟩, [0x51], 0, []⟩], [firstOutput], 0⟩
  fee := 400
  modifiedFee := 400
  sigOpCost := 4
  txWeight := 380
  txWeight_eq := by decide +kernel
  notCoinBase := rfl

/-- An assembler of the main network whose tip is the genesis block. -/
def firstAssembler : Assembler where
  params := mainParams
  options := {
    blockReservedWeight := none
    coinbaseOutputMaxAdditionalSigops := 400
    nBlockMaxWeight := 9000
    blockMinFeeRate := ⟨1, 1000⟩
    useMempool := true
    coinbaseOutputScript := 0x53 :: 0x20 :: List.replicate 32 1
    includeDummyExtranonce := false
    testBlockValidity := false }
  pindexPrev := [Pow.genesisHeader]
  dsha256 := lengthDsha256
  getHash _ := 0#256
  blockVersion := 0x20000000
  now := 1790381100
  bytesPerSigOp := 20
  segwitActive := true
  testBlockValidity _ := none

/-- The chunks on offer. -/
def firstChunks : List Chunk := [[firstPayment], [widePayment], [childPayment]]

/-- The mempool. -/
def firstMempool : List Transaction := firstChunks.flatten.map MempoolEntry.tx

theorem spends_firstMempool : ∀ tx ∈ firstMempool, ∀ parent ∈ firstMempool,
    (∃ txin ∈ tx.vin, txin.prevout.hash = firstAssembler.dsha256.txHash parent) →
      tx = childPayment.tx ∧ parent = firstPayment.tx := by
  decide +kernel

theorem vtx_subset_addAllToBlock : ∀ (chunk : Chunk) {state added : BlockState},
    addAllToBlock chunk state = .ok added → state.vtx ⊆ added.vtx
  | [], _, _, hadded => Except.ok.inj hadded ▸ List.Subset.refl _
  | entry :: chunk, state, added, hadded => by
    obtain ⟨next, hnext, hadded⟩ := bind_eq_ok_iff.mp hadded
    obtain ⟨nFees, -, hnext⟩ := bind_eq_ok_iff.mp hnext
    refine List.Subset.trans ?_ (vtx_subset_addAllToBlock chunk hadded)
    rw [← Except.ok.inj hnext]
    exact List.subset_append_left _ _

theorem vtx_subset_of_round {failed failed' : ℕ} {state' : BlockState}
    (hround : asm.round chunk failed state = .ok (.next failed' state')) :
    state.vtx ⊆ state'.vtx := by
  rcases round_cases hround with hsame | ⟨_, hsame⟩ | ⟨added, feerates, -, hadded, hnext⟩
  · cases hsame
  · cases hsame
    exact List.Subset.refl _
  · obtain ⟨-, rfl⟩ := Round.next.inj hnext
    exact @vtx_subset_addAllToBlock chunk state added hadded

theorem parentsFirst_singleton {included : List Transaction} {tx : Transaction}
    (htx : tx ∈ firstMempool) (hparent : tx = childPayment.tx → firstPayment.tx ∈ included) :
    ParentsFirst firstAssembler firstMempool included [tx] := by
  intro before other after hsplit parent hmem hspends
  obtain rfl : other = tx := List.mem_singleton.mp
    (hsplit ▸ List.mem_append_right _ List.mem_cons_self)
  obtain ⟨hchild, rfl⟩ := spends_firstMempool other htx parent hmem hspends
  exact List.mem_append_left _ (hparent hchild)

/-- The transactions of the block after a round. -/
def Round.vtx : Round → List Transaction
  | .finished state | .next _ state => state.vtx

theorem offered_firstChunks :
    Offered firstAssembler firstMempool firstChunks 0 firstAssembler.resetBlock := by
  have hfirst : (firstAssembler.round [firstPayment] 0 firstAssembler.resetBlock).toOption.all
      (fun result => decide (firstPayment.tx ∈ result.vtx)) = true := by decide +kernel
  refine ⟨parentsFirst_singleton (by simp [firstMempool, firstChunks]) nofun, ?_⟩
  intro failed state hround
  rw [hround] at hfirst
  refine ⟨parentsFirst_singleton (by simp [firstMempool, firstChunks]) nofun, ?_⟩
  intro failed' state' hround'
  refine ⟨parentsFirst_singleton (by simp [firstMempool, firstChunks]) fun _ => ?_,
    fun _ _ _ => trivial⟩
  exact vtx_subset_of_round hround' (of_decide_eq_true hfirst)

/-- The second chunk is skipped, and the child comes after its parent. -/
theorem first_template : ∃ template,
    firstAssembler.createNewBlock firstChunks = .ok template ∧
      template.vTxFees = [500, 400] ∧
      ∃ coinbase entries, entries.Sublist firstChunks.flatten ∧
        template.block.vtx = coinbase :: entries.map MempoolEntry.tx ∧
        template.vTxFees = entries.map MempoolEntry.fee ∧
        template.vTxSigOpsCost = entries.map MempoolEntry.sigOpCost ∧
        Sound firstAssembler firstMempool entries ∧ coinbase.isCoinBase = true ∧
        outputValue coinbase.vout = getBlockSubsidy firstAssembler.nHeight firstAssembler.params +
          (entries.map MempoolEntry.fee).sum := by
  have hfees : (firstAssembler.createNewBlock firstChunks).toOption.map
      BlockTemplate.vTxFees = some [500, 400] := by decide +kernel
  rcases hrun : firstAssembler.createNewBlock firstChunks with failure | template
  · rw [hrun] at hfees
    cases hfees
  · rw [hrun] at hfees
    exact ⟨template, rfl, Option.some.inj hfees, createNewBlock_sound firstAssembler
      firstMempool firstChunks template offered_firstChunks hrun⟩

end Assembler

end XCoin.Mining
