import XCoin.Pool.Job
import XCoin.Primitives.Deserialize

/-!
# The block of a solved job

A share that meets the network target comes back from `validate` as the bytes of a block.  The
node reads them as the header the miner solved, a coinbase with one witness item of 32 zero
bytes, and the job's own transactions, and the root in the header is the root of these
transactions (`solvedBlock_reads`).

The pool hashes the coinbase without its witness and submits it with the witness spliced in; it
computes the root from a branch that never saw the coinbase.
-/

namespace XCoin.Pool

open Consensus Reader

variable {dsha256 : Dsha256}

/-! ## The branch -/

/-- The coinbase stays at the left end, so the loop collects the branch of the leftmost leaf. -/
theorem branchLoop_eq :
    ∀ (fuel : ℕ) (layer : List Bytes), branchLoop dsha256 fuel 0 layer =
      MerkleTree.branch (fun left right => dsha256.hash (left ++ right)) fuel layer := by
  intro fuel
  induction fuel with
  | zero =>
    intro layer
    rfl
  | succ fuel ih =>
    intro layer
    rw [branchLoop, MerkleTree.branch]
    split_ifs with hdone
    · rfl
    · have hneighbour : (if 0 ^^^ 1 < (MerkleTree.evenUp layer).length then
          (MerkleTree.evenUp layer)[0 ^^^ 1]?.toList else []) =
          (MerkleTree.evenUp layer)[1]?.toList := by
        split_ifs with hin
        · rfl
        · have hshort : (MerkleTree.evenUp layer).length ≤ 1 := not_lt.mp hin
          rw [List.getElem?_eq_none hshort]
          rfl
      dsimp only
      rw [hneighbour]
      exact congrArg _ (ih _)

/-- **The root.**  The branch of a template, folded from the id of any coinbase, gives the root
that the node computes for that coinbase and the template's transactions. -/
theorem foldl_coinbaseBranch (leaf : Uint256) (hashes : List Uint256) :
    (coinbaseBranch dsha256 (hashes.map serializeUint256)).foldl
        (fun root sib => dsha256.hash (root ++ sib)) (serializeUint256 leaf) =
      serializeUint256 (dsha256.computeMerkleRoot (leaf :: hashes)) := by
  symm
  apply Dsha256.serialize_computeMerkleRoot
  rw [coinbaseBranch, branchLoop_eq, List.length_map, List.map_cons, List.length_cons]
  apply MerkleTree.reduce_eq_foldl_branch
  rw [List.length_map]
  exact Nat.le_succ _

/-! ## The witness of the coinbase -/

/-- The reserved value. -/
def reservedValue : Bytes := List.replicate 32 0

/-- The coinbase as it is submitted. -/
def withReservedValue (tx : Transaction) : Transaction :=
  { tx with vin := tx.vin.map fun txin => { txin with scriptWitness := [reservedValue] } }

theorem serializeTransaction_false_withReservedValue (tx : Transaction) :
    serializeTransaction false (withReservedValue tx) = serializeTransaction false tx := by
  have hinputs :
      (withReservedValue tx).vin.flatMap serializeTxIn = tx.vin.flatMap serializeTxIn := by
    rw [withReservedValue, List.flatMap_map]
    rfl
  have hcount : (withReservedValue tx).vin.length = tx.vin.length := List.length_map _
  simp only [serializeTransaction, serializeVector, hinputs, hcount, Bool.false_and]
  rfl

theorem txHash_withReservedValue (tx : Transaction) :
    dsha256.txHash (withReservedValue tx) = dsha256.uint256 (serializeTransaction false tx) := by
  rw [Dsha256.txHash, serializeTransaction_false_withReservedValue]

theorem segwitCoinbase_append {start middle stop : Bytes} (hstart : start.length = 4)
    (hstop : stop.length = 4) :
    segwitCoinbase (start ++ middle ++ stop) =
      start ++ [0x00, 0x01] ++ middle ++ [0x01, 0x20] ++ reservedValue ++ stop := by
  have hlength : (start ++ middle ++ stop).length = 4 + middle.length + 4 := by
    rw [List.length_append, List.length_append, hstart, hstop]
  have htake : (start ++ middle ++ stop).take 4 = start := by
    rw [List.append_assoc, List.take_left' hstart]
  have hmiddle : ((start ++ middle ++ stop).drop 4).take (4 + middle.length + 4 - 8) = middle := by
    rw [List.append_assoc, List.drop_left' hstart, List.take_left' (by omega)]
  have hdrop : (start ++ middle ++ stop).drop (4 + middle.length + 4 - 4) = stop := by
    apply List.drop_left'
    rw [List.length_append, hstart]
    omega
  rw [segwitCoinbase, hlength, htake, hmiddle, hdrop, reservedValue]

/-- **The spliced coinbase.**  For one input, marker, flag and witness turn the stripped form
into the full form of the coinbase with the reserved value. -/
theorem segwitCoinbase_serialize {tx : Transaction} {txin : TxIn} (hvin : tx.vin = [txin]) :
    segwitCoinbase (serializeTransaction false tx) =
      serializeTransaction true (withReservedValue tx) := by
  have hstripped : serializeTransaction false tx =
      serializeUint32 tx.version ++ (serializeVector serializeTxIn tx.vin ++
        serializeVector serializeTxOut tx.vout) ++ serializeUint32 tx.nLockTime := by
    simp [serializeTransaction]
  have hstack : serializeStack [reservedValue] = [0x01, 0x20] ++ reservedValue := by decide
  have hfull : serializeTransaction true (withReservedValue tx) =
      serializeUint32 tx.version ++ [0x00, 0x01] ++ (serializeVector serializeTxIn tx.vin ++
        serializeVector serializeTxOut tx.vout) ++ serializeStack [reservedValue] ++
        serializeUint32 tx.nLockTime := by
    simp [serializeTransaction, withReservedValue, Transaction.hasWitness, serializeVector,
      serializeTxIn, hvin, writeCompactSize]
  have hversion : (serializeUint32 tx.version).length = 4 := Bytes.length_ofNatLE _ _
  have hlocktime : (serializeUint32 tx.nLockTime).length = 4 := Bytes.length_ofNatLE _ _
  rw [hstripped, segwitCoinbase_append hversion hlocktime, hfull, hstack]
  simp only [List.append_assoc]

theorem fits_withReservedValue {tx : Transaction} (h : tx.Fits) : (withReservedValue tx).Fits := by
  refine ⟨?_, ?_, h.vout_length, ?_, h.vout⟩
  · intro hempty
    exact h.vin_ne_nil (List.map_eq_nil_iff.mp hempty)
  · rw [withReservedValue, List.length_map]
    exact h.vin_length
  · intro txin htxin
    obtain ⟨bare, hbare, rfl⟩ := List.mem_map.mp htxin
    refine ⟨(h.vin bare hbare).scriptSig, show 1 ≤ maxSize by decide, fun item hitem => ?_⟩
    rw [List.mem_singleton.mp hitem]
    decide

/-! ## The block -/

/-- A job that was built for these transactions: its halves are those of a coinbase, its branch
is the branch of their ids, and its data is theirs. -/
structure JobFor (dsha256 : Dsha256) (job : Job) (regtest : Bool) (rewardSats enSize : ℕ)
    (wc : Bytes) (payouts : List (Bytes × ℕ)) (txs : List Transaction) : Prop where
  built : buildCoinbase regtest job.height rewardSats enSize wc payouts = .ok (job.p1, job.p2)
  branch : job.branchLe =
    coinbaseBranch dsha256 ((txs.map dsha256.txHash).map serializeUint256)
  data : job.txs = txs.map (serializeTransaction true)
  prev : job.prevLe.length = 32

/-- The limits of the block format. -/
structure BlockFits (rewardSats : ℕ) (payouts : List (Bytes × ℕ)) (txs : List Transaction) :
    Prop where
  reward : rewardSats < 2 ^ 63
  payouts : payouts.length < maxSize
  count : txs.length < maxSize
  txs : ∀ tx ∈ txs, tx.Fits

/-- The coinbase of a submitted block. -/
def submittedCoinbase (height : ℕ) (payouts : List (Bytes × ℕ)) (wc extranonces : Bytes) :
    Transaction :=
  withReservedValue (coinbaseTransaction height payouts wc extranonces)

/-- The block that a share of a job stands for. -/
def solvedBlock (dsha256 : Dsha256) (job : Job) (payouts : List (Bytes × ℕ)) (wc en1 : Bytes)
    (txs : List Transaction) (params : SubmitParams) : Block where
  nVersion := UInt32.ofNat (rolledVersion job.version params.vbits)
  hashPrevBlock := BitVec.ofNat 256 (Bytes.toNatLE job.prevLe)
  hashMerkleRoot := dsha256.computeMerkleRoot
    ((submittedCoinbase job.height payouts wc (en1 ++ params.en2) :: txs).map dsha256.txHash)
  nTime := UInt32.ofNat params.ntime
  nBits := UInt32.ofNat job.bits
  nNonce := UInt32.ofNat params.nonce
  vtx := submittedCoinbase job.height payouts wc (en1 ++ params.en2) :: txs

theorem serializeUint32_ofNat (n : ℕ) : serializeUint32 (UInt32.ofNat n) = Bytes.ofNatLE 4 n := by
  have hmod : (UInt32.ofNat n).toNat = n % 256 ^ 4 := by
    rw [UInt32.toNat_ofNat']
    norm_num
  rw [serializeUint32, hmod, Bytes.ofNatLE_mod]

theorem serializeUint256_ofNat {bytes : Bytes} (hlength : bytes.length = 32) :
    serializeUint256 (BitVec.ofNat 256 (Bytes.toNatLE bytes)) = bytes := by
  have hlt : Bytes.toNatLE bytes < 2 ^ 256 := by
    have hbound := Bytes.toNatLE_lt bytes
    rw [hlength] at hbound
    exact hbound.trans_eq (by norm_num)
  rw [serializeUint256, BitVec.toNat_ofNat, Nat.mod_eq_of_lt hlt, ← hlength, Bytes.ofNatLE_toNatLE]

section Solved

variable {job : Job} {regtest : Bool} {rewardSats enSize : ℕ} {wc en1 : Bytes}
  {payouts : List (Bytes × ℕ)} {txs : List Transaction} {params : SubmitParams}

variable (h : JobFor dsha256 job regtest rewardSats enSize wc payouts txs)
  (hsize : (en1 ++ params.en2).length = enSize)

include h hsize

theorem JobFor.coinbase_eq :
    job.coinbase en1 params.en2 =
      serializeTransaction false
        (coinbaseTransaction job.height payouts wc (en1 ++ params.en2)) := by
  rw [← buildCoinbase_eq_serialize h.built hsize, Job.coinbase]
  simp only [List.append_assoc]

theorem JobFor.root_eq :
    job.root dsha256 (job.coinbase en1 params.en2) =
      serializeUint256
        (solvedBlock dsha256 job payouts wc en1 txs params).hashMerkleRoot := by
  have hleaf : dsha256.hash (job.coinbase en1 params.en2) = serializeUint256
      (dsha256.txHash (submittedCoinbase job.height payouts wc (en1 ++ params.en2))) := by
    rw [submittedCoinbase, txHash_withReservedValue, Dsha256.serializeUint256_uint256,
      h.coinbase_eq hsize]
  rw [Job.root, h.branch, hleaf, foldl_coinbaseBranch]
  rfl

theorem JobFor.header_eq :
    job.header dsha256 en1 params =
      serializeHeader (solvedBlock dsha256 job payouts wc en1 txs params).toBlockHeader := by
  rw [Job.header, h.root_eq hsize, serializeHeader]
  simp only [solvedBlock, serializeUint32_ofNat, serializeUint256_ofNat h.prev]

theorem JobFor.blockBytes_eq :
    (⟨job, job.coinbase en1 params.en2, job.header dsha256 en1 params⟩ : Pending).blockBytes =
      serializeBlock true (solvedBlock dsha256 job payouts wc en1 txs params) := by
  have hcoinbase : segwitCoinbase (job.coinbase en1 params.en2) = serializeTransaction true
      (submittedCoinbase job.height payouts wc (en1 ++ params.en2)) := by
    rw [h.coinbase_eq hsize]
    exact segwitCoinbase_serialize rfl
  have hcount : (solvedBlock dsha256 job payouts wc en1 txs params).vtx.length = 1 + txs.length :=
    Nat.add_comm _ _
  rw [Pending.blockBytes, serializeBlock, serializeVector, hcount]
  dsimp only
  rw [h.header_eq hsize, hcoinbase, h.data, List.length_map, varint_eq_writeCompactSize]
  change _ = _ ++ (_ ++ (submittedCoinbase job.height payouts wc (en1 ++ params.en2) ::
    txs).flatMap (serializeTransaction true))
  rw [List.flatMap_cons, List.flatMap_def]
  simp only [List.append_assoc]

end Solved

/-! ## What `validate` returns -/

theorem length_en2_of_parse {submit : Submit} {en2Size : ℕ} {params : SubmitParams}
    (h : parseSubmitParams submit en2Size = .ok params) : params.en2.length = en2Size := by
  unfold parseSubmitParams at h
  split at h
  · cases h
  split at h
  · cases h
  rename_i hlength
  obtain ⟨ntime, -, h⟩ := Except.bind_eq_ok_iff.mp h
  obtain ⟨nonce, -, h⟩ := Except.bind_eq_ok_iff.mp h
  split at h
  · rw [← Except.ok.inj h]
    exact not_not.mp hlength
  · obtain ⟨vbits, -, h⟩ := Except.bind_eq_ok_iff.mp h
    rw [← Except.ok.inj h]
    exact not_not.mp hlength

theorem validateStart_eq_ok {jobs : JobTable} {en1 : Bytes} {en2Size : ℕ} {now : ℤ}
    {tip : Option Bytes} {submit : Submit} {pending : Pending}
    (h : validateStart dsha256 jobs en1 en2Size now tip submit = .ok pending) :
    ∃ params, parseSubmitParams submit en2Size = .ok params ∧
      namedJob jobs submit = .ok pending.job ∧
      pending = ⟨pending.job, pending.job.coinbase en1 params.en2,
        pending.job.header dsha256 en1 params⟩ := by
  obtain ⟨job, hjob, h⟩ := Except.bind_eq_ok_iff.mp h
  obtain ⟨-, -, h⟩ := Except.bind_eq_ok_iff.mp h
  obtain ⟨-, -, h⟩ := Except.bind_eq_ok_iff.mp h
  obtain ⟨params, hparams, h⟩ := Except.bind_eq_ok_iff.mp h
  rw [← Except.ok.inj h]
  exact ⟨params, hparams, hjob, rfl⟩

theorem validateFinish_of_le {pending : Pending} {hi : ℕ} (h : hi ≤ pending.job.target) :
    validateFinish dsha256 pending (some hi) =
      .block pending.blockBytes (dsha256.hash pending.header).reverse := by
  rw [validateFinish, if_neg (fun hboth => hboth.2 h), if_pos h]

/-- What the node reads in the bytes of a solved block. -/
structure ReadsAsSolved (dsha256 : Dsha256) (bytes : Bytes) (height enSize : ℕ)
    (en1 en2 : Bytes) (header cb : Bytes) (txs : List Transaction) : Prop where
  reads : ∃ block coinbase txin, readBlock.run bytes = some (block, []) ∧
    serializeHeader block.toBlockHeader = header ∧
    block.vtx = coinbase :: txs ∧ coinbase.isCoinBase = true ∧ coinbase.vin = [txin] ∧
    txin.scriptWitness = [List.replicate 32 0] ∧
    txin.scriptSig = scriptSigStart height ++ en1 ++ en2 ∧
    txin.scriptSig.length = (scriptSigStart height).length + enSize ∧
    serializeTransaction false coinbase = cb ∧ dsha256.txHash coinbase = dsha256.uint256 cb ∧
    block.hashMerkleRoot = dsha256.blockMerkleRoot block

/-- **A solved block.**  For every job that was built for its own transactions and every request
that reaches the node, a hash that meets the network target makes `validate` return a block
that reads as the solved header, the coinbase with its witness, and these transactions. -/
theorem solvedBlock_reads {pending : Pending} {regtest : Bool} {rewardSats en2Size : ℕ}
    {wc en1 : Bytes} {payouts : List (Bytes × ℕ)} {txs : List Transaction} {jobs : JobTable}
    {now : ℤ} {tip : Option Bytes} {submit : Submit} {hi : ℕ}
    (hjob : JobFor dsha256 pending.job regtest rewardSats (en1.length + en2Size) wc payouts txs)
    (hfits : BlockFits rewardSats payouts txs)
    (hstart : validateStart dsha256 jobs en1 en2Size now tip submit = .ok pending)
    (htarget : hi ≤ pending.job.target) :
    ∃ params bytes hash, parseSubmitParams submit en2Size = .ok params ∧
      validateFinish dsha256 pending (some hi) = .block bytes hash ∧
      ReadsAsSolved dsha256 bytes pending.job.height (en1.length + en2Size) en1 params.en2
        pending.header pending.cb txs := by
  obtain ⟨params, hparams, -, hpending⟩ := validateStart_eq_ok hstart
  have hen2 := length_en2_of_parse hparams
  have hsize : (en1 ++ params.en2).length = en1.length + en2Size := by
    rw [List.length_append, hen2]
  have hbytes : pending.blockBytes =
      serializeBlock true (solvedBlock dsha256 pending.job payouts wc en1 txs params) := by
    rw [hpending]
    exact hjob.blockBytes_eq hsize
  have hcb : pending.cb = serializeTransaction false
      (coinbaseTransaction pending.job.height payouts wc (en1 ++ params.en2)) := by
    rw [hpending]
    exact hjob.coinbase_eq hsize
  have hheader : pending.header = serializeHeader
      (solvedBlock dsha256 pending.job payouts wc en1 txs params).toBlockHeader := by
    rw [hpending]
    exact hjob.header_eq hsize
  have houtputs : (coinbaseOutputs payouts wc).length ≤ maxSize := by
    have hpayouts := hfits.payouts
    rw [length_coinbaseOutputs]
    split_ifs <;> omega
  have hcoinbase := fits_withReservedValue
    ((builtCoinbase_of_ok hjob.built).fits hfits.reward houtputs hsize)
  -- every transaction fits, so what was written is read back
  have hread : readBlock.run pending.blockBytes =
      some (solvedBlock dsha256 pending.job payouts wc en1 txs params, []) := by
    have hcount :
        (solvedBlock dsha256 pending.job payouts wc en1 txs params).vtx.length ≤ maxSize :=
      hfits.count
    rw [hbytes]
    refine (readsAs_block hcount fun tx htx => ?_).run
    rcases List.mem_cons.mp htx with rfl | hmem
    · exact hcoinbase
    · exact hfits.txs tx hmem
  refine ⟨params, _, _, hparams, validateFinish_of_le htarget, ⟨_, _, _, hread, hheader.symm, rfl,
    rfl, rfl, rfl, (List.append_assoc _ _ _).symm, ?_, ?_, ?_, rfl⟩⟩
  · change (scriptSigStart pending.job.height ++ (en1 ++ params.en2)).length = _
    rw [List.length_append, hsize]
  · rw [hcb]
    exact serializeTransaction_false_withReservedValue _
  · rw [hcb]
    exact txHash_withReservedValue _

/-! ## A job with two transactions -/

/-- A stand-in for the hash function. -/
def sumDsha256 : Dsha256 where
  hash bytes := Bytes.ofNatLE 32 (bytes.foldl (fun acc byte => acc * 257 + byte.toNat) 1)
  length_hash _ := Bytes.length_ofNatLE _ _

/-- A payment, told apart by its lock time. -/
def plainTx (lockTime : UInt32) : Transaction :=
  ⟨2, [⟨⟨1#256, 0⟩, [], 0, []⟩], [⟨20000, Script.v3Output (List.replicate 32 3)⟩], lockTime⟩

/-- The whole reward to one script. -/
def plainPayouts : List (Bytes × ℕ) := [(Script.v3Output (List.replicate 32 1), 50000)]

/-- A job of two payments. -/
def plainJob : Job where
  p1 := ((buildCoinbase false 20 50000 8 [] plainPayouts).toOption.getD ([], [])).1
  p2 := ((buildCoinbase false 20 50000 8 [] plainPayouts).toOption.getD ([], [])).2
  prevLe := List.replicate 32 9
  version := 0x20000000
  bits := 0x207fffff
  height := 20
  mintime := 100
  shareDiff := 1
  branchLe := coinbaseBranch sumDsha256
    (([plainTx 0, plainTx 1].map sumDsha256.txHash).map serializeUint256)
  txs := [plainTx 0, plainTx 1].map (serializeTransaction true)

/-- A submission for that job. -/
def plainSubmit : Submit := ⟨some 1, some [5, 6, 7, 8], some 150, some 77, some (some 0x2000)⟩

/-- Its parsed parameters. -/
def plainParams : SubmitParams := ⟨[5, 6, 7, 8], 150, 77, some 0x2000⟩

/-- What the pool holds for it. -/
def plainPending : Pending :=
  ⟨plainJob, plainJob.coinbase [1, 2, 3, 4] plainParams.en2,
    plainJob.header sumDsha256 [1, 2, 3, 4] plainParams⟩

theorem plainJob_for :
    JobFor sumDsha256 plainJob false 50000 8 [] plainPayouts [plainTx 0, plainTx 1] :=
  ⟨rfl, rfl, rfl, rfl⟩

theorem plainTx_fits (lockTime : UInt32) : (plainTx lockTime).Fits := by
  refine ⟨List.cons_ne_nil _ _, show 1 ≤ maxSize by decide, show 1 ≤ maxSize by decide, ?_, ?_⟩
  · intro txin htxin
    rw [List.mem_singleton.mp htxin]
    refine ⟨Nat.zero_le _, Nat.zero_le _, fun item hitem => ?_⟩
    cases hitem
  · intro txout htxout
    rw [List.mem_singleton.mp htxout]
    exact ⟨by decide, by decide, by decide⟩

/-- Three leaves: the last id is repeated in the first level. -/
theorem solvedBlock_reads_plainJob :
    ∃ params bytes hash, parseSubmitParams plainSubmit 4 = .ok params ∧
      validateFinish sumDsha256 plainPending (some 0) = .block bytes hash ∧
      ReadsAsSolved sumDsha256 bytes 20 8 [1, 2, 3, 4] params.en2 plainPending.header
        plainPending.cb [plainTx 0, plainTx 1] := by
  have hfits : BlockFits 50000 plainPayouts [plainTx 0, plainTx 1] := by
    refine ⟨by decide, by decide, by decide, fun tx htx => ?_⟩
    rcases List.mem_cons.mp htx with rfl | htx
    · exact plainTx_fits 0
    · rw [List.mem_singleton.mp htx]
      exact plainTx_fits 1
  have hstart : validateStart sumDsha256 [(1, plainJob)] [1, 2, 3, 4] 4 200 none plainSubmit =
      .ok plainPending := rfl
  exact solvedBlock_reads plainJob_for hfits hstart (Nat.zero_le _)

end XCoin.Pool
