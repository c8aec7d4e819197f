import XCoin.Validation.BlockCoins

/-!
# The shape of the coins

On the main chain every coin is locked by `OP_3 <root>` and worth at least 1 sat: the
output rules of `CheckTransaction` leave nothing else that could become a coin, and the
genesis block, which is exempt from them, adds no coin.  Below the floor of 10,000 sat a
block creates at most one coin, and then its coinbase has no other spendable output.
-/

namespace XCoin.Validation

open Consensus Script

variable {env : Env} {tx : Transaction} {txid : Uint256} {nHeight : ℤ} {fCoinbase : Bool}

theorem isUnspendable_v3Output {script : Bytes} (h : IsV3Output script) :
    isUnspendable script = false := by
  obtain ⟨root, hroot, rfl⟩ := h
  have hopcode : byteAt (v3Output root) 0 ≠ opReturn := by
    simp [byteAt, v3Output, opReturn]
  have hlength : (v3Output root).length = 34 := by simp [v3Output, hroot]
  simp [isUnspendable, hopcode, hlength, maxScriptSize]

theorem allowedOutput_mainnet {script : Bytes} (h : allowedOutput false (solver script) = true) :
    IsV3Output script ∨ solver script = .nullData := by
  have hcases : solver script = .witnessV3Pq ∨ solver script = .nullData := by
    simpa [allowedOutput] using h
  rcases hcases with hv3 | hnull
  · exact .inl (solver_eq_witnessV3Pq_iff.mp hv3)
  · exact .inr hnull

/-- Under the mainnet rule the coins of the outputs are the outputs that are not `NULL_DATA`. -/
theorem map_out_outputCoins {vout : List TxOut} :
    ∀ i : ℕ, (∀ txout ∈ vout, allowedOutput false (solver txout.scriptPubKey) = true) →
      (outputCoins txid nHeight fCoinbase vout i).map (fun entry => entry.2.out) =
        spendableOutputs vout := by
  induction vout with
  | nil =>
    intro i _
    rfl
  | cons txout rest ih =>
    intro i hallowed
    have hrest := ih (i + 1) fun other hother => hallowed other (List.mem_cons_of_mem _ hother)
    rw [outputCoins, spendableOutputs_cons]
    rcases allowedOutput_mainnet (hallowed txout List.mem_cons_self) with hv3 | hnull
    · have hsolver : solver txout.scriptPubKey ≠ .nullData := by
        rw [solver_eq_witnessV3Pq_iff.mpr hv3]
        decide
      rw [if_neg (by simp [isUnspendable_v3Output hv3]), if_neg hsolver, List.map_cons, hrest]
    · rw [if_pos (isUnspendable_of_nullData hnull), if_pos hnull, hrest]

/-- What the mainnet rule says of a transaction's coins. -/
structure CoinRules (txid : Transaction → Uint256) (nHeight : ℤ) (tx : Transaction) : Prop where
  shape : ∀ entry ∈ txCoins txid nHeight tx,
    IsV3Output entry.2.out.scriptPubKey ∧ 1 ≤ entry.2.out.nValue
  floor : (∀ entry ∈ txCoins txid nHeight tx, 10000 ≤ entry.2.out.nValue) ∨
    (tx.isCoinBase = true ∧ ∃ entry, txCoins txid nHeight tx = [entry])

theorem OutputRules.coinRules (txid : Transaction → Uint256) (nHeight : ℤ)
    (h : OutputRules false 10000 tx) : CoinRules txid nHeight tx := by
  have hmap : (txCoins txid nHeight tx).map (fun entry => entry.2.out) =
      spendableOutputs tx.vout := map_out_outputCoins 0 h.allowed
  have hmem : ∀ entry ∈ txCoins txid nHeight tx, entry.2.out ∈ spendableOutputs tx.vout := by
    intro entry hentry
    rw [← hmap]
    exact List.mem_map_of_mem hentry
  have hv3 : ∀ entry ∈ txCoins txid nHeight tx, IsV3Output entry.2.out.scriptPubKey := by
    intro entry hentry
    obtain ⟨hout, hspendable⟩ := mem_spendableOutputs.mp (hmem entry hentry)
    exact (allowedOutput_mainnet (h.allowed _ hout)).resolve_right hspendable
  rcases h.floor (by decide) with hfloor | ⟨hcoinbase, txout, hsingle, hvalue⟩
  · refine ⟨fun entry hentry => ⟨hv3 entry hentry, ?_⟩, .inl fun entry hentry => ?_⟩
    · have := hfloor _ (hmem entry hentry)
      omega
    · exact hfloor _ (hmem entry hentry)
  · refine ⟨fun entry hentry => ⟨hv3 entry hentry, ?_⟩, .inr ⟨hcoinbase, ?_⟩⟩
    · have hout := hmem entry hentry
      rw [hsingle, List.mem_singleton] at hout
      rwa [hout]
    · rw [hsingle] at hmap
      obtain ⟨entry, hentry, -⟩ := List.map_eq_singleton_iff.mp hmap
      exact ⟨entry, hentry⟩

/-! ## One block -/

/-- The coins that connecting a block adds. -/
def createdCoins (env : Env) (params : Params) (pindex : BlockIndex) (block : Block) :
    List (OutPoint × Coin) :=
  if pindex.hash = params.hashGenesisBlock then []
  else block.vtx.flatMap (txCoins env.txid pindex.nHeight)

theorem checkTransaction_of_checkTransactions {permitV2Outputs : Bool} {minOutputValue : ℤ}
    {vtx : List Transaction} :
    checkTransactions permitV2Outputs minOutputValue vtx = .ok () →
      ∀ tx ∈ vtx, checkTransaction tx permitV2Outputs minOutputValue = .ok () := by
  induction vtx with
  | nil =>
    intro _ tx htx
    cases htx
  | cons first rest ih =>
    intro h tx htx
    obtain ⟨_, hfirst, hrest⟩ := bind_eq_ok.mp h
    rcases List.mem_cons.mp htx with rfl | hmem
    · exact asBlockFailure_eq_ok.mp hfirst
    · exact ih hrest tx hmem

section Connects

variable {chain next : ChainState} {block : Block} {undo : List (List Coin)}

/-- The transactions of an accepted block other than the genesis block have passed the mainnet
rule. -/
theorem Connects.checkTransaction (h : Connects env mainParams chain block next undo)
    (hgenesis : env.getHash block.toBlockHeader ≠ mainParams.hashGenesisBlock) :
    ∀ tx ∈ block.vtx, Validation.checkTransaction tx false 10000 = .ok () := by
  obtain ⟨_, -, hcheck⟩ := bind_eq_ok.mp h.checked
  obtain ⟨_, -, hcheck⟩ := bind_eq_ok.mp hcheck
  obtain ⟨_, htxs, -⟩ := bind_eq_ok.mp hcheck
  rw [checkBlockTransactions, if_neg hgenesis] at htxs
  exact checkTransaction_of_checkTransactions htxs

theorem Connects.coinRules (h : Connects env mainParams chain block next undo)
    (hgenesis : env.getHash block.toBlockHeader ≠ mainParams.hashGenesisBlock) :
    ∀ tx ∈ block.vtx, CoinRules env.txid (chain.tip.nHeight + 1) tx := by
  intro tx htx
  obtain ⟨-, -, -, -, hrules, -⟩ :=
    checkTransaction_eq_ok_iff.mp (h.checkTransaction hgenesis tx htx)
  exact hrules.coinRules env.txid _

end Connects

/-- What one accepted block does to the coins. -/
structure BlockCoinShape (env : Env) (chain : ChainState) (block : Block) (next : ChainState) :
    Prop where
  /-- a coin after the block was there before or is one of the block's -/
  source : ∀ outpoint coin, next.view.lookup outpoint = some coin →
    chain.view.lookup outpoint = some coin ∨
      (outpoint, coin) ∈ createdCoins env mainParams next.tip block
  /-- the block's coins are locked by `OP_3 <root>` and worth something -/
  shape : ∀ entry ∈ createdCoins env mainParams next.tip block,
    IsV3Output entry.2.out.scriptPubKey ∧ 1 ≤ entry.2.out.nValue
  /-- at most one of them is below the floor -/
  below : ((createdCoins env mainParams next.tip block).filter
    fun entry => decide (entry.2.out.nValue < 10000)).length ≤ 1
  /-- and it is then the only spendable output of the coinbase -/
  exempt : ∀ entry ∈ createdCoins env mainParams next.tip block, entry.2.out.nValue < 10000 →
    txCoins env.txid next.tip.nHeight (coinbaseTx block) = [entry]

theorem filter_below_eq_nil {coins : List (OutPoint × Coin)}
    (h : ∀ entry ∈ coins, 10000 ≤ entry.2.out.nValue) :
    coins.filter (fun entry => decide (entry.2.out.nValue < 10000)) = [] := by
  rw [List.filter_eq_nil_iff]
  intro entry hentry
  have hfloor := h entry hentry
  simpa using hfloor

/-- **One block.** -/
theorem connectBlock_coinShape {chain next : ChainState} {block : Block} {undo : List (List Coin)}
    (h : connectBlock env mainParams chain block = .ok (next, undo)) :
    BlockCoinShape env chain block next := by
  rcases connectBlock_updateAll h with ⟨hgenesis, htip, hview⟩ | ⟨hgenesis, hconnects⟩
  · have hnone : createdCoins env mainParams next.tip block = [] := by
      rw [createdCoins, htip]
      exact if_pos hgenesis
    constructor
    · intro outpoint coin hlookup
      exact .inl (hview ▸ hlookup)
    · simp [hnone]
    · simp [hnone]
    · simp [hnone]
  have hheight : next.tip.nHeight = chain.tip.nHeight + 1 := by rw [hconnects.tip]; rfl
  have hcreated : createdCoins env mainParams next.tip block =
      block.vtx.flatMap (txCoins env.txid (chain.tip.nHeight + 1)) := by
    have hhash : next.tip.hash ≠ mainParams.hashGenesisBlock := by
      rw [hconnects.tip]
      exact hgenesis
    rw [createdCoins, if_neg hhash, hheight]
  have hrules := hconnects.coinRules hgenesis
  obtain ⟨coinbase, rest, hvtx, -, hrest⟩ := (checkBlock_ok hconnects.checked).coinbase
  have hfirst : coinbaseTx block = coinbase := by simp [coinbaseTx, hvtx]
  -- Only the coinbase can have a coin below the floor.
  have hothers : ∀ entry ∈ rest.flatMap (txCoins env.txid (chain.tip.nHeight + 1)),
      10000 ≤ entry.2.out.nValue := by
    intro entry hentry
    obtain ⟨tx, htx, hcoin⟩ := List.mem_flatMap.mp hentry
    rcases (hrules tx (by simp [hvtx, htx])).floor with hfloor | ⟨hcoinbase, -⟩
    · exact hfloor entry hcoin
    · rw [hrest tx htx] at hcoinbase
      cases hcoinbase
  rw [hvtx, List.flatMap_cons] at hcreated
  constructor
  · intro outpoint coin hlookup
    obtain ⟨first, hcoins⟩ := hconnects.coins
    refine all_updateAll (P := fun outpoint coin => chain.view.lookup outpoint = some coin ∨
      (outpoint, coin) ∈ createdCoins env mainParams next.tip block) ?_ ?_ hcoins _ _ hlookup
    · intro outpoint coin hbefore
      exact .inl hbefore
    · intro tx htx entry hentry
      refine .inr ?_
      rw [hcreated, ← List.flatMap_cons, ← hvtx]
      exact List.mem_flatMap.mpr ⟨tx, htx, hentry⟩
  · intro entry hentry
    rw [hcreated, ← List.flatMap_cons, ← hvtx] at hentry
    obtain ⟨tx, htx, hcoin⟩ := List.mem_flatMap.mp hentry
    exact (hrules tx htx).shape entry hcoin
  · rw [hcreated, List.filter_append, filter_below_eq_nil hothers, List.append_nil]
    rcases (hrules coinbase (by simp [hvtx])).floor with hfloor | ⟨-, entry, hsingle⟩
    · rw [filter_below_eq_nil hfloor]
      exact Nat.zero_le 1
    · rw [hsingle]
      exact List.length_filter_le _ _
  · intro entry hentry hbelow
    rw [hfirst, hheight]
    rw [hcreated, List.mem_append] at hentry
    rcases hentry with hcoin | hother
    · rcases (hrules coinbase (by simp [hvtx])).floor with hfloor | ⟨-, single, hsingle⟩
      · have := hfloor entry hcoin
        omega
      · rw [hsingle, List.mem_singleton] at hcoin
        rw [hcoin]
        exact hsingle
    · have := hothers entry hother
      omega

/-! ## The chain -/

/-- **The shape of the coins.**  After any accepted main chain every coin is `OP_3 <root>` with a
root of 32 bytes and worth at least 1 sat, and every next block keeps to `BlockCoinShape`. -/
theorem coins_wellShaped {blocks : List Block} {chain : ChainState}
    (h : connectBlocks env mainParams (genesisChain mainParams) blocks = .ok chain) :
    (∀ outpoint coin, chain.view.lookup outpoint = some coin →
      IsV3Output coin.out.scriptPubKey ∧ 1 ≤ coin.out.nValue) ∧
    ∀ block next undo, connectBlock env mainParams chain block = .ok (next, undo) →
      BlockCoinShape env chain block next := by
  refine ⟨?_, fun block next undo hblock => connectBlock_coinShape hblock⟩
  refine connectBlocks_induction (P := fun chain => ∀ outpoint coin,
    chain.view.lookup outpoint = some coin →
      IsV3Output coin.out.scriptPubKey ∧ 1 ≤ coin.out.nValue) ?_ ?_ h
  · intro chain block next undo hchain hblock outpoint coin hlookup
    have hshape := connectBlock_coinShape hblock
    rcases hshape.source outpoint coin hlookup with hbefore | hcreated
    · exact hchain outpoint coin hbefore
    · exact hshape.shape _ hcreated
  · exact Finmap.all_empty

/-- Block 1 with a coinbase that claims 1 sat of its subsidy. -/
def modestBlock : Block :=
  { firstBlock with
    vtx := [{ version := 2
              vin := [⟨⟨0#256, OutPoint.nullIndex⟩, [0x01, 0x01], 0xffffffff, []⟩]
              vout := [⟨1, v3Output (List.replicate 32 7)⟩, ⟨0, [0x6a]⟩]
              nLockTime := 0 }] }

/-- The exemption is used by a chain of one block. -/
theorem coins_wellShaped_modestBlock :
    ∃ chain,
      connectBlocks acceptingEnv mainParams (genesisChain mainParams) [modestBlock] = .ok chain ∧
      chain.view.lookup ⟨1#256, 0⟩ = some ⟨⟨1, v3Output (List.replicate 32 7)⟩, true, 1⟩ ∧
      ∀ outpoint coin, chain.view.lookup outpoint = some coin →
        IsV3Output coin.out.scriptPubKey ∧ 1 ≤ coin.out.nValue := by
  have hrun : (match connectBlocks acceptingEnv mainParams (genesisChain mainParams)
        [modestBlock] with
      | .ok chain => decide (chain.view.lookup ⟨1#256, 0⟩ =
          some ⟨⟨1, v3Output (List.replicate 32 7)⟩, true, 1⟩)
      | .error _ => false) = true := by decide +kernel
  split at hrun
  next chain hchain => exact ⟨chain, hchain, of_decide_eq_true hrun, (coins_wellShaped hchain).1⟩
  next => cases hrun

end XCoin.Validation
