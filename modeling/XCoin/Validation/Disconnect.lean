import XCoin.Validation.CoinShape

/-!
# Disconnecting a block

`ApplyTxInUndo` and `Chainstate::DisconnectBlock`, with the undo data as an argument: reading
them from disk is not modelled.  The loops of the source run backwards over the transactions
and over the inputs of each; here the recursion handles the rest of the list first.

`DisconnectBlock` takes back exactly what `ConnectBlock` did.  One transaction is undone by
erasing its coins, which are all new, and putting its inputs back, which are all gone
(`disconnectTx_updateCoins`); a block is the induction over its transactions.
-/

namespace XCoin.Validation

open Consensus Script

/-! ## The code -/

/-- `DisconnectResult`. -/
inductive DisconnectResult where
  | ok
  | unclean
  | failed
deriving DecidableEq, Repr

/-- Why `DisconnectBlock` stops early: it returns `DISCONNECT_FAILED`, or an assertion or exception
of `AddCoin`. -/
inductive DisconnectStop where
  | failed
  | thrown (failure : Failure)
deriving DecidableEq, Repr

/-- `MAX_BLOCK_WEIGHT` over the weight of an empty output. -/
def maxOutputsPerBlock : ℕ := maxBlockWeight / (witnessScaleFactor * (serializeTxOut ⟨-1, []⟩).length)

/-- The first unspent output of the transaction. -/
def accessByTxid (view : CoinsView) (txid : Uint256) : Option Coin :=
  (List.range maxOutputsPerBlock).findSome? fun n => view.lookup ⟨txid, UInt32.ofNat n⟩

/-- The view and `fClean`. -/
structure DisconnectState where
  view : CoinsView
  fClean : Bool

/-- The height and the coinbase flag of undo data that miss them come from another output of the
same transaction. -/
def completeUndo (undo : Coin) (view : CoinsView) (out : OutPoint) : Except DisconnectStop Coin :=
  if undo.nHeight = 0 then
    match accessByTxid view out.hash with
    | some alternate => .ok { undo with nHeight := alternate.nHeight, fCoinBase := alternate.fCoinBase }
    | none => .error .failed
  else .ok undo

/-- `ApplyTxInUndo`: the view with the coin back, and whether it was missing before. -/
def applyTxInUndo (undo : Coin) (view : CoinsView) (out : OutPoint) :
    Except DisconnectStop (CoinsView × Bool) := do
  let coin ← completeUndo undo view out
  let after ← (addCoin view out coin (haveCoin view out)).mapError .thrown
  return (after, !haveCoin view out)

/-- The two blocks whose coinbases a later one repeats. -/
def isBIP30Unspendable (pindex : BlockIndex) : Bool :=
  (pindex.nHeight == 91722 &&
      pindex.hash == 0x00000000000271a2dc26e7667f8419f2e15416dc6955e5a6c6cdf3f2574dd08e#256) ||
    (pindex.nHeight == 91812 &&
      pindex.hash == 0x00000000000af0aed4792b1acee3d966af36cf5def14935db8de83d6f9306f2f#256)

/-- The loop over the outputs from output `o` on: each is spent, and must have been there as the
block has it. -/
def disconnectOutputs (pindex : BlockIndex) (hash : Uint256) (isCoinbase : Bool) :
    List TxOut → ℕ → DisconnectState → DisconnectState
  | [], _, st => st
  | txout :: rest, o, st =>
    if isUnspendable txout.scriptPubKey then
      disconnectOutputs pindex hash isCoinbase rest (o + 1) st
    else
      let out : OutPoint := ⟨hash, UInt32.ofNat o⟩
      let found := decide (st.view.lookup out = some ⟨txout, isCoinbase, pindex.nHeight⟩)
      disconnectOutputs pindex hash isCoinbase rest (o + 1)
        { view := st.view.erase out
          fClean := st.fClean && (found || (isCoinbase && isBIP30Unspendable pindex)) }

/-- The loop over the inputs, the last one first. -/
def restoreInputs : List TxIn → List Coin → DisconnectState → Except DisconnectStop DisconnectState
  | txin :: rest, undo :: more, st => do
    let st ← restoreInputs rest more st
    let (view, clean) ← applyTxInUndo undo st.view txin.prevout
    return { view, fClean := st.fClean && clean }
  | _, _, st => .ok st

/-- A transaction that is not the first of its block. -/
def disconnectTx (env : Env) (pindex : BlockIndex) (tx : Transaction) (txundo : List Coin)
    (st : DisconnectState) : Except DisconnectStop DisconnectState :=
  let st := disconnectOutputs pindex (env.txid tx) tx.isCoinBase tx.vout 0 st
  if txundo.length ≠ tx.vin.length then .error .failed
  else restoreInputs tx.vin txundo st

/-- The loop over the transactions after the first, the last one first. -/
def disconnectTxs (env : Env) (pindex : BlockIndex) :
    List Transaction → List (List Coin) → DisconnectState → Except DisconnectStop DisconnectState
  | tx :: rest, txundo :: more, st => do
    let st ← disconnectTxs env pindex rest more st
    disconnectTx env pindex tx txundo st
  | _, _, st => .ok st

/-- `DisconnectBlock`: the result, the coins and the best block of the view. -/
def disconnectBlock (env : Env) (block : Block) (pindex : BlockIndex) (vtxundo : List (List Coin))
    (view : CoinsView) : Except DisconnectStop (DisconnectResult × CoinsView × Option Uint256) :=
  if vtxundo.length + 1 ≠ block.vtx.length then .error .failed
  else do
    let st ← disconnectTxs env pindex block.vtx.tail vtxundo ⟨view, true⟩
    let first := coinbaseTx block
    let st := disconnectOutputs pindex (env.txid first) first.isCoinBase first.vout 0 st
    return (if st.fClean then .ok else .unclean, st.view, pindex.ancestors.head?)

/-! ## Outputs -/

variable {env : Env} {pindex : BlockIndex} {tx : Transaction}

section Outputs

variable {txid : Uint256} {nHeight : ℤ} {fCoinbase : Bool} {vout : List TxOut}

theorem addCoinsLoop_eq_insertAll :
    ∀ {view after : CoinsView} {i : ℕ},
      addCoinsLoop txid nHeight fCoinbase vout i view = .ok after →
      after = view.insertAll (outputCoins txid nHeight fCoinbase vout i) := by
  induction vout with
  | nil =>
    intro view after i h
    exact (Except.ok.inj h).symm
  | cons txout rest ih =>
    intro view after i h
    obtain ⟨next, hnext, h⟩ := bind_eq_ok.mp h
    unfold addCoin at hnext
    split_ifs at hnext with hspent hunspendable hoverwrite
    · obtain rfl := Except.ok.inj hnext
      rw [outputCoins, if_pos hunspendable]
      exact ih h
    · obtain rfl := Except.ok.inj hnext
      rw [outputCoins, if_neg hunspendable]
      exact ih h

theorem outputCoins_keys :
    ∀ {i : ℕ}, i + vout.length ≤ 2 ^ 32 →
      ((outputCoins txid nHeight fCoinbase vout i).map Prod.fst).Nodup ∧
        ∀ key ∈ (outputCoins txid nHeight fCoinbase vout i).map Prod.fst,
          key.hash = txid ∧ i ≤ key.n.toNat := by
  induction vout with
  | nil =>
    intro i _
    simp [outputCoins]
  | cons txout rest ih =>
    intro i hbound
    rw [List.length_cons] at hbound
    obtain ⟨hnodup, hkeys⟩ := @ih (i + 1) (by omega)
    have hlater : ∀ key ∈ (outputCoins txid nHeight fCoinbase rest (i + 1)).map Prod.fst,
        key.hash = txid ∧ i ≤ key.n.toNat := by
      intro key hkey
      obtain ⟨hhash, hindex⟩ := hkeys key hkey
      exact ⟨hhash, by omega⟩
    rw [outputCoins]
    split_ifs with hunspendable
    · exact ⟨hnodup, hlater⟩
    · have hsize : UInt32.size = 2 ^ 32 := rfl
      have hindex : (UInt32.ofNat i).toNat = i := UInt32.toNat_ofNat_of_lt' (by omega)
      rw [List.map_cons, List.nodup_cons]
      refine ⟨⟨?_, hnodup⟩, ?_⟩
      · intro hagain
        have hlt := (hkeys _ hagain).2
        dsimp only at hlt
        omega
      · intro key hkey
        rcases List.mem_cons.mp hkey with rfl | hmem
        · exact ⟨rfl, by dsimp only; omega⟩
        · exact hlater key hmem

/-- `AddCoins` of a transaction that is not a coinbase replaces no coin. -/
theorem lookup_eq_none_of_addCoinsLoop :
    ∀ {view after : CoinsView} {i : ℕ},
      addCoinsLoop txid nHeight false vout i view = .ok after →
      ∀ entry ∈ outputCoins txid nHeight false vout i, view.lookup entry.1 = none := by
  induction vout with
  | nil =>
    intro view after i _ entry hentry
    cases hentry
  | cons txout rest ih =>
    intro view after i h entry hentry
    obtain ⟨next, hnext, h⟩ := bind_eq_ok.mp h
    unfold addCoin at hnext
    split_ifs at hnext with hspent hunspendable hoverwrite
    · obtain rfl := Except.ok.inj hnext
      rw [outputCoins, if_pos hunspendable] at hentry
      exact ih h entry hentry
    · obtain rfl := Except.ok.inj hnext
      have hnew : view.lookup ⟨txid, UInt32.ofNat i⟩ = none := by
        simpa [haveCoin] using hoverwrite
      rw [outputCoins, if_neg hunspendable] at hentry
      rcases List.mem_cons.mp hentry with rfl | hmem
      · exact hnew
      · have hlater := ih h entry hmem
        by_cases hkey : entry.1 = ⟨txid, UInt32.ofNat i⟩
        · rw [hkey]
          exact hnew
        · rwa [Finmap.lookup_insert_of_ne _ hkey] at hlater

theorem disconnectOutputs_eq :
    ∀ {st : DisconnectState} {i : ℕ},
      ((outputCoins txid pindex.nHeight fCoinbase vout i).map Prod.fst).Nodup →
      (∀ entry ∈ outputCoins txid pindex.nHeight fCoinbase vout i,
        st.view.lookup entry.1 = some entry.2) →
      disconnectOutputs pindex txid fCoinbase vout i st =
        ⟨st.view.eraseAll ((outputCoins txid pindex.nHeight fCoinbase vout i).map Prod.fst),
          st.fClean⟩ := by
  induction vout with
  | nil =>
    intro st i _ _
    rfl
  | cons txout rest ih =>
    intro st i hnodup hfound
    rw [disconnectOutputs]
    by_cases hunspendable : isUnspendable txout.scriptPubKey = true
    · rw [outputCoins, if_pos hunspendable] at hnodup hfound ⊢
      rw [if_pos hunspendable]
      exact ih hnodup hfound
    · rw [outputCoins, if_neg hunspendable] at hnodup hfound ⊢
      rw [if_neg hunspendable]
      rw [List.map_cons, List.nodup_cons] at hnodup
      have hfirst := hfound _ List.mem_cons_self
      have hlater : ∀ entry ∈ outputCoins txid pindex.nHeight fCoinbase rest (i + 1),
          (st.view.erase ⟨txid, UInt32.ofNat i⟩).lookup entry.1 = some entry.2 := by
        intro entry hentry
        have hmem := List.mem_map_of_mem (f := Prod.fst) hentry
        have hother : entry.1 ≠ ⟨txid, UInt32.ofNat i⟩ := by
          intro hsame
          rw [hsame] at hmem
          exact hnodup.1 hmem
        rw [Finmap.lookup_erase_ne hother]
        exact hfound entry (List.mem_cons_of_mem _ hentry)
      simp only [hfirst, decide_true, Bool.true_or, Bool.and_true]
      exact ih hnodup.2 hlater

/-- **Outputs.**  Erasing the coins of a transaction takes back that they were added, if they were
all new. -/
theorem disconnectOutputs_addCoinsLoop {view after : CoinsView} (fClean : Bool)
    (hadd : addCoinsLoop txid pindex.nHeight fCoinbase vout 0 view = .ok after)
    (hcount : vout.length ≤ 2 ^ 32)
    (hnew : ∀ entry ∈ outputCoins txid pindex.nHeight fCoinbase vout 0,
      view.lookup entry.1 = none) :
    disconnectOutputs pindex txid fCoinbase vout 0 ⟨after, fClean⟩ = ⟨view, fClean⟩ := by
  have hafter := addCoinsLoop_eq_insertAll hadd
  have hnodup : ((outputCoins txid pindex.nHeight fCoinbase vout 0).map Prod.fst).Nodup :=
    (outputCoins_keys (by omega)).1
  rw [disconnectOutputs_eq hnodup, hafter, Finmap.eraseAll_insertAll hnew]
  intro entry hentry
  rw [hafter]
  exact Finmap.lookup_insertAll_of_mem hnodup hentry

end Outputs

/-! ## Inputs -/

/-- A coin that `AddCoin` puts back as it is. -/
structure Stored (coin : Coin) : Prop where
  unspent : coin.isSpent = false
  spendable : isUnspendable coin.out.scriptPubKey = false
  height : coin.nHeight ≠ 0

theorem applyTxInUndo_eq {undo : Coin} {view : CoinsView} {out : OutPoint} (hstored : Stored undo)
    (hgone : view.lookup out = none) :
    applyTxInUndo undo view out = .ok (view.insert out undo, true) := by
  have hcoin : completeUndo undo view out = .ok undo := if_neg hstored.height
  have hhave : haveCoin view out = false := by simp [haveCoin, hgone]
  have hadd : addCoin view out undo false = .ok (view.insert out undo) := by
    simp [addCoin, hstored.unspent, hstored.spendable, hhave]
  rw [applyTxInUndo, hcoin, Except.ok_bind, hhave, hadd]
  rfl

/-- **Inputs.**  Putting the inputs back takes back that they were spent. -/
theorem restoreInputs_spendInputs {vin : List TxIn} (fClean : Bool) :
    ∀ {view after : CoinsView} {undo : List Coin}, view.All (fun _ coin => Stored coin) →
      spendInputs vin view = .ok (after, undo) →
      undo.length = vin.length ∧ restoreInputs vin undo ⟨after, fClean⟩ = .ok ⟨view, fClean⟩ := by
  induction vin with
  | nil =>
    intro view after undo _ h
    obtain ⟨rfl, rfl⟩ := Prod.mk.inj (Except.ok.inj h)
    exact ⟨rfl, rfl⟩
  | cons txin rest ih =>
    intro view after undo hstored h
    rw [spendInputs] at h
    split at h
    · cases h
    next coin hcoin =>
      obtain ⟨⟨last, more⟩, hrest, h⟩ := bind_eq_ok.mp h
      obtain ⟨rfl, rfl⟩ := Prod.mk.inj (Except.ok.inj h)
      obtain ⟨hlength, hback⟩ := ih (hstored.erase _) hrest
      -- the rest is restored first, so this input is the only one missing
      have hgone : (view.erase txin.prevout).lookup txin.prevout = none :=
        Finmap.lookup_erase txin.prevout view
      refine ⟨by rw [List.length_cons, List.length_cons, hlength], ?_⟩
      rw [restoreInputs, hback, Except.ok_bind,
        applyTxInUndo_eq (hstored _ _ hcoin) hgone, Finmap.insert_erase_of_lookup hcoin]
      simp [Except.ok_bind, Except.pure_eq_ok]

/-! ## Transactions -/

/-- **One transaction.**  Disconnecting a transaction takes back `UpdateCoins`. -/
theorem disconnectTx_updateCoins {view after : CoinsView} {undo : List Coin} (fClean : Bool)
    (hcoinbase : tx.isCoinBase = false) (hcount : tx.vout.length ≤ 2 ^ 32)
    (hstored : view.All fun _ coin => Stored coin)
    (h : updateCoins view (env.txid tx) tx pindex.nHeight = .ok (after, undo)) :
    disconnectTx env pindex tx undo ⟨after, fClean⟩ = .ok ⟨view, fClean⟩ := by
  obtain ⟨⟨spent, txundo⟩, hspend, h⟩ := bind_eq_ok.mp h
  obtain ⟨added, hadd, h⟩ := bind_eq_ok.mp h
  obtain ⟨rfl, rfl⟩ := Prod.mk.inj (Except.ok.inj h)
  rw [spendTxInputs, hcoinbase] at hspend
  obtain ⟨hlength, hback⟩ := restoreInputs_spendInputs fClean hstored hspend
  rw [addCoins, hcoinbase] at hadd
  have houtputs := disconnectOutputs_addCoinsLoop fClean hadd hcount
    (lookup_eq_none_of_addCoinsLoop hadd)
  rw [disconnectTx, hcoinbase, houtputs, if_neg (not_not.mpr hlength)]
  exact hback

/-- **The transactions after the first.** -/
theorem disconnectTxs_updateAll {vtx : List Transaction} (fClean : Bool) :
    ∀ {view after : CoinsView} {undos : List (List Coin)},
      (∀ tx ∈ vtx, tx.isCoinBase = false ∧ tx.vout.length ≤ 2 ^ 32 ∧
        ∀ entry ∈ txCoins env.txid pindex.nHeight tx, Stored entry.2) →
      view.All (fun _ coin => Stored coin) →
      updateAll env.txid pindex.nHeight vtx view = .ok (after, undos) →
      undos.length = vtx.length ∧
        disconnectTxs env pindex vtx undos ⟨after, fClean⟩ = .ok ⟨view, fClean⟩ := by
  induction vtx with
  | nil =>
    intro view after undos _ _ h
    obtain ⟨rfl, rfl⟩ := Prod.mk.inj (Except.ok.inj h)
    exact ⟨rfl, rfl⟩
  | cons tx rest ih =>
    intro view after undos htxs hstored h
    obtain ⟨middle, undo, more, hfirst, hrest, rfl⟩ := updateAll_cons h
    obtain ⟨hcoinbase, hcount, hcoins⟩ := htxs tx List.mem_cons_self
    have hmiddle : middle.All fun _ coin => Stored coin :=
      all_updateCoins hstored hcoins hfirst
    obtain ⟨hlength, hback⟩ :=
      ih (fun other hother => htxs other (List.mem_cons_of_mem _ hother)) hmiddle hrest
    refine ⟨by rw [List.length_cons, List.length_cons, hlength], ?_⟩
    rw [disconnectTxs, hback, Except.ok_bind]
    exact disconnectTx_updateCoins fClean hcoinbase hcount hstored hfirst

/-! ## The block -/

theorem nHeight_of_mem_outputCoins {txid : Uint256} {nHeight : ℤ} {fCoinbase : Bool}
    {vout : List TxOut} {entry : OutPoint × Coin} :
    ∀ {i : ℕ}, entry ∈ outputCoins txid nHeight fCoinbase vout i → entry.2.nHeight = nHeight := by
  induction vout with
  | nil =>
    intro i hentry
    cases hentry
  | cons txout rest ih =>
    intro i hentry
    rw [outputCoins] at hentry
    split_ifs at hentry with hunspendable
    · exact ih hentry
    · rcases List.mem_cons.mp hentry with rfl | hmem
      · rfl
      · exact ih hmem

theorem CoinRules.stored {txid : Transaction → Uint256} {nHeight : ℤ}
    (h : CoinRules txid nHeight tx) (hheight : 1 ≤ nHeight) :
    ∀ entry ∈ txCoins txid nHeight tx, Stored entry.2 := by
  intro entry hentry
  obtain ⟨hv3, hvalue⟩ := h.shape entry hentry
  refine ⟨?_, isUnspendable_v3Output hv3, ?_⟩
  · rw [Coin.isSpent, beq_eq_false_iff_ne]
    omega
  · rw [nHeight_of_mem_outputCoins hentry]
    omega

/-- After any accepted main chain every coin can be restored from undo data. -/
theorem connectBlocks_stored {blocks : List Block} {chain : ChainState}
    (h : connectBlocks env mainParams (genesisChain mainParams) blocks = .ok chain) :
    0 ≤ chain.tip.nHeight ∧ chain.view.All fun _ coin => Stored coin := by
  refine connectBlocks_induction (P := fun chain => 0 ≤ chain.tip.nHeight ∧
    chain.view.All fun _ coin => Stored coin) ?_ ⟨le_rfl, Finmap.all_empty⟩ h
  rintro chain block next undo ⟨hheight, hstored⟩ hblock
  have hnext : 0 ≤ (childIndex env chain block).nHeight := Int.le_add_one hheight
  rcases connectBlock_updateAll hblock with ⟨-, htip, hview⟩ | ⟨hgenesis, hconnects⟩
  · rw [htip, hview]
    exact ⟨hnext, hstored⟩
  · have hrules := hconnects.coinRules hgenesis
    obtain ⟨first, hcoins⟩ := hconnects.coins
    rw [hconnects.tip]
    refine ⟨hnext, all_updateAll hstored ?_ hcoins⟩
    intro tx htx
    exact (hrules tx htx).stored (by omega)

theorem length_vout_le
    (hsize : (serializeTransaction false tx).length * witnessScaleFactor ≤ maxBlockWeight) :
    tx.vout.length ≤ 2 ^ 32 := by
  have hone : ∀ txout : TxOut, 1 ≤ (serializeTxOut txout).length := by
    intro txout
    simp only [serializeTxOut, serializeInt64, List.length_append, Bytes.length_ofNatLE]
    omega
  have hall : tx.vout.length ≤ (tx.vout.flatMap serializeTxOut).length := by
    rw [List.length_flatMap]
    have := List.card_nsmul_le_sum (tx.vout.map fun txout => (serializeTxOut txout).length) 1
      (by simpa using fun txout _ => hone txout)
    simpa using this
  have hpart : (tx.vout.flatMap serializeTxOut).length ≤ (serializeTransaction false tx).length := by
    simp only [serializeTransaction, serializeVector, List.length_append]
    omega
  simp only [witnessScaleFactor, maxBlockWeight] at hsize
  omega

/-- **Disconnecting takes back connecting.**  On a view reached by an accepted main chain, the block
that `ConnectBlock` accepted is disconnected cleanly with the undo data it produced, and leaves the
coins and the best block that were there before.  The genesis block, for which `ConnectBlock`
produces no undo data, is never disconnected. -/
theorem disconnectBlock_connectBlock {blocks : List Block} {chain next : ChainState} {block : Block}
    {undo : List (List Coin)}
    (hchain : connectBlocks env mainParams (genesisChain mainParams) blocks = .ok chain)
    (hblock : connectBlock env mainParams chain block = .ok (next, undo))
    (hgenesis : env.getHash block.toBlockHeader ≠ mainParams.hashGenesisBlock)
    (hnew : ∀ tx ∈ block.vtx, ∀ n, chain.view.lookup ⟨env.txid tx, n⟩ = none) :
    disconnectBlock env block next.tip undo next.view =
      .ok (.ok, chain.view, some chain.bestBlock) := by
  obtain ⟨hheight, hstored⟩ := connectBlocks_stored hchain
  have hconnects : Connects env mainParams chain block next undo := by
    rcases connectBlock_updateAll hblock with ⟨hsame, -⟩ | ⟨-, hconnects⟩
    · exact absurd hsame hgenesis
    · exact hconnects
  obtain ⟨coinbase, rest, hvtx, hfirst, hrest⟩ := (checkBlock_ok hconnects.checked).coinbase
  have hrules := hconnects.coinRules hgenesis
  have hcounts : ∀ tx ∈ block.vtx, tx.vout.length ≤ 2 ^ 32 := by
    intro tx htx
    obtain ⟨-, -, hsize, -⟩ :=
      checkTransaction_eq_ok_iff.mp (hconnects.checkTransaction hgenesis tx htx)
    exact length_vout_le hsize
  have htip : next.tip.nHeight = chain.tip.nHeight + 1 := by
    rw [hconnects.tip]
    rfl
  obtain ⟨coinbaseUndo, hcoins⟩ := hconnects.coins
  rw [hvtx, ← htip] at hcoins
  rw [← htip] at hrules
  obtain ⟨middle, first, more, hcoinbase, hothers, hundo⟩ := updateAll_cons hcoins
  obtain ⟨rfl, rfl⟩ := List.cons.inj hundo
  have hmem : coinbase ∈ block.vtx := by simp [hvtx]
  have hstoredAll : ∀ tx ∈ block.vtx, ∀ entry ∈ txCoins env.txid next.tip.nHeight tx,
      Stored entry.2 := fun tx htx => (hrules tx htx).stored (by omega)
  -- the other transactions
  have hmiddle : middle.All fun _ coin => Stored coin :=
    all_updateCoins hstored (hstoredAll coinbase hmem) hcoinbase
  obtain ⟨hlength, hback⟩ := disconnectTxs_updateAll true (fun tx htx => by
    have htx' : tx ∈ block.vtx := by simp [hvtx, htx]
    exact ⟨hrest tx htx, hcounts tx htx', hstoredAll tx htx'⟩) hmiddle hothers
  -- the coinbase, whose outputs replace no coin because its txid is new
  have hadd : addCoinsLoop (env.txid coinbase) next.tip.nHeight coinbase.isCoinBase coinbase.vout 0
      chain.view = .ok middle := by
    obtain ⟨spent, hspend, hcoinbase⟩ := bind_eq_ok.mp hcoinbase
    obtain ⟨added, hadd, hcoinbase⟩ := bind_eq_ok.mp hcoinbase
    obtain ⟨rfl, -⟩ := Prod.mk.inj (Except.ok.inj hcoinbase)
    rw [spendTxInputs, if_pos hfirst] at hspend
    obtain rfl := Except.ok.inj hspend
    exact hadd
  have hkeys : ∀ entry ∈ outputCoins (env.txid coinbase) next.tip.nHeight coinbase.isCoinBase
      coinbase.vout 0, chain.view.lookup entry.1 = none := by
    intro entry hentry
    have hcount : 0 + coinbase.vout.length ≤ 2 ^ 32 := by
      rw [Nat.zero_add]
      exact hcounts coinbase hmem
    have hhash := ((outputCoins_keys hcount).2 _ (List.mem_map_of_mem hentry)).1
    have hsame : entry.1 = ⟨env.txid coinbase, entry.1.n⟩ := by rw [← hhash]
    rw [hsame]
    exact hnew coinbase hmem _
  have houtputs := disconnectOutputs_addCoinsLoop true hadd (hcounts coinbase hmem) hkeys
  have hhead : coinbaseTx block = coinbase := by simp [coinbaseTx, hvtx]
  have hbest : next.tip.ancestors.head? = some chain.bestBlock := by
    rw [hconnects.tip, ← hconnects.best]
    rfl
  rw [disconnectBlock, if_neg (by simp [hvtx, hlength]), hhead, hvtx, List.tail_cons, hback,
    Except.ok_bind, hbest]
  dsimp only
  rw [houtputs]
  rfl

/-- Block 1 with a coinbase is disconnected. -/
theorem disconnectBlock_firstBlock :
    ∃ next undo,
      connectBlock acceptingEnv mainParams (genesisChain mainParams) firstBlock = .ok (next, undo) ∧
      haveCoin next.view ⟨1#256, 0⟩ = true ∧
      disconnectBlock acceptingEnv firstBlock next.tip undo next.view =
        .ok (.ok, ∅, some mainParams.hashGenesisBlock) := by
  have hrun : (match connectBlock acceptingEnv mainParams (genesisChain mainParams) firstBlock with
      | .ok (next, _) => haveCoin next.view ⟨1#256, 0⟩
      | .error _ => false) = true := by decide +kernel
  split at hrun
  next next undo hblock =>
    exact ⟨next, undo, hblock, hrun,
      @disconnectBlock_connectBlock acceptingEnv [] _ _ _ _ rfl hblock (by decide)
        (by simp [genesisChain])⟩
  next => cases hrun

end XCoin.Validation
