import XCoin.Lib.FinmapEntries
import XCoin.Validation.OutputRules
import XCoin.Validation.Supply

/-!
# What a block does to the coins

An accepted block changes the coins as `UpdateCoins` of its transactions does, one after
another, and its undo data are theirs (`connectBlock_updateAll`); the checks between the
updates only decide whether the block is accepted.  What is true of all coins of a view is
then a matter of the outputs (`all_updateAll`) and, over a whole chain, of
`connectBlocks_induction`.
-/

namespace XCoin.Validation

open Consensus Script

variable {env : Env} {params : Params} {pindex : BlockIndex} {txid : Transaction → Uint256}

/-- `UpdateCoins` for one transaction after another: the coins after them, and the undo data of
each. -/
def updateAll (txid : Transaction → Uint256) (nHeight : ℤ) :
    List Transaction → CoinsView → Except Failure (CoinsView × List (List Coin))
  | [], view => .ok (view, [])
  | tx :: rest, view => do
    let updated ← updateCoins view (txid tx) tx nHeight
    let after ← updateAll txid nHeight rest updated.1
    return (after.1, updated.2 :: after.2)

theorem updateAll_cons {nHeight : ℤ} {tx : Transaction} {rest : List Transaction}
    {view after : CoinsView} {undos : List (List Coin)}
    (h : updateAll txid nHeight (tx :: rest) view = .ok (after, undos)) :
    ∃ middle undo more, updateCoins view (txid tx) tx nHeight = .ok (middle, undo) ∧
      updateAll txid nHeight rest middle = .ok (after, more) ∧ undos = undo :: more := by
  obtain ⟨⟨middle, undo⟩, hfirst, h⟩ := bind_eq_ok.mp h
  obtain ⟨⟨last, more⟩, hrest, h⟩ := bind_eq_ok.mp h
  obtain ⟨rfl, rfl⟩ := Prod.mk.inj (Except.ok.inj h)
  exact ⟨middle, undo, more, hfirst, hrest, rfl⟩

/-! ## The transaction loop -/

section Loop

variable {st after : ConnectState} {tx : Transaction} {first : Bool}

theorem chargeFees_frame (h : chargeFees env params pindex tx st = .ok after) :
    after.view = st.view ∧ after.undo = st.undo := by
  unfold chargeFees at h
  split_ifs at h with hcoinbase
  · obtain rfl := Except.ok.inj h
    exact ⟨rfl, rfl⟩
  rcases orInvalid_eq_ok h with ⟨reason, rfl⟩ | ⟨txfee, -, h⟩
  · exact ⟨rfl, rfl⟩
  rcases orInvalid_eq_ok h with ⟨reason, rfl⟩ | ⟨_, -, h⟩
  · exact ⟨rfl, rfl⟩
  obtain ⟨nFees, -, h⟩ := bind_eq_ok.mp h
  split_ifs at h
  all_goals
    obtain rfl := Except.ok.inj h
    exact ⟨rfl, rfl⟩

/-- A pass of the loop that leaves the block state valid is one `UpdateCoins`. -/
theorem connectTx_updateCoins (h : connectTx env params pindex first tx st = .ok after)
    (hvalid : after.invalid = none) :
    ∃ undo, updateCoins st.view (env.txid tx) tx pindex.nHeight = .ok (after.view, undo) ∧
      after.undo = if first then st.undo else st.undo ++ [undo] := by
  obtain ⟨charged, hcharge, h⟩ := bind_eq_ok.mp h
  obtain ⟨hview, hundo⟩ := chargeFees_frame hcharge
  split_ifs at h with hinvalid
  · obtain rfl := Except.ok.inj h
    simp [hvalid] at hinvalid
  unfold connectCoins at h
  -- too many signature operations, a failed script: the state is marked invalid
  split at h
  · obtain rfl := Except.ok.inj h
    cases hvalid
  split at h
  · obtain rfl := Except.ok.inj h
    cases hvalid
  obtain ⟨⟨view, undo⟩, hupdate, h⟩ := bind_eq_ok.mp h
  obtain rfl := Except.ok.inj h
  rw [hview] at hupdate
  exact ⟨undo, hupdate, by dsimp only; rw [hundo]⟩

theorem connectTxs_updateAll (vtx : List Transaction) :
    ∀ (first : Bool) (st : ConnectState),
      connectTxs env params pindex first vtx st = .ok after → after.invalid = none →
      ∃ undos, updateAll env.txid pindex.nHeight vtx st.view = .ok (after.view, undos) ∧
        after.undo = st.undo ++ if first then undos.tail else undos := by
  induction vtx with
  | nil =>
    intro first st h _
    obtain rfl := Except.ok.inj h
    exact ⟨[], rfl, by simp⟩
  | cons tx rest ih =>
    intro first st h hvalid
    rw [connectTxs] at h
    split_ifs at h with hinvalid
    · obtain rfl := Except.ok.inj h
      simp [hvalid] at hinvalid
    obtain ⟨next, hnext, h⟩ := bind_eq_ok.mp h
    have hstill : next.invalid = none := by
      by_contra hstop
      rw [connectTxs_of_invalid hstop] at h
      exact hstop (Except.ok.inj h ▸ hvalid)
    obtain ⟨undo, hupdate, hundo⟩ := connectTx_updateCoins hnext hstill
    obtain ⟨undos, hrest, hmore⟩ := ih false next h hvalid
    refine ⟨undo :: undos, ?_, ?_⟩
    · rw [updateAll, hupdate, Except.ok_bind, hrest]
      rfl
    · rw [hmore, hundo]
      cases first with
      | false => simp
      | true => simp

end Loop

/-! ## The block -/

/-- An accepted block that is not the genesis block. -/
structure Connects (env : Env) (params : Params) (chain : ChainState) (block : Block)
    (next : ChainState) (undo : List (List Coin)) : Prop where
  checked : checkBlock env params block true true = .ok ()
  best : chain.tip.hash = chain.bestBlock
  tip : next.tip = childIndex env chain block
  bestBlock : next.bestBlock = env.getHash block.toBlockHeader
  coins : ∃ first, updateAll env.txid (chain.tip.nHeight + 1) block.vtx chain.view =
    .ok (next.view, first :: undo)

/-- **A connected block is its transactions' updates.**  The genesis block changes no coin; any
other block does what `UpdateCoins` of its transactions does. -/
theorem connectBlock_updateAll {chain next : ChainState} {block : Block} {undo : List (List Coin)}
    (h : connectBlock env params chain block = .ok (next, undo)) :
    (env.getHash block.toBlockHeader = params.hashGenesisBlock ∧
        next.tip = childIndex env chain block ∧ next.view = chain.view) ∨
      (env.getHash block.toBlockHeader ≠ params.hashGenesisBlock ∧
        Connects env params chain block next undo) := by
  obtain ⟨_, hcheck, h⟩ := bind_eq_ok.mp h
  unfold connectChecked at h
  split_ifs at h with hbest hgenesis
  · obtain ⟨rfl, -⟩ := Prod.mk.inj (Except.ok.inj h)
    exact .inl ⟨hgenesis, rfl, rfl⟩
  obtain ⟨st, hconnect, h⟩ := bind_eq_ok.mp h
  obtain ⟨rfl, rfl⟩ := Prod.mk.inj (Except.ok.inj h)
  refine .inr ⟨hgenesis, hcheck, by simpa using hbest, rfl, rfl, ?_⟩
  obtain ⟨last, hloop, hconnect⟩ := bind_eq_ok.mp hconnect
  obtain ⟨blockReward, -, hconnect⟩ := bind_eq_ok.mp hconnect
  obtain ⟨coinbaseValue, -, hconnect⟩ := bind_eq_ok.mp hconnect
  split at hconnect
  · exact absurd hconnect (blockInvalid_ne_ok _ _)
  next hfinal =>
    obtain rfl := Except.ok.inj hconnect
    have hvalid : last.invalid = none := by
      unfold finalInvalid at hfinal
      split_ifs at hfinal with hinvalid
      · exact hfinal
      · simpa using hinvalid
    obtain ⟨undos, hcoins, hundo⟩ := connectTxs_updateAll _ _ _ hloop hvalid
    obtain ⟨coinbase, rest, hvtx, -⟩ := (checkBlock_ok hcheck).coinbase
    rw [hvtx] at hcoins
    obtain ⟨middle, first, more, hfirst, hrest, rfl⟩ := updateAll_cons hcoins
    refine ⟨first, ?_⟩
    have hundo : last.undo = more := by simpa [startConnect] using hundo
    rw [hvtx, hundo]
    exact hcoins

/-! ## Conditions on all coins -/

/-- The coins of a transaction's outputs from output `i` on. -/
def outputCoins (txid : Uint256) (nHeight : ℤ) (fCoinbase : Bool) :
    List TxOut → ℕ → List (OutPoint × Coin)
  | [], _ => []
  | txout :: rest, i =>
    if isUnspendable txout.scriptPubKey then outputCoins txid nHeight fCoinbase rest (i + 1)
    else (⟨txid, UInt32.ofNat i⟩, ⟨txout, fCoinbase, nHeight⟩) ::
      outputCoins txid nHeight fCoinbase rest (i + 1)

/-- The coins that a transaction adds. -/
def txCoins (txid : Transaction → Uint256) (nHeight : ℤ) (tx : Transaction) :
    List (OutPoint × Coin) :=
  outputCoins (txid tx) nHeight tx.isCoinBase tx.vout 0

section AllCoins

variable {P : OutPoint → Coin → Prop} {nHeight : ℤ}

theorem all_spendInputs {vin : List TxIn} :
    ∀ {view after : CoinsView} {undo : List Coin}, view.All P →
      spendInputs vin view = .ok (after, undo) → after.All P := by
  induction vin with
  | nil =>
    intro view after undo hall h
    obtain ⟨rfl, -⟩ := Prod.mk.inj (Except.ok.inj h)
    exact hall
  | cons txin rest ih =>
    intro view after undo hall h
    rw [spendInputs] at h
    split at h
    · cases h
    · obtain ⟨⟨last, more⟩, hrest, h⟩ := bind_eq_ok.mp h
      obtain ⟨rfl, -⟩ := Prod.mk.inj (Except.ok.inj h)
      exact ih (hall.erase _) hrest

theorem all_addCoinsLoop {txid : Uint256} {fCoinbase : Bool} {vout : List TxOut} :
    ∀ {view after : CoinsView} {i : ℕ}, view.All P →
      (∀ entry ∈ outputCoins txid nHeight fCoinbase vout i, P entry.1 entry.2) →
      addCoinsLoop txid nHeight fCoinbase vout i view = .ok after → after.All P := by
  induction vout with
  | nil =>
    intro view after i hall _ h
    obtain rfl := Except.ok.inj h
    exact hall
  | cons txout rest ih =>
    intro view after i hall hcoins h
    obtain ⟨next, hnext, h⟩ := bind_eq_ok.mp h
    unfold addCoin at hnext
    split_ifs at hnext with hspent hunspendable hoverwrite
    · obtain rfl := Except.ok.inj hnext
      rw [outputCoins, if_pos hunspendable] at hcoins
      exact ih hall hcoins h
    · obtain rfl := Except.ok.inj hnext
      rw [outputCoins, if_neg hunspendable] at hcoins
      have hinsert := hall.insert (hcoins _ List.mem_cons_self)
      exact ih hinsert (fun entry hentry => hcoins entry (List.mem_cons_of_mem _ hentry)) h

theorem all_updateCoins {tx : Transaction} {view after : CoinsView} {undo : List Coin}
    (hall : view.All P) (hcoins : ∀ entry ∈ txCoins txid nHeight tx, P entry.1 entry.2)
    (h : updateCoins view (txid tx) tx nHeight = .ok (after, undo)) : after.All P := by
  obtain ⟨⟨spent, txundo⟩, hspend, h⟩ := bind_eq_ok.mp h
  obtain ⟨added, hadd, h⟩ := bind_eq_ok.mp h
  obtain ⟨rfl, -⟩ := Prod.mk.inj (Except.ok.inj h)
  have hspent : spent.All P := by
    unfold spendTxInputs at hspend
    split_ifs at hspend with hcoinbase
    · obtain ⟨rfl, -⟩ := Prod.mk.inj (Except.ok.inj hspend)
      exact hall
    · exact all_spendInputs hall hspend
  exact all_addCoinsLoop hspent hcoins hadd

theorem all_updateAll {vtx : List Transaction} :
    ∀ {view after : CoinsView} {undos : List (List Coin)}, view.All P →
      (∀ tx ∈ vtx, ∀ entry ∈ txCoins txid nHeight tx, P entry.1 entry.2) →
      updateAll txid nHeight vtx view = .ok (after, undos) → after.All P := by
  induction vtx with
  | nil =>
    intro view after undos hall _ h
    obtain ⟨rfl, -⟩ := Prod.mk.inj (Except.ok.inj h)
    exact hall
  | cons tx rest ih =>
    intro view after undos hall hcoins h
    obtain ⟨middle, undo, more, hfirst, hrest, -⟩ := updateAll_cons h
    have hmiddle := all_updateCoins hall (hcoins tx List.mem_cons_self) hfirst
    exact ih hmiddle (fun other hother => hcoins other (List.mem_cons_of_mem _ hother)) hrest

end AllCoins

/-! ## The chain -/

/-- **Induction over an accepted chain.**  What the genesis state satisfies and every connected
block keeps holds after any accepted blocks. -/
theorem connectBlocks_induction {P : ChainState → Prop} {blocks : List Block}
    (hstep : ∀ chain block next undo, P chain →
      connectBlock env params chain block = .ok (next, undo) → P next) :
    ∀ {chain last : ChainState}, P chain → connectBlocks env params chain blocks = .ok last →
      P last := by
  induction blocks with
  | nil =>
    intro chain last hchain h
    obtain rfl := Except.ok.inj h
    exact hchain
  | cons block rest ih =>
    intro chain last hchain h
    obtain ⟨⟨next, undo⟩, hblock, h⟩ := bind_eq_ok.mp h
    exact ih (hstep chain block next undo hchain hblock) h

end XCoin.Validation
