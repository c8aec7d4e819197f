import XCoin.Validation.ConnectBlock

/-!
# The money supply

No accepted chain holds more money than its blocks were allowed to mint.  The
argument follows the transaction loop of `ConnectBlock`: a transaction that is
not a coinbase takes its inputs off the supply and puts its outputs on, so
`supply + nFees` does not grow; a coinbase adds at most the value of its outputs,
which the last check of the block holds to fees plus subsidy.  `ConnectState.Sound`
carries the ranges that keep every sum inside 64 bits, also on the paths where
the block ends up rejected.
-/

namespace XCoin.Validation

open Consensus

variable {env : Env} {params : Params} {pindex : BlockIndex} {block : Block} {view : CoinsView}
  {vtx : List Transaction} {α : Type} {x : Except Failure α} {txid : Uint256} {nHeight : ℤ}

/-! ## CheckBlock -/

theorem asBlockFailure_eq_ok {a : α} : asBlockFailure x = .ok a ↔ x = .ok a := by
  unfold asBlockFailure
  split <;> simp

theorem NoOverflow.asBlockFailure (h : NoOverflow x) :
    NoOverflow (Validation.asBlockFailure x) := by
  unfold Validation.asBlockFailure
  split
  · exact noOverflow_blockInvalid _
  · exact h

theorem checkTransactions_ok {permitV2Outputs : Bool} {minOutputValue : ℤ}
    (h : checkTransactions permitV2Outputs minOutputValue vtx = .ok ()) :
    ∀ tx ∈ vtx, CheckedTransaction tx := by
  induction vtx with
  | nil => simp
  | cons tx rest ih =>
    obtain ⟨_, hfirst, hrest⟩ := bind_eq_ok.mp h
    intro other hother
    rcases List.mem_cons.mp hother with rfl | hmem
    · exact checkedTransaction_of_ok (asBlockFailure_eq_ok.mp hfirst)
    · exact ih hrest other hmem

theorem checkTransactions_noOverflow {permitV2Outputs : Bool} {minOutputValue : ℤ} :
    NoOverflow (checkTransactions permitV2Outputs minOutputValue vtx) := by
  induction vtx with
  | nil => exact noOverflow_ok _
  | cons tx rest ih => exact checkTransaction_noOverflow.asBlockFailure.bind fun _ _ => ih

/-- A block that passed `CheckBlock`: a coinbase, then transactions that are not,
all of them checked. -/
structure CheckedBlock (vtx : List Transaction) : Prop where
  coinbase : ∃ first rest, vtx = first :: rest ∧ first.isCoinBase = true ∧
    ∀ tx ∈ rest, tx.isCoinBase = false
  checked : ∀ tx ∈ vtx, CheckedTransaction tx

theorem checkBlockShape_ok (h : checkBlockShape block = .ok ()) :
    ∃ first rest, block.vtx = first :: rest ∧ first.isCoinBase = true ∧
      ∀ tx ∈ rest, tx.isCoinBase = false := by
  unfold checkBlockShape at h
  split_ifs at h with hlength hmissing hmultiple
  · exact absurd h (blockInvalid_ne_ok _ _)
  · exact absurd h (blockInvalid_ne_ok _ _)
  · exact absurd h (blockInvalid_ne_ok _ _)
  cases hvtx : block.vtx with
  | nil => simp [hvtx] at hlength
  | cons first rest =>
    refine ⟨first, rest, rfl, ?_, ?_⟩
    · simpa [hvtx] using hmissing
    · simpa [hvtx] using hmultiple

theorem checkBlock_ok {fCheckPOW fCheckMerkleRoot : Bool}
    (h : checkBlock env params block fCheckPOW fCheckMerkleRoot = .ok ()) :
    CheckedBlock block.vtx := by
  obtain ⟨_, -, h⟩ := bind_eq_ok.mp h
  obtain ⟨_, hshape, h⟩ := bind_eq_ok.mp h
  obtain ⟨_, htxs, -⟩ := bind_eq_ok.mp h
  refine ⟨checkBlockShape_ok hshape, ?_⟩
  unfold checkBlockTransactions at htxs
  split_ifs at htxs <;> exact checkTransactions_ok htxs

theorem checkBlock_noOverflow {fCheckPOW fCheckMerkleRoot : Bool} :
    NoOverflow (checkBlock env params block fCheckPOW fCheckMerkleRoot) := by
  refine NoOverflow.bind ?_ fun _ _ => NoOverflow.bind ?_ fun _ _ => NoOverflow.bind ?_ fun _ _ => ?_
  · unfold checkHeaderAndRoot
    repeat' split
    all_goals simp
  · unfold checkBlockShape
    repeat' split
    all_goals simp
  · unfold checkBlockTransactions
    split <;> exact checkTransactions_noOverflow
  · unfold checkLegacySigops
    split <;> simp

/-! ## One transaction -/

theorem orInvalid_eq_ok {st after : ConnectState} {next : α → Except Failure ConnectState}
    (h : orInvalid st x next = .ok after) :
    (∃ reason, after = { st with invalid := some reason }) ∨
      ∃ a, x = .ok a ∧ next a = .ok after := by
  unfold orInvalid at h
  split at h
  · exact .inl ⟨_, (Except.ok.inj h).symm⟩
  · cases h
  · exact .inr ⟨_, rfl, h⟩

theorem NoOverflow.orInvalid {st : ConnectState} {next : α → Except Failure ConnectState}
    (hx : NoOverflow x) (hnext : ∀ a, x = .ok a → NoOverflow (next a)) :
    NoOverflow (Validation.orInvalid st x next) := by
  unfold Validation.orInvalid
  split
  · exact noOverflow_ok _
  · exact fun h => hx (congrArg Except.error (Except.error.inj h))
  · exact hnext _ rfl

/-- The ranges that hold in the transaction loop. -/
structure ConnectState.Sound (st : ConnectState) : Prop where
  coins : CoinsInRange st.view
  fees_nonneg : 0 ≤ st.nFees
  fees_le : st.nFees ≤ 2 * maxMoney
  fees_valid : st.invalid = none → st.nFees ≤ maxMoney

namespace ConnectState.Sound

variable {st after : ConnectState} {tx : Transaction}

theorem withInvalid (h : st.Sound) (reason : RejectReason) :
    ({ st with invalid := some reason } : ConnectState).Sound where
  coins := h.coins
  fees_nonneg := h.fees_nonneg
  fees_le := h.fees_le
  fees_valid := nofun

/-- The fee part keeps the coins; if the state is still valid, the transaction's
exact fee has been added. -/
theorem connectFees (h : st.Sound) (hvalid : st.invalid = none) (htx : CheckedTransaction tx)
    (hconnect : Validation.connectFees env params pindex tx st = .ok after) :
    after.Sound ∧ after.view = st.view ∧ (after.invalid = none →
      haveInputs st.view tx = true ∧
        after.nFees = st.nFees + (inputValue st.view tx.vin - outputValue tx.vout)) := by
  rcases orInvalid_eq_ok hconnect with ⟨reason, rfl⟩ | ⟨txfee, hinputs, hconnect⟩
  · exact ⟨h.withInvalid reason, rfl, nofun⟩
  rcases orInvalid_eq_ok hconnect with ⟨reason, rfl⟩ | ⟨_, -, hconnect⟩
  · exact ⟨h.withInvalid reason, rfl, nofun⟩
  obtain ⟨hhave, hfee, hlow, hhigh⟩ := checkTxInputs_ok h.coins htx.outputs hinputs
  have hfees := h.fees_valid hvalid
  obtain ⟨nFees, hadd, hconnect⟩ := bind_eq_ok.mp hconnect
  rw [addAmount_of_le h.fees_nonneg h.fees_le hlow (by omega)] at hadd
  obtain rfl := Except.ok.inj hadd
  have hnonneg := h.fees_nonneg
  split_ifs at hconnect with hrange hlocks
  · obtain rfl := Except.ok.inj hconnect
    exact ⟨⟨h.coins, by dsimp only; omega, by dsimp only; omega, nofun⟩, rfl, nofun⟩
  · obtain rfl := Except.ok.inj hconnect
    exact ⟨⟨h.coins, by dsimp only; omega, by dsimp only; omega, nofun⟩, rfl, nofun⟩
  · obtain rfl := Except.ok.inj hconnect
    have hrange : 0 ≤ st.nFees + txfee ∧ st.nFees + txfee ≤ maxMoney := by simpa using hrange
    exact ⟨⟨h.coins, by dsimp only; omega, by dsimp only; omega, fun _ => hrange.2⟩, rfl,
      fun _ => ⟨hhave, by rw [hfee]⟩⟩

theorem connectFees_noOverflow (h : st.Sound) (htx : CheckedTransaction tx) :
    NoOverflow (Validation.connectFees env params pindex tx st) := by
  refine (checkTxInputs_noOverflow h.coins htx.outputs).orInvalid fun txfee hinputs => ?_
  refine (checkSettlementLevy_noOverflow htx.outputs _ _).orInvalid fun _ _ => ?_
  obtain ⟨-, -, hlow, hhigh⟩ := checkTxInputs_ok h.coins htx.outputs hinputs
  rw [addAmount_of_le h.fees_nonneg h.fees_le hlow (by omega)]
  refine (noOverflow_ok _).bind fun nFees _ => ?_
  split_ifs <;> simp

end ConnectState.Sound

/-- What a transaction may add to the supply on top of what it spends. -/
def minted (tx : Transaction) : ℤ := if tx.isCoinBase then outputValue tx.vout else 0

/-- **UpdateCoins.**  The coins of a transaction whose inputs are in the view are
replaced: inputs off, outputs on. -/
theorem updateCoins_ok {view after : CoinsView} {tx : Transaction} {undo : List Coin}
    (hrange : CoinsInRange view) (htx : CheckedTransaction tx) (hhave : haveInputs view tx = true)
    (h : updateCoins view txid tx nHeight = .ok (after, undo)) :
    CoinsInRange after ∧ supply after ≤ supply view + outputValue tx.vout -
      (if tx.isCoinBase then 0 else inputValue view tx.vin) := by
  obtain ⟨⟨spent, txundo⟩, hspend, h⟩ := bind_eq_ok.mp h
  obtain ⟨added, hadd, h⟩ := bind_eq_ok.mp h
  obtain ⟨rfl, -⟩ := Prod.mk.inj (Except.ok.inj h)
  unfold spendTxInputs at hspend
  split_ifs at hspend with hcoinbase
  · obtain ⟨rfl, -⟩ := Prod.mk.inj (Except.ok.inj hspend)
    obtain ⟨hadded, hsupply⟩ := hrange.addCoinsLoop htx.outputs hadd
    rw [if_pos hcoinbase]
    exact ⟨hadded, by omega⟩
  · have hall : ∀ txin ∈ tx.vin, haveCoin view txin.prevout = true := by
      simpa [haveInputs, hcoinbase] using hhave
    obtain ⟨rest, restUndo, hrest, hrestRange, hsupplyRest⟩ :=
      spendInputs_ok htx.prevouts_nodup hall hrange
    obtain ⟨rfl, -⟩ := Prod.mk.inj (Except.ok.inj (hrest.symm.trans hspend))
    obtain ⟨hadded, hsupply⟩ := hrestRange.addCoinsLoop htx.outputs hadd
    rw [if_neg hcoinbase]
    exact ⟨hadded, by omega⟩

theorem addCoin_noOverflow {outpoint : OutPoint} {coin : Coin} {possibleOverwrite : Bool} :
    NoOverflow (addCoin view outpoint coin possibleOverwrite) := by
  unfold addCoin
  split_ifs <;> simp

theorem addCoinsLoop_noOverflow {fCoinbase : Bool} {vout : List TxOut} {i : ℕ} {view : CoinsView} :
    NoOverflow (addCoinsLoop txid nHeight fCoinbase vout i view) := by
  induction vout generalizing i view with
  | nil => exact noOverflow_ok _
  | cons txout rest ih => exact addCoin_noOverflow.bind fun _ _ => ih

theorem spendInputs_noOverflow {vin : List TxIn} {view : CoinsView} :
    NoOverflow (spendInputs vin view) := by
  induction vin generalizing view with
  | nil => exact noOverflow_ok _
  | cons txin rest ih =>
    unfold spendInputs
    split
    · exact noOverflow_exception _
    · exact ih.bind fun _ _ => noOverflow_ok _

theorem updateCoins_noOverflow {tx : Transaction} :
    NoOverflow (updateCoins view txid tx nHeight) := by
  have hspend : NoOverflow (spendTxInputs view tx) := by
    unfold spendTxInputs
    split
    · exact noOverflow_ok _
    · exact spendInputs_noOverflow
  exact hspend.bind fun _ _ => addCoinsLoop_noOverflow.bind fun _ _ => noOverflow_ok _

theorem connectTxs_of_invalid {first : Bool} {st : ConnectState} (hinvalid : st.invalid ≠ none) :
    connectTxs env params pindex first vtx st = .ok st := by
  cases vtx with
  | nil => rfl
  | cons tx rest => rw [connectTxs, if_pos (Option.isSome_iff_ne_none.mpr hinvalid)]

namespace ConnectState.Sound

variable {st after : ConnectState} {tx : Transaction} {first : Bool}

theorem connectCoins (h : st.Sound) (htx : CheckedTransaction tx)
    (hhave : haveInputs st.view tx = true)
    (hconnect : Validation.connectCoins env pindex first tx st = .ok after) :
    after.Sound ∧ after.nFees = st.nFees ∧ (after.invalid = none →
      supply after.view ≤ supply st.view + outputValue tx.vout -
        (if tx.isCoinBase then 0 else inputValue st.view tx.vin)) := by
  unfold Validation.connectCoins at hconnect
  split at hconnect
  · obtain rfl := Except.ok.inj hconnect
    exact ⟨⟨h.coins, h.fees_nonneg, h.fees_le, nofun⟩, rfl, nofun⟩
  split at hconnect
  · obtain rfl := Except.ok.inj hconnect
    exact ⟨⟨h.coins, h.fees_nonneg, h.fees_le, nofun⟩, rfl, nofun⟩
  · obtain ⟨⟨view, undo⟩, hupdate, hconnect⟩ := bind_eq_ok.mp hconnect
    obtain rfl := Except.ok.inj hconnect
    obtain ⟨hcoins, hsupply⟩ := updateCoins_ok h.coins htx hhave hupdate
    exact ⟨⟨hcoins, h.fees_nonneg, h.fees_le, h.fees_valid⟩, rfl, fun _ => hsupply⟩

/-- **One transaction.**  While the block state stays valid, a transaction raises
`supply + nFees` by no more than it may mint. -/
theorem connectTx (h : st.Sound) (hvalid : st.invalid = none) (htx : CheckedTransaction tx)
    (hconnect : Validation.connectTx env params pindex first tx st = .ok after) :
    after.Sound ∧ (after.invalid = none →
      supply after.view + after.nFees ≤ supply st.view + st.nFees + minted tx) := by
  obtain ⟨charged, hcharge, hconnect⟩ := bind_eq_ok.mp hconnect
  unfold chargeFees at hcharge
  by_cases hcoinbase : tx.isCoinBase = true
  · rw [if_pos hcoinbase] at hcharge
    obtain rfl := Except.ok.inj hcharge
    rw [hvalid, Option.isSome_none, if_neg (by simp)] at hconnect
    obtain ⟨hafter, hfees, hsupply⟩ := h.connectCoins htx (by simp [haveInputs, hcoinbase]) hconnect
    refine ⟨hafter, fun hstill => ?_⟩
    have := hsupply hstill
    rw [if_pos hcoinbase] at this
    rw [minted, if_pos hcoinbase, hfees]
    omega
  · rw [if_neg hcoinbase] at hcharge
    obtain ⟨hcharged, hview, hfee⟩ := h.connectFees hvalid htx hcharge
    split_ifs at hconnect with hinvalid
    · obtain rfl := Except.ok.inj hconnect
      exact ⟨hcharged, fun hstill => by simp [hstill] at hinvalid⟩
    · obtain ⟨hhave, hfee⟩ := hfee (by simpa using hinvalid)
      obtain ⟨hafter, hfees, hsupply⟩ :=
        hcharged.connectCoins htx (by rwa [hview]) hconnect
      refine ⟨hafter, fun hstill => ?_⟩
      have := hsupply hstill
      rw [if_neg hcoinbase, hview] at this
      rw [minted, if_neg hcoinbase, hfees]
      omega

theorem connectTx_noOverflow (h : st.Sound) (htx : CheckedTransaction tx) :
    NoOverflow (Validation.connectTx env params pindex first tx st) := by
  have hcharge : NoOverflow (chargeFees env params pindex tx st) := by
    unfold chargeFees
    split
    · exact noOverflow_ok _
    · exact h.connectFees_noOverflow htx
  refine hcharge.bind fun charged _ => ?_
  split_ifs with hinvalid
  · exact noOverflow_ok _
  unfold Validation.connectCoins
  split
  · exact noOverflow_ok _
  split
  · exact noOverflow_ok _
  · exact updateCoins_noOverflow.bind fun _ _ => noOverflow_ok _

/-! ## The transaction loop -/

/-- **The loop.**  If the state is valid at the end, the transactions together raised
`supply + nFees` by no more than they may mint. -/
theorem connectTxs (h : st.Sound) (hvtx : ∀ tx ∈ vtx, CheckedTransaction tx)
    (hconnect : Validation.connectTxs env params pindex first vtx st = .ok after) :
    after.Sound ∧ (after.invalid = none →
      supply after.view + after.nFees ≤ supply st.view + st.nFees + (vtx.map minted).sum) := by
  induction vtx generalizing first st with
  | nil =>
    obtain rfl := Except.ok.inj hconnect
    exact ⟨h, fun _ => by simp⟩
  | cons tx rest ih =>
    unfold Validation.connectTxs at hconnect
    split_ifs at hconnect with hinvalid
    · obtain rfl := Except.ok.inj hconnect
      exact ⟨h, fun hstill => by simp [hstill] at hinvalid⟩
    obtain ⟨next, hnext, hconnect⟩ := bind_eq_ok.mp hconnect
    obtain ⟨hsound, hstep⟩ :=
      h.connectTx (by simpa using hinvalid) (hvtx tx List.mem_cons_self) hnext
    obtain ⟨hafter, hrest⟩ :=
      ih hsound (fun other hother => hvtx other (List.mem_cons_of_mem _ hother)) hconnect
    refine ⟨hafter, fun hstill => ?_⟩
    have hnextValid : next.invalid = none := by
      by_contra hstop
      rw [connectTxs_of_invalid hstop] at hconnect
      exact hstop (Except.ok.inj hconnect ▸ hstill)
    have hstep := hstep hnextValid
    have hrest := hrest hstill
    rw [List.map_cons, List.sum_cons]
    omega

theorem connectTxs_noOverflow (h : st.Sound) (hvtx : ∀ tx ∈ vtx, CheckedTransaction tx) :
    NoOverflow (Validation.connectTxs env params pindex first vtx st) := by
  induction vtx generalizing first st with
  | nil => exact noOverflow_ok _
  | cons tx rest ih =>
    unfold Validation.connectTxs
    split_ifs with hinvalid
    · exact noOverflow_ok _
    have htx := hvtx tx List.mem_cons_self
    refine (h.connectTx_noOverflow htx).bind fun next hnext => ?_
    exact ih (h.connectTx (by simpa using hinvalid) htx hnext).1
      fun other hother => hvtx other (List.mem_cons_of_mem _ hother)

end ConnectState.Sound

theorem sum_minted (h : CheckedBlock block.vtx) :
    (block.vtx.map minted).sum = outputValue (coinbaseTx block).vout := by
  obtain ⟨first, rest, hvtx, hfirst, hrest⟩ := h.coinbase
  have hzero : (rest.map minted).sum = 0 := by
    apply List.sum_eq_zero
    intro value hvalue
    obtain ⟨tx, htx, rfl⟩ := List.mem_map.mp hvalue
    simp [minted, hrest tx htx]
  simp [coinbaseTx, hvtx, hzero, minted, hfirst]

/-! ## The block -/

/-- Parameters whose subsidies fit the cap. -/
structure SubsidyInRange (params : Params) : Prop where
  nonneg : ∀ h, 0 ≤ getBlockSubsidy h params
  le_max : ∀ h, getBlockSubsidy h params ≤ maxMoney

theorem CheckedBlock.coinbase_outputs (h : CheckedBlock block.vtx) :
    OutputsInRange (coinbaseTx block).vout := by
  obtain ⟨first, rest, hvtx, -⟩ := h.coinbase
  have hhead : coinbaseTx block = first := by simp [coinbaseTx, hvtx]
  rw [hhead]
  exact (h.checked first (by rw [hvtx]; exact List.mem_cons_self)).outputs

theorem startConnect_sound (h : CoinsInRange view) :
    (startConnect env params block pindex view).Sound where
  coins := h
  fees_nonneg := le_rfl
  fees_le := by simp [startConnect, maxMoney_eq]
  fees_valid _ := by simp [startConnect, maxMoney_eq]

/-- **One block.**  Connecting a block adds at most its subsidy to the supply. -/
theorem connectTransactions_ok {after : ConnectState} (hrange : CoinsInRange view)
    (hblock : CheckedBlock block.vtx)
    (h : connectTransactions env params block pindex view = .ok after) :
    CoinsInRange after.view ∧
      supply after.view ≤ supply view + getBlockSubsidy pindex.nHeight params := by
  obtain ⟨st, hloop, h⟩ := bind_eq_ok.mp h
  obtain ⟨blockReward, hreward, h⟩ := bind_eq_ok.mp h
  obtain ⟨coinbaseValue, hvalue, h⟩ := bind_eq_ok.mp h
  obtain ⟨hsound, hsupply⟩ := (startConnect_sound hrange).connectTxs hblock.checked hloop
  obtain rfl := Except.ok.inj (hblock.coinbase_outputs.getValueOut_eq.symm.trans hvalue)
  have hreward : blockReward = st.nFees + getBlockSubsidy pindex.nHeight params := by
    unfold addAmount at hreward
    split_ifs at hreward
    exact (Except.ok.inj hreward).symm
  split at h
  · exact absurd h (blockInvalid_ne_ok _ _)
  next hfinal =>
    obtain rfl := Except.ok.inj h
    unfold finalInvalid at hfinal
    split_ifs at hfinal with hinvalid hclaim
    · simp [hfinal] at hinvalid
    have hsupply := hsupply (by simpa using hinvalid)
    rw [sum_minted hblock] at hsupply
    refine ⟨hsound.coins, ?_⟩
    have hstart : (startConnect env params block pindex view).nFees = 0 := rfl
    have hview : (startConnect env params block pindex view).view = view := rfl
    rw [hstart, hview] at hsupply
    omega

theorem connectTransactions_noOverflow (hsubsidy : SubsidyInRange params)
    (hrange : CoinsInRange view) (hblock : CheckedBlock block.vtx) :
    NoOverflow (connectTransactions env params block pindex view) := by
  refine ((startConnect_sound hrange).connectTxs_noOverflow hblock.checked).bind fun st hloop => ?_
  obtain ⟨hsound, -⟩ := (startConnect_sound hrange).connectTxs hblock.checked hloop
  have hmax : (0 : ℤ) ≤ maxMoney := by decide
  rw [addAmount_of_le hsound.fees_nonneg hsound.fees_le (hsubsidy.nonneg _)
    ((hsubsidy.le_max _).trans (by omega)), hblock.coinbase_outputs.getValueOut_eq]
  refine (noOverflow_ok _).bind fun _ _ => (noOverflow_ok _).bind fun _ _ => ?_
  split <;> simp

/-! ## The chain -/

/-- **One connected block.** -/
theorem connectBlock_ok {chain next : ChainState} {block : Block} {undo : List (List Coin)}
    (hsubsidy : SubsidyInRange params) (hrange : CoinsInRange chain.view)
    (h : connectBlock env params chain block = .ok (next, undo)) :
    CoinsInRange next.view ∧ next.tip.nHeight = chain.tip.nHeight + 1 ∧
      supply next.view ≤ supply chain.view + getBlockSubsidy (chain.tip.nHeight + 1) params := by
  obtain ⟨_, hcheck, h⟩ := bind_eq_ok.mp h
  unfold connectChecked at h
  split_ifs at h with hbest hgenesis
  · obtain ⟨rfl, -⟩ := Prod.mk.inj (Except.ok.inj h)
    have := hsubsidy.nonneg (chain.tip.nHeight + 1)
    exact ⟨hrange, rfl, by dsimp only; omega⟩
  · obtain ⟨st, hconnect, h⟩ := bind_eq_ok.mp h
    obtain ⟨rfl, -⟩ := Prod.mk.inj (Except.ok.inj h)
    obtain ⟨hcoins, hsupply⟩ := connectTransactions_ok hrange (checkBlock_ok hcheck) hconnect
    exact ⟨hcoins, rfl, hsupply⟩

theorem connectBlock_noOverflow {chain : ChainState} {block : Block}
    (hsubsidy : SubsidyInRange params) (hrange : CoinsInRange chain.view) :
    NoOverflow (connectBlock env params chain block) := by
  refine checkBlock_noOverflow.bind fun _ hcheck => ?_
  unfold connectChecked
  split_ifs with hbest hgenesis
  · exact noOverflow_exception _
  · exact noOverflow_ok _
  · exact (connectTransactions_noOverflow hsubsidy hrange (checkBlock_ok hcheck)).bind
      fun _ _ => noOverflow_ok _

/-- **A run of blocks.**  The supply grows by at most the subsidies of the heights
the run connects. -/
theorem connectBlocks_ok {blocks : List Block} {chain last : ChainState}
    (hsubsidy : SubsidyInRange params) (hrange : CoinsInRange chain.view)
    (h : connectBlocks env params chain blocks = .ok last) :
    CoinsInRange last.view ∧
      supply last.view ≤ supply chain.view +
        ∑ n ∈ Finset.Icc (chain.tip.nHeight + 1) (chain.tip.nHeight + blocks.length),
          getBlockSubsidy n params := by
  induction blocks generalizing chain with
  | nil =>
    obtain rfl := Except.ok.inj h
    exact ⟨hrange, by simp⟩
  | cons block rest ih =>
    obtain ⟨⟨next, undo⟩, hblock, h⟩ := bind_eq_ok.mp h
    obtain ⟨hnext, hheight, hsupply⟩ := connectBlock_ok hsubsidy hrange hblock
    obtain ⟨hlast, hrest⟩ := ih hnext h
    refine ⟨hlast, ?_⟩
    have hheights : Finset.Icc (chain.tip.nHeight + 1)
        (chain.tip.nHeight + (block :: rest).length) =
        insert (chain.tip.nHeight + 1)
          (Finset.Icc (next.tip.nHeight + 1) (next.tip.nHeight + rest.length)) := by
      ext n
      simp only [Finset.mem_insert, Finset.mem_Icc, List.length_cons, hheight]
      omega
    rw [hheights, Finset.sum_insert (by simp [hheight])]
    omega

theorem connectBlocks_noOverflow {blocks : List Block} {chain : ChainState}
    (hsubsidy : SubsidyInRange params) (hrange : CoinsInRange chain.view) :
    NoOverflow (connectBlocks env params chain blocks) := by
  induction blocks generalizing chain with
  | nil => exact noOverflow_ok _
  | cons block rest ih =>
    refine (connectBlock_noOverflow hsubsidy hrange).bind fun next hnext => ?_
    exact ih (connectBlock_ok hsubsidy hrange hnext).1

theorem mainParams_subsidyInRange : SubsidyInRange mainParams where
  nonneg := mainParams_emissionScheduleOk.getBlockSubsidy_nonneg
  le_max h := by
    have := mainParams_emissionScheduleOk.sum_getBlockSubsidy_le {h}
    rwa [Finset.sum_singleton, mainParams_totalEmission] at this

/-- **The money supply.**  After any accepted chain of blocks the unspent coins are
worth at most the subsidies of its heights, and these are at most `MAX_MONEY`.  No
sum of amounts that `CheckBlock` and `ConnectBlock` form on a chain leaves the
signed 64-bit range, up to and including the first block they reject. -/
theorem supply_le_emission {env : Env} {blocks : List Block} {chain : ChainState}
    (h : connectBlocks env mainParams (genesisChain mainParams) blocks = .ok chain) :
    supply chain.view ≤ ∑ n ∈ Finset.Icc (1 : ℤ) blocks.length, getBlockSubsidy n mainParams ∧
      ∑ n ∈ Finset.Icc (1 : ℤ) blocks.length, getBlockSubsidy n mainParams ≤ 10 ^ 16 ∧
      (10 : ℤ) ^ 16 = maxMoney ∧
      ∀ more, NoOverflow (connectBlocks env mainParams (genesisChain mainParams) (blocks ++ more)) := by
  obtain ⟨-, hsupply⟩ := connectBlocks_ok mainParams_subsidyInRange coinsInRange_empty h
  refine ⟨?_, ?_, rfl, fun more => ?_⟩
  · simpa [genesisChain] using hsupply
  · have := mainParams_emissionScheduleOk.sum_getBlockSubsidy_le (Finset.Icc 1 blocks.length)
    rwa [mainParams_totalEmission, maxMoney_eq] at this
  · exact connectBlocks_noOverflow mainParams_subsidyInRange coinsInRange_empty

/-- An environment in which every parameter accepts. -/
def acceptingEnv : Env where
  txid _ := 1#256
  getHash _ := 1#256
  checkProofOfWork _ := true
  checkMerkleRoot _ := .ok
  getTransactionSigOpCost _ _ _ := 0
  fScriptChecks _ := true
  hasThreads := false
  checkInputScripts _ _ _ := true
  sequenceLocks _ _ _ := true

/-- Block 1 with a coinbase that claims the whole subsidy for a witness v3 output. -/
def firstBlock : Block where
  nVersion := 0x40000000
  hashPrevBlock := mainParams.hashGenesisBlock
  hashMerkleRoot := 0#256
  nTime := 1790381100
  nBits := 0x1e0fffff
  nNonce := 0
  vtx :=
    [{ version := 2
       vin := [⟨⟨0#256, OutPoint.nullIndex⟩, [0x01, 0x01], 0xffffffff, []⟩]
       vout := [⟨625000000, 0x53 :: 0x20 :: List.replicate 32 7⟩]
       nLockTime := 0 }]

/-- The bound is met by a chain of one block that claims its subsidy. -/
theorem supply_le_emission_firstBlock :
    ∃ chain,
      connectBlocks acceptingEnv mainParams (genesisChain mainParams) [firstBlock] = .ok chain ∧
        supply chain.view = 625000000 ∧
        supply chain.view ≤ ∑ n ∈ Finset.Icc (1 : ℤ) 1, getBlockSubsidy n mainParams := by
  have hrun : (match connectBlocks acceptingEnv mainParams (genesisChain mainParams) [firstBlock] with
      | .ok chain => decide (supply chain.view = 625000000)
      | .error _ => false) = true := by decide +kernel
  split at hrun
  next chain hchain =>
    exact ⟨chain, hchain, of_decide_eq_true hrun, (supply_le_emission hchain).1⟩
  next => cases hrun

end XCoin.Validation
