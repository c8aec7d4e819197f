import XCoin.Explorer.Index
import XCoin.Validation.CheckTransaction

/-!
# The index agrees with the active chain

What the index is for is said without it: `unspentOutputs` are the outputs of positive value,
`OP_RETURN` aside, that the transactions of a chain create and none of them spends.  Indexing the
blocks of a chain in order gives this set as `UTXO`, and as `BAL` the sum of each address's part
of it (`agrees_indexTxs`).

The index is a fold over the blocks it was given.  As long as the active chain keeps the blocks
that were indexed it is the fold over a first part of that chain, and after a call that ran to the
tip it is the fold over all of it.  A reorganisation below the last indexed height is not seen:
`refresh_index` goes on from its height.
-/

namespace XCoin.Explorer

open Consensus Script Validation

variable {α : Type} {names : Names α} {txs : List Transaction} {tx : Transaction}

/-! ## The unspent outputs of a chain -/

/-- An output with its key, as the explorer shows it. -/
abbrev Entry (α : Type) := (Uint256 × ℕ) × (Option α × ℤ)

/-- The entry of an output of positive value that is no `OP_RETURN`. -/
def keptOutput (names : Names α) (txid : Uint256) (output : TxOut × ℕ) : Option (Entry α) :=
  if 0 < output.1.nValue ∧ byteAt output.1.scriptPubKey 0 ≠ opReturn then
    some ((txid, output.2), outAddress names (outputToUniv names output.1), output.1.nValue)
  else none

/-- The entries of the outputs a transaction creates. -/
def created (names : Names α) (tx : Transaction) : List (Entry α) :=
  tx.vout.zipIdx.filterMap (keptOutput names (names.txid tx))

/-- A coinbase spends nothing. -/
def spentKeys (tx : Transaction) : List (Uint256 × ℕ) :=
  if tx.isCoinBase then [] else tx.vin.map fun txin => (txin.prevout.hash, txin.prevout.n.toNat)

theorem isCoinbase_txToUniv (tx : Transaction) :
    (txToUniv names tx).isCoinbase = tx.isCoinBase := by
  cases hvin : tx.vin with
  | nil => simp [Tx.isCoinbase, txToUniv, Transaction.isCoinBase, hvin]
  | cons txin rest =>
    cases hcoinbase : tx.isCoinBase with
    | true => simp [Tx.isCoinbase, txToUniv, inputToUniv, hvin, hcoinbase]
    | false => simp [Tx.isCoinbase, txToUniv, inputToUniv, hvin, hcoinbase]

/-- What the rules of the node say of the transactions of its active chain: distinct ids, inputs
that spend outputs of earlier transactions, and outputs of the allowed types. -/
structure TxsOk (names : Names α) (txs : List Transaction) : Prop where
  txids : (txs.map names.txid).Nodup
  earlier : ∀ before tx after, txs = before ++ tx :: after →
    ∀ key ∈ spentKeys tx, key.1 ∈ before.map names.txid
  types : ∀ tx ∈ txs, ∀ txout ∈ tx.vout, allowedOutput true (solver txout.scriptPubKey) = true

theorem TxsOk.of_append {txs rest : List Transaction} (h : TxsOk names (txs ++ rest)) :
    TxsOk names txs where
  txids := by
    have hnodup := h.txids
    rw [List.map_append] at hnodup
    exact (List.nodup_append.mp hnodup).1
  earlier before tx after hsplit := by
    apply h.earlier before tx (after ++ rest)
    rw [hsplit, List.append_assoc, List.cons_append]
  types tx htx := h.types tx (List.mem_append_left _ htx)

theorem txsOk_of_take
    (h : (txs.map names.txid).Nodup ∧
      (∀ i < txs.length, ∀ tx ∈ txs[i]?, ∀ key ∈ spentKeys tx,
        key.1 ∈ (txs.take i).map names.txid) ∧
      ∀ tx ∈ txs, ∀ txout ∈ tx.vout, allowedOutput true (solver txout.scriptPubKey) = true) :
    TxsOk names txs where
  txids := h.1
  earlier before tx after hsplit := by
    subst hsplit
    have hearlier := h.2.1 before.length (by simp) tx (by simp)
    rwa [List.take_left] at hearlier
  types := h.2.2

theorem entry_txid {entry : Entry α} (h : entry ∈ created names tx) :
    entry.1.1 = names.txid tx := by
  obtain ⟨output, -, houtput⟩ := List.mem_filterMap.mp h
  unfold keptOutput at houtput
  split at houtput
  · rw [← Option.some.inj houtput]
  · cases houtput

theorem nodup_kept (txid : Uint256) :
    ∀ (vout : List TxOut) (n : ℕ),
      (((vout.zipIdx n).filterMap (keptOutput names txid)).map Prod.fst).Nodup ∧
        ∀ entry ∈ (vout.zipIdx n).filterMap (keptOutput names txid), n ≤ entry.1.2 := by
  intro vout
  induction vout with
  | nil =>
    intro n
    exact ⟨List.nodup_nil, fun _ hnone => absurd hnone List.not_mem_nil⟩
  | cons txout rest ih =>
    intro n
    obtain ⟨hnodup, hlater⟩ := ih (n + 1)
    rw [List.zipIdx_cons, List.filterMap_cons]
    unfold keptOutput
    split
    · exact ⟨hnodup, fun entry hentry => (Nat.le_succ n).trans (hlater entry hentry)⟩
    · rename_i entry hkept
      have hindex : entry.1.2 = n := by
        split at hkept
        · rw [← Option.some.inj hkept]
        · cases hkept
      refine ⟨?_, ?_⟩
      · rw [List.map_cons, List.nodup_cons]
        refine ⟨fun hmem => ?_, hnodup⟩
        obtain ⟨other, hother, hsame⟩ := List.mem_map.mp hmem
        have hle := hlater other hother
        rw [hsame, hindex] at hle
        omega
      · intro other hother
        rcases List.mem_cons.mp hother with rfl | hrest
        · exact hindex.ge
        · exact (Nat.le_succ n).trans (hlater other hrest)

theorem nullData_iff_opReturn {script : Bytes}
    (hallowed : allowedOutput true (solver script) = true) :
    solver script = .nullData ↔ byteAt script 0 = opReturn := by
  constructor
  · intro hnull
    unfold solver at hnull
    split at hnull
    · cases hnull
    · split at hnull
      · split_ifs at hnull
      · split_ifs at hnull with hreturn
        exact hreturn.2.1
  · intro hreturn
    have hnone : isWitnessProgram script = none := by
      unfold isWitnessProgram
      rw [hreturn, if_pos (show opReturn ≠ op0 ∧ (opReturn < op1 ∨ op16 < opReturn) by decide)]
      exact ite_self _
    unfold solver at hallowed ⊢
    rw [hnone] at hallowed ⊢
    dsimp only at hallowed ⊢
    -- no other type of a script that is no witness program is allowed
    split_ifs at hallowed ⊢ with hp2sh hnull hpubkey hkeyhash hmultisig
    · cases hallowed
    · rfl
    · cases hallowed
    · cases hallowed
    · cases hallowed
    · cases hallowed

/-! ## Agreement -/

variable [DecidableEq α]

/-- The outputs created and not spent by `txs`. -/
def unspentOutputs (names : Names α) (txs : List Transaction) : Finset (Entry α) :=
  ((txs.flatMap (created names)).filter fun entry =>
    decide (entry.1 ∉ txs.flatMap spentKeys)).toFinset

theorem mem_unspentOutputs {entry : Entry α} :
    entry ∈ unspentOutputs names txs ↔
      (∃ tx ∈ txs, entry ∈ created names tx) ∧ ∀ tx ∈ txs, entry.1 ∉ spentKeys tx := by
  simp [unspentOutputs]

/-- The index shows the unspent outputs and the balances of these transactions. -/
structure Agrees (names : Names α) (txs : List Transaction) (coins : Coins α) : Prop where
  utxo : ∀ key entry, coins.utxo.lookup key = some entry ↔
    (key, entry) ∈ unspentOutputs names txs
  bal : ∀ address, (coins.bal.lookup address).getD 0 =
    ∑ entry ∈ unspentOutputs names txs with entry.2.1 = some address, entry.2.2

/-! ## Balances -/

/-- What an entry adds to the balance of an address. -/
def share (address : α) (entry : Option α × ℤ) : ℤ :=
  if entry.1 = some address then entry.2 else 0

/-- `BAL` holds the sums over `UTXO`. -/
structure Balanced (coins : Coins α) : Prop where
  pos : ∀ key entry, coins.utxo.lookup key = some entry → 0 < entry.2
  sums : ∀ address, (coins.bal.lookup address).getD 0 = coins.utxo.weight (share address)

theorem share_nonneg (address : α) {entry : Option α × ℤ} (hpos : 0 < entry.2) :
    0 ≤ share address entry := by
  unfold share
  split_ifs
  · exact hpos.le
  · exact le_rfl

theorem lookup_debit {bal : Finmap fun _ : α => ℤ} {address : α} {sats : ℤ} (other : α) :
    ((debit bal address sats).lookup other).getD 0 =
      if other = address then max ((bal.lookup address).getD 0 - sats) 0
      else (bal.lookup other).getD 0 := by
  unfold debit
  by_cases hother : other = address
  · subst hother
    rw [if_pos rfl]
    split_ifs with hused
    · rw [Finmap.lookup_erase, max_eq_right hused]
      rfl
    · rw [Finmap.lookup_insert, max_eq_left (not_le.mp hused).le]
      rfl
  · rw [if_neg hother]
    split_ifs
    · rw [Finmap.lookup_erase_ne hother]
    · rw [Finmap.lookup_insert_of_ne _ hother]

theorem lookup_credit {bal : Finmap fun _ : α => ℤ} {address : α} {sats : ℤ} (other : α) :
    ((credit bal address sats).lookup other).getD 0 =
      if other = address then (bal.lookup address).getD 0 + sats
      else (bal.lookup other).getD 0 := by
  unfold credit
  by_cases hother : other = address
  · subst hother
    rw [if_pos rfl, Finmap.lookup_insert]
    rfl
  · rw [if_neg hother, Finmap.lookup_insert_of_ne _ hother]

section Steps

variable {coins : Coins α} {key : Uint256 × ℕ}

theorem Balanced.pop (h : Balanced coins) {prev : Option α × ℤ}
    (hprev : coins.utxo.lookup key = some prev) :
    Balanced
      { utxo := coins.utxo.erase key
        bal := match prev.1 with
          | none => coins.bal
          | some address => debit coins.bal address prev.2 } := by
  have hpos : ∀ other entry, (coins.utxo.erase key).lookup other = some entry → 0 < entry.2 :=
    Finmap.All.erase (show Finmap.All (fun _ entry => 0 < entry.2) coins.utxo from h.pos) key
  refine ⟨hpos, fun address => ?_⟩
  have hsum := h.sums address
  rw [Finmap.weight_eq_add_erase hprev] at hsum
  have hrest : 0 ≤ (coins.utxo.erase key).weight (share address) := by
    apply Finmap.weight_nonneg
    intro other entry hentry
    exact share_nonneg address (hpos other entry hentry)
  obtain ⟨owner, sats⟩ := prev
  cases owner with
  | none =>
    dsimp only
    rw [hsum, share, if_neg (by simp), zero_add]
  | some owner =>
    dsimp only
    rw [lookup_debit]
    by_cases howner : address = owner
    · subst howner
      rw [share, if_pos rfl] at hsum
      dsimp only at hsum
      rw [if_pos rfl, hsum, add_sub_cancel_left, max_eq_left hrest]
    · rw [share, if_neg (by simpa using Ne.symm howner), zero_add] at hsum
      rw [if_neg howner, hsum]

theorem Balanced.add (h : Balanced coins) {owner : Option α} {sats : ℤ} (hsats : 0 < sats)
    (hnew : coins.utxo.lookup key = none) :
    Balanced
      { utxo := coins.utxo.insert key (owner, sats)
        bal := match owner with
          | none => coins.bal
          | some address => credit coins.bal address sats } := by
  have hkey : key ∉ coins.utxo := Finmap.lookup_eq_none.mp hnew
  refine ⟨?_, fun address => ?_⟩
  · have hall : Finmap.All (fun _ entry => 0 < entry.2) coins.utxo := h.pos
    exact hall.insert hsats
  · have hsum := h.sums address
    rw [Finmap.weight_insert_of_notMem hkey]
    cases owner with
    | none =>
      dsimp only
      rw [hsum, share, if_neg (by simp), zero_add]
    | some owner =>
      dsimp only
      rw [lookup_credit]
      by_cases howner : address = owner
      · subst howner
        rw [if_pos rfl, hsum, share, if_pos rfl, add_comm]
      · rw [if_neg howner, hsum, share, if_neg (by simpa using Ne.symm howner), zero_add]

theorem spendVin_spend {spending : Spending α} (hbalanced : Balanced spending.coins)
    (txid : Uint256) (vout : ℕ) :
    Balanced (spendVin names spending (.spend txid vout none)).coins ∧
      (spendVin names spending (.spend txid vout none)).coins.utxo =
        spending.coins.utxo.erase (txid, vout) := by
  cases hprev : spending.coins.utxo.lookup (txid, vout) with
  | none =>
    simp only [spendVin, hprev]
    exact ⟨hbalanced, (Finmap.erase_of_lookup_none hprev).symm⟩
  | some prev =>
    simp only [spendVin, hprev]
    exact ⟨hbalanced.pop hprev, rfl⟩

theorem spendVins (hcoinbase : tx.isCoinBase = false) :
    ∀ (vin : List TxIn) (spending : Spending α), Balanced spending.coins →
      Balanced ((vin.map (inputToUniv tx)).foldl (spendVin names) spending).coins ∧
        ((vin.map (inputToUniv tx)).foldl (spendVin names) spending).coins.utxo =
          spending.coins.utxo.eraseAll
            (vin.map fun txin => (txin.prevout.hash, txin.prevout.n.toNat)) := by
  intro vin
  induction vin with
  | nil =>
    intro spending hbalanced
    exact ⟨hbalanced, rfl⟩
  | cons txin rest ih =>
    intro spending hbalanced
    have hview : (inputToUniv tx txin : Vin α) =
        .spend txin.prevout.hash txin.prevout.n.toNat none := by
      rw [inputToUniv, hcoinbase]
      rfl
    have hspent : Balanced (spendVin names spending (.spend _ _ none)).coins ∧ _ :=
      spendVin_spend hbalanced txin.prevout.hash txin.prevout.n.toNat
    obtain ⟨hnext, herased⟩ := hspent
    obtain ⟨hend, hutxo⟩ := ih _ hnext
    rw [List.map_cons, List.foldl_cons, hview]
    refine ⟨hend, ?_⟩
    rw [hutxo, herased]
    rfl

theorem spendTx_spec (hbalanced : Balanced coins) (tx : Transaction) :
    Balanced (spendTx names coins (txToUniv names tx)).coins ∧
      (spendTx names coins (txToUniv names tx)).coins.utxo =
        coins.utxo.eraseAll (spentKeys tx) := by
  unfold spendTx spentKeys
  rw [isCoinbase_txToUniv]
  cases hcoinbase : tx.isCoinBase with
  | true => exact ⟨hbalanced, rfl⟩
  | false => exact spendVins hcoinbase tx.vin _ hbalanced

theorem addOutputs_spec (txid : Uint256) :
    ∀ (vout : List TxOut) (n : ℕ) (coins : Coins α), Balanced coins →
      (∀ txout ∈ vout, allowedOutput true (solver txout.scriptPubKey) = true) →
      (∀ m, n ≤ m → coins.utxo.lookup (txid, m) = none) →
      Balanced (addOutputs names txid (vout.map (outputToUniv names)) n coins) ∧
        (addOutputs names txid (vout.map (outputToUniv names)) n coins).utxo =
          coins.utxo.insertAll ((vout.zipIdx n).filterMap (keptOutput names txid)) := by
  intro vout
  induction vout with
  | nil =>
    intro n coins hbalanced _ _
    exact ⟨hbalanced, rfl⟩
  | cons txout rest ih =>
    intro n coins hbalanced hallowed hnew
    have hrest := fun other hother => hallowed other (List.mem_cons_of_mem _ hother)
    have hreturn := nullData_iff_opReturn (hallowed txout List.mem_cons_self)
    rw [List.map_cons, addOutputs, List.zipIdx_cons, List.filterMap_cons]
    by_cases hkept : 0 < txout.nValue ∧ byteAt txout.scriptPubKey 0 ≠ opReturn
    · have hview : 0 < (outputToUniv names txout).value ∧
          (outputToUniv names txout).scriptPubKey.nulldata = false :=
        ⟨hkept.1, decide_eq_false (fun hnull => hkept.2 (hreturn.mp hnull))⟩
      rw [addOutput, if_pos hview, keptOutput, if_pos hkept]
      refine ih (n + 1) _ (hbalanced.add hkept.1 (hnew n le_rfl)) hrest fun m hm => ?_
      dsimp only
      rw [Finmap.lookup_insert_of_ne _ (by simp; omega)]
      exact hnew m (by omega)
    · have hview : ¬(0 < (outputToUniv names txout).value ∧
          (outputToUniv names txout).scriptPubKey.nulldata = false) := fun hview =>
        hkept ⟨hview.1, fun hsame => of_decide_eq_false hview.2 (hreturn.mpr hsame)⟩
      rw [addOutput, if_neg hview, keptOutput, if_neg hkept]
      exact ih (n + 1) coins hbalanced hrest fun m hm => hnew m (by omega)

end Steps

/-! ## Transactions -/

/-- What the coins are after one more transaction. -/
def coinsAfter (names : Names α) (coins : Coins α) (tx : Transaction) : Coins α :=
  addOutputs names (names.txid tx) (tx.vout.map (outputToUniv names)) 0
    (spendTx names coins (txToUniv names tx)).coins

/-- `UTXO` is the set of unspent outputs, and `BAL` holds its sums. -/
structure Shows (names : Names α) (txs : List Transaction) (coins : Coins α) : Prop where
  balanced : Balanced coins
  utxo : ∀ key entry, coins.utxo.lookup key = some entry ↔
    (key, entry) ∈ unspentOutputs names txs

theorem shows_empty : Shows names [] ⟨∅, ∅⟩ where
  balanced := ⟨fun key entry hnone => by simp at hnone, fun address => by simp⟩
  utxo key entry := by simp [unspentOutputs]

/-- Only the last transaction can have created an output under its own id. -/
theorem unspentOutputs_own (hok : TxsOk names (txs ++ [tx])) {entry : Entry α}
    (hown : entry.1.1 = names.txid tx) :
    entry ∈ unspentOutputs names (txs ++ [tx]) ↔ entry ∈ created names tx := by
  have hids := hok.txids
  rw [List.map_append, List.map_singleton] at hids
  have hother : ∀ other ∈ txs, names.txid other ≠ names.txid tx := fun other hmem hsame =>
    (List.nodup_append.mp hids).2.2 _ (List.mem_map_of_mem hmem) _ (List.mem_singleton_self _) hsame
  have hunspent : ∀ other ∈ txs ++ [tx], entry.1 ∉ spentKeys other := by
    intro other hmem hspent
    obtain ⟨before, after, hsplit⟩ := List.append_of_mem hmem
    have hearlier := hok.earlier before other after hsplit entry.1 hspent
    obtain ⟨creator, hcreator, hcreated⟩ := List.mem_map.mp hearlier
    -- the transactions before another one are among the first ones
    have hfirst : creator ∈ txs := by
      cases after using List.reverseRecOn with
      | nil =>
        have hsame := List.append_inj_left' hsplit rfl
        rw [hsame]
        exact hcreator
      | append_singleton after last =>
        rw [← List.cons_append, ← List.append_assoc] at hsplit
        have hsame := List.append_inj_left' hsplit rfl
        rw [hsame]
        exact List.mem_append_left _ hcreator
    exact hother creator hfirst (hcreated.trans hown)
  rw [mem_unspentOutputs]
  constructor
  · rintro ⟨⟨creator, hcreator, hcreated⟩, -⟩
    rcases List.mem_append.mp hcreator with hfirst | hlast
    · exact absurd ((entry_txid hcreated).symm.trans hown) (hother creator hfirst)
    · rwa [← List.mem_singleton.mp hlast]
  · intro hcreated
    exact ⟨⟨tx, by simp, hcreated⟩, hunspent⟩

/-- Another output stays unspent unless the last transaction spends it. -/
theorem unspentOutputs_other {entry : Entry α} (hother : entry.1.1 ≠ names.txid tx) :
    entry ∈ unspentOutputs names (txs ++ [tx]) ↔
      entry ∈ unspentOutputs names txs ∧ entry.1 ∉ spentKeys tx := by
  rw [mem_unspentOutputs, mem_unspentOutputs]
  constructor
  · rintro ⟨⟨creator, hcreator, hcreated⟩, hunspent⟩
    refine ⟨⟨⟨creator, ?_, hcreated⟩, fun other hmem => hunspent other (by simp [hmem])⟩,
      hunspent tx (by simp)⟩
    rcases List.mem_append.mp hcreator with hfirst | hlast
    · exact hfirst
    · rw [List.mem_singleton.mp hlast] at hcreated
      exact absurd (entry_txid hcreated) hother
  · rintro ⟨⟨⟨creator, hcreator, hcreated⟩, hunspent⟩, hlast⟩
    refine ⟨⟨creator, by simp [hcreator], hcreated⟩, fun other hmem => ?_⟩
    rcases List.mem_append.mp hmem with hfirst | hsame
    · exact hunspent other hfirst
    · rw [List.mem_singleton.mp hsame]
      exact hlast

theorem Shows.lookup_own {coins : Coins α} (h : Shows names txs coins) {tx : Transaction}
    (hok : TxsOk names (txs ++ [tx])) (m : ℕ) : coins.utxo.lookup (names.txid tx, m) = none := by
  by_contra hsome
  obtain ⟨entry, hentry⟩ := Option.ne_none_iff_exists'.mp hsome
  obtain ⟨⟨creator, hcreator, hcreated⟩, -⟩ := mem_unspentOutputs.mp ((h.utxo _ _).mp hentry)
  have hids := hok.txids
  rw [List.map_append, List.map_singleton] at hids
  exact (List.nodup_append.mp hids).2.2 _ (List.mem_map_of_mem hcreator) _
    (List.mem_singleton_self _) (entry_txid hcreated).symm

theorem Shows.step {coins : Coins α} (h : Shows names txs coins) {tx : Transaction}
    (hok : TxsOk names (txs ++ [tx])) : Shows names (txs ++ [tx]) (coinsAfter names coins tx) := by
  have hspend : Balanced (spendTx names coins (txToUniv names tx)).coins ∧ _ :=
    spendTx_spec h.balanced tx
  obtain ⟨hspent, herased⟩ := hspend
  have hnew : ∀ m, (coins.utxo.eraseAll (spentKeys tx)).lookup (names.txid tx, m) = none := by
    intro m
    by_cases hkey : (names.txid tx, m) ∈ spentKeys tx
    · exact Finmap.lookup_eraseAll_of_mem hkey
    · rw [Finmap.lookup_eraseAll_of_notMem hkey]
      exact h.lookup_own hok m
  have hadd : Balanced (coinsAfter names coins tx) ∧ _ :=
    addOutputs_spec (names.txid tx) tx.vout 0 _ hspent (hok.types tx (by simp))
      (fun m _ => by rw [herased]; exact hnew m)
  obtain ⟨hbalanced, hutxo⟩ := hadd
  refine ⟨hbalanced, fun key entry => ?_⟩
  rw [coinsAfter, hutxo, herased]
  by_cases hown : key.1 = names.txid tx
  · have hnone : (coins.utxo.eraseAll (spentKeys tx)).lookup key = none := by
      have hkey : key = (names.txid tx, key.2) := by rw [← hown]
      rw [hkey]
      exact hnew key.2
    rw [unspentOutputs_own hok hown]
    exact Finmap.lookup_insertAll_eq_some_iff (nodup_kept _ _ _).1 hnone
  · have hnotMem : key ∉ (created names tx).map Prod.fst := by
      intro hmem
      obtain ⟨other, hother, rfl⟩ := List.mem_map.mp hmem
      exact hown (entry_txid hother)
    rw [unspentOutputs_other hown]
    have hinsert := Finmap.lookup_insertAll_of_notMem hnotMem
      (m := coins.utxo.eraseAll (spentKeys tx))
    rw [created] at hinsert
    rw [hinsert]
    by_cases hkey : key ∈ spentKeys tx
    · rw [Finmap.lookup_eraseAll_of_mem hkey]
      exact iff_of_false (by simp) (fun hboth => hboth.2 hkey)
    · rw [Finmap.lookup_eraseAll_of_notMem hkey, h.utxo]
      exact (and_iff_left hkey).symm

theorem shows_foldl :
    ∀ (rest txs : List Transaction) (coins : Coins α), Shows names txs coins →
      TxsOk names (txs ++ rest) →
      Shows names (txs ++ rest) (rest.foldl (coinsAfter names) coins) := by
  intro rest
  induction rest with
  | nil =>
    intro txs coins h _
    rwa [List.append_nil]
  | cons tx rest ih =>
    intro txs coins h hok
    rw [List.append_cons] at hok ⊢
    exact ih (txs ++ [tx]) _ (h.step hok.of_append) hok

/-- **Indexing transactions.**  The index of the transactions of a chain shows their unspent
outputs and their balances. -/
theorem agrees_indexTxs (hok : TxsOk names txs) :
    Agrees names txs (txs.foldl (coinsAfter names) ⟨∅, ∅⟩) := by
  have hshows : Shows names txs (txs.foldl (coinsAfter names) ⟨∅, ∅⟩) :=
    shows_foldl txs [] _ shows_empty hok
  refine ⟨hshows.utxo, fun address => ?_⟩
  rw [hshows.balanced.sums, Finmap.weight_eq_sum hshows.utxo, Finset.sum_filter]
  rfl

/-! ## Calls -/

/-- The transactions of a chain, in order. -/
def chainTxs (chain : List Block) : List Transaction := chain.flatMap Block.vtx

/-- The index after the blocks of a chain. -/
def indexChain (names : Names α) (levyBp : ℤ) (chain : List Block) : Index α :=
  chain.foldl (indexBlock names levyBp) ⟨⟨∅, ∅⟩, ∅, ∅⟩

theorem indexBlock_coins (levyBp : ℤ) (index : Index α) (block : Block) :
    (indexBlock names levyBp index block).coins =
      block.vtx.foldl (coinsAfter names) index.coins := by
  have hfold : ∀ (vtx : List Transaction) (index : Index α),
      ((vtx.map (txToUniv names)).foldl (indexTx names levyBp (names.blockHash block))
        index).coins = vtx.foldl (coinsAfter names) index.coins := by
    intro vtx
    induction vtx with
    | nil =>
      intro index
      rfl
    | cons tx rest ih =>
      intro index
      exact ih _
  exact hfold block.vtx index

theorem indexChain_coins (levyBp : ℤ) (chain : List Block) :
    (indexChain names levyBp chain).coins =
      (chainTxs chain).foldl (coinsAfter names) ⟨∅, ∅⟩ := by
  have hfold : ∀ (chain : List Block) (index : Index α),
      (chain.foldl (indexBlock names levyBp) index).coins =
        (chainTxs chain).foldl (coinsAfter names) index.coins := by
    intro chain
    induction chain with
    | nil =>
      intro index
      rfl
    | cons block rest ih =>
      intro index
      have hcons : chainTxs (block :: rest) = block.vtx ++ chainTxs rest := List.flatMap_cons ..
      rw [List.foldl_cons, ih, indexBlock_coins, hcons, List.foldl_append]
  exact hfold chain _

/-- How many blocks of the chain the explorer has indexed or is about to index. -/
def State.fetched (state : State α) : ℕ :=
  match state.call with
  | some ⟨_, some _, _⟩ => state.next + 1
  | _ => state.next

/-- No change of the chain replaces a block that the explorer has indexed, or whose hash the call
under way was answered. -/
def StepKeeps (state : State α) : Event → Prop
  | .change chain => state.chain.take state.fetched <+: chain
  | _ => True

/-- Every step of the run keeps the assumptions. -/
def RunKeeps (names : Names α) (levyBp : ℤ) : State α → List Event → Prop
  | _, [] => True
  | state, event :: rest =>
    StepKeeps state event ∧ RunKeeps names levyBp (state.step names levyBp event) rest

/-- The index is that of the first blocks of the chain, a fetched block is the next one, and a call
that has seen no change stops at the end of the chain. -/
structure Follows (names : Names α) (levyBp : ℤ) (state : State α) : Prop where
  index : state.index = indexChain names levyBp (state.chain.take state.next)
  next : state.next ≤ state.chain.length
  pending : ∀ call ∈ state.call, ∀ block ∈ call.pending, state.chain[state.next]? = some block
  stop : ∀ call ∈ state.call, call.steady = true → call.stop = state.chain.length
  settled : state.settled = true → state.next = state.chain.length

section Follows

variable {levyBp : ℤ} {state : State α}

theorem follows_start (chain : List Block) :
    Follows names levyBp (State.start chain : State α) where
  index := rfl
  next := Nat.zero_le _
  pending call hcall := by cases hcall
  stop call hcall := by cases hcall
  settled hsettled := by cases hsettled

theorem follows_loop (hindex : state.index = indexChain names levyBp (state.chain.take state.next))
    (hnext : state.next ≤ state.chain.length) {call : Call} (hpending : call.pending = none)
    (hstop : call.steady = true → call.stop = state.chain.length) :
    Follows names levyBp (state.loop call) := by
  unfold State.loop
  split_ifs with hdone
  · refine ⟨hindex, hnext, (fun _ hnone => by cases hnone), (fun _ hnone => by cases hnone), ?_⟩
    intro hsettled
    have hend := hstop hsettled
    dsimp only
    omega
  · refine ⟨hindex, hnext, fun own hown block hblock => ?_, fun own hown hsteady => ?_,
      fun hsettled => by cases hsettled⟩
    · rw [← Option.some.inj hown, hpending] at hblock
      cases hblock
    · rw [← Option.some.inj hown] at hsteady ⊢
      exact hstop hsteady

theorem Follows.break (h : Follows names levyBp state) : Follows names levyBp state.break :=
  ⟨h.index, h.next, (fun _ hnone => by cases hnone), (fun _ hnone => by cases hnone),
    fun hsettled => by cases hsettled⟩

theorem Follows.fetched_le (h : Follows names levyBp state) :
    state.next ≤ state.fetched ∧ state.fetched ≤ state.chain.length := by
  have hnext := h.next
  unfold State.fetched
  split
  · rename_i stop block steady hcall
    have hblock := h.pending _ hcall block rfl
    have hlt := (List.getElem?_eq_some_iff.mp hblock).1
    omega
  · exact ⟨le_rfl, hnext⟩

theorem Follows.change (h : Follows names levyBp state) {chain : List Block}
    (hkeeps : state.chain.take state.fetched <+: chain) :
    Follows names levyBp (state.step names levyBp (.change chain)) := by
  obtain ⟨hfetched, hlength⟩ := h.fetched_le
  obtain ⟨rest, rfl⟩ := hkeeps
  have htake : (state.chain.take state.fetched).length = state.fetched := by
    rw [List.length_take, min_eq_left hlength]
  refine ⟨?_, ?_, fun call hcall block hblock => ?_, fun call hcall hsteady => ?_,
    fun hsettled => by cases hsettled⟩
  · dsimp only [State.step]
    rw [h.index, List.take_append_of_le_length (by omega), List.take_take, min_eq_left hfetched]
  · dsimp only [State.step]
    rw [List.length_append]
    omega
  · obtain ⟨own, hown, rfl⟩ := Option.map_eq_some_iff.mp hcall
    have hpending := h.pending own hown block hblock
    have hmore : state.fetched = state.next + 1 := by
      obtain ⟨stop, pending, steady⟩ := own
      obtain rfl : pending = some block := hblock
      rw [State.fetched, hown]
    dsimp only [State.step]
    rw [List.getElem?_append_left (by omega), List.getElem?_take_of_lt (by omega)]
    exact hpending
  · obtain ⟨own, hown, rfl⟩ := Option.map_eq_some_iff.mp hcall
    cases hsteady

theorem indexChain_take_succ {chain : List Block} {n : ℕ} {block : Block}
    (hblock : chain[n]? = some block) :
    indexChain names levyBp (chain.take (n + 1)) =
      indexBlock names levyBp (indexChain names levyBp (chain.take n)) block := by
  rw [List.take_add_one, hblock, indexChain, List.foldl_append]
  rfl

theorem Follows.step (h : Follows names levyBp state) {event : Event}
    (hkeeps : StepKeeps state event) : Follows names levyBp (state.step names levyBp event) := by
  cases event with
  | change chain => exact h.change hkeeps
  | getBlockCount answers =>
    dsimp only [State.step]
    split
    · exact h
    · split_ifs
      · exact follows_loop h.index h.next rfl fun _ => rfl
      · exact h.break
  | getBlockHash answers =>
    dsimp only [State.step]
    split
    · rename_i stop steady hcall
      split
      · exact h.break
      · rename_i block hblock
        have hnext : state.chain[state.next]? = some block := by
          cases answers with
          | false => cases hblock
          | true => exact hblock
        refine ⟨h.index, h.next, fun call hown found hfound => ?_, fun call hown hsteady => ?_,
          h.settled⟩
        · rw [← Option.some.inj hown] at hfound
          rw [← Option.some.inj hfound]
          exact hnext
        · rw [← Option.some.inj hown] at hsteady ⊢
          exact h.stop ⟨stop, none, steady⟩ hcall hsteady
    · exact h
  | getBlock answers =>
    dsimp only [State.step]
    split
    · rename_i stop block steady hcall
      split_ifs
      · have hblock := h.pending _ hcall block rfl
        have hlt := (List.getElem?_eq_some_iff.mp hblock).1
        apply follows_loop
        · dsimp only
          rw [h.index, indexChain_take_succ hblock]
        · exact hlt
        · rfl
        · exact fun hsteady => h.stop ⟨stop, some block, steady⟩ hcall hsteady
      · exact h.break
    · exact h

theorem Follows.run :
    ∀ (events : List Event) (state : State α), Follows names levyBp state →
      RunKeeps names levyBp state events →
      Follows names levyBp (state.run names levyBp events) := by
  intro events
  induction events with
  | nil =>
    intro state h _
    exact h
  | cons event rest ih =>
    intro state h hkeeps
    exact ih _ (h.step hkeeps.1) hkeeps.2

end Follows

/-- **The index follows the chain.**  If no change of the active chain replaces an indexed block,
then after every call that ran to the tip of an unchanged chain `UTXO` is the set of the chain's
unspent outputs and `BAL` holds the sums of each address's part of it. -/
theorem index_agrees_of_runKeeps (names : Names α) (levyBp : ℤ) (chain : List Block)
    (events : List Event) (hkeeps : RunKeeps names levyBp (.start chain) events)
    (hsettled : ((State.start chain : State α).run names levyBp events).settled = true)
    (hok : TxsOk names
      (chainTxs ((State.start chain : State α).run names levyBp events).chain)) :
    Agrees names (chainTxs ((State.start chain : State α).run names levyBp events).chain)
      ((State.start chain : State α).run names levyBp events).index.coins := by
  have hfollows : Follows names levyBp ((State.start chain : State α).run names levyBp events) :=
    Follows.run events _ (follows_start chain) hkeeps
  rw [hfollows.index, hfollows.settled hsettled, List.take_length, indexChain_coins]
  exact agrees_indexTxs hok

/-! ## A replaced block -/

/-- Stand-ins: the lock time is the id. -/
def plainNames : Names ℕ where
  txid tx := BitVec.ofNat 256 tx.nLockTime.toNat
  blockHash block := BitVec.ofNat 256 block.nNonce.toNat
  destination _ := none
  bech32mEncode version program := version + Bytes.toNatLE program

/-- A coinbase with this id that pays one output. -/
def plainCoinbase (id : UInt32) : Transaction where
  version := 2
  vin := [⟨⟨0, OutPoint.nullIndex⟩, [], 0, []⟩]
  vout := [⟨5000, 0x53 :: 0x20 :: List.replicate 32 (UInt8.ofNat id.toNat)⟩]
  nLockTime := id

/-- A block with only this coinbase. -/
def plainBlock (id : UInt32) : Block := ⟨⟨4, 0, 0, 0, 0, id⟩, [plainCoinbase id]⟩

/-- A call that indexes the next block and ends. -/
def refreshOne : List Event := [.getBlockCount true, .getBlockHash true, .getBlock true]

/-- A payment out of the coinbase 1. -/
def plainPayment : Transaction where
  version := 2
  vin := [⟨⟨1, 0⟩, [], 0, []⟩]
  vout := [⟨3000, 0x53 :: 0x20 :: List.replicate 32 2⟩, ⟨1900, 0x53 :: 0x20 :: List.replicate 32 4⟩]
  nLockTime := 4

/-- A block with the coinbase 2 and the payment. -/
def paymentBlock : Block := ⟨⟨4, 0, 0, 0, 0, 2⟩, [plainCoinbase 2, plainPayment]⟩

/-- The chain grows by a block after the first call. -/
def grownRun : List Event := refreshOne ++ .change [plainBlock 1, paymentBlock] :: refreshOne

/-- Then another block takes the place of the second one, and a call finds no new height. -/
def replacedRun : List Event :=
  grownRun ++ .change [plainBlock 1, plainBlock 3] :: .getBlockCount true :: []

/-- An empty index of a chain of one block. -/
def plainStart : State ℕ := .start [plainBlock 1]

theorem replacedRun_state :
    (plainStart.run plainNames 0 replacedRun).settled = true ∧
      (plainStart.run plainNames 0 replacedRun).chain = [plainBlock 1, plainBlock 3] ∧
      (plainStart.run plainNames 0 replacedRun).index.coins.utxo.lookup (3, 0) = none := by
  decide +kernel

theorem plain_unspent :
    ((3, 0), (some (3 + Bytes.toNatLE (List.replicate 32 3)), 5000)) ∈
      unspentOutputs plainNames [plainCoinbase 1, plainCoinbase 3] := by
  decide +kernel

/-- The index of `replacedRun` shows the block that is gone. -/
theorem replaced_block_not_indexed :
    (plainStart.run plainNames 0 replacedRun).settled = true ∧
      TxsOk plainNames (chainTxs (plainStart.run plainNames 0 replacedRun).chain) ∧
      ¬Agrees plainNames (chainTxs (plainStart.run plainNames 0 replacedRun).chain)
        (plainStart.run plainNames 0 replacedRun).index.coins := by
  obtain ⟨hsettled, hchain, hmissing⟩ := replacedRun_state
  refine ⟨hsettled, ?_, fun hagrees => ?_⟩
  · rw [hchain]
    exact txsOk_of_take (by decide +kernel)
  · rw [hchain] at hagrees
    have hfound := (hagrees.utxo (3, 0) _).mpr plain_unspent
    rw [hmissing] at hfound
    cases hfound

theorem grownRun_state :
    (plainStart.run plainNames 0 grownRun).settled = true ∧
      (plainStart.run plainNames 0 grownRun).chain = [plainBlock 1, paymentBlock] ∧
      (plainStart.run plainNames 0 grownRun).index.coins.utxo.lookup (1, 0) = none ∧
      (plainStart.run plainNames 0 refreshOne).chain.take
        (plainStart.run plainNames 0 refreshOne).fetched = [plainBlock 1] := by
  decide +kernel

theorem runKeeps_grownRun : RunKeeps plainNames 0 plainStart grownRun := by
  refine ⟨trivial, trivial, trivial, ?_, trivial, trivial, trivial, trivial⟩
  change (plainStart.run plainNames 0 refreshOne).chain.take
    (plainStart.run plainNames 0 refreshOne).fetched <+: _
  rw [grownRun_state.2.2.2]
  exact ⟨[paymentBlock], rfl⟩

/-- The second block spends the output of the first one. -/
theorem grownRun_agrees :
    (plainStart.run plainNames 0 grownRun).settled = true ∧
      (plainStart.run plainNames 0 grownRun).index.coins.utxo.lookup (1, 0) = none ∧
      Agrees plainNames (chainTxs (plainStart.run plainNames 0 grownRun).chain)
        (plainStart.run plainNames 0 grownRun).index.coins := by
  refine ⟨grownRun_state.1, grownRun_state.2.2.1,
    index_agrees_of_runKeeps plainNames 0 [plainBlock 1] grownRun runKeeps_grownRun
      grownRun_state.1 ?_⟩
  change TxsOk plainNames (chainTxs (plainStart.run plainNames 0 grownRun).chain)
  rw [grownRun_state.2.1]
  exact txsOk_of_take (by decide +kernel)

end XCoin.Explorer
