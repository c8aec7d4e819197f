import XCoin.Lib.FinmapWeight
import XCoin.Validation.CheckTransaction

/-!
# The coins view

The set of unspent coins that `CCoinsViewCache` presents, as a finite map from
outpoints to coins: the layers of the cache, its dirty and fresh flags and the
database below are not part of the model.  Spending erases an entry, adding
inserts one.

`AddCoin` throws on a coin that is unspent in its own cache layer; the model
throws on any unspent coin.  In `ConnectBlock` the two agree, because the check
for duplicate outputs has loaded every coin of the block's outputs before.

The last section is the accounting: `supply` is the value of all coins, spending
the inputs of a transaction takes exactly their value off, and adding its outputs
adds at most theirs (an unspendable output adds nothing, and an output that
replaces a coin destroys it).
-/

namespace XCoin.Validation

open Consensus Script

variable {outpoint : OutPoint}

/-- `Coin`. -/
structure Coin where
  out : TxOut
  fCoinBase : Bool
  nHeight : ℤ
deriving DecidableEq, Repr

/-- `IsSpent`. -/
def Coin.isSpent (coin : Coin) : Bool := coin.out.nValue == -1

/-- The unspent coins. -/
abbrev CoinsView := Finmap fun _ : OutPoint => Coin

/-- `HaveCoin`. -/
def haveCoin (view : CoinsView) (outpoint : OutPoint) : Bool := (view.lookup outpoint).isSome

/-- `HaveInputs`. -/
def haveInputs (view : CoinsView) (tx : Transaction) : Bool :=
  tx.isCoinBase || tx.vin.all fun txin => haveCoin view txin.prevout

/-- `AddCoin`. -/
def addCoin (view : CoinsView) (outpoint : OutPoint) (coin : Coin) (possibleOverwrite : Bool) :
    Except Failure CoinsView :=
  if coin.isSpent then .error (.exception .assertAddedCoinUnspent)
  else if isUnspendable coin.out.scriptPubKey then .ok view
  else if !possibleOverwrite && haveCoin view outpoint then
    .error (.exception .overwriteUnspentCoin)
  else .ok (view.insert outpoint coin)

/-- The loop of `AddCoins` from output `i` on. -/
def addCoinsLoop (txid : Uint256) (nHeight : ℤ) (fCoinbase : Bool) :
    List TxOut → ℕ → CoinsView → Except Failure CoinsView
  | [], _, view => .ok view
  | txout :: rest, i, view => do
    let view ← addCoin view ⟨txid, UInt32.ofNat i⟩ ⟨txout, fCoinbase, nHeight⟩ fCoinbase
    addCoinsLoop txid nHeight fCoinbase rest (i + 1) view

/-- `AddCoins`. -/
def addCoins (view : CoinsView) (txid : Uint256) (tx : Transaction) (nHeight : ℤ) :
    Except Failure CoinsView :=
  addCoinsLoop txid nHeight tx.isCoinBase tx.vout 0 view

/-- The loop of `UpdateCoins` that spends the inputs, with the coins it moves to the
undo data. -/
def spendInputs : List TxIn → CoinsView → Except Failure (CoinsView × List Coin)
  | [], view => .ok (view, [])
  | txin :: rest, view =>
    match view.lookup txin.prevout with
    | none => .error (.exception .assertIsSpent)
    | some coin => do
      let (after, undo) ← spendInputs rest (view.erase txin.prevout)
      return (after, coin :: undo)

/-- The inputs of a transaction marked spent; a coinbase has none. -/
def spendTxInputs (view : CoinsView) (tx : Transaction) : Except Failure (CoinsView × List Coin) :=
  if tx.isCoinBase then .ok (view, []) else spendInputs tx.vin view

/-- `UpdateCoins`: the view after the transaction, and its undo data. -/
def updateCoins (view : CoinsView) (txid : Uint256) (tx : Transaction) (nHeight : ℤ) :
    Except Failure (CoinsView × List Coin) := do
  let spent ← spendTxInputs view tx
  let added ← addCoins spent.1 txid tx nHeight
  return (added, spent.2)

/-! ## Accounting -/

/-- The value of all unspent coins. -/
def supply (view : CoinsView) : ℤ := view.weight fun coin => coin.out.nValue

@[simp] theorem supply_empty : supply ∅ = 0 := rfl

/-- Every coin's value is an amount `MoneyRange` accepts. -/
def CoinsInRange (view : CoinsView) : Prop :=
  ∀ outpoint coin, view.lookup outpoint = some coin →
    0 ≤ coin.out.nValue ∧ coin.out.nValue ≤ maxMoney

theorem coinsInRange_empty : CoinsInRange ∅ := by
  intro outpoint coin h
  simp at h

namespace CoinsInRange

variable {view : CoinsView}

theorem erase (h : CoinsInRange view) (outpoint : OutPoint) :
    CoinsInRange (view.erase outpoint) := by
  intro other coin hlookup
  by_cases hother : other = outpoint
  · subst hother
    rw [Finmap.lookup_erase] at hlookup
    cases hlookup
  · rw [Finmap.lookup_erase_ne hother] at hlookup
    exact h other coin hlookup

theorem insert (h : CoinsInRange view) {coin : Coin}
    (hcoin : 0 ≤ coin.out.nValue ∧ coin.out.nValue ≤ maxMoney) :
    CoinsInRange (view.insert outpoint coin) := by
  intro other found hlookup
  by_cases hother : other = outpoint
  · subst hother
    rw [Finmap.lookup_insert] at hlookup
    rwa [← Option.some.inj hlookup]
  · rw [Finmap.lookup_insert_of_ne _ hother] at hlookup
    exact h other found hlookup

theorem supply_insert_le (h : CoinsInRange view) (outpoint : OutPoint) (coin : Coin) :
    supply (view.insert outpoint coin) ≤ coin.out.nValue + supply view :=
  Finmap.weight_insert_le fun other found hlookup => (h other found hlookup).1

theorem addCoin (h : CoinsInRange view) {coin : Coin} {possibleOverwrite : Bool} {after : CoinsView}
    (hcoin : 0 ≤ coin.out.nValue ∧ coin.out.nValue ≤ maxMoney)
    (hadd : Validation.addCoin view outpoint coin possibleOverwrite = .ok after) :
    CoinsInRange after ∧ supply after ≤ coin.out.nValue + supply view := by
  unfold Validation.addCoin at hadd
  split_ifs at hadd with hspent hunspendable hoverwrite
  · cases hadd
    exact ⟨h, by omega⟩
  · cases hadd
    exact ⟨h.insert hcoin, h.supply_insert_le outpoint coin⟩

theorem addCoinsLoop {txid : Uint256} {nHeight : ℤ} {fCoinbase : Bool} {vout : List TxOut} {i : ℕ}
    {after : CoinsView} (h : CoinsInRange view) (hvout : OutputsInRange vout)
    (hadd : Validation.addCoinsLoop txid nHeight fCoinbase vout i view = .ok after) :
    CoinsInRange after ∧ supply after ≤ outputValue vout + supply view := by
  induction vout generalizing i view with
  | nil =>
    cases hadd
    exact ⟨h, by simp⟩
  | cons txout rest ih =>
    obtain ⟨next, hfirst, hadd⟩ := bind_eq_ok.mp hadd
    have hvalue : 0 ≤ txout.nValue ∧ txout.nValue ≤ maxMoney :=
      ⟨hvout.nonneg txout List.mem_cons_self,
        (hvout.le_value List.mem_cons_self).trans hvout.sum_le⟩
    obtain ⟨hnext, hsupply⟩ := h.addCoin hvalue hfirst
    obtain ⟨hafter, hrest⟩ := ih hnext hvout.tail hadd
    refine ⟨hafter, ?_⟩
    rw [outputValue_cons]
    dsimp only at hsupply
    omega

end CoinsInRange

/-- The value of the coins that a list of inputs spends. -/
def inputValue (view : CoinsView) (vin : List TxIn) : ℤ :=
  (vin.map fun txin => ((view.lookup txin.prevout).map fun coin => coin.out.nValue).getD 0).sum

theorem inputValue_erase_of_notMem {view : CoinsView} {vin : List TxIn}
    (h : outpoint ∉ vin.map TxIn.prevout) :
    inputValue (view.erase outpoint) vin = inputValue view vin := by
  unfold inputValue
  congr 1
  refine List.map_congr_left fun txin htxin => ?_
  have hne : txin.prevout ≠ outpoint := fun heq => h (heq ▸ List.mem_map_of_mem htxin)
  rw [Finmap.lookup_erase_ne hne]

/-- **Spending.**  Distinct inputs that are all in the view are spent without an
assertion failing, and take exactly their value off the supply. -/
theorem spendInputs_ok {vin : List TxIn} {view : CoinsView}
    (hnodup : (vin.map TxIn.prevout).Nodup)
    (hhave : ∀ txin ∈ vin, haveCoin view txin.prevout = true) (hrange : CoinsInRange view) :
    ∃ after undo, spendInputs vin view = .ok (after, undo) ∧ CoinsInRange after ∧
      supply view = inputValue view vin + supply after := by
  induction vin generalizing view with
  | nil => exact ⟨view, [], rfl, hrange, by simp [inputValue]⟩
  | cons txin rest ih =>
    rw [List.map_cons, List.nodup_cons] at hnodup
    obtain ⟨coin, hcoin⟩ := Option.isSome_iff_exists.mp (hhave txin List.mem_cons_self)
    have hrest : ∀ other ∈ rest, haveCoin (view.erase txin.prevout) other.prevout = true := by
      intro other hother
      have hne : other.prevout ≠ txin.prevout := fun heq =>
        hnodup.1 (heq ▸ List.mem_map_of_mem hother)
      rw [haveCoin, Finmap.lookup_erase_ne hne]
      exact hhave other (List.mem_cons_of_mem _ hother)
    obtain ⟨after, undo, hspend, hafter, hsupply⟩ := ih hnodup.2 hrest (hrange.erase _)
    refine ⟨after, coin :: undo, ?_, hafter, ?_⟩
    · simp only [spendInputs, hcoin, hspend]
      rfl
    · have hfirst : supply view = coin.out.nValue + supply (view.erase txin.prevout) :=
        Finmap.weight_eq_add_erase hcoin
      rw [inputValue_erase_of_notMem hnodup.1] at hsupply
      have hvalue : inputValue view (txin :: rest) = coin.out.nValue + inputValue view rest := by
        simp [inputValue, hcoin]
      omega

end XCoin.Validation
