import XCoin.Lib.FinmapEntries
import XCoin.Lib.FinmapWeight
import XCoin.Primitives.Transaction
import XCoin.Script.Solver

/-!
# The index of the explorer

`refresh_index` asks the node for every block from the last indexed height on and keeps the
unspent outputs (`UTXO`), the balances (`BAL`) and what is shown of a transaction.  It goes by
heights alone.

A call consists of the answers of the node, one after another, and the active chain may change
between any two of them.  The lock admits one call at a time.  An answer that fails ends the call
where it stands.

Hashes and the text of addresses are parameters; a key `txid:n` is the pair.  The lists that only
feed the pages (`ADDRIDX`, `SERIES`, `MINERS`) are left out.
-/

namespace XCoin.Explorer

open Consensus Script

variable {α : Type}

/-! ## What the node answers -/

/-- The `scriptPubKey` of an output: the address if the node prints one, the script, and whether
the type is `nulldata`. -/
structure ScriptPubKey (α : Type) where
  address : Option α
  hex : Bytes
  nulldata : Bool

/-- An output, its value in satoshis. -/
structure Vout (α : Type) where
  value : ℤ
  scriptPubKey : ScriptPubKey α

/-- An input in the node's JSON answer. -/
inductive Vin (α : Type) where
  | coinbase
  | spend (txid : Uint256) (vout : ℕ) (prevout : Option (Vout α))

/-- A transaction in the node's JSON answer. -/
structure Tx (α : Type) where
  txid : Uint256
  vin : List (Vin α)
  vout : List (Vout α)

/-- Hashes and addresses: the node's ids, the address it prints for a script, and the explorer's
own `bech32m_encode` of a witness version and program. -/
structure Names (α : Type) where
  txid : Transaction → Uint256
  blockHash : Block → Uint256
  destination : Bytes → Option α
  bech32mEncode : ℕ → Bytes → α

/-- `ScriptToUniv`. -/
def scriptToUniv (names : Names α) (script : Bytes) : ScriptPubKey α :=
  ⟨names.destination script, script, decide (solver script = .nullData)⟩

/-- An input at verbosity 2, which leaves `prevout` out. -/
def inputToUniv (tx : Transaction) (txin : TxIn) : Vin α :=
  if tx.isCoinBase then .coinbase else .spend txin.prevout.hash txin.prevout.n.toNat none

/-- An element of `vout`, as `TxToUniv` writes it. -/
def outputToUniv (names : Names α) (txout : TxOut) : Vout α :=
  ⟨txout.nValue, scriptToUniv names txout.scriptPubKey⟩

/-- `TxToUniv`. -/
def txToUniv (names : Names α) (tx : Transaction) : Tx α :=
  ⟨names.txid tx, tx.vin.map (inputToUniv tx), tx.vout.map (outputToUniv names)⟩

/-! ## Outputs -/

/-- `address_from_spk_hex`. -/
def addressFromSpkHex (names : Names α) (raw : Bytes) : Option α :=
  if raw.length ≠ 34 ∨ byteAt raw 1 ≠ 0x20 then none
  else if byteAt raw 0 = 0x50 + 2 then some (names.bech32mEncode 2 (raw.drop 2))
  else if byteAt raw 0 = 0x50 + 3 then some (names.bech32mEncode 3 (raw.drop 2))
  else none

/-- The node's address, else the one decoded from the script. -/
def outAddress (names : Names α) (out : Vout α) : Option α :=
  match out.scriptPubKey.address with
  | some address => some address
  | none => addressFromSpkHex names out.scriptPubKey.hex

/-- `settlement_levy`. -/
def settlementLevy (bp outSats : ℤ) : ℤ :=
  if bp ≤ 0 ∨ outSats ≤ 0 then 0
  else outSats / 10000 * bp + (outSats % 10000 * bp + 10000 - 1) / 10000

/-! ## Unspent outputs and balances -/

/-- `UTXO` and `BAL`. -/
structure Coins (α : Type) where
  utxo : Finmap fun _ : Uint256 × ℕ => Option α × ℤ
  bal : Finmap fun _ : α => ℤ

variable [DecidableEq α]

/-- A balance that is used up is dropped. -/
def debit (bal : Finmap fun _ : α => ℤ) (address : α) (sats : ℤ) : Finmap fun _ : α => ℤ :=
  if (bal.lookup address).getD 0 - sats ≤ 0 then bal.erase address
  else bal.insert address ((bal.lookup address).getD 0 - sats)

/-- Adds `sats` to the balance of an address. -/
def credit (bal : Finmap fun _ : α => ℤ) (address : α) (sats : ℤ) : Finmap fun _ : α => ℤ :=
  bal.insert address ((bal.lookup address).getD 0 + sats)

/-- Where the input loop stands. -/
structure Spending (α : Type) where
  coins : Coins α
  inSats : ℤ := 0
  inKnown : Bool := true

/-- The value of a known previous output leaves its address. -/
def Spending.take (spending : Spending α) (prev : Option α × ℤ) : Spending α where
  coins :=
    { spending.coins with
      bal := match prev.1 with
        | none => spending.coins.bal
        | some address => debit spending.coins.bal address prev.2 }
  inSats := spending.inSats + prev.2
  inKnown := spending.inKnown

/-- One input: popped from the map, else known from the answer, else not known. -/
def spendVin (names : Names α) (spending : Spending α) : Vin α → Spending α
  | .coinbase => { spending with inKnown := false }
  | .spend txid vout prevout =>
    match spending.coins.utxo.lookup (txid, vout), prevout with
    | some prev, _ =>
      { spending with
        coins.utxo := spending.coins.utxo.erase (txid, vout) }.take prev
    | none, none => { spending with inKnown := false }
    | none, some out => spending.take (outAddress names out, out.value)

/-- One output; nothing is kept of `nulldata` and of outputs without value. -/
def addOutput (names : Names α) (txid : Uint256) (coins : Coins α) (out : Vout α) (n : ℕ) :
    Coins α :=
  if 0 < out.value ∧ out.scriptPubKey.nulldata = false then
    { utxo := coins.utxo.insert (txid, n) (outAddress names out, out.value)
      bal := match outAddress names out with
        | none => coins.bal
        | some address => credit coins.bal address out.value }
  else coins

/-- The output loop from output `n` on. -/
def addOutputs (names : Names α) (txid : Uint256) : List (Vout α) → ℕ → Coins α → Coins α
  | [], _, coins => coins
  | out :: rest, n, coins => addOutputs names txid rest (n + 1) (addOutput names txid coins out n)

/-! ## Transactions and blocks -/

/-- What is kept of a transaction that is no coinbase. -/
structure TxMeta where
  inSats : Option ℤ
  outSats : ℤ
  fee : Option ℤ
  levy : ℤ
deriving DecidableEq, Repr

/-- The tables the explorer keeps. -/
structure Index (α : Type) where
  coins : Coins α
  txidx : Finmap fun _ : Uint256 => Uint256
  txmeta : Finmap fun _ : Uint256 => TxMeta

/-- The explorer's test of the first input. -/
def Tx.isCoinbase (tx : Tx α) : Bool :=
  match tx.vin with
  | .coinbase :: _ => true
  | _ => false

/-- Removes what a transaction spends. -/
def spendTx (names : Names α) (coins : Coins α) (tx : Tx α) : Spending α :=
  if tx.isCoinbase then { coins } else tx.vin.foldl (spendVin names) { coins }

/-- The row kept about a transaction. -/
def txMeta (levyBp : ℤ) (spending : Spending α) (tx : Tx α) : TxMeta :=
  let outSats := (tx.vout.map Vout.value).sum
  { inSats := if spending.inKnown then some spending.inSats else none
    outSats
    fee := if spending.inKnown then some (spending.inSats - outSats) else none
    levy := settlementLevy levyBp outSats }

/-- The body of the loop over a block's transactions. -/
def indexTx (names : Names α) (levyBp : ℤ) (hash : Uint256) (index : Index α) (tx : Tx α) :
    Index α :=
  let spending := spendTx names index.coins tx
  { coins := addOutputs names tx.txid tx.vout 0 spending.coins
    txidx := index.txidx.insert tx.txid hash
    txmeta := if tx.isCoinbase then index.txmeta
      else index.txmeta.insert tx.txid (txMeta levyBp spending tx) }

/-- `index_block`. -/
def indexBlock (names : Names α) (levyBp : ℤ) (index : Index α) (block : Block) : Index α :=
  (block.vtx.map (txToUniv names)).foldl (indexTx names levyBp (names.blockHash block)) index

/-! ## Calls and the active chain -/

/-- A `refresh_index` under way: the height to stop before, the block whose hash was answered, and
whether the chain has stayed as it was when the call began. -/
structure Call where
  stop : ℕ
  pending : Option Block := none
  steady : Bool := true

/-- The node's active chain from block 0 on and the explorer's state.  `next` is `LAST_IDX + 1`, and
`settled` says that a call has just run to the tip of a chain that did not change meanwhile. -/
structure State (α : Type) where
  chain : List Block
  index : Index α
  next : ℕ
  call : Option Call
  settled : Bool

/-- The state of an explorer that starts beside a node with this chain. -/
def State.start (chain : List Block) : State α :=
  { chain, index := ⟨⟨∅, ∅⟩, ∅, ∅⟩, next := 0, call := none, settled := false }

/-- What can happen to the node and to the explorer. -/
inductive Event where
  /-- the active chain becomes another one -/
  | change (chain : List Block)
  /-- the node answers `getblockcount`, or fails to -/
  | getBlockCount (answers : Bool)
  | getBlockHash (answers : Bool)
  | getBlock (answers : Bool)

/-- The head of the loop over heights. -/
def State.loop (state : State α) (call : Call) : State α :=
  if call.stop ≤ state.next then { state with call := none, settled := call.steady }
  else { state with call := some call, settled := false }

/-- A call that ends before the tip. -/
def State.break (state : State α) : State α := { state with call := none, settled := false }

/-- One event. -/
def State.step (names : Names α) (levyBp : ℤ) (state : State α) : Event → State α
  | .change chain =>
    { state with
      chain
      call := state.call.map fun call => { call with steady := false }
      settled := false }
  | .getBlockCount answers =>
    match state.call with
    | some _ => state
    | none => if answers then state.loop { stop := state.chain.length } else state.break
  | .getBlockHash answers =>
    match state.call with
    | some ⟨stop, none, steady⟩ =>
      match if answers then state.chain[state.next]? else none with
      | none => state.break
      | some block => { state with call := some ⟨stop, some block, steady⟩ }
    | _ => state
  | .getBlock answers =>
    match state.call with
    | some ⟨stop, some block, steady⟩ =>
      if answers then
        { state with
          index := indexBlock names levyBp state.index block
          next := state.next + 1 }.loop ⟨stop, none, steady⟩
      else state.break
    | _ => state

/-- A run of events. -/
def State.run (names : Names α) (levyBp : ℤ) (state : State α) (events : List Event) : State α :=
  events.foldl (State.step names levyBp) state

end XCoin.Explorer
