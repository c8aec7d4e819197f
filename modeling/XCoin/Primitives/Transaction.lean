import XCoin.Lib.Bytes
import XCoin.Consensus.Params

/-!
# Transactions and blocks

The data of `primitives/transaction.h` and `primitives/block.h` with their
serialization.  Amounts are signed 64-bit values in the source and integers
here; the serialization writes them modulo `2 ^ 64`.  Transaction and block
hashes are not computed: they are parameters of the functions that need them.
-/

namespace XCoin

open Consensus

/-- The output `n` of the transaction with this id. -/
structure OutPoint where
  hash : Uint256
  n : UInt32
deriving DecidableEq, Repr

namespace OutPoint

/-- `NULL_INDEX`. -/
def nullIndex : UInt32 := 0xffffffff

/-- `IsNull`. -/
def isNull (outpoint : OutPoint) : Bool :=
  outpoint.hash == 0#256 && outpoint.n == nullIndex

end OutPoint

/-- `CTxIn`. -/
structure TxIn where
  prevout : OutPoint
  scriptSig : Bytes
  nSequence : UInt32
  scriptWitness : List Bytes
deriving DecidableEq, Repr

/-- `CTxOut`. -/
structure TxOut where
  nValue : ℤ
  scriptPubKey : Bytes
deriving DecidableEq, Repr

/-- `CTransaction`. -/
structure Transaction where
  version : UInt32
  vin : List TxIn
  vout : List TxOut
  nLockTime : UInt32
deriving DecidableEq, Repr

namespace Transaction

/-- One input, and it spends the null outpoint. -/
def isCoinBase (tx : Transaction) : Bool :=
  match tx.vin with
  | [txin] => txin.prevout.isNull
  | _ => false

/-- `HasWitness`. -/
def hasWitness (tx : Transaction) : Bool :=
  tx.vin.any fun txin => !txin.scriptWitness.isEmpty

end Transaction

/-- `CBlockHeader`. -/
structure BlockHeader where
  nVersion : UInt32
  hashPrevBlock : Uint256
  hashMerkleRoot : Uint256
  nTime : UInt32
  nBits : UInt32
  nNonce : UInt32
deriving DecidableEq, Repr

/-- `CBlock`. -/
structure Block extends BlockHeader where
  vtx : List Transaction
deriving DecidableEq, Repr

/-! ## Serialization -/

/-- `MAX_SIZE`: no count or length that is read is larger. -/
def maxSize : ℕ := 0x02000000

/-- `WriteCompactSize`. -/
def writeCompactSize (n : ℕ) : Bytes :=
  if n < 253 then [UInt8.ofNat n]
  else if n ≤ 0xffff then 253 :: Bytes.ofNatLE 2 n
  else if n ≤ 0xffffffff then 254 :: Bytes.ofNatLE 4 n
  else 255 :: Bytes.ofNatLE 8 n

/-- A vector: its length, then its elements. -/
def serializeVector {α : Type} (serialize : α → Bytes) (items : List α) : Bytes :=
  writeCompactSize items.length ++ items.flatMap serialize

/-- A byte vector, as scripts and stack items are written. -/
def serializeBytes (bytes : Bytes) : Bytes := writeCompactSize bytes.length ++ bytes

theorem length_writeCompactSize_mono {m n : ℕ} (hle : m ≤ n) :
    (writeCompactSize m).length ≤ (writeCompactSize n).length := by
  unfold writeCompactSize
  split_ifs <;> simp [Bytes.length_ofNatLE] <;> omega

theorem length_writeCompactSize_of_lt {n : ℕ} (hlt : n < 253) :
    (writeCompactSize n).length = 1 := by
  rw [writeCompactSize, if_pos hlt]
  rfl

/-- The length of a byte string can be read off the length of its serialization. -/
theorem serializeBytes_inj {a b : Bytes} (hsame : serializeBytes a = serializeBytes b) : a = b := by
  have htotal : (writeCompactSize a.length).length + a.length =
      (writeCompactSize b.length).length + b.length := by
    simpa only [serializeBytes, List.length_append] using congrArg List.length hsame
  have hlength : a.length = b.length := by
    rcases Nat.le_total a.length b.length with hle | hle
    · have := length_writeCompactSize_mono hle
      omega
    · have := length_writeCompactSize_mono hle
      omega
  unfold serializeBytes at hsame
  rw [hlength] at hsame
  exact List.append_cancel_left hsame

/-- A `uint32_t`, little-endian. -/
def serializeUint32 (n : UInt32) : Bytes := Bytes.ofNatLE 4 n.toNat

/-- A `uint256`, little-endian. -/
def serializeUint256 (hash : Uint256) : Bytes := Bytes.ofNatLE 32 hash.toNat

/-- An `int64_t` in two's complement. -/
def serializeInt64 (value : ℤ) : Bytes := Bytes.ofNatLE 8 (value % 2 ^ 64).toNat

/-- `COutPoint`. -/
def serializeOutPoint (outpoint : OutPoint) : Bytes :=
  serializeUint256 outpoint.hash ++ serializeUint32 outpoint.n

/-- `CTxIn`, without its witness. -/
def serializeTxIn (txin : TxIn) : Bytes :=
  serializeOutPoint txin.prevout ++ serializeBytes txin.scriptSig ++ serializeUint32 txin.nSequence

/-- `CTxOut`. -/
def serializeTxOut (txout : TxOut) : Bytes :=
  serializeInt64 txout.nValue ++ serializeBytes txout.scriptPubKey

/-- A witness stack: the vector of its items. -/
def serializeStack (stack : List Bytes) : Bytes := serializeVector serializeBytes stack

theorem sum_length_le_length_serializeStack (stack : List Bytes) :
    (stack.map List.length).sum ≤ (serializeStack stack).length := by
  have hitems : (stack.map List.length).sum ≤ (stack.flatMap serializeBytes).length := by
    rw [List.length_flatMap]
    apply List.sum_le_sum
    intro item _
    simp [serializeBytes]
  rw [serializeStack, serializeVector, List.length_append]
  omega

/-- `SerializeTransaction`, with the extended format when witnesses are allowed
and present. -/
def serializeTransaction (allowWitness : Bool) (tx : Transaction) : Bytes :=
  let flags := allowWitness && tx.hasWitness
  serializeUint32 tx.version ++
    (if flags then writeCompactSize 0 ++ [1] else []) ++
    serializeVector serializeTxIn tx.vin ++
    serializeVector serializeTxOut tx.vout ++
    (if flags then tx.vin.flatMap fun txin => serializeStack txin.scriptWitness else []) ++
    serializeUint32 tx.nLockTime

/-- `CBlockHeader`. -/
def serializeHeader (header : BlockHeader) : Bytes :=
  serializeUint32 header.nVersion ++ serializeUint256 header.hashPrevBlock ++
    serializeUint256 header.hashMerkleRoot ++ serializeUint32 header.nTime ++
    serializeUint32 header.nBits ++ serializeUint32 header.nNonce

/-- `CBlock`. -/
def serializeBlock (allowWitness : Bool) (block : Block) : Bytes :=
  serializeHeader block.toBlockHeader ++ serializeVector (serializeTransaction allowWitness) block.vtx

/-- `WITNESS_SCALE_FACTOR`. -/
def witnessScaleFactor : ℕ := 4

/-- `MAX_BLOCK_WEIGHT`. -/
def maxBlockWeight : ℕ := 64000000

/-- `MAX_BLOCK_SIGOPS_COST`. -/
def maxBlockSigopsCost : ℕ := 1280000

/-- `GetTransactionWeight`: three times the stripped size plus the full size. -/
def getTransactionWeight (tx : Transaction) : ℕ :=
  (serializeTransaction false tx).length * (witnessScaleFactor - 1) +
    (serializeTransaction true tx).length

/-- `GetBlockWeight`: three times the stripped size plus the full size. -/
def getBlockWeight (block : Block) : ℕ :=
  (serializeBlock false block).length * (witnessScaleFactor - 1) +
    (serializeBlock true block).length

end XCoin
