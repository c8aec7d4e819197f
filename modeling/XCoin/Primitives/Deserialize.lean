import XCoin.Lib.Reader
import XCoin.Primitives.Transaction

/-!
# Reading transactions and blocks

The readers of `serialize.h`, `primitives/transaction.h` and `primitives/block.h`, with their
canonical-size and range checks.  A reader gives back what the serialization wrote, for all
data that the format can carry (`Transaction.Fits`): counts and lengths within `MAX_SIZE`,
amounts that are signed 64-bit values, at least one input.
-/

namespace XCoin

open Consensus Reader

/-- A little-endian number of `width` bytes. -/
def readNatLE (width : ℕ) : Reader UInt8 ℕ := do
  let bytes ← Reader.take width
  return Bytes.toNatLE bytes

/-- The number after the first byte of a compact size, which must not fit a shorter form. -/
def readLongSize (width least : ℕ) : Reader UInt8 ℕ := do
  let size ← readNatLE width
  check (least ≤ size)
  return size

/-- `ReadCompactSize` before its range check. -/
def readAnySize : Reader UInt8 ℕ := do
  let chSize ← readNatLE 1
  if chSize < 253 then return chSize
  else if chSize = 253 then readLongSize 2 253
  else if chSize = 254 then readLongSize 4 0x10000
  else readLongSize 8 0x100000000

/-- `ReadCompactSize`. -/
def readCompactSize : Reader UInt8 ℕ := do
  let size ← readAnySize
  check (size ≤ maxSize)
  return size

/-- A vector with its length in front. -/
def readVector {α : Type} (item : Reader UInt8 α) : Reader UInt8 (List α) := do
  let size ← readCompactSize
  many item size

/-- A byte vector, read at once. -/
def readByteVector : Reader UInt8 Bytes := do
  let size ← readCompactSize
  Reader.take size

/-- A `uint32_t`. -/
def readUint32 : Reader UInt8 UInt32 := do
  let n ← readNatLE 4
  return UInt32.ofNat n

/-- A `uint256`. -/
def readUint256 : Reader UInt8 Uint256 := do
  let n ← readNatLE 32
  return BitVec.ofNat 256 n

/-- The signed value of 64 bits. -/
def signed64 (n : ℕ) : ℤ := if n < 2 ^ 63 then n else (n : ℤ) - 2 ^ 64

/-- An `int64_t`. -/
def readInt64 : Reader UInt8 ℤ := do
  let n ← readNatLE 8
  return signed64 n

/-- `COutPoint`. -/
def readOutPoint : Reader UInt8 OutPoint := do
  let hash ← readUint256
  let n ← readUint32
  return ⟨hash, n⟩

/-- An input; its witness comes later. -/
def readTxIn : Reader UInt8 TxIn := do
  let prevout ← readOutPoint
  let scriptSig ← readByteVector
  let nSequence ← readUint32
  return ⟨prevout, scriptSig, nSequence, []⟩

/-- `CTxOut`. -/
def readTxOut : Reader UInt8 TxOut := do
  let nValue ← readInt64
  let scriptPubKey ← readByteVector
  return ⟨nValue, scriptPubKey⟩

/-- A witness stack. -/
def readStack : Reader UInt8 (List Bytes) := readVector readByteVector

/-- Flags, inputs and outputs.  An empty input list where witnesses are allowed is the dummy of the
extended format, and a flags byte follows. -/
def readInsAndOuts (allowWitness : Bool) : Reader UInt8 (ℕ × List TxIn × List TxOut) := do
  let vin ← readVector readTxIn
  if vin.isEmpty && allowWitness then
    let flags ← readNatLE 1
    if flags = 0 then return (0, [], [])
    else
      let vin ← readVector readTxIn
      let vout ← readVector readTxOut
      return (flags, vin, vout)
  else
    let vout ← readVector readTxOut
    return (0, vin, vout)

/-- The witnesses of the inputs, one stack each. -/
def withWitnesses (vin : List TxIn) (witnesses : List (List Bytes)) : List TxIn :=
  vin.zipWith (fun txin stack => { txin with scriptWitness := stack }) witnesses

/-- The witnesses, if the flag is set; a record without any witness is refused. -/
def readWitnesses (allowWitness : Bool) (flags : ℕ) (vin : List TxIn) :
    Reader UInt8 (ℕ × List TxIn) :=
  if flags % 2 = 1 ∧ allowWitness = true then do
    let witnesses ← many readStack vin.length
    check ((withWitnesses vin witnesses).any fun txin => !txin.scriptWitness.isEmpty)
    return (flags - 1, withWitnesses vin witnesses)
  else return (flags, vin)

/-- `UnserializeTransaction`. -/
def readTransaction (allowWitness : Bool) : Reader UInt8 Transaction := do
  let version ← readUint32
  let (flags, vin, vout) ← readInsAndOuts allowWitness
  let (flags, vin) ← readWitnesses allowWitness flags vin
  check (flags = 0)
  let nLockTime ← readUint32
  return ⟨version, vin, vout, nLockTime⟩

/-- `CBlockHeader`. -/
def readHeader : Reader UInt8 BlockHeader := do
  let nVersion ← readUint32
  let hashPrevBlock ← readUint256
  let hashMerkleRoot ← readUint256
  let nTime ← readUint32
  let nBits ← readUint32
  let nNonce ← readUint32
  return ⟨nVersion, hashPrevBlock, hashMerkleRoot, nTime, nBits, nNonce⟩

/-- `CBlock`, with witnesses. -/
def readBlock : Reader UInt8 Block := do
  let header ← readHeader
  let vtx ← readVector (readTransaction true)
  return ⟨header, vtx⟩

/-! ## Numbers -/

theorem readsAs_natLE {width n : ℕ} (hfits : n < 256 ^ width) :
    ReadsAs (readNatLE width) (Bytes.ofNatLE width n) n := by
  have hread : ReadsAs (readNatLE width) (Bytes.ofNatLE width n)
      (Bytes.toNatLE (Bytes.ofNatLE width n)) :=
    (readsAs_take (Bytes.length_ofNatLE width n)).map
  rwa [Bytes.toNatLE_ofNatLE hfits] at hread

theorem readsAs_uint32 (n : UInt32) : ReadsAs readUint32 (serializeUint32 n) n := by
  have hfits : n.toNat < 256 ^ 4 := n.toNat_lt
  have hread : ReadsAs readUint32 (serializeUint32 n) (UInt32.ofNat n.toNat) :=
    (readsAs_natLE hfits).map
  rwa [UInt32.ofNat_toNat] at hread

theorem serializeUint32_inj {n m : UInt32} (h : serializeUint32 n = serializeUint32 m) : n = m :=
  (readsAs_uint32 n).unique (h ▸ readsAs_uint32 m)

@[simp] theorem length_serializeUint32 (n : UInt32) : (serializeUint32 n).length = 4 :=
  Bytes.length_ofNatLE 4 _

theorem readsAs_uint256 (hash : Uint256) : ReadsAs readUint256 (serializeUint256 hash) hash := by
  have hfits : hash.toNat < 256 ^ 32 := lt_of_lt_of_eq hash.isLt (by norm_num)
  have hread : ReadsAs readUint256 (serializeUint256 hash) (BitVec.ofNat 256 hash.toNat) :=
    (readsAs_natLE hfits).map
  rwa [BitVec.ofNat_toNat, BitVec.setWidth_eq] at hread

theorem signed64_mod {value : ℤ} (hlow : -2 ^ 63 ≤ value) (hhigh : value < 2 ^ 63) :
    signed64 (value % 2 ^ 64).toNat = value := by
  unfold signed64
  split_ifs with hsmall
  · omega
  · omega

theorem readsAs_int64 {value : ℤ} (hlow : -2 ^ 63 ≤ value) (hhigh : value < 2 ^ 63) :
    ReadsAs readInt64 (serializeInt64 value) value := by
  have hfits : (value % 2 ^ 64).toNat < 256 ^ 8 := by
    have hmod : value % 2 ^ 64 < 2 ^ 64 := Int.emod_lt_of_pos _ (by decide)
    omega
  have hread : ReadsAs readInt64 (serializeInt64 value) (signed64 (value % 2 ^ 64).toNat) :=
    (readsAs_natLE hfits).map
  rwa [signed64_mod hlow hhigh] at hread

theorem readsAs_longSize {width least n : ℕ} (hleast : least ≤ n) (hfits : n < 256 ^ width) :
    ReadsAs (readLongSize width least) (Bytes.ofNatLE width n) n := by
  have hcheck : ReadsAs (check (least ≤ n) >>= fun _ => pure n : Reader UInt8 ℕ) [] n :=
    ReadsAs.check_bind hleast (readsAs_pure n)
  have hread : ReadsAs (readLongSize width least) (Bytes.ofNatLE width n ++ []) n :=
    ReadsAs.bind (readsAs_natLE hfits) hcheck
  rwa [List.append_nil] at hread

/-- Every size is written in its shortest form, which is what the reader accepts. -/
theorem readsAs_anySize {n : ℕ} (hn : n < 2 ^ 64) : ReadsAs readAnySize (writeCompactSize n) n := by
  have hone (byte : ℕ) (hbyte : byte < 256) : ReadsAs (readNatLE 1) [UInt8.ofNat byte] byte :=
    @readsAs_natLE 1 byte hbyte
  unfold writeCompactSize readAnySize
  split_ifs with h1 h2 h4
  · have hnext : ReadsAs (if n < 253 then pure n else if n = 253 then readLongSize 2 253
        else if n = 254 then readLongSize 4 0x10000 else readLongSize 8 0x100000000) [] n := by
      rw [if_pos h1]
      exact readsAs_pure n
    exact (hone n (by omega)).bind hnext
  · exact (hone 253 (by decide)).bind (readsAs_longSize (by omega) (by omega))
  · exact (hone 254 (by decide)).bind (readsAs_longSize (by omega) (by omega))
  · exact (hone 255 (by decide)).bind (readsAs_longSize (by omega) (by omega))

theorem readsAs_compactSize {n : ℕ} (hn : n ≤ maxSize) :
    ReadsAs readCompactSize (writeCompactSize n) n := by
  have hsmall : n < 2 ^ 64 := lt_of_le_of_lt hn (by decide)
  have hcheck : ReadsAs (check (n ≤ maxSize) >>= fun _ => pure n : Reader UInt8 ℕ) [] n :=
    ReadsAs.check_bind hn (readsAs_pure n)
  have hread : ReadsAs readCompactSize (writeCompactSize n ++ []) n :=
    ReadsAs.bind (readsAs_anySize hsmall) hcheck
  rwa [List.append_nil] at hread

theorem refuses_compactSize {n : ℕ} (hlow : maxSize < n) (hhigh : n < 2 ^ 64) :
    Refuses readCompactSize (writeCompactSize n) := by
  have hread : Refuses readCompactSize (writeCompactSize n ++ []) :=
    (readsAs_anySize hhigh).refuses (refuses_check_bind (not_le.mpr hlow))
  rwa [List.append_nil] at hread

/-! ## Vectors -/

theorem readsAs_vector {α β : Type} {item : Reader UInt8 β} {write : α → Bytes} {f : α → β}
    {items : List α} (hlength : items.length ≤ maxSize)
    (hitems : ∀ x ∈ items, ReadsAs item (write x) (f x)) :
    ReadsAs (readVector item) (serializeVector write items) (items.map f) :=
  (readsAs_compactSize hlength).bind (readsAs_many hitems)

theorem readsAs_byteVector {bytes : Bytes} (hlength : bytes.length ≤ maxSize) :
    ReadsAs readByteVector (serializeBytes bytes) bytes :=
  (readsAs_compactSize hlength).bind (readsAs_take rfl)

theorem readsAs_stack {stack : List Bytes} (hlength : stack.length ≤ maxSize)
    (hitems : ∀ item ∈ stack, item.length ≤ maxSize) :
    ReadsAs readStack (serializeStack stack) stack := by
  have hread := readsAs_vector hlength fun item hitem => readsAs_byteVector (hitems item hitem)
  rwa [List.map_id'] at hread

/-! ## Transactions -/

/-- What the format can carry of an input. -/
structure TxIn.Fits (txin : TxIn) : Prop where
  scriptSig : txin.scriptSig.length ≤ maxSize
  witness : txin.scriptWitness.length ≤ maxSize
  items : ∀ item ∈ txin.scriptWitness, item.length ≤ maxSize

/-- What the format can carry of an output. -/
structure TxOut.Fits (txout : TxOut) : Prop where
  low : -2 ^ 63 ≤ txout.nValue
  high : txout.nValue < 2 ^ 63
  script : txout.scriptPubKey.length ≤ maxSize

/-- What the format can carry of a transaction. -/
structure Transaction.Fits (tx : Transaction) : Prop where
  vin_ne_nil : tx.vin ≠ []
  vin_length : tx.vin.length ≤ maxSize
  vout_length : tx.vout.length ≤ maxSize
  vin : ∀ txin ∈ tx.vin, txin.Fits
  vout : ∀ txout ∈ tx.vout, txout.Fits

/-- An input without its witness. -/
def TxIn.bare (txin : TxIn) : TxIn := { txin with scriptWitness := [] }

theorem readsAs_outPoint (outpoint : OutPoint) :
    ReadsAs readOutPoint (serializeOutPoint outpoint) outpoint :=
  (readsAs_uint256 outpoint.hash).bind (readsAs_uint32 outpoint.n).map

theorem readsAs_txIn {txin : TxIn} (hfits : txin.Fits) :
    ReadsAs readTxIn (serializeTxIn txin) txin.bare := by
  rw [serializeTxIn, List.append_assoc]
  exact (readsAs_outPoint txin.prevout).bind
    ((readsAs_byteVector hfits.scriptSig).bind (readsAs_uint32 txin.nSequence).map)

theorem readsAs_txOut {txout : TxOut} (hfits : txout.Fits) :
    ReadsAs readTxOut (serializeTxOut txout) txout :=
  (readsAs_int64 hfits.low hfits.high).bind (readsAs_byteVector hfits.script).map

section Transactions

variable {tx : Transaction}

theorem readsAs_vin (hfits : tx.Fits) :
    ReadsAs (readVector readTxIn) (serializeVector serializeTxIn tx.vin) (tx.vin.map TxIn.bare) :=
  readsAs_vector hfits.vin_length fun txin htxin => readsAs_txIn (hfits.vin txin htxin)

theorem readsAs_vout (hfits : tx.Fits) :
    ReadsAs (readVector readTxOut) (serializeVector serializeTxOut tx.vout) tx.vout := by
  have hread := readsAs_vector hfits.vout_length fun txout htxout =>
    readsAs_txOut (hfits.vout txout htxout)
  rwa [List.map_id'] at hread

theorem map_bare_of_noWitness (hnone : tx.hasWitness = false) : tx.vin.map TxIn.bare = tx.vin := by
  have hbare : ∀ txin ∈ tx.vin, txin.bare = txin := by
    intro txin htxin
    have hempty : txin.scriptWitness = [] := by
      have hall : ∀ other ∈ tx.vin, other.scriptWitness = [] := by
        simpa [Transaction.hasWitness] using hnone
      exact hall txin htxin
    rw [TxIn.bare, ← hempty]
  calc tx.vin.map TxIn.bare = tx.vin.map id := List.map_congr_left hbare
    _ = tx.vin := List.map_id _

theorem withWitnesses_bare (vin : List TxIn) :
    withWitnesses (vin.map TxIn.bare) (vin.map TxIn.scriptWitness) = vin := by
  induction vin with
  | nil => rfl
  | cons txin rest ih =>
    rw [List.map_cons, List.map_cons, withWitnesses, List.zipWith_cons_cons]
    exact congrArg (txin :: ·) ih

theorem readsAs_transaction_bare (hfits : tx.Fits) (hnone : tx.hasWitness = false) :
    ReadsAs (readTransaction true) (serializeTransaction true tx) tx := by
  have hvin := readsAs_vin hfits
  rw [map_bare_of_noWitness hnone] at hvin
  have hnonempty : (tx.vin.isEmpty && true) = false := by simpa using hfits.vin_ne_nil
  have hboth : ReadsAs (readInsAndOuts true)
      (serializeVector serializeTxIn tx.vin ++ serializeVector serializeTxOut tx.vout)
      (0, tx.vin, tx.vout) := by
    refine hvin.bind ?_
    rw [hnonempty]
    exact (readsAs_vout hfits).map
  have hwitnesses : ReadsAs (readWitnesses true 0 tx.vin) [] (0, tx.vin) := by
    rw [readWitnesses, if_neg (by decide)]
    exact readsAs_pure _
  have hbytes : serializeTransaction true tx = serializeUint32 tx.version ++
      ((serializeVector serializeTxIn tx.vin ++ serializeVector serializeTxOut tx.vout) ++
        ([] ++ serializeUint32 tx.nLockTime)) := by
    simp [serializeTransaction, hnone]
  rw [hbytes]
  exact (readsAs_uint32 tx.version).bind (hboth.bind (hwitnesses.bind
    (ReadsAs.check_bind rfl (readsAs_uint32 tx.nLockTime).map)))

theorem readsAs_transaction_witness (hfits : tx.Fits) (hsome : tx.hasWitness = true) :
    ReadsAs (readTransaction true) (serializeTransaction true tx) tx := by
  have hdummy : ReadsAs (readVector readTxIn) [0] [] :=
    @readsAs_vector _ _ readTxIn serializeTxIn TxIn.bare [] (Nat.zero_le _) nofun
  have hflags : ReadsAs (readNatLE 1) [1] 1 := @readsAs_natLE 1 1 (by decide)
  have hboth : ReadsAs (readInsAndOuts true)
      ([0] ++ ([1] ++ (serializeVector serializeTxIn tx.vin ++
        serializeVector serializeTxOut tx.vout))) (1, tx.vin.map TxIn.bare, tx.vout) :=
    hdummy.bind (hflags.bind ((readsAs_vin hfits).bind (readsAs_vout hfits).map))
  have hstacks : ReadsAs (many readStack (tx.vin.map TxIn.bare).length)
      (tx.vin.flatMap fun txin => serializeStack txin.scriptWitness)
      (tx.vin.map TxIn.scriptWitness) := by
    rw [List.length_map]
    exact readsAs_many fun txin htxin =>
      readsAs_stack (hfits.vin txin htxin).witness (hfits.vin txin htxin).items
  have hwitnesses : ReadsAs (readWitnesses true 1 (tx.vin.map TxIn.bare))
      (tx.vin.flatMap fun txin => serializeStack txin.scriptWitness) (0, tx.vin) := by
    rw [readWitnesses, if_pos (by decide)]
    have hcheck : (withWitnesses (tx.vin.map TxIn.bare) (tx.vin.map TxIn.scriptWitness)).any
        (fun txin => !txin.scriptWitness.isEmpty) = true := by
      rw [withWitnesses_bare]
      exact hsome
    have hread : ReadsAs (many readStack (tx.vin.map TxIn.bare).length >>= fun witnesses =>
        check ((withWitnesses (tx.vin.map TxIn.bare) witnesses).any
          fun txin => !txin.scriptWitness.isEmpty) >>= fun _ =>
        pure (1 - 1, withWitnesses (tx.vin.map TxIn.bare) witnesses))
        ((tx.vin.flatMap fun txin => serializeStack txin.scriptWitness) ++ [])
        (1 - 1, withWitnesses (tx.vin.map TxIn.bare) (tx.vin.map TxIn.scriptWitness)) :=
      hstacks.bind (ReadsAs.check_bind hcheck (readsAs_pure _))
    rwa [List.append_nil, withWitnesses_bare] at hread
  have hbytes : serializeTransaction true tx = serializeUint32 tx.version ++
      (([0] ++ ([1] ++ (serializeVector serializeTxIn tx.vin ++
        serializeVector serializeTxOut tx.vout))) ++
        ((tx.vin.flatMap fun txin => serializeStack txin.scriptWitness) ++
          serializeUint32 tx.nLockTime)) := by
    simp [serializeTransaction, hsome, writeCompactSize]
  rw [hbytes]
  exact (readsAs_uint32 tx.version).bind (hboth.bind (hwitnesses.bind
    (ReadsAs.check_bind rfl (readsAs_uint32 tx.nLockTime).map)))

/-- **Transactions are read back.** -/
theorem readsAs_transaction (hfits : tx.Fits) :
    ReadsAs (readTransaction true) (serializeTransaction true tx) tx := by
  cases hwitness : tx.hasWitness with
  | false => exact readsAs_transaction_bare hfits hwitness
  | true => exact readsAs_transaction_witness hfits hwitness

theorem refuses_transaction (hvin : ReadsAs (readVector readTxIn)
    (serializeVector serializeTxIn tx.vin) tx.vin) (hne : tx.vin ≠ [])
    (hmany : maxSize < tx.vout.length) (hcount : tx.vout.length < 2 ^ 64) :
    Refuses (readTransaction true) (serializeTransaction false tx) := by
  have hnonempty : (tx.vin.isEmpty && true) = false := by simpa using hne
  have hvout : Refuses (readVector readTxOut) (serializeVector serializeTxOut tx.vout) :=
    (refuses_compactSize hmany hcount).bind _ _
  have hboth : Refuses (readInsAndOuts true)
      (serializeVector serializeTxIn tx.vin ++ (serializeVector serializeTxOut tx.vout ++ [])) := by
    refine hvin.refuses ?_
    rw [hnonempty]
    exact hvout.bind _ _
  have hbytes : serializeTransaction false tx = serializeUint32 tx.version ++
      ((serializeVector serializeTxIn tx.vin ++ (serializeVector serializeTxOut tx.vout ++ [])) ++
        serializeUint32 tx.nLockTime) := by
    simp [serializeTransaction]
  rw [hbytes]
  exact (readsAs_uint32 tx.version).refuses (hboth.bind _ _)

end Transactions

/-! ## Blocks -/

theorem readsAs_header (header : BlockHeader) :
    ReadsAs readHeader (serializeHeader header) header := by
  rw [serializeHeader]
  simp only [List.append_assoc]
  exact (readsAs_uint32 header.nVersion).bind ((readsAs_uint256 header.hashPrevBlock).bind
    ((readsAs_uint256 header.hashMerkleRoot).bind ((readsAs_uint32 header.nTime).bind
      ((readsAs_uint32 header.nBits).bind (readsAs_uint32 header.nNonce).map))))

/-- **Blocks are read back.** -/
theorem readsAs_block {block : Block} (hcount : block.vtx.length ≤ maxSize)
    (hfits : ∀ tx ∈ block.vtx, tx.Fits) :
    ReadsAs readBlock (serializeBlock true block) block := by
  have hvtx := readsAs_vector hcount fun tx htx => readsAs_transaction (hfits tx htx)
  rw [List.map_id'] at hvtx
  exact (readsAs_header block.toBlockHeader).bind hvtx.map

end XCoin
