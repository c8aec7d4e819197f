import XCoin.Primitives.Deserialize
import XCoin.Script.LeafSpend

/-!
# What the hashed messages commit to

Two messages are built from a transaction: the BIP 341 signature message of a v3 leaf and the
message of the default template hash.  Each can be cut back into its parts.

The signature message starts with the hash type, and the hash type with the annex bit of the
spend type says which parts follow:

```text
epoch, hash type, version, lock time
without ANYONECANPAY    digests of prevouts, amounts, scripts, sequences
ALL or DEFAULT          digest of the outputs
spend type
with ANYONECANPAY       prevout, spent output and sequence of this input
without                 its index
with an annex           its digest
SINGLE                  digest of the output at this index
leaf hash, key version, code separator
```

Digests stay what they are here, strings of 32 bytes.  The spent script in the middle is the only
part of variable size, and it carries its length.
-/

namespace XCoin.Script

open Consensus Reader

variable {hashes : HashFunctions} {a b : LeafMessage} {hashType : UInt8}

/-! ## Parts -/

/-- A byte vector of any length that fits the machine. -/
def readAnyBytes : Reader UInt8 Bytes := do
  let size ← readAnySize
  Reader.take size

theorem readsAs_anyBytes {bytes : Bytes} (hlength : bytes.length < 2 ^ 64) :
    ReadsAs readAnyBytes (serializeBytes bytes) bytes :=
  (readsAs_anySize hlength).bind (readsAs_take rfl)

/-- `CTxOut`, its script of any length. -/
def readAnyTxOut : Reader UInt8 TxOut := do
  let nValue ← readInt64
  let scriptPubKey ← readAnyBytes
  return ⟨nValue, scriptPubKey⟩

/-- An output as the source types it. -/
structure TxOut.Typed (txout : TxOut) : Prop where
  low : -2 ^ 63 ≤ txout.nValue
  high : txout.nValue < 2 ^ 63
  script : txout.scriptPubKey.length < 2 ^ 64

theorem TxOut.Typed.readsAs {txout : TxOut} (h : TxOut.Typed txout) :
    ReadsAs readAnyTxOut (serializeTxOut txout) txout :=
  (readsAs_int64 h.low h.high).bind (readsAs_anyBytes h.script).map

theorem ofNatLE_inj {width n m : ℕ} (hn : n < 256 ^ width) (hm : m < 256 ^ width)
    (h : Bytes.ofNatLE width n = Bytes.ofNatLE width m) : n = m := by
  rw [← Bytes.toNatLE_ofNatLE hn, h, Bytes.toNatLE_ofNatLE hm]

theorem serializeBytes_ne_nil (bytes : Bytes) : serializeBytes bytes ≠ [] := by
  unfold serializeBytes writeCompactSize
  split_ifs <;> exact List.append_ne_nil_of_left_ne_nil (List.cons_ne_nil _ _) _

/-! ## The signature message -/

/-- What `Bip341SignatureMessage` is called with for a v3 leaf, as the source types it. -/
structure LeafMessage where
  tx : Transaction
  inPos : ℕ
  hashType : UInt8
  sigversion : SigVersion
  execdata : ExecData
  cache : PrecomputedTransactionData
  leaf : sigversion.isXcoinV3Tapscript = true
  inPos_lt : inPos < 2 ^ 32
  length_tapleafHash : execdata.tapleafHash.length = 32
  length_annexHash : ∀ digest ∈ execdata.annexHash, digest.length = 32
  length_prevouts : cache.prevoutsSingleHash.length = 32
  length_sequences : cache.sequencesSingleHash.length = 32
  length_outputs : cache.outputsSingleHash.length = 32
  length_amounts : cache.spentAmountsSingleHash.length = 32
  length_scripts : cache.spentScriptsSingleHash.length = 32
  spentOutputs : ∀ txout ∈ cache.spentOutputs, TxOut.Typed txout

namespace LeafMessage

/-- The bytes that are hashed, if there are any. -/
def bytes (hashes : HashFunctions) (message : LeafMessage) : Option Bytes :=
  bip341Message hashes message.tx message.inPos message.hashType message.sigversion
    message.execdata message.cache

/-- The key version of a leaf. -/
def keyVersion (message : LeafMessage) : UInt8 :=
  if message.sigversion = .xcoinPqTapscript then 2 else 3

theorem extension_eq (message : LeafMessage) :
    message.sigversion.extension = some (1, some message.keyVersion) := by
  have hleaf := message.leaf
  unfold keyVersion
  cases hversion : message.sigversion with
  | xcoinPqTapscript => rfl
  | xcoinSlhTapscript => rfl
  | base => rw [hversion] at hleaf; cases hleaf
  | witnessV0 => rw [hversion] at hleaf; cases hleaf
  | taproot => rw [hversion] at hleaf; cases hleaf
  | tapscript => rw [hversion] at hleaf; cases hleaf

theorem sigversion_eq_of_keyVersion (h : a.keyVersion = b.keyVersion) :
    a.sigversion = b.sigversion := by
  have hextension : a.sigversion.extension = b.sigversion.extension := by
    rw [a.extension_eq, b.extension_eq, h]
  have ha := a.leaf
  have hb := b.leaf
  cases hleft : a.sigversion <;> cases hright : b.sigversion <;>
    simp_all [SigVersion.isXcoinV3Tapscript, SigVersion.extension]

/-- What two messages with the same bytes have in common: the parts that their hash type commits
to.  Digests are compared, not what they are digests of. -/
structure SameCommitment (hashes : HashFunctions) (a b : LeafMessage) : Prop where
  hashType : a.hashType = b.hashType
  version : a.tx.version = b.tx.version
  nLockTime : a.tx.nLockTime = b.tx.nLockTime
  sigversion : a.sigversion = b.sigversion
  keyVersion : a.keyVersion = b.keyVersion
  tapleafHash : a.execdata.tapleafHash = b.execdata.tapleafHash
  codeseparatorPos : a.execdata.codeseparatorPos = b.execdata.codeseparatorPos
  annexHash : a.execdata.annexHash = b.execdata.annexHash
  allInputs : inputType a.hashType ≠ sighashAnyonecanpay →
    a.cache.prevoutsSingleHash = b.cache.prevoutsSingleHash ∧
      a.cache.spentAmountsSingleHash = b.cache.spentAmountsSingleHash ∧
      a.cache.spentScriptsSingleHash = b.cache.spentScriptsSingleHash ∧
      a.cache.sequencesSingleHash = b.cache.sequencesSingleHash ∧ a.inPos = b.inPos
  thisInput : inputType a.hashType = sighashAnyonecanpay →
    ∃ txin txin' spent, a.tx.vin[a.inPos]? = some txin ∧ b.tx.vin[b.inPos]? = some txin' ∧
      txin.prevout = txin'.prevout ∧ txin.nSequence = txin'.nSequence ∧
      a.cache.spentOutputs[a.inPos]? = some spent ∧ b.cache.spentOutputs[b.inPos]? = some spent
  allOutputs : outputType a.hashType = sighashAll →
    a.cache.outputsSingleHash = b.cache.outputsSingleHash
  singleOutput : outputType a.hashType = sighashSingle →
    ∃ txout txout', a.tx.vout[a.inPos]? = some txout ∧ b.tx.vout[b.inPos]? = some txout' ∧
      hashes.sha256 (serializeTxOut txout) = hashes.sha256 (serializeTxOut txout')

/-! ### The parts one by one -/

theorem bytes_eq_some {message : LeafMessage} {data : Bytes}
    (h : message.bytes hashes = some data) :
    ∃ txin spent single, message.tx.vin[message.inPos]? = some txin ∧
      message.cache.spentOutputs[message.inPos]? = some spent ∧
      messageSingleOutput hashes message.tx message.inPos message.hashType = some single ∧
      data = [0] ++ ([message.hashType] ++ (serializeUint32 message.tx.version ++
        (serializeUint32 message.tx.nLockTime ++ (messageInputs message.cache message.hashType ++
        ((if outputType message.hashType = sighashAll then message.cache.outputsSingleHash
          else []) ++
        ([2 + (if message.execdata.annexHash.isSome then 1 else 0)] ++
        (messageThisInput txin spent message.inPos message.hashType ++
        (message.execdata.annexHash.getD [] ++ (single ++ (message.execdata.tapleafHash ++
        ([message.keyVersion] ++ serializeUint32 message.execdata.codeseparatorPos))))))))))) := by
  unfold LeafMessage.bytes bip341Message at h
  rw [message.extension_eq] at h
  simp only [Option.bind_eq_bind, Option.bind_some] at h
  obtain ⟨txin, htxin, h⟩ := Option.bind_eq_some_iff.mp h
  split at h
  · cases h
  split at h
  · cases h
  obtain ⟨spent, hspent, h⟩ := Option.bind_eq_some_iff.mp h
  obtain ⟨single, hsingle, h⟩ := Option.bind_eq_some_iff.mp h
  refine ⟨txin, spent, single, htxin, hspent, hsingle, ?_⟩
  rw [← Option.some.inj h]
  simp only [messageLeaf, List.append_assoc]
  rfl

theorem length_messageInputs (message : LeafMessage) :
    (messageInputs message.cache message.hashType).length =
      if inputType message.hashType = sighashAnyonecanpay then 0 else 128 := by
  unfold messageInputs
  split_ifs
  · rfl
  · simp only [List.length_append, message.length_prevouts, message.length_amounts,
      message.length_scripts, message.length_sequences]

theorem messageInputs_inj (hhashType : a.hashType = b.hashType)
    (hsame : messageInputs a.cache a.hashType = messageInputs b.cache b.hashType)
    (hall : inputType a.hashType ≠ sighashAnyonecanpay) :
    a.cache.prevoutsSingleHash = b.cache.prevoutsSingleHash ∧
      a.cache.spentAmountsSingleHash = b.cache.spentAmountsSingleHash ∧
      a.cache.spentScriptsSingleHash = b.cache.spentScriptsSingleHash ∧
      a.cache.sequencesSingleHash = b.cache.sequencesSingleHash := by
  unfold messageInputs at hsame
  rw [← hhashType, if_neg hall, if_neg hall] at hsame
  simp only [List.append_assoc] at hsame
  obtain ⟨hprevouts, hsame⟩ :=
    List.append_inj hsame (a.length_prevouts.trans b.length_prevouts.symm)
  obtain ⟨hamounts, hsame⟩ := List.append_inj hsame (a.length_amounts.trans b.length_amounts.symm)
  obtain ⟨hscripts, hsequences⟩ :=
    List.append_inj hsame (a.length_scripts.trans b.length_scripts.symm)
  exact ⟨hprevouts, hamounts, hscripts, hsequences⟩

end LeafMessage

/-- The data about this input is its index or, when anyone can pay, its own data, in which the
spent output says where it ends. -/
theorem messageThisInput_append_inj {txin txin' : TxIn} {spent spent' : TxOut} {inPos inPos' : ℕ}
    {rest rest' : Bytes} (hinPos : inPos < 2 ^ 32) (hinPos' : inPos' < 2 ^ 32)
    (hspent : TxOut.Typed spent) (hspent' : TxOut.Typed spent')
    (hsame : messageThisInput txin spent inPos hashType ++ rest =
      messageThisInput txin' spent' inPos' hashType ++ rest') :
    (inputType hashType ≠ sighashAnyonecanpay → inPos = inPos') ∧
    (inputType hashType = sighashAnyonecanpay →
      txin.prevout = txin'.prevout ∧ spent = spent' ∧ txin.nSequence = txin'.nSequence) ∧
    rest = rest' := by
  unfold messageThisInput at hsame
  by_cases hanyone : inputType hashType = sighashAnyonecanpay
  · rw [if_pos hanyone, if_pos hanyone] at hsame
    simp only [List.append_assoc] at hsame
    obtain ⟨hprevout, hsame⟩ :=
      (readsAs_outPoint txin.prevout).append_inj (readsAs_outPoint txin'.prevout) hsame
    obtain ⟨htxout, hsame⟩ := hspent.readsAs.append_inj hspent'.readsAs hsame
    obtain ⟨hsequence, hrest⟩ :=
      (readsAs_uint32 txin.nSequence).append_inj (readsAs_uint32 txin'.nSequence) hsame
    exact ⟨fun hall => absurd hanyone hall, fun _ => ⟨hprevout, htxout, hsequence⟩, hrest⟩
  · rw [if_neg hanyone, if_neg hanyone] at hsame
    obtain ⟨hindex, hrest⟩ :=
      (@readsAs_natLE 4 inPos hinPos).append_inj (@readsAs_natLE 4 inPos' hinPos') hsame
    exact ⟨fun _ => hindex, fun hcontra => absurd hcontra hanyone, hrest⟩

theorem messageSingleOutput_eq_some {tx : Transaction} {inPos : ℕ} {single : Bytes}
    (h : messageSingleOutput hashes tx inPos hashType = some single) :
    (outputType hashType = sighashSingle ∧ ∃ txout, tx.vout[inPos]? = some txout ∧
      single = hashes.sha256 (serializeTxOut txout)) ∨
    (outputType hashType ≠ sighashSingle ∧ single = []) := by
  unfold messageSingleOutput at h
  split at h
  · next hsingle =>
      split at h
      · cases h
      · next txout htxout =>
          exact Or.inl ⟨hsingle, txout, htxout, (Option.some.inj h).symm⟩
  · next hother => exact Or.inr ⟨hother, (Option.some.inj h).symm⟩

theorem messageSingleOutput_length_eq {tx tx' : Transaction} {inPos inPos' : ℕ}
    {single single' : Bytes} (h : messageSingleOutput hashes tx inPos hashType = some single)
    (h' : messageSingleOutput hashes tx' inPos' hashType = some single') :
    single.length = single'.length := by
  rcases messageSingleOutput_eq_some h with ⟨hsingle, txout, -, rfl⟩ | ⟨hother, rfl⟩
  · rcases messageSingleOutput_eq_some h' with ⟨-, txout', -, rfl⟩ | ⟨hother, -⟩
    · rw [hashes.length_sha256, hashes.length_sha256]
    · exact absurd hsingle hother
  · rcases messageSingleOutput_eq_some h' with ⟨hsingle, -⟩ | ⟨-, rfl⟩
    · exact absurd hsingle hother
    · rfl

theorem annex_presence_inj : ∀ {present present' : Bool},
    [(2 : UInt8) + (if present then 1 else 0)] = [2 + (if present' then 1 else 0)] →
      present = present' := by
  decide

theorem annex_eq_of_getD {annex annex' : Option Bytes} (hpresence : annex.isSome = annex'.isSome)
    (h : annex.getD [] = annex'.getD []) : annex = annex' := by
  cases annex with
  | none =>
    cases annex' with
    | none => rfl
    | some digest' => cases hpresence
  | some digest =>
    cases annex' with
    | none => cases hpresence
    | some digest' => exact congrArg some h

namespace LeafMessage

theorem annex_length_eq (hpresence : a.execdata.annexHash.isSome = b.execdata.annexHash.isSome) :
    (a.execdata.annexHash.getD []).length = (b.execdata.annexHash.getD []).length := by
  have ha := a.length_annexHash
  have hb := b.length_annexHash
  cases hleft : a.execdata.annexHash with
  | none =>
    rw [hleft] at hpresence
    rw [Option.isSome_eq_false_iff.mp hpresence.symm |> Option.isNone_iff_eq_none.mp]
  | some digest =>
    rw [hleft] at hpresence
    obtain ⟨digest', hright⟩ := Option.isSome_iff_exists.mp hpresence.symm
    rw [hright]
    exact (ha digest hleft).trans (hb digest' hright).symm

/-- **The signature message binds what it should.**  Two v3 leaf messages with the same bytes have
the same hash type and agree on everything that it commits to. -/
theorem sameCommitment_of_bytes_eq {hashes : HashFunctions} {a b : LeafMessage} {data : Bytes}
    (ha : a.bytes hashes = some data) (hb : b.bytes hashes = some data) :
    SameCommitment hashes a b := by
  obtain ⟨txin, spent, single, htxin, hspent, hsingle, hdata⟩ := bytes_eq_some ha
  obtain ⟨txin', spent', single', htxin', hspent', hsingle', hdata'⟩ := bytes_eq_some hb
  have hsame := hdata.symm.trans hdata'
  obtain ⟨-, hsame⟩ := List.append_inj hsame rfl
  -- the hash type comes first, so both sides have the same optional parts from here on
  obtain ⟨hhashType, hsame⟩ := List.append_inj hsame rfl
  have hhashType : a.hashType = b.hashType := List.singleton_inj.mp hhashType
  obtain ⟨hversion, hsame⟩ := (readsAs_uint32 _).append_inj (readsAs_uint32 _) hsame
  obtain ⟨hnLockTime, hsame⟩ := (readsAs_uint32 _).append_inj (readsAs_uint32 _) hsame
  obtain ⟨hinputs, hsame⟩ := List.append_inj hsame
    (by rw [a.length_messageInputs, b.length_messageInputs, hhashType])
  have houtputsLength :
      (if outputType a.hashType = sighashAll then a.cache.outputsSingleHash else []).length =
      (if outputType b.hashType = sighashAll then b.cache.outputsSingleHash else []).length := by
    rw [hhashType]
    split_ifs
    · exact a.length_outputs.trans b.length_outputs.symm
    · rfl
  obtain ⟨houtputs, hsame⟩ := List.append_inj hsame houtputsLength
  obtain ⟨hspendType, hsame⟩ := List.append_inj hsame rfl
  have hpresence := annex_presence_inj hspendType
  rw [hhashType] at hsame
  obtain ⟨hindex, hinput, hsame⟩ := messageThisInput_append_inj a.inPos_lt b.inPos_lt
    (a.spentOutputs spent (List.mem_of_getElem? hspent))
    (b.spentOutputs spent' (List.mem_of_getElem? hspent')) hsame
  obtain ⟨hannex, hsame⟩ := List.append_inj hsame (annex_length_eq hpresence)
  rw [hhashType] at hsingle
  obtain ⟨hdigest, hsame⟩ := List.append_inj hsame (messageSingleOutput_length_eq hsingle hsingle')
  obtain ⟨htapleaf, hsame⟩ :=
    List.append_inj hsame (a.length_tapleafHash.trans b.length_tapleafHash.symm)
  obtain ⟨hkeyVersion, hseparator⟩ := List.append_inj hsame rfl
  have hkeyVersion : a.keyVersion = b.keyVersion := List.singleton_inj.mp hkeyVersion
  refine
    { hashType := hhashType
      version := hversion
      nLockTime := hnLockTime
      sigversion := sigversion_eq_of_keyVersion hkeyVersion
      keyVersion := hkeyVersion
      tapleafHash := htapleaf
      codeseparatorPos := serializeUint32_inj hseparator
      annexHash := annex_eq_of_getD hpresence hannex
      allInputs := ?_
      thisInput := ?_
      allOutputs := ?_
      singleOutput := ?_ }
  · intro hall
    obtain ⟨hprevouts, hamounts, hscripts, hsequences⟩ := messageInputs_inj hhashType hinputs hall
    exact ⟨hprevouts, hamounts, hscripts, hsequences, hindex (hhashType ▸ hall)⟩
  · intro hanyone
    obtain ⟨hprevout, rfl, hsequence⟩ := hinput (hhashType ▸ hanyone)
    exact ⟨txin, txin', spent, htxin, htxin', hprevout, hsequence, hspent, hspent'⟩
  · intro hall
    rwa [← hhashType, if_pos hall, if_pos hall] at houtputs
  · intro honly
    rw [hhashType] at honly
    rcases messageSingleOutput_eq_some hsingle with ⟨-, txout, htxout, rfl⟩ | ⟨hother, -⟩
    · rcases messageSingleOutput_eq_some hsingle' with ⟨-, txout', htxout', rfl⟩ | ⟨hother, -⟩
      · exact ⟨txout, txout', htxout, htxout', hdigest⟩
      · exact absurd honly hother
    · exact absurd honly hother

end LeafMessage

/-- The digests are the same for every transaction here. -/
def constantCache (spentOutputs : List TxOut) : PrecomputedTransactionData where
  prevoutsSingleHash := List.replicate 32 1
  sequencesSingleHash := List.replicate 32 1
  outputsSingleHash := List.replicate 32 1
  spentAmountsSingleHash := List.replicate 32 1
  spentScriptsSingleHash := List.replicate 32 1
  scriptsigsSingleHash := List.replicate 32 1
  ctvHasScriptsigs := false
  bip143SegwitReady := false
  bip341TaprootReady := true
  ctvReady := true
  spentOutputs := spentOutputs
  spentOutputsReady := true

/-- A signature SINGLE with ANYONECANPAY for the last of some inputs, which all spend an output of
value 1. -/
def singleAnyoneMessage (tx : Transaction) (inPos : ℕ) (hinPos : inPos < 2 ^ 32) : LeafMessage where
  tx := tx
  inPos := inPos
  hashType := 0x83
  sigversion := .xcoinPqTapscript
  execdata := ⟨List.replicate 32 1, 0xffffffff, none, 0⟩
  cache := constantCache (List.replicate tx.vin.length ⟨1, v3Output (List.replicate 32 1)⟩)
  leaf := rfl
  inPos_lt := hinPos
  length_tapleafHash := rfl
  length_annexHash := by intro digest hdigest; cases hdigest
  length_prevouts := rfl
  length_sequences := rfl
  length_outputs := rfl
  length_amounts := rfl
  length_scripts := rfl
  spentOutputs := by
    intro txout htxout
    rw [List.eq_of_mem_replicate htxout]
    exact ⟨by decide, by decide, by decide⟩

/-- The message of a one-input transaction. -/
def aloneMessage : LeafMessage :=
  singleAnyoneMessage ⟨2, [⟨⟨1, 0⟩, [], 5, []⟩], [⟨1, []⟩], 0⟩ 0 (by decide)

/-- The same input behind another one. -/
def joinedMessage : LeafMessage :=
  singleAnyoneMessage ⟨2, [⟨⟨7, 7⟩, [], 7, []⟩, ⟨⟨1, 0⟩, [], 5, []⟩], [⟨7, [7]⟩, ⟨1, []⟩], 0⟩ 1
    (by decide)

theorem joinedMessage_sameCommitment :
    ∃ data, aloneMessage.bytes constantHashes = some data ∧
      joinedMessage.bytes constantHashes = some data ∧
      LeafMessage.SameCommitment constantHashes aloneMessage joinedMessage :=
  ⟨_, rfl, by decide +kernel, LeafMessage.sameCommitment_of_bytes_eq rfl (by decide +kernel)⟩

/-! ## The template hash -/

/-- A spend through a v3 output needs the data of taproot too. -/
def Features.Closed (uses : Features) : Prop :=
  uses.xcoinV3 = true → uses.bip341Taproot = true

theorem Features.Closed.addInput {uses : Features} (h : uses.Closed) (txin : TxIn)
    (spent : Option TxOut) : (uses.addInput txin spent).Closed := by
  unfold Features.addInput Features.addSpend
  split_ifs
  · exact h
  · cases spent with
    | none => exact h
    | some txout =>
      dsimp only
      split_ifs
      · exact fun _ => rfl
      · exact fun _ => rfl
      · exact h

theorem scanInputs_closed : ∀ (vin : List TxIn) (spent : List TxOut) (uses : Features),
    uses.Closed → (scanInputs uses vin spent).Closed := by
  intro vin
  induction vin with
  | nil =>
    intro spent uses h
    exact h
  | cons txin rest ih =>
    intro spent uses h
    unfold scanInputs
    split_ifs
    · exact h
    · exact h.addInput txin spent.head?
    · exact ih spent.tail _ (h.addInput txin spent.head?)

/-- What `GetDefaultCheckTemplateVerifyHash` is called with: a transaction as the source types it,
an index, and the data that `Init` precomputed. -/
structure TemplateInput (hashes : HashFunctions) where
  tx : Transaction
  spentOutputs : List TxOut
  force : Bool
  cache : PrecomputedTransactionData
  index : ℕ
  init : initTransactionData hashes tx spentOutputs force = some cache
  ready : cache.ctvReady = true
  index_lt : index < 2 ^ 32
  scriptSigs : ∀ txin ∈ tx.vin, txin.scriptSig.length < 2 ^ 64
  outputs : ∀ txout ∈ tx.vout, TxOut.Typed txout

namespace TemplateInput

variable {hashes : HashFunctions} {a b : TemplateInput hashes} (input : TemplateInput hashes)

/-- The template hash. -/
def hash (input : TemplateInput hashes) : Bytes :=
  getDefaultCheckTemplateVerifyHash hashes input.tx input.cache input.index

/-- The bytes its `scriptSig` hash is of. -/
def scriptSigsBytes (input : TemplateInput hashes) : Bytes :=
  (input.tx.vin.map TxIn.scriptSig).flatMap serializeBytes

/-- The bytes its sequences hash is of. -/
def sequencesBytes (input : TemplateInput hashes) : Bytes :=
  (input.tx.vin.map TxIn.nSequence).flatMap serializeUint32

/-- The bytes its outputs hash is of. -/
def outputsBytes (input : TemplateInput hashes) : Bytes := input.tx.vout.flatMap serializeTxOut

/-- Some input has a scriptSig. -/
def hasScriptSigs (input : TemplateInput hashes) : Bool :=
  input.tx.vin.any fun txin => !txin.scriptSig.isEmpty

/-- The digest of the scriptSigs, where there are any. -/
def scriptSigsPart (input : TemplateInput hashes) : Bytes :=
  if input.hasScriptSigs then hashes.sha256 input.scriptSigsBytes else []

/-- The bytes under the template hash. -/
def message (input : TemplateInput hashes) : Bytes :=
  serializeUint32 input.tx.version ++ (serializeUint32 input.tx.nLockTime ++
    (input.scriptSigsPart ++ (Bytes.ofNatLE 4 input.tx.vin.length ++
    (hashes.sha256 input.sequencesBytes ++ (Bytes.ofNatLE 4 input.tx.vout.length ++
    (hashes.sha256 input.outputsBytes ++ Bytes.ofNatLE 4 input.index))))))

/-- The strings that are hashed for one template hash. -/
def preimages (input : TemplateInput hashes) : List Bytes :=
  [input.scriptSigsBytes, input.sequencesBytes, input.outputsBytes, input.message]

/-- What the template hash commits to. -/
structure SameTemplate (a b : TemplateInput hashes) : Prop where
  version : a.tx.version = b.tx.version
  nLockTime : a.tx.nLockTime = b.tx.nLockTime
  inputs : a.tx.vin.length = b.tx.vin.length
  scriptSigs : a.tx.vin.map TxIn.scriptSig = b.tx.vin.map TxIn.scriptSig
  sequences : a.tx.vin.map TxIn.nSequence = b.tx.vin.map TxIn.nSequence
  outputs : a.tx.vout = b.tx.vout
  index : a.index = b.index

theorem hash_eq : input.hash = hashes.sha256 input.message := by
  have hinit := input.init
  have hready := input.ready
  have hclosed : (scanInputs ⟨input.force, input.force, input.force⟩ input.tx.vin
      input.spentOutputs).Closed := scanInputs_closed _ _ _ id
  unfold initTransactionData at hinit
  split at hinit
  · cases hinit
  · have hcache := (Option.some.inj hinit).symm
    rw [hcache] at hready
    dsimp only at hready
    have hshared := hclosed hready
    unfold hash getDefaultCheckTemplateVerifyHash message scriptSigsPart
    rw [hcache]
    simp only [hready, hshared, digestIf, Bool.or_true, Bool.true_and, if_true, List.append_assoc,
      hasScriptSigs, scriptSigsBytes, sequencesBytes, outputsBytes, List.flatMap_map]

/-! ### Back from the bytes -/

theorem scriptSigs_of_bytes (h : a.scriptSigsBytes = b.scriptSigsBytes) :
    a.tx.vin.map TxIn.scriptSig = b.tx.vin.map TxIn.scriptSig := by
  have hreads (input : TemplateInput hashes) :
      ∀ script ∈ input.tx.vin.map TxIn.scriptSig,
        ReadsAs readAnyBytes (serializeBytes script) script ∧ serializeBytes script ≠ [] := by
    intro script hscript
    obtain ⟨txin, htxin, rfl⟩ := List.mem_map.mp hscript
    exact ⟨readsAs_anyBytes (input.scriptSigs txin htxin), serializeBytes_ne_nil _⟩
  exact flatMap_inj (hreads a) (hreads b) h

theorem sequences_of_bytes (h : a.sequencesBytes = b.sequencesBytes) :
    a.tx.vin.map TxIn.nSequence = b.tx.vin.map TxIn.nSequence := by
  have hreads : ∀ n : UInt32, ReadsAs readUint32 (serializeUint32 n) n ∧ serializeUint32 n ≠ [] :=
    fun n => ⟨readsAs_uint32 n, List.ne_nil_of_length_pos (by rw [length_serializeUint32]; decide)⟩
  exact flatMap_inj (fun n _ => hreads n) (fun n _ => hreads n) h

theorem outputs_of_bytes (h : a.outputsBytes = b.outputsBytes) : a.tx.vout = b.tx.vout := by
  have hreads (input : TemplateInput hashes) :
      ∀ txout ∈ input.tx.vout,
        ReadsAs readAnyTxOut (serializeTxOut txout) txout ∧ serializeTxOut txout ≠ [] := by
    intro txout htxout
    exact ⟨(input.outputs txout htxout).readsAs,
      List.append_ne_nil_of_right_ne_nil _ (serializeBytes_ne_nil _)⟩
  exact flatMap_inj (hreads a) (hreads b) h

theorem scriptSigs_eq_replicate {input : TemplateInput hashes}
    (h : input.hasScriptSigs = false) :
    input.tx.vin.map TxIn.scriptSig = List.replicate input.tx.vin.length [] := by
  refine List.eq_replicate_iff.mpr ⟨List.length_map _, ?_⟩
  intro script hscript
  obtain ⟨txin, htxin, rfl⟩ := List.mem_map.mp hscript
  have hempty := List.any_eq_false.mp h txin htxin
  rwa [Bool.not_eq_true', Bool.not_eq_false, List.isEmpty_iff] at hempty

theorem length_scriptSigsPart :
    input.scriptSigsPart.length = if input.hasScriptSigs then 32 else 0 := by
  unfold scriptSigsPart
  split_ifs
  · exact hashes.length_sha256 _
  · rfl

theorem length_message : input.message.length = 84 + input.scriptSigsPart.length := by
  simp only [message, List.length_append, length_serializeUint32, Bytes.length_ofNatLE,
    hashes.length_sha256]
  omega

/-- The digest of the scriptSigs makes the message longer, so the two forms never coincide. -/
theorem hasScriptSigs_of_message (h : a.message = b.message) :
    a.hasScriptSigs = b.hasScriptSigs := by
  have hlength : a.message.length = b.message.length := congrArg List.length h
  rw [length_message, length_message, length_scriptSigsPart, length_scriptSigsPart] at hlength
  cases ha : a.hasScriptSigs <;> cases hb : b.hasScriptSigs <;> simp_all

theorem parts_of_message (h : a.message = b.message) :
    a.tx.version = b.tx.version ∧ a.tx.nLockTime = b.tx.nLockTime ∧
      a.scriptSigsPart = b.scriptSigsPart ∧
      hashes.sha256 a.sequencesBytes = hashes.sha256 b.sequencesBytes ∧
      hashes.sha256 a.outputsBytes = hashes.sha256 b.outputsBytes ∧ a.index = b.index := by
  have hpresence := hasScriptSigs_of_message h
  have hcount (n m : ℕ) : (Bytes.ofNatLE 4 n).length = (Bytes.ofNatLE 4 m).length := by
    rw [Bytes.length_ofNatLE, Bytes.length_ofNatLE]
  have hdigest (x y : Bytes) : (hashes.sha256 x).length = (hashes.sha256 y).length := by
    rw [hashes.length_sha256, hashes.length_sha256]
  unfold message at h
  obtain ⟨hversion, h⟩ := (readsAs_uint32 _).append_inj (readsAs_uint32 _) h
  obtain ⟨hnLockTime, h⟩ := (readsAs_uint32 _).append_inj (readsAs_uint32 _) h
  obtain ⟨hscriptSigs, h⟩ := List.append_inj h
    (by rw [length_scriptSigsPart, length_scriptSigsPart, hpresence])
  obtain ⟨-, h⟩ := List.append_inj h (hcount _ _)
  obtain ⟨hsequences, h⟩ := List.append_inj h (hdigest _ _)
  obtain ⟨-, h⟩ := List.append_inj h (hcount _ _)
  obtain ⟨houtputs, h⟩ := List.append_inj h (hdigest _ _)
  exact ⟨hversion, hnLockTime, hscriptSigs, hsequences, houtputs,
    ofNatLE_inj a.index_lt b.index_lt h⟩

theorem message_eq_of_sameTemplate (h : SameTemplate a b) : a.message = b.message := by
  have hscriptSigs : a.hasScriptSigs = b.hasScriptSigs := by
    have hmap (input : TemplateInput hashes) : input.hasScriptSigs =
        (input.tx.vin.map TxIn.scriptSig).any fun script => !script.isEmpty := by
      rw [List.any_map]
      rfl
    rw [hmap a, hmap b, h.scriptSigs]
  unfold message scriptSigsPart scriptSigsBytes sequencesBytes outputsBytes
  rw [h.version, h.nLockTime, hscriptSigs, h.scriptSigs, h.inputs, h.sequences, h.outputs, h.index]

/-- **The template hash binds the template.**  Where the strings that are hashed do not collide, two
template hashes are equal exactly for the same version, lock time, number of inputs, scriptSigs,
sequences, outputs and index. -/
theorem hash_eq_iff_sameTemplate (a b : TemplateInput hashes)
    (hcollisions : Set.InjOn hashes.sha256 {data | data ∈ a.preimages ++ b.preimages}) :
    a.hash = b.hash ↔ SameTemplate a b := by
  constructor
  · intro hhash
    rw [a.hash_eq, b.hash_eq] at hhash
    have hmessage : a.message = b.message :=
      hcollisions (by simp [preimages]) (by simp [preimages]) hhash
    obtain ⟨hversion, hnLockTime, hpart, hsequences, houtputs, hindex⟩ := parts_of_message hmessage
    have hsequences := sequences_of_bytes
      (hcollisions (by simp [preimages]) (by simp [preimages]) hsequences)
    have houtputs := outputs_of_bytes
      (hcollisions (by simp [preimages]) (by simp [preimages]) houtputs)
    have hinputs : a.tx.vin.length = b.tx.vin.length := by
      have hlengths := congrArg List.length hsequences
      rwa [List.length_map, List.length_map] at hlengths
    have hpresence := hasScriptSigs_of_message hmessage
    have hscriptSigs : a.tx.vin.map TxIn.scriptSig = b.tx.vin.map TxIn.scriptSig := by
      cases hb : b.hasScriptSigs with
      | false =>
        rw [hb] at hpresence
        rw [scriptSigs_eq_replicate hpresence, scriptSigs_eq_replicate hb, hinputs]
      | true =>
        rw [hb] at hpresence
        unfold scriptSigsPart at hpart
        rw [hpresence, hb, if_pos rfl, if_pos rfl] at hpart
        exact scriptSigs_of_bytes
          (hcollisions (by simp [preimages]) (by simp [preimages]) hpart)
    exact ⟨hversion, hnLockTime, hinputs, hscriptSigs, hsequences, houtputs, hindex⟩
  · intro hsame
    rw [a.hash_eq, b.hash_eq, message_eq_of_sameTemplate hsame]

end TemplateInput

/-- Hash functions that keep the start of their input. -/
def paddingHashes : HashFunctions :=
  { constantHashes with
    sha256 := fun data => (data ++ List.replicate 32 0).take 32
    length_sha256 := by
      intro data
      rw [List.length_take, List.length_append, List.length_replicate]
      omega }

/-- One input, spending some output with some witness. -/
def oneInputTemplate (prevout : OutPoint) (witness : List Bytes) : TemplateInput paddingHashes where
  tx := ⟨9, [⟨prevout, [], 5, witness⟩], [⟨1, []⟩], 0⟩
  spentOutputs := []
  force := true
  cache := _
  index := 0
  init := rfl
  ready := rfl
  index_lt := by decide
  scriptSigs := by
    intro txin htxin
    rw [List.mem_singleton.mp htxin]
    exact Nat.two_pow_pos 64
  outputs := by
    intro txout htxout
    rw [List.mem_singleton.mp htxout]
    exact ⟨by decide, by decide, by decide⟩

theorem oneInputTemplate_injOn :
    Set.InjOn paddingHashes.sha256 {data | data ∈ (oneInputTemplate ⟨1, 1⟩ []).preimages ++
      (oneInputTemplate ⟨2, 2⟩ [[1]]).preimages} := by
  have hdistinct : ∀ x ∈ (oneInputTemplate ⟨1, 1⟩ []).preimages ++
      (oneInputTemplate ⟨2, 2⟩ [[1]]).preimages,
      ∀ y ∈ (oneInputTemplate ⟨1, 1⟩ []).preimages ++ (oneInputTemplate ⟨2, 2⟩ [[1]]).preimages,
      paddingHashes.sha256 x = paddingHashes.sha256 y → x = y := by
    decide +kernel
  exact fun x hx y hy => hdistinct x hx y hy

/-- The output that is spent and the witness do not matter. -/
theorem oneInputTemplate_hash_eq :
    (oneInputTemplate ⟨1, 1⟩ []).hash = (oneInputTemplate ⟨2, 2⟩ [[1]]).hash :=
  (TemplateInput.hash_eq_iff_sameTemplate _ _ oneInputTemplate_injOn).mpr
    ⟨rfl, rfl, rfl, rfl, rfl, rfl, rfl⟩

end XCoin.Script
