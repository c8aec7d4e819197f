import XCoin.Script.Interpreter
import XCoin.Primitives.Transaction

/-!
# Signature hashes and the transaction checker

`PrecomputedTransactionData`, the BIP 341 signature message that the v3 leaves
share with taproot, the default template hash, and the checks that
`GenericTransactionSignatureChecker` answers for a script.

A 256-bit digest is the 32-byte string that the hash function returned.
`HashWriter::GetSHA256` hashes once; a tagged writer starts with the digest of its
tag twice.  Missing data makes a check fail (`MissingDataBehavior::FAIL`).  The
digest of the single output is computed each time, where the source keeps it in the
execution data.
-/

namespace XCoin.Script

open Consensus

variable (hashes : HashFunctions) (context : SpendContext) (tx : Transaction) (hashType : UInt8)

/-! ## Tagged hashes -/

/-- `TaggedHash`. -/
def taggedHash (tag : String) (data : Bytes) : Bytes :=
  hashes.sha256 (hashes.sha256 (Bytes.ofAscii tag) ++ hashes.sha256 (Bytes.ofAscii tag) ++ data)

@[simp] theorem length_taggedHash (tag : String) (data : Bytes) :
    (taggedHash hashes tag data).length = 32 := hashes.length_sha256 _

/-! ## Precomputed data -/

/-- `PrecomputedTransactionData`, without the double hashes of BIP 143. -/
structure PrecomputedTransactionData where
  prevoutsSingleHash : Bytes
  sequencesSingleHash : Bytes
  outputsSingleHash : Bytes
  spentAmountsSingleHash : Bytes
  spentScriptsSingleHash : Bytes
  scriptsigsSingleHash : Bytes
  ctvHasScriptsigs : Bool
  bip143SegwitReady : Bool
  bip341TaprootReady : Bool
  ctvReady : Bool
  spentOutputs : List TxOut
  spentOutputsReady : Bool
deriving DecidableEq, Repr

/-- The features that `Init` looks for. -/
structure Features where
  bip143Segwit : Bool
  bip341Taproot : Bool
  xcoinV3 : Bool
deriving DecidableEq, Repr

/-- A script of 34 bytes that starts with this opcode. -/
def looksLikeProgram (opcode : ℕ) (script : Bytes) : Bool :=
  script.length == 34 && byteAt script 0 == opcode

/-- What a spend with a witness needs, by the output it spends. -/
def Features.addSpend (uses : Features) (spent : Option TxOut) : Features :=
  match spent with
  | none => { uses with bip143Segwit := true }
  | some txout =>
    if looksLikeProgram op1 txout.scriptPubKey then { uses with bip341Taproot := true }
    else if looksLikeProgram op3 txout.scriptPubKey then
      { uses with bip341Taproot := true, xcoinV3 := true }
    else { uses with bip143Segwit := true }

/-- The loop body of `PrecomputedTransactionData::Init`. -/
def Features.addInput (uses : Features) (txin : TxIn) (spent : Option TxOut) : Features :=
  if txin.scriptWitness = [] then uses else uses.addSpend spent

/-- The loop over the inputs, with its two ways to stop early. -/
def scanInputs (uses : Features) : List TxIn → List TxOut → Features
  | [], _ => uses
  | txin :: rest, spent =>
    if uses.bip143Segwit && uses.bip341Taproot && uses.xcoinV3 then uses
    else if (uses.addInput txin spent.head?).bip341Taproot &&
        (uses.addInput txin spent.head?).bip143Segwit then
      uses.addInput txin spent.head?
    else scanInputs (uses.addInput txin spent.head?) rest spent.tail

/-- The digest of the parts of a list, or nothing where `Init` does not compute it. -/
def digestIf {α : Type} (needed : Bool) (hashes : HashFunctions) (serialize : α → Bytes)
    (items : List α) : Bytes :=
  if needed then hashes.sha256 (items.flatMap serialize) else []

/-- `PrecomputedTransactionData::Init`; `none` is the failed assertion on the number of
spent outputs. -/
def initTransactionData (spentOutputs : List TxOut) (force : Bool) :
    Option PrecomputedTransactionData :=
  if spentOutputs ≠ [] ∧ spentOutputs.length ≠ tx.vin.length then none
  else
    let uses := scanInputs ⟨force, force, force⟩ tx.vin spentOutputs
    let shared := uses.bip143Segwit || uses.bip341Taproot
    let taproot := uses.bip341Taproot && !spentOutputs.isEmpty
    some
      { prevoutsSingleHash :=
          digestIf shared hashes (fun txin => serializeOutPoint txin.prevout) tx.vin
        sequencesSingleHash :=
          digestIf shared hashes (fun txin => serializeUint32 txin.nSequence) tx.vin
        outputsSingleHash := digestIf shared hashes serializeTxOut tx.vout
        spentAmountsSingleHash :=
          digestIf taproot hashes (fun txout => serializeInt64 txout.nValue) spentOutputs
        spentScriptsSingleHash :=
          digestIf taproot hashes (fun txout => serializeBytes txout.scriptPubKey) spentOutputs
        scriptsigsSingleHash :=
          digestIf uses.xcoinV3 hashes (fun txin => serializeBytes txin.scriptSig) tx.vin
        ctvHasScriptsigs := uses.xcoinV3 && tx.vin.any fun txin => !txin.scriptSig.isEmpty
        bip143SegwitReady := uses.bip143Segwit
        bip341TaprootReady := taproot
        ctvReady := uses.xcoinV3
        spentOutputs := spentOutputs
        spentOutputsReady := !spentOutputs.isEmpty }

/-! ## The signature message -/

/-- `SIGHASH_DEFAULT`. -/
def sighashDefault : UInt8 := 0
/-- `SIGHASH_ALL`. -/
def sighashAll : UInt8 := 1
/-- `SIGHASH_SINGLE`. -/
def sighashSingle : UInt8 := 3
/-- `SIGHASH_ANYONECANPAY`. -/
def sighashAnyonecanpay : UInt8 := 0x80

/-- `hash_type <= 0x03 || (hash_type >= 0x81 && hash_type <= 0x83)`. -/
def validHashType : Bool :=
  decide (hashType.toNat ≤ 3 ∨ (0x81 ≤ hashType.toNat ∧ hashType.toNat ≤ 0x83))

/-- `output_type`. -/
def outputType : UInt8 :=
  if hashType = sighashDefault then sighashAll else hashType &&& 3

/-- `input_type`. -/
def inputType : UInt8 := hashType &&& 0x80

/-- `ext_flag` and, for the versions that have one, `key_version`. -/
def SigVersion.extension : SigVersion → Option (UInt8 × Option UInt8)
  | taproot => some (0, none)
  | tapscript => some (1, some 0)
  | xcoinPqTapscript => some (1, some 2)
  | xcoinSlhTapscript => some (1, some 3)
  | _ => none

/-- The digests of all inputs, unless anyone can pay. -/
def messageInputs (cache : PrecomputedTransactionData) (hashType : UInt8) : Bytes :=
  if inputType hashType = sighashAnyonecanpay then []
  else
    cache.prevoutsSingleHash ++ cache.spentAmountsSingleHash ++ cache.spentScriptsSingleHash ++
      cache.sequencesSingleHash

/-- The data about this input. -/
def messageThisInput (txin : TxIn) (spent : TxOut) (inPos : ℕ) (hashType : UInt8) : Bytes :=
  if inputType hashType = sighashAnyonecanpay then
    serializeOutPoint txin.prevout ++ serializeTxOut spent ++ serializeUint32 txin.nSequence
  else Bytes.ofNatLE 4 inPos

/-- The output of a SINGLE signature; `none` if the input has none. -/
def messageSingleOutput (inPos : ℕ) (hashType : UInt8) : Option Bytes :=
  if outputType hashType = sighashSingle then
    match tx.vout[inPos]? with
    | none => none
    | some txout => some (hashes.sha256 (serializeTxOut txout))
  else some []

/-- The leaf, the key version and the code separator. -/
def messageLeaf (execdata : ExecData) : Option UInt8 → Bytes
  | none => []
  | some keyVersion =>
    execdata.tapleafHash ++ [keyVersion] ++ serializeUint32 execdata.codeseparatorPos

/-- The bytes that `Bip341SignatureMessage` hashes; `none` where it returns false. -/
def bip341Message (inPos : ℕ) (hashType : UInt8) (sigversion : SigVersion) (execdata : ExecData)
    (cache : PrecomputedTransactionData) : Option Bytes := do
  let extension ← sigversion.extension
  let txin ← tx.vin[inPos]?
  if !(cache.bip341TaprootReady && cache.spentOutputsReady) then none
  else if !validHashType hashType then none
  else
    let spent ← cache.spentOutputs[inPos]?
    let single ← messageSingleOutput hashes tx inPos hashType
    some ([0] ++ [hashType] ++ serializeUint32 tx.version ++ serializeUint32 tx.nLockTime ++
      messageInputs cache hashType ++
      (if outputType hashType = sighashAll then cache.outputsSingleHash else []) ++
      [extension.1 * 2 + (if execdata.annexHash.isSome then 1 else 0)] ++
      messageThisInput txin spent inPos hashType ++
      execdata.annexHash.getD [] ++ single ++ messageLeaf execdata extension.2)

/-- `SignatureHashXcoinV3`: the BIP 341 digest, tagged again. -/
def signatureHashXcoinV3 (inPos : ℕ) (hashType : UInt8) (sigversion : SigVersion)
    (execdata : ExecData) (cache : PrecomputedTransactionData) : Option Bytes :=
  (bip341Message hashes tx inPos hashType sigversion execdata cache).map fun message =>
    taggedHash hashes "XCoinSighash/v3" (taggedHash hashes "TapSighash" message)

/-- `GetDefaultCheckTemplateVerifyHash`. -/
def getDefaultCheckTemplateVerifyHash (cache : PrecomputedTransactionData) (inputIndex : ℕ) :
    Bytes :=
  hashes.sha256 (serializeUint32 tx.version ++ serializeUint32 tx.nLockTime ++
    (if cache.ctvHasScriptsigs then cache.scriptsigsSingleHash else []) ++
    Bytes.ofNatLE 4 tx.vin.length ++ cache.sequencesSingleHash ++
    Bytes.ofNatLE 4 tx.vout.length ++ cache.outputsSingleHash ++ Bytes.ofNatLE 4 inputIndex)

/-! ## The checker -/

/-- The signature primitives, on key, message and signature. -/
structure Primitives where
  verifyMldsa : Bytes → Bytes → Bytes → Bool
  verifySlh : Bytes → Bytes → Bytes → Bool

/-- The parts of `GenericTransactionSignatureChecker` that v3 scripts use. -/
structure SpendContext where
  hashes : HashFunctions
  primitives : Primitives
  tx : Transaction
  nIn : ℕ
  txdata : Option PrecomputedTransactionData

/-- A signature of the fixed size, or of that size and one hash-type byte that is not
zero. -/
def splitHashType (size : ℕ) (sig : Bytes) : Except ScriptError (Bytes × UInt8) :=
  if sig.length = size then .ok (sig, sighashDefault)
  else if sig.length = size + 1 then
    if sig.getLastD 0 = sighashDefault then .error .xcoinV3SigHashtype
    else .ok (sig.dropLast, sig.getLastD 0)
  else .error .xcoinV3SigSize

/-- The check that the two v3 algorithms share. -/
def SpendContext.checkSigV3 (keySize sigSize : ℕ) (sigversion : SigVersion)
    (verify : Bytes → Bytes → Bytes → Bool) (sig pubkey : Bytes) (execdata : ExecData) : SigCheck :=
  if pubkey.length ≠ keySize then ⟨false, .error .xcoinV3Pubkey⟩
  else
    match splitHashType sigSize sig with
    | .error error => ⟨false, .error error⟩
    | .ok (sig, hashtype) =>
      match context.txdata with
      | none => ⟨false, .error .unknownError⟩
      | some cache =>
        match signatureHashXcoinV3 context.hashes context.tx context.nIn hashtype sigversion
            execdata cache with
        | none => ⟨false, .error .xcoinV3SigHashtype⟩
        | some sighash =>
          if verify pubkey sighash sig then ⟨true, .ok ()⟩
          else ⟨true, .error .xcoinV3Sig⟩

/-- `CheckPQSigV3`. -/
def SpendContext.checkPQSigV3 : Bytes → Bytes → ExecData → SigCheck :=
  context.checkSigV3 pqPubkeySize pqSignatureSize .xcoinPqTapscript
    context.primitives.verifyMldsa

/-- `CheckSLHSigV3`. -/
def SpendContext.checkSLHSigV3 : Bytes → Bytes → ExecData → SigCheck :=
  context.checkSigV3 slhPubkeySize slhSignatureSize .xcoinSlhTapscript
    context.primitives.verifySlh

/-- `CheckLockTime`: same kind of lock, reached, and the input is not final. -/
def SpendContext.checkLockTime (nLockTime : ℤ) : Bool :=
  if ¬((context.tx.nLockTime.toNat < locktimeThreshold ∧ nLockTime < locktimeThreshold) ∨
      (locktimeThreshold ≤ context.tx.nLockTime.toNat ∧ (locktimeThreshold : ℤ) ≤ nLockTime)) then
    false
  else if (context.tx.nLockTime.toNat : ℤ) < nLockTime then false
  else
    match context.tx.vin[context.nIn]? with
    | none => false
    | some txin => txin.nSequence ≠ 0xffffffff

/-- `SEQUENCE_LOCKTIME_TYPE_FLAG`. -/
def sequenceLocktimeTypeFlag : ℕ := 2 ^ 22

/-- `SEQUENCE_LOCKTIME_TYPE_FLAG | SEQUENCE_LOCKTIME_MASK`. -/
def sequenceMask : ℕ := 2 ^ 22 + 0xffff

/-- `CheckSequence`, for an operand that is not negative. -/
def SpendContext.checkSequence (nSequence : ℤ) : Bool :=
  match context.tx.vin[context.nIn]? with
  | none => false
  | some txin =>
    if context.tx.version.toNat < 2 then false
    else if txin.nSequence.toNat / 2 ^ 31 % 2 ≠ 0 then false
    else if ¬((txin.nSequence.toNat &&& sequenceMask < sequenceLocktimeTypeFlag ∧
          nSequence.toNat &&& sequenceMask < sequenceLocktimeTypeFlag) ∨
        (sequenceLocktimeTypeFlag ≤ txin.nSequence.toNat &&& sequenceMask ∧
          sequenceLocktimeTypeFlag ≤ nSequence.toNat &&& sequenceMask)) then false
    else decide (nSequence.toNat &&& sequenceMask ≤ txin.nSequence.toNat &&& sequenceMask)

/-- `CheckDefaultCheckTemplateVerifyHash`. -/
def SpendContext.checkDefaultCheckTemplateVerifyHash (hash : Bytes) : Bool :=
  if hash.length ≠ 32 then false
  else
    match context.txdata with
    | none => false
    | some cache =>
      cache.ctvReady && hash == getDefaultCheckTemplateVerifyHash context.hashes context.tx cache
        context.nIn

/-- The checks of the algorithms that are not modelled. -/
structure OtherChecks where
  checkPQSig : Bytes → Bytes → Bytes → SigVersion → Bool
  checkSchnorrSignature : Bytes → Bytes → SigVersion → ExecData → Except ScriptError Unit
  evalChecksigPreTapscript : Flags → SigVersion → Bytes → Bytes → Bytes → Except ScriptError Bool
  evalCheckMultisig : Flags → SigVersion → Bytes → ℕ → List Bytes →
    Except ScriptError (Bool × List Bytes × ℕ)
  verifyTaprootCommitment : Bytes → Bytes → Bytes → Bool

/-- `GenericTransactionSignatureChecker`. -/
def SpendContext.checker (others : OtherChecks) : Checker where
  checkLockTime := context.checkLockTime
  checkSequence := context.checkSequence
  checkDefaultCheckTemplateVerifyHash := context.checkDefaultCheckTemplateVerifyHash
  checkPQSigV3 := context.checkPQSigV3
  checkSLHSigV3 := context.checkSLHSigV3
  checkPQSig := others.checkPQSig
  checkSchnorrSignature := others.checkSchnorrSignature
  evalChecksigPreTapscript := others.evalChecksigPreTapscript
  evalCheckMultisig := others.evalCheckMultisig
  verifyTaprootCommitment := others.verifyTaprootCommitment

end XCoin.Script
