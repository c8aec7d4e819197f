import XCoin.Script.SignatureHash

/-!
# Witness programs and script verification

`ExecuteWitnessScript`, `VerifyWitnessProgram` and `VerifyScript`.  A witness v3
program is the Merkle root of algorithm-tagged leaves: a spend shows a leaf script
and a control block, whose path must lead from the leaf to the program, and the
leaf runs under the rules of its version with a budget of validation weight that
grows with the witness.

A witness stack is listed as it is serialized, the last item last; the execution
stack has its top first.
-/

namespace XCoin.Script

open Consensus

variable (hashes : HashFunctions) (env : Env) (witness : List Bytes) (stack : List Bytes)
  (program : Bytes) (primitives : Primitives) (script : Bytes) (work : Work) (control : Bytes)

/-! ## Leaves and control blocks -/

/-- `WITNESS_V3_SIZE`. -/
def witnessV3Size : ℕ := 32
/-- `XCOIN_LEAF_PQ`. -/
def xcoinLeafPq : UInt8 := 0xc0
/-- `XCOIN_LEAF_SLH`. -/
def xcoinLeafSlh : UInt8 := 0xc2
/-- `XCOIN_V3_CONTROL_BASE_SIZE`. -/
def xcoinV3ControlBaseSize : ℕ := 33
/-- `XCOIN_V3_CONTROL_NODE_SIZE`. -/
def xcoinV3ControlNodeSize : ℕ := 32
/-- `XCOIN_V3_CONTROL_MAX_NODE_COUNT`. -/
def xcoinV3ControlMaxNodeCount : ℕ := 128
/-- `TAPROOT_LEAF_MASK`. -/
def taprootLeafMask : UInt8 := 0xfe
/-- `MAX_XCOIN_V3_INITIAL_ELEMENT_SIZE`. -/
def maxXcoinV3InitialElementSize : ℕ := 8192

/-- `XCOIN_V3_NOKEY`, the marker in the place of an internal key. -/
def xcoinV3Nokey : Bytes := hashes.sha256 (Bytes.ofAscii "xcoin/v3/nokey")

/-- `ComputeXcoinLeafHash`. -/
def computeXcoinLeafHash (leafVersion : UInt8) (script : Bytes) : Bytes :=
  taggedHash hashes "XCoinLeaf" ([leafVersion] ++ writeCompactSize script.length ++ script)

/-- `ComputeTapleafHash`. -/
def computeTapleafHash (leafVersion : UInt8) (script : Bytes) : Bytes :=
  taggedHash hashes "TapLeaf" ([leafVersion] ++ writeCompactSize script.length ++ script)

/-- `std::lexicographical_compare`. -/
def lexLess : Bytes → Bytes → Bool
  | _, [] => false
  | [], _ :: _ => true
  | a :: as, b :: bs => decide (a < b) || (a == b && lexLess as bs)

/-- `ComputeXcoinBranchHash`: the smaller child first. -/
def computeXcoinBranchHash (a b : Bytes) : Bytes :=
  taggedHash hashes "XCoinBranch" (if lexLess a b then a ++ b else b ++ a)

/-- The length is 33 plus a multiple of 32 for a path of at most 128 nodes. -/
def validControlSize : Bool :=
  decide (xcoinV3ControlBaseSize ≤ control.length ∧
    control.length ≤ xcoinV3ControlBaseSize +
      xcoinV3ControlNodeSize * xcoinV3ControlMaxNodeCount ∧
    (control.length - xcoinV3ControlBaseSize) % xcoinV3ControlNodeSize = 0)

/-- The nodes of the path. -/
def controlPath : List Bytes :=
  (List.range ((control.length - xcoinV3ControlBaseSize) / xcoinV3ControlNodeSize)).map fun i =>
    (control.drop (xcoinV3ControlBaseSize + xcoinV3ControlNodeSize * i)).take
      xcoinV3ControlNodeSize

/-- `ComputeXcoinV3MerkleRoot`. -/
def computeXcoinV3MerkleRoot (control leafHash : Bytes) : Bytes :=
  (controlPath control).foldl (computeXcoinBranchHash hashes) leafHash

/-- The leaf version that a control block carries. -/
def controlLeafVersion : UInt8 := control.headD 0 &&& taprootLeafMask

/-- The leaf hash for this control block. -/
def controlLeafHash (control script : Bytes) : Bytes :=
  computeXcoinLeafHash hashes (controlLeafVersion control) script

/-- The checks on a control block and its path. -/
def checkControl (control script program : Bytes) : Except ScriptError Unit :=
  if !validControlSize control then .error .xcoinV3Control
  else if control.headD 0 &&& ~~~taprootLeafMask ≠ 0 then .error .xcoinV3Control
  else if (control.drop 1).take 32 ≠ xcoinV3Nokey hashes then .error .xcoinV3Control
  else if computeXcoinV3MerkleRoot hashes control (controlLeafHash hashes control script) ≠ program
    then .error .witnessProgramMismatch
  else .ok ()

/-! ## Executing a witness script -/

/-- The scan for success opcodes: `none` lets the execution go on. -/
def scanOpSuccess (flags : Flags) : List (Option Instr) → Option (Except ScriptError Unit)
  | [] => none
  | none :: _ => some (.error .badOpcode)
  | some instr :: rest =>
    if isOpSuccess instr.opcode then
      if ScriptFlag.discourageOpSuccess ∈ flags then some (.error .discourageOpSuccess)
      else some (.ok ())
    else scanOpSuccess flags rest

/-- The size limit for items of the initial stack. -/
def maxInitialElementSize (sigversion : SigVersion) : ℕ :=
  if sigversion.isXcoinV3Tapscript then maxXcoinV3InitialElementSize else maxScriptElementSize

/-- The stack must end as one true item. -/
def checkFinalStack (m : Machine) : Except Fault Work :=
  match m.stack with
  | [top] => if castToBool top then .ok m.work else m.fail .evalFalse
  | _ => m.fail .cleanstack

/-- The limits on the initial stack, then the execution. -/
def runWitnessScript (execdata : ExecData) (work : Work) : Except Fault Work :=
  if env.sigversion.tapscriptRules ∧ maxStackSize < stack.length then .error ⟨.stackSize, work⟩
  else if stack.any fun item => decide (maxInitialElementSize env.sigversion < item.length) then
    .error ⟨.pushSize, work⟩
  else do
    let m ← evalScript env stack.reverse script execdata work
    checkFinalStack m

/-- `ExecuteWitnessScript`. -/
def executeWitnessScript (execdata : ExecData) (work : Work) : Except Fault Work :=
  if env.sigversion.tapscriptRules then
    match scanOpSuccess env.flags (scriptOps script) with
    | some (.error error) => .error ⟨error, work⟩
    | some (.ok ()) => .ok work
    | none => runWitnessScript env stack script execdata work
  else runWitnessScript env stack script execdata work

/-! ## Witness programs -/

/-- The annex: a last item that starts with the annex tag, if it is not the only one. -/
def annexOf : Option Bytes :=
  match witness.getLast? with
  | none => none
  | some last =>
    if 2 ≤ witness.length ∧ last.head? = some annexTag then some last else none

/-- The witness without its annex. -/
def withoutAnnex : List Bytes :=
  if (annexOf witness).isSome then witness.dropLast else witness

/-- The execution data of a leaf: its hash, the annex and the budget. -/
def leafExecData (leafHash : Bytes) : ExecData where
  tapleafHash := leafHash
  codeseparatorPos := 0xffffffff
  annexHash := (annexOf witness).map fun annex => hashes.sha256 (serializeBytes annex)
  validationWeightLeft := (serializeStack witness).length + validationWeightOffset

/-- A leaf of a version that has no rules yet. -/
def unknownLeafVersion (error : ScriptError) (work : Work) : Except Fault Work :=
  if ScriptFlag.discourageUpgradableTaprootVersion ∈ env.flags then .error ⟨error, work⟩
  else .ok work

/-- A v3 leaf whose control block is in order. -/
def executeXcoinV3Leaf (witness items : List Bytes) (script control : Bytes) (work : Work) :
    Except Fault Work :=
  if controlLeafVersion control = xcoinLeafPq then
    executeWitnessScript { env with sigversion := .xcoinPqTapscript } items script
      (leafExecData env.hashes witness (controlLeafHash env.hashes control script)) work
  else if controlLeafVersion control = xcoinLeafSlh then
    executeWitnessScript { env with sigversion := .xcoinSlhTapscript } items script
      (leafExecData env.hashes witness (controlLeafHash env.hashes control script)) work
  else unknownLeafVersion env .discourageUpgradableXcoinLeafVersion work

/-- The branch of `VerifyWitnessProgram` for witness v3. -/
def verifyXcoinV3Program : Except Fault Work :=
  if ScriptFlag.xcoinV3 ∉ env.flags then .ok work
  else if witness = [] then .error ⟨.witnessProgramWitnessEmpty, work⟩
  else
    match (withoutAnnex witness).reverse with
    | control :: script :: items =>
      match checkControl env.hashes control script program with
      | .error error => .error ⟨error, work⟩
      | .ok () => executeXcoinV3Leaf env witness items.reverse script control work
    | _ => .error ⟨.witnessProgramMismatch, work⟩

/-- The branch for taproot; the control block and script path rules are those of BIP 341. -/
def verifyTaprootProgram : Except Fault Work :=
  if ScriptFlag.taproot ∉ env.flags then .ok work
  else
    match (withoutAnnex witness).reverse with
    | [] => .error ⟨.witnessProgramWitnessEmpty, work⟩
    | [sig] =>
      match env.checker.checkSchnorrSignature sig program .taproot
          (leafExecData env.hashes witness []) with
      | .error error => .error ⟨error, work⟩
      | .ok () => .ok work
    | control :: script :: items =>
      if !validControlSize control then .error ⟨.taprootWrongControlSize, work⟩
      else if !env.checker.verifyTaprootCommitment control program
          (computeTapleafHash env.hashes (controlLeafVersion control) script) then
        .error ⟨.witnessProgramMismatch, work⟩
      else if controlLeafVersion control = 0xc0 then
        executeWitnessScript { env with sigversion := .tapscript } items.reverse script
          (leafExecData env.hashes witness
            (computeTapleafHash env.hashes (controlLeafVersion control) script)) work
      else unknownLeafVersion env .discourageUpgradableTaprootVersion work

/-- The branch for witness v0. -/
def verifyWitnessV0Program : Except Fault Work :=
  if program.length = 32 then
    match witness.reverse with
    | [] => .error ⟨.witnessProgramWitnessEmpty, work⟩
    | script :: items =>
      if env.hashes.sha256 script ≠ program then .error ⟨.witnessProgramMismatch, work⟩
      else
        executeWitnessScript { env with sigversion := .witnessV0 } items.reverse script .init work
  else if program.length = 20 then
    if witness.length ≠ 2 then .error ⟨.witnessProgramMismatch, work⟩
    else
      executeWitnessScript { env with sigversion := .witnessV0 } witness
        ([0x76, 0xa9, 0x14] ++ program ++ [0x88, 0xac]) .init work
  else .error ⟨.witnessProgramWrongLength, work⟩

/-- The branch for witness v2: one ML-DSA signature. -/
def verifyWitnessV2Program : Except Fault Work :=
  match witness with
  | [vchSig, vchPubKey] =>
    if vchPubKey.length ≠ pqPubkeySize then .error ⟨.witnessProgramMismatch, work⟩
    else if env.hashes.sha256 vchPubKey ≠ program then .error ⟨.witnessProgramMismatch, work⟩
    else if env.checker.checkPQSig vchSig vchPubKey ([0x52, 0x20] ++ program) .witnessV0 then
      .ok work
    else .error ⟨.checksigverify, work⟩
  | _ => .error ⟨.witnessProgramMismatch, work⟩

/-- `VerifyWitnessProgram`. -/
def verifyWitnessProgram (witversion : ℕ) (program : Bytes) (isP2sh : Bool) (work : Work) :
    Except Fault Work :=
  if witversion = 0 then verifyWitnessV0Program env witness program work
  else if witversion = 1 ∧ program.length = 32 ∧ !isP2sh then
    verifyTaprootProgram env witness program work
  else if witversion = 2 ∧ program.length = 32 ∧ !isP2sh then
    verifyWitnessV2Program env witness program work
  else if witversion = 3 ∧ program.length = witnessV3Size ∧ !isP2sh then
    verifyXcoinV3Program env witness program work
  else if !isP2sh ∧ witversion = 1 ∧ program = [0x4e, 0x73] then .ok work
  else if ScriptFlag.discourageUpgradableWitnessProgram ∈ env.flags then
    .error ⟨.discourageUpgradableWitnessProgram, work⟩
  else .ok work

/-! ## Verifying an input -/

/-- `EvalScript` on a script outside a witness, with fresh execution data. -/
def evalBase : Except Fault Machine :=
  evalScript { env with sigversion := .base } stack script .init work

/-- The stack is not empty and its top is true. -/
def checkTopTrue (m : Machine) : Except Fault Unit :=
  match m.stack with
  | [] => m.fail .evalFalse
  | top :: _ => if castToBool top then .ok () else m.fail .evalFalse

/-- Where `VerifyScript` stands after a script was evaluated: the stack, whether a
witness program was verified, and the work. -/
structure VerifyState where
  stack : List Bytes
  hadWitness : Bool
  work : Work
deriving DecidableEq, Repr

/-- `stack.resize(1)`: the bottom item stays. -/
def resizeToOne : List Bytes := [stack.getLastD []]

/-- The witness program of a script, if it is one: the script signature must be what is
expected, and the program must be satisfied. -/
def verifyProgramOf (scriptSigOk isP2sh : Bool) (malleated : ScriptError) (witness : List Bytes)
    (state : VerifyState) : Except Fault VerifyState :=
  if ScriptFlag.witness ∉ env.flags then .ok state
  else
    match isWitnessProgram script with
    | none => .ok state
    | some (witversion, program) =>
      if !scriptSigOk then .error ⟨malleated, state.work⟩
      else do
        let work ← verifyWitnessProgram env witness witversion program isP2sh state.work
        return ⟨resizeToOne state.stack, true, work⟩

/-- The bytes of `CScript() << data`. -/
def pushData (data : Bytes) : Bytes :=
  if data.length < opPushdata1 then UInt8.ofNat data.length :: data
  else if data.length ≤ 0xff then 0x4c :: UInt8.ofNat data.length :: data
  else if data.length ≤ 0xffff then 0x4d :: Bytes.ofNatLE 2 data.length ++ data
  else 0x4e :: Bytes.ofNatLE 4 data.length ++ data

/-- The bytes of `CScript() << n` for a number. -/
def pushInt64 (n : ℤ) : Bytes :=
  if n = -1 ∨ (1 ≤ n ∧ n ≤ 16) then [UInt8.ofNat (n + 0x50).toNat]
  else if n = 0 then [0x00]
  else pushData (scriptNumSerialize n)

/-- Pay to script hash: the last push of the script signature is evaluated as a script. -/
def verifyP2sh (scriptSig scriptPubKey : Bytes) (stackCopy : List Bytes) (witness : List Bytes)
    (state : VerifyState) : Except Fault VerifyState :=
  if ScriptFlag.p2sh ∈ env.flags ∧ isPayToScriptHash scriptPubKey then
    if !isPushOnly scriptSig then .error ⟨.sigPushonly, state.work⟩
    else
      match stackCopy with
      | [] => .error ⟨.unknownError, state.work⟩
      | pubKey2 :: rest => do
        let m ← evalBase env rest pubKey2 state.work
        let _ ← checkTopTrue m
        verifyProgramOf env pubKey2 (scriptSig == pushData pubKey2) true .witnessMalleatedP2sh
          witness ⟨m.stack, state.hadWitness, m.work⟩
  else .ok state

/-- The two checks at the end.  The flags must be consistent; a failed assertion on them is
an unknown error. -/
def verifyEnd (state : VerifyState) : Except Fault Work :=
  if ScriptFlag.cleanstack ∈ env.flags ∧
      ¬(ScriptFlag.p2sh ∈ env.flags ∧ ScriptFlag.witness ∈ env.flags) then
    .error ⟨.unknownError, state.work⟩
  else if ScriptFlag.cleanstack ∈ env.flags ∧ state.stack.length ≠ 1 then
    .error ⟨.cleanstack, state.work⟩
  else if ScriptFlag.witness ∈ env.flags ∧ ScriptFlag.p2sh ∉ env.flags then
    .error ⟨.unknownError, state.work⟩
  else if ScriptFlag.witness ∈ env.flags ∧ !state.hadWitness ∧ witness ≠ [] then
    .error ⟨.witnessUnexpected, state.work⟩
  else .ok state.work

/-- `VerifyScript`. -/
def verifyScript (scriptSig scriptPubKey : Bytes) (witness : List Bytes) : Except Fault Work :=
  if ScriptFlag.sigpushonly ∈ env.flags ∧ isPushOnly scriptSig = false then
    .error ⟨.sigPushonly, .none⟩
  else do
    let first ← evalBase env [] scriptSig .none
    let m ← evalBase env first.stack scriptPubKey first.work
    let _ ← checkTopTrue m
    let state ← verifyProgramOf env scriptPubKey scriptSig.isEmpty false .witnessMalleated witness
      ⟨m.stack, false, m.work⟩
    let state ← verifyP2sh env scriptSig scriptPubKey first.stack witness state
    verifyEnd env witness state

/-! ## Checking an input of a transaction -/

/-- `GetBlockScriptFlags` once all buried deployments are active. -/
def blockScriptFlags : Flags :=
  {.p2sh, .witness, .taproot, .xcoinV3, .dersig, .checklocktimeverify, .checksequenceverify,
    .nulldummy}

/-- What a script of this input asks the transaction, with the data that `CheckInputScripts`
precomputes from the spent outputs. -/
def spendContext (tx : Transaction) (spentOutputs : List TxOut) (nIn : ℕ) : SpendContext where
  hashes := hashes
  primitives := primitives
  tx := tx
  nIn := nIn
  txdata := initTransactionData hashes tx spentOutputs false

/-- The environment of a script of this input. -/
def inputEnv (others : OtherChecks) (flags : Flags) (tx : Transaction) (spentOutputs : List TxOut)
    (nIn : ℕ) : Env where
  flags := flags
  sigversion := .base
  hashes := hashes
  checker := (spendContext hashes primitives tx spentOutputs nIn).checker others

/-- `CScriptCheck::operator()` for an input and the output it spends.  Its checker asserts that the
precomputed data is there (`MissingDataBehavior::ASSERT_FAIL`); here data that is missing is an
ordinary failure. -/
def scriptCheck (others : OtherChecks) (flags : Flags) (tx : Transaction)
    (spentOutputs : List TxOut) (nIn : ℕ) : Except Fault Work :=
  match tx.vin[nIn]?, spentOutputs[nIn]? with
  | some txin, some txout =>
    verifyScript (inputEnv hashes primitives others flags tx spentOutputs nIn) txin.scriptSig
      txout.scriptPubKey txin.scriptWitness
  | _, _ => .error ⟨.unknownError, .none⟩

end XCoin.Script
