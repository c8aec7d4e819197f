import XCoin.Script.StackMachine
import XCoin.Consensus.Params

/-!
# The script interpreter

`EvalScript` and the signature checks it calls.  An execution is a run over the
instructions of a script (`scriptOps`); its state is a `Machine`, and a failed
execution keeps the work that was done before it failed (`Fault`).  `Work` is the
one part of the state that the source does not have: it counts the bytes that
hash opcodes hashed, the post-quantum verifications that were performed, and the
non-push opcodes that were executed or skipped.

What a script asks of the transaction goes through a `Checker`, the source's
`BaseSignatureChecker`.  The checks of the signature algorithms that no output of
this chain uses (`EvalChecksigPreTapscript`, `OP_CHECKMULTISIG` and the Schnorr
verification) are parameters.
-/

namespace XCoin.Script

open Consensus

variable (env : Env) (m : Machine) (sig pubkey : Bytes) (stack : List Bytes) (verify : Bool)
  (instr : Instr)

/-! ## Flags and versions -/

/-- `script_verify_flag_name`. -/
inductive ScriptFlag where
  | p2sh
  | strictenc
  | dersig
  | lowS
  | nulldummy
  | sigpushonly
  | minimaldata
  | discourageUpgradableNops
  | cleanstack
  | checklocktimeverify
  | checksequenceverify
  | witness
  | discourageUpgradableWitnessProgram
  | minimalif
  | nullfail
  | witnessPubkeytype
  | constScriptcode
  | taproot
  | discourageUpgradableTaprootVersion
  | discourageOpSuccess
  | discourageUpgradablePubkeytype
  | xcoinV3
deriving DecidableEq, Repr

/-- `script_verify_flags`. -/
abbrev Flags := Finset ScriptFlag

/-- `SigVersion`. -/
inductive SigVersion where
  | base
  | witnessV0
  | taproot
  | tapscript
  | xcoinPqTapscript
  | xcoinSlhTapscript
deriving DecidableEq, Repr

/-- `IsXcoinV3Tapscript`. -/
def SigVersion.isXcoinV3Tapscript : SigVersion → Bool
  | xcoinPqTapscript | xcoinSlhTapscript => true
  | _ => false

/-- `tapscript_rules`. -/
def SigVersion.tapscriptRules : SigVersion → Bool
  | tapscript | xcoinPqTapscript | xcoinSlhTapscript => true
  | _ => false

/-- `script_limits`: all but BIP 342 tapscript have the size and opcode limits. -/
def SigVersion.scriptLimits : SigVersion → Bool
  | base | witnessV0 | xcoinPqTapscript | xcoinSlhTapscript => true
  | _ => false

/-! ## Constants -/

/-- `PQ_PUBKEY_SIZE`. -/
def pqPubkeySize : ℕ := 1952
/-- `PQ_SIGNATURE_SIZE`. -/
def pqSignatureSize : ℕ := 3309
/-- `PQ_PUBKEY_HASH_SIZE`. -/
def pqPubkeyHashSize : ℕ := 32
/-- `SLH_PUBKEY_SIZE`. -/
def slhPubkeySize : ℕ := 32
/-- `SLH_SIGNATURE_SIZE`. -/
def slhSignatureSize : ℕ := 7856

/-- `VALIDATION_WEIGHT_PER_SIGOP_PASSED`. -/
def validationWeightPerSigopPassed : ℤ := 50

/-- `VALIDATION_WEIGHT_OFFSET`. -/
def validationWeightOffset : ℤ := 50

/-- The budget a hashed byte costs. -/
def xcoinV3ValidationWeightPerHashedByte : ℤ := 1
/-- The budget an ML-DSA check costs. -/
def xcoinV3ValidationWeightMldsa : ℤ := 200
/-- The budget an SLH-DSA check costs. -/
def xcoinV3ValidationWeightSlh : ℤ := 1080

/-! ## What an execution needs from outside -/

/-- The hash functions, with the sizes of their digests. -/
structure HashFunctions where
  sha256 : Bytes → Bytes
  sha1 : Bytes → Bytes
  ripemd160 : Bytes → Bytes
  length_sha256 : ∀ data, (sha256 data).length = 32
  length_sha1 : ∀ data, (sha1 data).length = 20
  length_ripemd160 : ∀ data, (ripemd160 data).length = 20

/-- The hash function of an opcode. -/
def HashFunctions.run (hashes : HashFunctions) : HashOp → Bytes → Bytes
  | .ripemd160, data => hashes.ripemd160 data
  | .sha1, data => hashes.sha1 data
  | .sha256, data => hashes.sha256 data
  | .hash160, data => hashes.ripemd160 (hashes.sha256 data)
  | .hash256, data => hashes.sha256 (hashes.sha256 data)

/-- `ScriptExecutionData`: what a leaf's signature hash and weight budget need.  The
annex hash is present exactly when an annex is. -/
structure ExecData where
  tapleafHash : Bytes
  codeseparatorPos : UInt32
  annexHash : Option Bytes
  validationWeightLeft : ℤ
deriving DecidableEq, Repr

/-- `ScriptExecutionData` before anything is set. -/
def ExecData.init : ExecData := ⟨[], 0xffffffff, none, 0⟩

/-- The result of a post-quantum signature check, and whether the primitive was run. -/
structure SigCheck where
  performed : Bool
  result : Except ScriptError Unit

/-- `BaseSignatureChecker`, with the checks of other algorithms as they are. -/
structure Checker where
  checkLockTime : ℤ → Bool
  checkSequence : ℤ → Bool
  checkDefaultCheckTemplateVerifyHash : Bytes → Bool
  checkPQSigV3 : Bytes → Bytes → ExecData → SigCheck
  checkSLHSigV3 : Bytes → Bytes → ExecData → SigCheck
  checkPQSig : Bytes → Bytes → Bytes → SigVersion → Bool
  checkSchnorrSignature : Bytes → Bytes → SigVersion → ExecData → Except ScriptError Unit
  /-- `EvalChecksigPreTapscript` on signature, key and script code -/
  evalChecksigPreTapscript : Flags → SigVersion → Bytes → Bytes → Bytes → Except ScriptError Bool
  /-- `OP_CHECKMULTISIG` on script code, opcode count and stack: the result, the stack
  without the arguments and the new opcode count -/
  evalCheckMultisig : Flags → SigVersion → Bytes → ℕ → List Bytes →
    Except ScriptError (Bool × List Bytes × ℕ)
  /-- `VerifyTaprootCommitment` on control block, program and leaf hash -/
  verifyTaprootCommitment : Bytes → Bytes → Bytes → Bool

/-- What a script runs in. -/
structure Env where
  flags : Flags
  sigversion : SigVersion
  hashes : HashFunctions
  checker : Checker

/-- `fRequireMinimal`. -/
def Env.requireMinimal : Bool := decide (ScriptFlag.minimaldata ∈ env.flags)

/-! ## The state of an execution -/

/-- Work done so far. -/
structure Work where
  /-- bytes hashed by hash opcodes, with the second pass of the two-pass ones -/
  hashedBytes : ℕ
  /-- ML-DSA verifications performed -/
  mldsa : ℕ
  /-- SLH-DSA verifications performed -/
  slh : ℕ
  /-- opcodes above `OP_16` executed or skipped -/
  nonPushOps : ℕ
deriving DecidableEq, Repr

/-- No work. -/
def Work.none : Work := ⟨0, 0, 0, 0⟩

/-- A failed execution. -/
structure Fault where
  error : ScriptError
  work : Work
deriving DecidableEq, Repr

/-- The local variables of `EvalScript` and the execution data. -/
structure Machine where
  stack : List Bytes
  altstack : List Bytes
  /-- the condition stack, innermost first -/
  vfExec : List Bool
  nOpCount : ℕ
  opcodePos : ℕ
  /-- the script from the last code separator on -/
  scriptCode : Bytes
  execdata : ExecData
  work : Work
deriving DecidableEq, Repr

/-- `return set_error(serror, error)`. -/
def Machine.fail {α : Type} (m : Machine) (error : ScriptError) : Except Fault α :=
  .error ⟨error, m.work⟩

/-- A step that does no work of its own. -/
def Machine.lift {α : Type} (m : Machine) : Except ScriptError α → Except Fault α
  | .error error => m.fail error
  | .ok value => .ok value

/-- Replaces the stack. -/
def Machine.withStack : Machine :=
  { m with stack := stack }

/-- Pushes an element. -/
def Machine.push (vch : Bytes) : Machine := m.withStack (vch :: m.stack)

/-- Take validation weight off the budget. -/
def Machine.spend (weight : ℤ) : Machine :=
  { m with execdata := { m.execdata with
      validationWeightLeft := m.execdata.validationWeightLeft - weight } }

/-- Take validation weight off the budget; below zero the script fails. -/
def Machine.charge (weight : ℤ) (error : ScriptError) : Except Fault Machine :=
  if (m.spend weight).execdata.validationWeightLeft < 0 then (m.spend weight).fail error
  else .ok (m.spend weight)

/-- Counts hashed bytes. -/
def Machine.countHash (bytes : ℕ) : Machine :=
  { m with work := { m.work with hashedBytes := m.work.hashedBytes + bytes } }

/-- Counts an ML-DSA check. -/
def Machine.countMldsa (performed : Bool) : Machine :=
  { m with work := { m.work with mldsa := m.work.mldsa + performed.toNat } }

/-- Counts an SLH-DSA check. -/
def Machine.countSlh (performed : Bool) : Machine :=
  { m with work := { m.work with slh := m.work.slh + performed.toNat } }

/-- Counts an executed opcode. -/
def Machine.countOp (limited : Bool) : Machine :=
  { m with
    nOpCount := m.nOpCount + limited.toNat
    work := { m.work with nonPushOps := m.work.nonPushOps + 1 } }

/-! ## Signature checks -/

/-- The charge for a signature that is not empty. -/
def Machine.chargeSignature (sig : Bytes) (weight : ℤ) : Except Fault Machine :=
  if sig = [] then .ok m else m.charge weight .tapscriptValidationWeight

/-- A key of a size that has no rule yet: nothing is checked. -/
def upgradablePubkey (success : Bool) : Except Fault (Machine × Bool) :=
  if ScriptFlag.discourageUpgradablePubkeytype ∈ env.flags then
    m.fail .discourageUpgradablePubkeytype
  else .ok (m, success)

/-- The ML-DSA rule for a 32-byte key hash and a signature that is not empty. -/
def checkPubkeyAndSigV3 (sig pubkeyHash pubkey : Bytes) : Except Fault (Machine × Bool) :=
  if pubkey.length ≠ pqPubkeySize then m.fail .xcoinV3Pubkey
  else if env.hashes.sha256 pubkey ≠ pubkeyHash then m.fail .xcoinV3Pubkey
  else
    let check := env.checker.checkPQSigV3 sig pubkey m.execdata
    match check.result with
    | .error error => (m.countMldsa check.performed).fail error
    | .ok () => .ok (m.countMldsa check.performed, true)

/-- `EvalChecksigXcoinV3`; the flag of the result is `success`. -/
def evalChecksigXcoinV3 (sig pubkeyHash pubkey : Bytes) : Except Fault (Machine × Bool) := do
  let m ← m.chargeSignature sig xcoinV3ValidationWeightMldsa
  if pubkeyHash.length = 0 then m.fail .tapscriptEmptyPubkey
  else if pubkeyHash.length = pqPubkeyHashSize then
    if sig = [] then
      if pubkey ≠ [] then m.fail .xcoinV3Pubkey else return (m, false)
    else checkPubkeyAndSigV3 env m sig pubkeyHash pubkey
  else upgradablePubkey env m (sig ≠ [])

/-- The SLH-DSA rule for a 32-byte key. -/
def checkSigSlh : Except Fault (Machine × Bool) :=
  let check := env.checker.checkSLHSigV3 sig pubkey m.execdata
  match check.result with
  | .error error => (m.countSlh check.performed).fail error
  | .ok () => .ok (m.countSlh check.performed, true)

/-- `EvalChecksigXcoinSLH`. -/
def evalChecksigXcoinSlh : Except Fault (Machine × Bool) := do
  let m ← m.chargeSignature sig xcoinV3ValidationWeightSlh
  if pubkey.length = 0 then m.fail .tapscriptEmptyPubkey
  else if pubkey.length = slhPubkeySize then
    if sig = [] then return (m, false) else checkSigSlh env m sig pubkey
  else upgradablePubkey env m (sig ≠ [])

/-- `EvalChecksigTapscript`. -/
def evalChecksigTapscript : Except Fault (Machine × Bool) := do
  let m ← m.chargeSignature sig validationWeightPerSigopPassed
  if pubkey.length = 0 then m.fail .tapscriptEmptyPubkey
  else if pubkey.length = 32 then
    if sig = [] then return (m, false)
    else do
      let _ ← m.lift (env.checker.checkSchnorrSignature sig pubkey env.sigversion m.execdata)
      return (m, true)
  else upgradablePubkey env m (sig ≠ [])

/-- `EvalChecksig`, for the versions whose opcodes take a signature and a key.  The
other two end in `assert(false)`. -/
def evalChecksig : Except Fault (Machine × Bool) :=
  match env.sigversion with
  | .base | .witnessV0 => do
    let success ← m.lift (env.checker.evalChecksigPreTapscript env.flags env.sigversion sig
      pubkey m.scriptCode)
    return (m, success)
  | .tapscript => evalChecksigTapscript env m sig pubkey
  | .xcoinSlhTapscript => evalChecksigXcoinSlh env m sig pubkey
  | .taproot | .xcoinPqTapscript => m.fail .unknownError

/-! ## The cases of the switch -/

/-- The tail of a verifying opcode: the result is pushed, or must be true. -/
def Machine.pushResult (verify success : Bool) (error : ScriptError) : Except Fault Machine :=
  if verify then if success then .ok m else m.fail error
  else .ok (m.push (vchBool success))

/-- `OP_CHECKLOCKTIMEVERIFY`. -/
def execCheckLockTimeVerify : Except Fault Machine :=
  if ScriptFlag.checklocktimeverify ∉ env.flags then .ok m
  else
    match m.stack with
    | [] => m.fail .invalidStackOperation
    | top :: _ => do
      let nLockTime ← m.lift (readNum top env.requireMinimal 5)
      if nLockTime < 0 then m.fail .negativeLocktime
      else if env.checker.checkLockTime nLockTime = false then m.fail .unsatisfiedLocktime
      else return m

/-- Bit 31 of a sequence operand, `SEQUENCE_LOCKTIME_DISABLE_FLAG`. -/
def sequenceDisabled (nSequence : ℤ) : Bool := decide (nSequence / 2 ^ 31 % 2 ≠ 0)

/-- `OP_CHECKSEQUENCEVERIFY`. -/
def execCheckSequenceVerify : Except Fault Machine :=
  if ScriptFlag.checksequenceverify ∉ env.flags then .ok m
  else
    match m.stack with
    | [] => m.fail .invalidStackOperation
    | top :: _ => do
      let nSequence ← m.lift (readNum top env.requireMinimal 5)
      if nSequence < 0 then m.fail .negativeLocktime
      else if sequenceDisabled nSequence then return m
      else if env.checker.checkSequence nSequence = false then m.fail .unsatisfiedLocktime
      else return m

/-- The opcodes that policy wants to keep free. -/
def execUpgradableNop : Except Fault Machine :=
  if ScriptFlag.discourageUpgradableNops ∈ env.flags then m.fail .discourageUpgradableNops
  else .ok m

/-- `OP_CHECKTEMPLATEVERIFY`. -/
def execCheckTemplateVerify : Except Fault Machine :=
  if env.sigversion.isXcoinV3Tapscript then
    match m.stack with
    | [] => m.fail .invalidStackOperation
    | top :: _ =>
      if top.length = 32 then
        if env.checker.checkDefaultCheckTemplateVerifyHash top then .ok m
        else m.fail .templateMismatch
      else execUpgradableNop env m
  else execUpgradableNop env m

/-- The argument of a conditional is minimal where that is a rule. -/
def checkMinimalIf (vch : Bytes) : Except ScriptError Unit :=
  if 1 < vch.length ∨ (vch.length = 1 ∧ byteAt vch 0 ≠ 1) then
    if env.sigversion.tapscriptRules then .error .tapscriptMinimalif
    else if env.sigversion = .witnessV0 ∧ ScriptFlag.minimalif ∈ env.flags then .error .minimalif
    else .ok ()
  else .ok ()

/-- `OP_IF` and `OP_NOTIF`; in a branch that is not executed nothing is read. -/
def execIf (negated fExec : Bool) : Except Fault Machine :=
  if fExec then
    match m.stack with
    | [] => m.fail .invalidStackOperation
    | vch :: rest => do
      let _ ← m.lift (checkMinimalIf env vch)
      return { m.withStack rest with vfExec := (castToBool vch ^^ negated) :: m.vfExec }
  else .ok { m with vfExec := false :: m.vfExec }

/-- `OP_ELSE`. -/
def execElse : Except Fault Machine :=
  match m.vfExec with
  | [] => m.fail .unbalancedConditional
  | value :: rest => .ok { m with vfExec := (!value) :: rest }

/-- `OP_ENDIF`. -/
def execEndif : Except Fault Machine :=
  match m.vfExec with
  | [] => m.fail .unbalancedConditional
  | _ :: rest => .ok { m with vfExec := rest }

/-- The bytes a hash opcode hashes: the two-pass ones hash the digest again. -/
def bytesHashed (op : HashOp) (vch : Bytes) : ℕ :=
  match op with
  | .hash160 | .hash256 => vch.length + 32
  | _ => vch.length

/-- A v3 leaf pays for the bytes before they are hashed. -/
def chargeHash (bytes : ℕ) : Except Fault Machine :=
  if env.sigversion.isXcoinV3Tapscript then
    m.charge (bytes * xcoinV3ValidationWeightPerHashedByte) .xcoinV3HashWeight
  else .ok m

/-- The hash opcodes. -/
def execHash (op : HashOp) : Except Fault Machine :=
  match m.stack with
  | [] => m.fail .invalidStackOperation
  | vch :: rest => do
    let m ← chargeHash env m (bytesHashed op vch)
    return (m.countHash (bytesHashed op vch)).withStack (env.hashes.run op vch :: rest)

/-- `OP_CHECKSIG` and `OP_CHECKSIGVERIFY`. -/
def execChecksig : Except Fault Machine :=
  if env.sigversion = .xcoinPqTapscript then
    match m.stack with
    | vchPubKeyHash :: vchSig :: vchPubKey :: rest => do
      let checked ← evalChecksigXcoinV3 env m vchSig vchPubKeyHash vchPubKey
      (checked.1.withStack rest).pushResult verify checked.2 .checksigverify
    | _ => m.fail .invalidStackOperation
  else
    match m.stack with
    | vchPubKey :: vchSig :: rest => do
      let checked ← evalChecksig env m vchSig vchPubKey
      (checked.1.withStack rest).pushResult verify checked.2 .checksigverify
    | _ => m.fail .invalidStackOperation

/-- `OP_CHECKSIGADD`. -/
def execChecksigAdd : Except Fault Machine :=
  if env.sigversion = .base ∨ env.sigversion = .witnessV0 then m.fail .badOpcode
  else if env.sigversion = .xcoinPqTapscript then
    match m.stack with
    | pubkeyHash :: top :: sig :: pubkey :: rest => do
      let num ← m.lift (readNum top env.requireMinimal defaultMaxNumSize)
      let checked ← evalChecksigXcoinV3 env m sig pubkeyHash pubkey
      return checked.1.withStack (scriptNumSerialize (num + checked.2.toInt) :: rest)
    | _ => m.fail .invalidStackOperation
  else
    match m.stack with
    | pubkey :: top :: sig :: rest => do
      let num ← m.lift (readNum top env.requireMinimal defaultMaxNumSize)
      let checked ← evalChecksig env m sig pubkey
      return checked.1.withStack (scriptNumSerialize (num + checked.2.toInt) :: rest)
    | _ => m.fail .invalidStackOperation

/-- `OP_CHECKSIG_PQ` asks the checker about keys of the right size and signatures that are not
empty. -/
def asksCheckPQSig (vchSig vchPubKey : Bytes) : Bool :=
  decide (vchPubKey.length = pqPubkeySize) && !vchSig.isEmpty

/-- `OP_CHECKSIG_PQ` and `OP_CHECKSIGVERIFY_PQ`. -/
def execChecksigPq : Except Fault Machine :=
  match m.stack with
  | vchPubKey :: vchSig :: rest =>
    ((m.countMldsa (asksCheckPQSig vchSig vchPubKey)).withStack rest).pushResult verify
      (asksCheckPQSig vchSig vchPubKey &&
        env.checker.checkPQSig vchSig vchPubKey m.scriptCode env.sigversion)
      .checksigverify
  | _ => m.fail .invalidStackOperation

/-- `OP_CHECKMULTISIG` and `OP_CHECKMULTISIGVERIFY`. -/
def execCheckMultisig : Except Fault Machine :=
  if env.sigversion.tapscriptRules then m.fail .tapscriptCheckmultisig
  else do
    let checked ← m.lift (env.checker.evalCheckMultisig env.flags env.sigversion m.scriptCode
      m.nOpCount m.stack)
    { m.withStack checked.2.1 with nOpCount := checked.2.2 }.pushResult verify checked.1
      .checkmultisigverify

/-- Run a stack operation. -/
def execStackOp (op : StackOp) : Except Fault Machine := do
  let next ← m.lift (runStackOp env.requireMinimal op ⟨m.stack, m.altstack⟩)
  return { m with stack := next.stack, altstack := next.altstack }

/-- The switch of `EvalScript`. -/
def execOp (op : Op) (fExec : Bool) (rest : Bytes) : Except Fault Machine :=
  match op with
  | .smallInt value => .ok (m.push (scriptNumSerialize value))
  | .nop => .ok m
  | .checkLockTimeVerify => execCheckLockTimeVerify env m
  | .checkSequenceVerify => execCheckSequenceVerify env m
  | .checkTemplateVerify => execCheckTemplateVerify env m
  | .upgradableNop => execUpgradableNop env m
  | .opIf negated => execIf env m negated fExec
  | .opElse => execElse m
  | .opEndif => execEndif m
  | .stackOp op => execStackOp env m op
  | .hash op => execHash env m op
  | .codeSeparator =>
    .ok { m with
      scriptCode := rest
      execdata := { m.execdata with codeseparatorPos := UInt32.ofNat m.opcodePos } }
  | .checksig verify => execChecksig env m verify
  | .checksigAdd => execChecksigAdd env m
  | .checksigPq verify => execChecksigPq env m verify
  | .checkMultisig verify => execCheckMultisig env m verify
  | .bad => m.fail .badOpcode

/-! ## The loop -/

/-- The opcode limit.  Only opcodes above `OP_16` are counted, and only where there is a limit. -/
def countOpcode (opcode : ℕ) : Except Fault Machine :=
  if opcode ≤ op16 then .ok m
  else if env.sigversion.scriptLimits ∧ maxOpsPerScript < m.nOpCount + 1 then m.fail .opCount
  else .ok (m.countOp env.sigversion.scriptLimits)

/-- A push in a branch that is executed. -/
def execPush : Except Fault Machine :=
  if env.requireMinimal ∧ checkMinimalPush instr.data instr.opcode = false then
    m.fail .minimaldata
  else .ok (m.push instr.data)

/-- Execute one instruction, or skip it. -/
def dispatch : Except Fault Machine :=
  if m.vfExec.all id ∧ instr.opcode ≤ opPushdata4 then execPush env m instr
  else if m.vfExec.all id ∨ (opIf ≤ instr.opcode ∧ instr.opcode ≤ opEndif) then
    execOp env m (decodeOp instr.opcode) (m.vfExec.all id) instr.rest
  else .ok m

/-- Moves on to the next opcode. -/
def Machine.next : Machine := { m with opcodePos := m.opcodePos + 1 }

/-- The end of the loop body: the size limit and the next position. -/
def endStep : Except Fault Machine :=
  if maxStackSize < m.stack.length + m.altstack.length then m.fail .stackSize
  else .ok m.next

/-- One round of the loop. -/
def evalInstr : Except Fault Machine := do
  if maxScriptElementSize < instr.data.length then m.fail .pushSize
  else do
    let m ← countOpcode env m instr.opcode
    if isDisabled instr.opcode then m.fail .disabledOpcode
    else if instr.opcode = opCodeseparator ∧ env.sigversion = .base ∧
        ScriptFlag.constScriptcode ∈ env.flags then
      m.fail .opCodeseparator
    else do
      let m ← dispatch env m instr
      endStep m

/-- The loop of `EvalScript`; `none` stands for a malformed push. -/
def evalLoop (env : Env) : Machine → List (Option Instr) → Except Fault Machine
  | m, [] => .ok m
  | m, none :: _ => m.fail .badOpcode
  | m, some instr :: rest => do
    let m ← evalInstr env m instr
    evalLoop env m rest

/-- The state before the first instruction; `work` is what was done before this script. -/
def Machine.start (script : Bytes) (execdata : ExecData) (work : Work) : Machine where
  stack := stack
  altstack := []
  vfExec := []
  nOpCount := 0
  opcodePos := 0
  scriptCode := script
  execdata := { execdata with codeseparatorPos := 0xffffffff }
  work := work

/-- All conditionals are closed at the end. -/
def checkBalanced : Except Fault Machine :=
  if m.vfExec = [] then .ok m else m.fail .unbalancedConditional

/-- `EvalScript`. -/
def evalScript (script : Bytes) (execdata : ExecData) (work : Work) : Except Fault Machine :=
  if env.sigversion.scriptLimits ∧ maxScriptSize < script.length then
    (Machine.start stack script execdata work).fail .scriptSize
  else do
    let m ← evalLoop env (Machine.start stack script execdata work) (scriptOps script)
    checkBalanced m

end XCoin.Script
