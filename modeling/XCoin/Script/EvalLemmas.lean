import XCoin.Lib.ExceptRun
import XCoin.Script.VerifyScript

/-!
# How script executions succeed

One lemma for each step of the interpreter that says when it succeeds and in
which state.  The leaf templates and the signature rules are proved from these; none
of those proofs looks inside a step again.
-/

namespace XCoin.Script

open Consensus

/-! ## Steps of the machine -/

section Machine

variable {m m' : Machine} {α : Type}

@[simp] theorem Machine.fail_eq_ok {error : ScriptError} {a : α} :
    (m.fail error : Except Fault α) = .ok a ↔ False := by
  simp [Machine.fail]

@[simp] theorem Machine.lift_eq_ok {x : Except ScriptError α} {a : α} :
    m.lift x = .ok a ↔ x = .ok a := by
  cases x with
  | error error => simp [Machine.lift]
  | ok value => simp [Machine.lift]

@[simp] theorem Machine.withStack_stack (stack : List Bytes) :
    (m.withStack stack).stack = stack := rfl

@[simp] theorem Machine.push_stack (vch : Bytes) : (m.push vch).stack = vch :: m.stack := rfl

@[simp] theorem Machine.next_stack : m.next.stack = m.stack := rfl

@[simp] theorem Machine.countOp_stack (limited : Bool) : (m.countOp limited).stack = m.stack := rfl

theorem Machine.charge_eq_ok {weight : ℤ} {error : ScriptError} :
    m.charge weight error = .ok m' ↔
      weight ≤ m.execdata.validationWeightLeft ∧ m' = m.spend weight := by
  unfold Machine.charge
  split_ifs with hnegative
  · simp only [Machine.fail_eq_ok, false_iff, not_and]
    intro hweight
    simp only [Machine.spend] at hnegative
    omega
  · simp only [Machine.spend] at hnegative
    simp only [Except.ok.injEq, eq_comm, iff_and_self]
    intro _
    omega

theorem endStep_eq_ok :
    endStep m = .ok m' ↔ m.stack.length + m.altstack.length ≤ maxStackSize ∧ m' = m.next := by
  unfold endStep
  split_ifs with hlarge
  · simp only [Machine.fail_eq_ok, false_iff, not_and]
    intro hsmall
    omega
  · simp only [Except.ok.injEq, eq_comm, iff_and_self]
    intro _
    omega

end Machine

/-! ## Instructions outside conditionals -/

section Instr

theorem isDisabled_of_le_op16 : ∀ {opcode : ℕ}, opcode ≤ op16 → isDisabled opcode = false := by
  decide

theorem opcode_ne_codeseparator {opcode : ℕ} (hsmall : opcode ≤ op16) :
    opcode ≠ opCodeseparator := by
  rintro rfl
  exact absurd hsmall (by decide)

variable {env : Env} {m : Machine} {instr : Instr}

theorem evalInstr_push (hexec : m.vfExec = [])
    (hminimal : env.requireMinimal = false ∨ checkMinimalPush instr.data instr.opcode = true)
    (hopcode : instr.opcode ≤ opPushdata4) (hdata : instr.data.length ≤ maxScriptElementSize) :
    evalInstr env m instr = endStep (m.push instr.data) := by
  have hcount : countOpcode env m instr.opcode = .ok m :=
    if_pos (hopcode.trans (by decide))
  have hsmall : instr.opcode ≤ op16 := hopcode.trans (by decide)
  have hdisabled := isDisabled_of_le_op16 hsmall
  have hseparator : ¬(instr.opcode = opCodeseparator ∧ env.sigversion = .base ∧
      ScriptFlag.constScriptcode ∈ env.flags) := fun h => opcode_ne_codeseparator hsmall h.1
  have hpush : dispatch env m instr = .ok (m.push instr.data) := by
    unfold dispatch execPush
    rw [if_pos ⟨by simp [hexec], hopcode⟩, if_neg]
    rintro ⟨hrequired, hlonger⟩
    rcases hminimal with hfree | hshortest
    · exact absurd hrequired (by simp [hfree])
    · exact absurd hlonger (by simp [hshortest])
  unfold evalInstr
  rw [if_neg (not_lt.mpr hdata), hcount, Except.ok_bind, if_neg (by simp [hdisabled]),
    if_neg hseparator, hpush, Except.ok_bind]

theorem evalInstr_number {value : ℤ} (hexec : m.vfExec = []) (hlow : opPushdata4 < instr.opcode)
    (hhigh : instr.opcode ≤ op16) (hdata : instr.data = [])
    (hop : decodeOp instr.opcode = .smallInt value) :
    evalInstr env m instr = endStep (m.push (scriptNumSerialize value)) := by
  have hcount : countOpcode env m instr.opcode = .ok m := if_pos hhigh
  have hdisabled := isDisabled_of_le_op16 hhigh
  have hrun : dispatch env m instr = .ok (m.push (scriptNumSerialize value)) := by
    unfold dispatch
    rw [if_neg (by rintro ⟨_, hpush⟩; omega), if_pos (Or.inl (by simp [hexec])), hop]
    rfl
  unfold evalInstr
  rw [if_neg (by simp [hdata]), hcount, Except.ok_bind, if_neg (by simp [hdisabled]),
    if_neg (fun h => opcode_ne_codeseparator hhigh h.1), hrun, Except.ok_bind]

theorem evalInstr_smallInt (hexec : m.vfExec = []) (hlow : op1 ≤ instr.opcode)
    (hhigh : instr.opcode ≤ op16) (hdata : instr.data = []) :
    evalInstr env m instr =
      endStep (m.push (scriptNumSerialize ((instr.opcode : ℤ) - 80))) := by
  have hop : decodeOp instr.opcode = .smallInt ((instr.opcode : ℤ) - 80) := by
    unfold decodeOp
    rw [if_pos (Or.inr ⟨hlow, hhigh⟩)]
    rfl
  exact evalInstr_number hexec (lt_of_lt_of_le (show opPushdata4 < op1 by decide) hlow) hhigh hdata
    hop

theorem evalInstr_op (hexec : m.vfExec = []) (hlimits : env.sigversion.scriptLimits = true)
    (hopcode : op16 < instr.opcode) (hdata : instr.data = [])
    (hcount : m.nOpCount < maxOpsPerScript) (hdisabled : isDisabled instr.opcode = false)
    (hseparator : instr.opcode ≠ opCodeseparator) :
    evalInstr env m instr =
      execOp env (m.countOp true) (decodeOp instr.opcode) true instr.rest >>= endStep := by
  have hpushes : opPushdata4 < op16 := by decide
  have hcounted : countOpcode env m instr.opcode = .ok (m.countOp true) := by
    unfold countOpcode
    rw [if_neg (not_le.mpr hopcode), hlimits, if_neg (by rintro ⟨_, hover⟩; omega)]
  have hrun : dispatch env (m.countOp true) instr =
      execOp env (m.countOp true) (decodeOp instr.opcode) true instr.rest := by
    have hall : (m.countOp true).vfExec.all id = true := by
      simp [Machine.countOp, hexec]
    unfold dispatch
    rw [if_neg (by rintro ⟨_, hpush⟩; omega), if_pos (Or.inl hall), hall]
  unfold evalInstr
  rw [if_neg (by simp [hdata]), hcounted, Except.ok_bind, if_neg (by simp [hdisabled]),
    if_neg (by rintro ⟨hcode, _⟩; exact hseparator hcode), hrun]

end Instr

/-! ## Signatures -/

section Signature

variable {env : Env} {m m' : Machine} {sig key pubkey : Bytes}

theorem chargeSignature_eq_ok {weight : ℤ} (hsig : sig ≠ []) :
    m.chargeSignature sig weight = .ok m' ↔
      weight ≤ m.execdata.validationWeightLeft ∧ m' = m.spend weight := by
  unfold Machine.chargeSignature
  rw [if_neg hsig, Machine.charge_eq_ok]

theorem checkPubkeyAndSigV3_eq_ok {success : Bool} :
    checkPubkeyAndSigV3 env m sig key pubkey = .ok (m', success) ↔
      pubkey.length = pqPubkeySize ∧ env.hashes.sha256 pubkey = key ∧
        (env.checker.checkPQSigV3 sig pubkey m.execdata).result = .ok () ∧
        m' = m.countMldsa (env.checker.checkPQSigV3 sig pubkey m.execdata).performed ∧
        success = true := by
  unfold checkPubkeyAndSigV3
  split_ifs with hlength hhash
  · simp [hlength]
  · simp [hhash]
  · rw [not_ne_iff] at hlength hhash
    cases hresult : (env.checker.checkPQSigV3 sig pubkey m.execdata).result with
    | error error => simp [hresult]
    | ok value => simp [hresult, hlength, hhash, eq_comm]

theorem checkSigSlh_eq_ok {success : Bool} :
    checkSigSlh env m sig key = .ok (m', success) ↔
      (env.checker.checkSLHSigV3 sig key m.execdata).result = .ok () ∧
        m' = m.countSlh (env.checker.checkSLHSigV3 sig key m.execdata).performed ∧
        success = true := by
  unfold checkSigSlh
  cases hresult : (env.checker.checkSLHSigV3 sig key m.execdata).result with
  | error error => simp [hresult]
  | ok value => simp [hresult, eq_comm]

/-- **ML-DSA rule.**  When a signature for a key hash is valid. -/
theorem evalChecksigXcoinV3_eq_true (hkey : key.length = pqPubkeyHashSize) :
    evalChecksigXcoinV3 env m sig key pubkey = .ok (m', true) ↔
      sig ≠ [] ∧ xcoinV3ValidationWeightMldsa ≤ m.execdata.validationWeightLeft ∧
        checkPubkeyAndSigV3 env (m.spend xcoinV3ValidationWeightMldsa) sig key pubkey =
          .ok (m', true) := by
  have hnonempty : pqPubkeyHashSize ≠ 0 := by decide
  unfold evalChecksigXcoinV3
  rw [Except.bind_eq_ok_iff]
  by_cases hsig : sig = []
  · -- an empty signature is a failed check, never a successful one
    simp only [hsig, ne_eq, not_true_eq_false, false_and, iff_false, not_exists, not_and]
    intro charged _
    simp only [hnonempty, hkey, if_true, if_false]
    split_ifs <;> simp [Except.pure_eq_ok]
  · simp only [chargeSignature_eq_ok hsig, hsig, hnonempty, hkey, if_true, if_false, ne_eq,
      not_false_eq_true, true_and, and_assoc]
    constructor
    · rintro ⟨charged, hweight, rfl, hcheck⟩
      exact ⟨hweight, hcheck⟩
    · rintro ⟨hweight, hcheck⟩
      exact ⟨_, hweight, rfl, hcheck⟩

/-- **SLH-DSA rule.**  When a signature for a key is valid. -/
theorem evalChecksigXcoinSlh_eq_true (hkey : key.length = slhPubkeySize) :
    evalChecksigXcoinSlh env m sig key = .ok (m', true) ↔
      sig ≠ [] ∧ xcoinV3ValidationWeightSlh ≤ m.execdata.validationWeightLeft ∧
        checkSigSlh env (m.spend xcoinV3ValidationWeightSlh) sig key = .ok (m', true) := by
  have hnonempty : slhPubkeySize ≠ 0 := by decide
  unfold evalChecksigXcoinSlh
  rw [Except.bind_eq_ok_iff]
  by_cases hsig : sig = []
  · simp only [hsig, ne_eq, not_true_eq_false, false_and, iff_false, not_exists, not_and]
    intro charged _
    simp only [hnonempty, hkey, if_true, if_false]
    simp [Except.pure_eq_ok]
  · simp only [chargeSignature_eq_ok hsig, hsig, hnonempty, hkey, if_true, if_false, ne_eq,
      not_false_eq_true, true_and, and_assoc]
    constructor
    · rintro ⟨charged, hweight, rfl, hcheck⟩
      exact ⟨hweight, hcheck⟩
    · rintro ⟨hweight, hcheck⟩
      exact ⟨_, hweight, rfl, hcheck⟩

end Signature

/-! ## Locks -/

section Locks

variable {env : Env} {m m' : Machine} {top : Bytes} {below : List Bytes} {value : ℤ}

theorem execCheckLockTimeVerify_eq_ok (hflag : ScriptFlag.checklocktimeverify ∈ env.flags)
    (hstack : m.stack = top :: below) (hvalue : readNum top env.requireMinimal 5 = .ok value)
    (hpositive : 0 ≤ value) :
    execCheckLockTimeVerify env m = .ok m' ↔
      env.checker.checkLockTime value = true ∧ m' = m := by
  unfold execCheckLockTimeVerify
  rw [if_neg (not_not.mpr hflag), hstack]
  simp only [hvalue, Machine.lift, Except.ok_bind, if_neg (not_lt.mpr hpositive)]
  cases env.checker.checkLockTime value with
  | false => simp
  | true => simp [Except.pure_eq_ok, eq_comm]

theorem execCheckSequenceVerify_eq_ok (hflag : ScriptFlag.checksequenceverify ∈ env.flags)
    (hstack : m.stack = top :: below) (hvalue : readNum top env.requireMinimal 5 = .ok value)
    (hpositive : 0 ≤ value) (henabled : sequenceDisabled value = false) :
    execCheckSequenceVerify env m = .ok m' ↔
      env.checker.checkSequence value = true ∧ m' = m := by
  unfold execCheckSequenceVerify
  rw [if_neg (not_not.mpr hflag), hstack]
  simp only [hvalue, henabled, Machine.lift, Except.ok_bind, if_neg (not_lt.mpr hpositive)]
  cases env.checker.checkSequence value with
  | false => simp
  | true => simp [Except.pure_eq_ok, eq_comm]

end Locks

end XCoin.Script
