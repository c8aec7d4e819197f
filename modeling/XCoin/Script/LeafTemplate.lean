import XCoin.Script.WitnessV3

/-!
# Leaf templates

`ParseXcoinV3LeafTemplate` recognises the leaves a wallet can sign: a key with
`OP_CHECKSIG`, or a key with `OP_CHECKSIGVERIFY` and an absolute or relative lock.

A leaf is run once here, the signature first (`evalLoop_key_check`) and then the lock
(`evalLoop_lock`).  What is left is `TemplateOps.accepts_iff`: a statement about the
items below the key and about what the checker says of the lock.
-/

namespace XCoin.Script

open Consensus

variable {template : XcoinV3LeafTemplate} {script : Bytes} {env : Env} {success : Bool}

/-! ## The templates -/

/-- `XcoinV3LeafTemplate::Algorithm`. -/
inductive LeafAlgorithm where
  | mldsa
  | slh
deriving DecidableEq, Repr

/-- `XcoinV3LeafTemplate::Timelock`. -/
inductive LeafTimelock where
  | none
  | after
  | older
deriving DecidableEq, Repr

/-- `XcoinV3LeafTemplate`. -/
structure XcoinV3LeafTemplate where
  algorithm : LeafAlgorithm
  /-- 32 bytes: the hash of the ML-DSA key, or the SLH-DSA key itself -/
  key : Bytes
  timelock : LeafTimelock
  timelockValue : ℕ
deriving DecidableEq, Repr

/-- The leaf version of an algorithm. -/
def LeafAlgorithm.leafVersion : LeafAlgorithm → UInt8
  | mldsa => xcoinLeafPq
  | slh => xcoinLeafSlh

/-- The signature version of its leaves. -/
def LeafAlgorithm.sigversion : LeafAlgorithm → SigVersion
  | mldsa => .xcoinPqTapscript
  | slh => .xcoinSlhTapscript

/-- The algorithm that a leaf version selects. -/
def leafAlgorithm (leafVersion : UInt8) : Option LeafAlgorithm :=
  if leafVersion = xcoinLeafPq then some .mldsa
  else if leafVersion = xcoinLeafSlh then some .slh
  else none

/-- All instructions of a script, or nothing if one cannot be read. -/
def decodeOps : List (Option Instr) → Option (List Instr)
  | [] => some []
  | none :: _ => none
  | some instr :: rest => (decodeOps rest).map (instr :: ·)

/-- The number `<n>`: a small number, or a minimal script number of one to five bytes. -/
def templateNumber (instr : Instr) : Option ℤ :=
  if op1 ≤ instr.opcode ∧ instr.opcode ≤ op16 then some (decodeOpN instr.opcode)
  else if instr.opcode ≤ opPushdata4 ∧ instr.data ≠ [] ∧ instr.data.length ≤ 5 then
    match scriptNum instr.data true 5 with
    | .error _ => none
    | .ok n => some n
  else none

/-- The lock that an opcode names. -/
def templateTimelock (opcode : ℕ) : Option LeafTimelock :=
  if opcode = opChecklocktimeverify then some .after
  else if opcode = opChecksequenceverify then some .older
  else none

/-- The second half of a template with a lock. -/
def lockedTemplate (algorithm : LeafAlgorithm) (key : Bytes) (number lock : Instr) :
    Option XcoinV3LeafTemplate := do
  let n ← templateNumber number
  if n < 1 ∨ 0x7fffffff < n then none
  else
    let timelock ← templateTimelock lock.opcode
    some ⟨algorithm, key, timelock, n.toNat⟩

/-- `ParseXcoinV3LeafTemplate`. -/
def parseXcoinV3LeafTemplate (leafVersion : UInt8) (script : Bytes) :
    Option XcoinV3LeafTemplate := do
  let algorithm ← leafAlgorithm leafVersion
  match decodeOps (scriptOps script) with
  | some [key, check] =>
    if key.opcode ≠ 0x20 ∨ key.data.length ≠ 32 then none
    else if check.opcode ≠ opChecksig then none
    else some ⟨algorithm, key.data, .none, 0⟩
  | some [key, check, number, lock] =>
    if key.opcode ≠ 0x20 ∨ key.data.length ≠ 32 then none
    else if check.opcode ≠ opChecksigverify then none
    else lockedTemplate algorithm key.data number lock
  | _ => none

/-! ## What is parsed -/

theorem leafAlgorithm_eq_some {leafVersion : UInt8} {algorithm : LeafAlgorithm}
    (h : leafAlgorithm leafVersion = some algorithm) : leafVersion = algorithm.leafVersion := by
  unfold leafAlgorithm at h
  split_ifs at h with hpq hslh
  · cases h
    exact hpq
  · cases h
    exact hslh

theorem decodeOps_eq_some {ops : List (Option Instr)} {instrs : List Instr}
    (h : decodeOps ops = some instrs) : ops = instrs.map some := by
  induction ops generalizing instrs with
  | nil =>
    cases h
    rfl
  | cons first rest ih =>
    cases first with
    | none => cases h
    | some instr =>
      simp only [decodeOps, Option.map_eq_some_iff] at h
      obtain ⟨others, hrest, rfl⟩ := h
      rw [ih hrest, List.map_cons]

/-- The instructions of a template. -/
inductive TemplateOps (template : XcoinV3LeafTemplate) : List Instr → Prop where
  | plain (key check : Instr) (hkey : key.opcode = 0x20) (hdata : key.data = template.key)
      (hcheck : check.opcode = opChecksig) (hlock : template.timelock = .none) :
      TemplateOps template [key, check]
  | locked (key check number lock : Instr) (hkey : key.opcode = 0x20)
      (hdata : key.data = template.key) (hcheck : check.opcode = opChecksigverify)
      (hnumber : templateNumber number = some (template.timelockValue : ℤ))
      (hlow : 1 ≤ template.timelockValue) (hhigh : template.timelockValue ≤ 0x7fffffff)
      (hlock : templateTimelock lock.opcode = some template.timelock) :
      TemplateOps template [key, check, number, lock]

/-- **What the parser accepts.** -/
theorem parseXcoinV3LeafTemplate_eq_some {leafVersion : UInt8} {template : XcoinV3LeafTemplate}
    (h : parseXcoinV3LeafTemplate leafVersion script = some template) :
    leafVersion = template.algorithm.leafVersion ∧ template.key.length = 32 ∧
      ∃ ops, scriptOps script = ops.map some ∧ TemplateOps template ops := by
  unfold parseXcoinV3LeafTemplate at h
  obtain ⟨algorithm, halgorithm, h⟩ := Option.bind_eq_some_iff.mp h
  have hversion := leafAlgorithm_eq_some halgorithm
  split at h
  · rename_i key check hops
    split_ifs at h with hkey hcheck
    cases h
    simp only [ne_eq, not_or, not_not] at hkey hcheck
    exact ⟨hversion, hkey.2, _, decodeOps_eq_some hops, .plain key check hkey.1 rfl hcheck rfl⟩
  · rename_i key check number lock hops
    split_ifs at h with hkey hcheck
    simp only [ne_eq, not_or, not_not] at hkey hcheck
    unfold lockedTemplate at h
    obtain ⟨n, hnumber, h⟩ := Option.bind_eq_some_iff.mp h
    split_ifs at h with hrange
    obtain ⟨timelock, htimelock, h⟩ := Option.bind_eq_some_iff.mp h
    cases h
    have hn : (n.toNat : ℤ) = n := by omega
    refine ⟨hversion, hkey.2, _, decodeOps_eq_some hops, ?_⟩
    refine .locked key check number lock hkey.1 rfl hcheck ?_ ?_ ?_ htimelock
    · rw [hnumber, hn]
    · show 1 ≤ n.toNat
      omega
    · show n.toNat ≤ 0x7fffffff
      omega
  · cases h

theorem evalInstr_templateNumber {number : Instr} {n : ℕ}
    (hnumber : templateNumber number = some (n : ℤ)) (hlow : 1 ≤ n)
    (hdata : opPushdata4 < number.opcode → number.data = []) :
    ∃ vch, castToBool vch = true ∧ readNum vch false 5 = .ok (n : ℤ) ∧
      ∀ (env : Env) (m : Machine), m.vfExec = [] → env.requireMinimal = false →
        evalInstr env m number = endStep (m.push vch) := by
  have hread : ∀ vch : Bytes, vch.length ≤ 5 → setVch vch = n →
      castToBool vch = true ∧ readNum vch false 5 = .ok (n : ℤ) := by
    intro vch hlength hvalue
    refine ⟨castToBool_of_setVch_ne_zero (by omega), ?_⟩
    unfold readNum scriptNum
    rw [if_neg (by omega), if_neg (by simp), hvalue]
  unfold templateNumber at hnumber
  split_ifs at hnumber with hsmall hpush
  · -- a small number: its value is one byte
    obtain ⟨hfirst, hlast⟩ := hsmall
    have hopcode : (number.opcode : ℤ) - 80 = n := by
      simp only [decodeOpN, Option.some.injEq] at hnumber
      rw [if_neg (by rintro hzero; simp [hzero] at hfirst)] at hnumber
      simp only [op1] at hnumber hfirst
      omega
    have hbytes : ∀ k : ℕ, 1 ≤ k → k ≤ 16 → (scriptNumSerialize k).length ≤ 5 ∧
        setVch (scriptNumSerialize k) = k := by
      intro k hone hsixteen
      interval_cases k <;> decide
    obtain ⟨hlength, hvalue⟩ := hbytes n hlow (by simp only [op16] at hlast; omega)
    obtain ⟨htrue, hreads⟩ := hread _ hlength hvalue
    refine ⟨scriptNumSerialize n, htrue, hreads, ?_⟩
    intro env m hexec _
    have hempty : number.data = [] :=
      hdata (lt_of_lt_of_le (show opPushdata4 < op1 by decide) hfirst)
    rw [evalInstr_smallInt hexec hfirst hlast hempty, hopcode]
  · -- a push: the parser has read it as the interpreter will
    obtain ⟨hopcode, _, hlength⟩ := hpush
    have hvalue : setVch number.data = n := by
      unfold scriptNum at hnumber
      split_ifs at hnumber
      simpa using hnumber
    obtain ⟨htrue, hreads⟩ := hread _ hlength hvalue
    refine ⟨number.data, htrue, hreads, ?_⟩
    intro env m hexec hminimal
    exact evalInstr_push hexec (Or.inl hminimal) hopcode
      (hlength.trans (by decide))

/-! ## The run of a leaf -/

/-- The signature opcode reads its arguments from `below` the key and leaves `rest`; `m'` and
`success` are the results of the signature rule. -/
def SignatureResult (env : Env) (algorithm : LeafAlgorithm) (m : Machine) (key : Bytes)
    (below rest : List Bytes) (m' : Machine) (success : Bool) : Prop :=
  match algorithm with
  | .mldsa => ∃ sig pubkey, below = sig :: pubkey :: rest ∧
      evalChecksigXcoinV3 env m sig key pubkey = .ok (m', success)
  | .slh => ∃ sig, below = sig :: rest ∧ evalChecksigXcoinSlh env m sig key = .ok (m', success)

section Run

variable {env : Env} {algorithm : LeafAlgorithm} {m m' : Machine} {key : Bytes}
  {below rest : List Bytes}

theorem execChecksig_eq_ok (hversion : env.sigversion = algorithm.sigversion)
    (hstack : m.stack = key :: below) (verify : Bool) :
    execChecksig env m verify = .ok m' ↔
      ∃ rest m₁ success, SignatureResult env algorithm m key below rest m₁ success ∧
        (m₁.withStack rest).pushResult verify success .checksigverify = .ok m' := by
  unfold execChecksig SignatureResult
  cases algorithm with
  | mldsa =>
    rw [if_pos (show env.sigversion = .xcoinPqTapscript from hversion), hstack]
    match below with
    | [] => simp
    | [sig] => simp
    | sig :: pubkey :: rest =>
      simp only [Except.bind_eq_ok_iff, Prod.exists, List.cons.injEq]
      constructor
      · rintro ⟨m₁, success, hcheck, hpush⟩
        exact ⟨rest, m₁, success, ⟨sig, pubkey, ⟨rfl, rfl, rfl⟩, hcheck⟩, hpush⟩
      · rintro ⟨_, m₁, success, ⟨_, _, ⟨rfl, rfl, rfl⟩, hcheck⟩, hpush⟩
        exact ⟨m₁, success, hcheck, hpush⟩
  | slh =>
    rw [if_neg (by rw [hversion]; simp [LeafAlgorithm.sigversion]), hstack]
    match below with
    | [] => simp
    | sig :: rest =>
      have hrule : evalChecksig env m sig key = evalChecksigXcoinSlh env m sig key := by
        unfold evalChecksig
        rw [hversion]
        rfl
      simp only [Except.bind_eq_ok_iff, Prod.exists, List.cons.injEq, hrule]
      constructor
      · rintro ⟨m₁, success, hcheck, hpush⟩
        exact ⟨rest, m₁, success, ⟨sig, ⟨rfl, rfl⟩, hcheck⟩, hpush⟩
      · rintro ⟨_, m₁, success, ⟨_, ⟨rfl, rfl⟩, hcheck⟩, hpush⟩
        exact ⟨m₁, success, hcheck, hpush⟩

/-- A signature rule only changes the budget and the counted work. -/
theorem SignatureResult.frame (hkey : key.length = 32)
    (hresult : SignatureResult env algorithm m key below rest m' success)
    (hsuccess : success = true) :
    m'.vfExec = m.vfExec ∧ m'.altstack = m.altstack ∧ m'.nOpCount = m.nOpCount := by
  subst hsuccess
  cases algorithm with
  | mldsa =>
    obtain ⟨sig, pubkey, _, heval⟩ := hresult
    obtain ⟨_, _, hcheck⟩ := (evalChecksigXcoinV3_eq_true hkey).mp heval
    obtain ⟨_, _, _, rfl, _⟩ := checkPubkeyAndSigV3_eq_ok.mp hcheck
    exact ⟨rfl, rfl, rfl⟩
  | slh =>
    obtain ⟨sig, _, heval⟩ := hresult
    obtain ⟨_, _, hcheck⟩ := (evalChecksigXcoinSlh_eq_true hkey).mp heval
    obtain ⟨_, rfl, _⟩ := checkSigSlh_eq_ok.mp hcheck
    exact ⟨rfl, rfl, rfl⟩

theorem pushResult_true_eq_ok {error : ScriptError} :
    m.pushResult true success error = .ok m' ↔ success = true ∧ m' = m := by
  cases success with
  | false => simp [Machine.pushResult]
  | true => simp [Machine.pushResult, eq_comm]

/-- Where the signature opcode starts: the key is on top of the initial stack. -/
def Machine.atChecksig (m : Machine) (key : Bytes) : Machine := (m.push key).next.countOp true

/-- The opcode that checks the signature, as the last opcode or before a lock. -/
def checksigOpcode (verify : Bool) : ℕ := if verify then opChecksigverify else opChecksig

theorem evalLoop_push_op {push check : Instr} {ops : List (Option Instr)} {vch : Bytes}
    (hlimits : env.sigversion.scriptLimits = true) (hexec : m.vfExec = [])
    (hcount : m.nOpCount < maxOpsPerScript) (hpush : evalInstr env m push = endStep (m.push vch))
    (hopcode : op16 < check.opcode) (hdata : check.data = [])
    (hdisabled : isDisabled check.opcode = false) (hseparator : check.opcode ≠ opCodeseparator) :
    evalLoop env m (some push :: some check :: ops) = .ok m' ↔
      (m.push vch).stack.length + m.altstack.length ≤ maxStackSize ∧
        ∃ m₁, execOp env (m.atChecksig vch) (decodeOp check.opcode) true check.rest = .ok m₁ ∧
          m₁.stack.length + m₁.altstack.length ≤ maxStackSize ∧
          evalLoop env m₁.next ops = .ok m' := by
  have hrun : evalInstr env (m.push vch).next check =
      execOp env (m.atChecksig vch) (decodeOp check.opcode) true check.rest >>= endStep :=
    @evalInstr_op env (m.push vch).next check hexec hlimits hopcode hdata hcount hdisabled
      hseparator
  simp only [evalLoop, hpush, Except.bind_eq_ok_iff, endStep_eq_ok]
  constructor
  · rintro ⟨_, ⟨hsize, rfl⟩, _, hcheckRun, hrest⟩
    rw [hrun, Except.bind_eq_ok_iff] at hcheckRun
    obtain ⟨m₁, hop, hend⟩ := hcheckRun
    obtain ⟨hsize₁, rfl⟩ := endStep_eq_ok.mp hend
    exact ⟨hsize, m₁, hop, hsize₁, hrest⟩
  · rintro ⟨hsize, m₁, hop, hsize₁, hrest⟩
    refine ⟨_, ⟨hsize, rfl⟩, m₁.next, ?_, hrest⟩
    rw [hrun, hop, Except.ok_bind]
    exact endStep_eq_ok.mpr ⟨hsize₁, rfl⟩

/-- The first two instructions of a template: push the key, check the signature. -/
theorem evalLoop_key_check {keyInstr check : Instr} {ops : List (Option Instr)} {verify : Bool}
    (hversion : env.sigversion = algorithm.sigversion) (hminimal : env.requireMinimal = false)
    (hexec : m.vfExec = []) (hcount : m.nOpCount < maxOpsPerScript)
    (hkey : keyInstr.opcode = 0x20) (hlength : keyInstr.data.length = 32)
    (hcheck : check.opcode = checksigOpcode verify) (hdata : check.data = []) :
    evalLoop env m (some keyInstr :: some check :: ops) = .ok m' ↔
      (m.push keyInstr.data).stack.length + m.altstack.length ≤ maxStackSize ∧
        ∃ m₁, execChecksig env (m.atChecksig keyInstr.data) verify = .ok m₁ ∧
          m₁.stack.length + m₁.altstack.length ≤ maxStackSize ∧
          evalLoop env m₁.next ops = .ok m' := by
  have hlimits : env.sigversion.scriptLimits = true := by
    rw [hversion]
    cases algorithm <;> rfl
  have hpush : evalInstr env m keyInstr = endStep (m.push keyInstr.data) :=
    evalInstr_push hexec (Or.inl hminimal) (by rw [hkey]; decide) (by rw [hlength]; decide)
  have hop : decodeOp check.opcode = .checksig verify := by
    rw [hcheck]
    cases verify <;> rfl
  have hopcode : op16 < check.opcode ∧ isDisabled check.opcode = false ∧
      check.opcode ≠ opCodeseparator := by
    rw [hcheck]
    cases verify <;> decide
  rw [evalLoop_push_op hlimits hexec hcount hpush hopcode.1 hdata hopcode.2.1 hopcode.2.2, hop]
  rfl

/-- What the checker says about the lock of a template. -/
def lockHolds (checker : Checker) (template : XcoinV3LeafTemplate) : Bool :=
  match template.timelock with
  | .none => true
  | .after => checker.checkLockTime template.timelockValue
  | .older => checker.checkSequence template.timelockValue

theorem execOp_lock {opcode : ℕ} {vch : Bytes} (hcltv : ScriptFlag.checklocktimeverify ∈ env.flags)
    (hcsv : ScriptFlag.checksequenceverify ∈ env.flags) (hminimal : env.requireMinimal = false)
    (hlock : templateTimelock opcode = some template.timelock)
    (hread : readNum vch false 5 = .ok (template.timelockValue : ℤ))
    (hhigh : template.timelockValue ≤ 0x7fffffff) (hstack : m.stack = vch :: below)
    (after : Bytes) :
    execOp env m (decodeOp opcode) true after = .ok m' ↔
      lockHolds env.checker template = true ∧ m' = m := by
  rw [← hminimal] at hread
  unfold templateTimelock at hlock
  unfold lockHolds
  split_ifs at hlock with habsolute hrelative
  · rw [← Option.some.inj hlock, habsolute]
    exact execCheckLockTimeVerify_eq_ok hcltv hstack hread (Int.natCast_nonneg _)
  · have henabled : sequenceDisabled (template.timelockValue : ℤ) = false := by
      simp only [sequenceDisabled, decide_eq_false_iff_not, not_not]
      omega
    rw [← Option.some.inj hlock, hrelative]
    exact execCheckSequenceVerify_eq_ok hcsv hstack hread (Int.natCast_nonneg _) henabled

/-- The last two instructions of a template with a lock leave its number, which is true. -/
theorem evalLoop_lock {number lock : Instr} (hcltv : ScriptFlag.checklocktimeverify ∈ env.flags)
    (hcsv : ScriptFlag.checksequenceverify ∈ env.flags) (hminimal : env.requireMinimal = false)
    (hlimits : env.sigversion.scriptLimits = true)
    (hnumber : templateNumber number = some (template.timelockValue : ℤ))
    (hlow : 1 ≤ template.timelockValue) (hhigh : template.timelockValue ≤ 0x7fffffff)
    (hlock : templateTimelock lock.opcode = some template.timelock)
    (hnumberData : opPushdata4 < number.opcode → number.data = [])
    (hlockData : opPushdata4 < lock.opcode → lock.data = []) :
    ∃ vch, castToBool vch = true ∧ ∀ m m' : Machine, m.vfExec = [] →
      m.nOpCount < maxOpsPerScript →
      (evalLoop env m [some number, some lock] = .ok m' ↔
        (m.push vch).stack.length + m.altstack.length ≤ maxStackSize ∧
          lockHolds env.checker template = true ∧
          m' = ((m.push vch).next.countOp true).next) := by
  obtain ⟨vch, htrue, hread, hpush⟩ := evalInstr_templateNumber hnumber hlow hnumberData
  refine ⟨vch, htrue, ?_⟩
  intro m m' hexec hcount
  have hopcode : op16 < lock.opcode ∧ isDisabled lock.opcode = false ∧
      lock.opcode ≠ opCodeseparator := by
    unfold templateTimelock at hlock
    split_ifs at hlock with habsolute hrelative
    · rw [habsolute]
      decide
    · rw [hrelative]
      decide
  have hrun : ∀ m₁, evalInstr env (m.push vch).next lock = .ok m₁ ↔
      (m.push vch).stack.length + m.altstack.length ≤ maxStackSize ∧
        lockHolds env.checker template = true ∧ m₁ = ((m.push vch).next.countOp true).next := by
    intro m₁
    have hstep := @evalInstr_op env (m.push vch).next lock hexec hlimits hopcode.1
      (hlockData (lt_trans (by decide) hopcode.1)) hcount hopcode.2.1 hopcode.2.2
    have hstack : ((m.push vch).next.countOp true).stack = vch :: m.stack := rfl
    rw [hstep, Except.bind_eq_ok_iff]
    simp only [execOp_lock hcltv hcsv hminimal hlock hread hhigh hstack, endStep_eq_ok]
    constructor
    · rintro ⟨_, ⟨hholds, rfl⟩, hsize, rfl⟩
      exact ⟨hsize, hholds, rfl⟩
    · rintro ⟨hsize, hholds, rfl⟩
      exact ⟨_, ⟨hholds, rfl⟩, hsize, rfl⟩
  simp only [evalLoop, hpush env m hexec hminimal, Except.bind_eq_ok_iff, endStep_eq_ok,
    Except.ok.injEq]
  constructor
  · rintro ⟨_, ⟨_, rfl⟩, m₁, hlockRun, rfl⟩
    exact (hrun m₁).mp hlockRun
  · rintro ⟨hsize, hholds, rfl⟩
    exact ⟨_, ⟨hsize, rfl⟩, _, (hrun _).mpr ⟨hsize, hholds, rfl⟩, rfl⟩

end Run

/-- A script is accepted when the run ends outside conditionals with one true item. -/
theorem evalScript_accepts_iff {stack : List Bytes} {execdata : ExecData} {work : Work}
    (hsize : script.length ≤ maxScriptSize) :
    (evalScript env stack script execdata work >>= checkFinalStack).isOk = true ↔
      ∃ m top, evalLoop env (Machine.start stack script execdata work) (scriptOps script) = .ok m ∧
        m.vfExec = [] ∧ m.stack = [top] ∧ castToBool top = true := by
  have hfinal : ∀ m, (checkFinalStack m).isOk = true ↔
      ∃ top, m.stack = [top] ∧ castToBool top = true := by
    intro m
    unfold checkFinalStack
    split
    · rename_i top hstack
      cases htop : castToBool top <;> simp [hstack, htop, Machine.fail]
    · rename_i hstack
      simp only [Machine.fail, Except.isOk_error, Bool.false_eq_true, false_iff, not_exists]
      rintro top ⟨hone, _⟩
      exact hstack top hone
  have hbalanced : ∀ m m', checkBalanced m = .ok m' ↔ m.vfExec = [] ∧ m' = m := by
    intro m m'
    unfold checkBalanced
    split_ifs with hempty
    · simp [hempty, eq_comm]
    · simp [hempty]
  unfold evalScript
  rw [if_neg (by omega), Except.isOk_bind_iff]
  simp only [Except.bind_eq_ok_iff, hbalanced, hfinal]
  constructor
  · rintro ⟨m, ⟨_, hrun, hexec, rfl⟩, top, hstack, htop⟩
    exact ⟨m, top, hrun, hexec, hstack, htop⟩
  · rintro ⟨m, top, hrun, hexec, hstack, htop⟩
    exact ⟨m, ⟨m, hrun, hexec, rfl⟩, top, hstack, htop⟩

/-- The rest of a script is accepted from this state. -/
def Accepts (env : Env) (m : Machine) (ops : List (Option Instr)) : Prop :=
  ∃ m' top, evalLoop env m ops = .ok m' ∧ m'.vfExec = [] ∧ m'.stack = [top] ∧
    castToBool top = true

theorem accepts_push_op_iff {m : Machine} {push check : Instr} {ops : List (Option Instr)}
    {vch : Bytes} (hlimits : env.sigversion.scriptLimits = true) (hexec : m.vfExec = [])
    (hcount : m.nOpCount < maxOpsPerScript) (hpush : evalInstr env m push = endStep (m.push vch))
    (hopcode : op16 < check.opcode) (hdata : check.data = [])
    (hdisabled : isDisabled check.opcode = false) (hseparator : check.opcode ≠ opCodeseparator) :
    Accepts env m (some push :: some check :: ops) ↔
      (m.push vch).stack.length + m.altstack.length ≤ maxStackSize ∧
        ∃ m₁, execOp env (m.atChecksig vch) (decodeOp check.opcode) true check.rest = .ok m₁ ∧
          m₁.stack.length + m₁.altstack.length ≤ maxStackSize ∧ Accepts env m₁.next ops := by
  unfold Accepts
  simp only [evalLoop_push_op hlimits hexec hcount hpush hopcode hdata hdisabled hseparator]
  constructor
  · rintro ⟨m', top, ⟨hsize, m₁, hop, hsize₁, hrest⟩, hend⟩
    exact ⟨hsize, m₁, hop, hsize₁, m', top, hrest, hend⟩
  · rintro ⟨hsize, m₁, hop, hsize₁, m', top, hrest, hend⟩
    exact ⟨m', top, ⟨hsize, m₁, hop, hsize₁, hrest⟩, hend⟩

theorem TemplateOps.script_length_le {ops : List Instr} (hkey : template.key.length = 32)
    (hops : scriptOps script = ops.map some) (htemplate : TemplateOps template ops) :
    script.length ≤ maxScriptSize := by
  obtain ⟨hempty, hlength⟩ := scriptOps_shape hops
  refine hlength.trans ?_
  cases htemplate with
  | plain key check hpush hdata hcheck hlock =>
    have hcheckData : check.data = [] := hempty check (by simp) (by rw [hcheck]; decide)
    simp [hdata, hkey, hcheckData, maxScriptSize]
  | locked key check number lock hpush hdata hcheck hnumber hlow hhigh hlock =>
    have hcheckData : check.data = [] := hempty check (by simp) (by rw [hcheck]; decide)
    have hlockData : lock.data = [] := by
      apply hempty lock (by simp)
      unfold templateTimelock at hlock
      split_ifs at hlock with habsolute hrelative
      · rw [habsolute]
        decide
      · rw [hrelative]
        decide
    have hnumberData : number.data.length ≤ 5 := by
      unfold templateNumber at hnumber
      split_ifs at hnumber with hsmall hshort
      · rw [hempty number (by simp) (lt_of_lt_of_le (by decide) hsmall.1)]
        simp
      · exact hshort.2.2
    simp only [List.map_cons, List.map_nil, List.sum_cons, List.sum_nil, hdata, hkey, hcheckData,
      hlockData, List.length_nil, maxScriptSize]
    omega

theorem SignatureResult.length_le {algorithm : LeafAlgorithm} {m m' : Machine} {key : Bytes}
    {below : List Bytes} (hresult : SignatureResult env algorithm m key below [] m' success) :
    below.length ≤ 2 := by
  cases algorithm with
  | mldsa =>
    obtain ⟨sig, pubkey, rfl, _⟩ := hresult
    simp
  | slh =>
    obtain ⟨sig, rfl, _⟩ := hresult
    simp

section Accept

variable {env : Env} {template : XcoinV3LeafTemplate} {script : Bytes} {stack : List Bytes}
  {execdata : ExecData} {work : Work} {ops : List Instr}

/-- **A leaf's run.**  The script of a template is accepted exactly when the stack holds the
arguments of a successful signature check, and nothing else, and the lock holds. -/
theorem TemplateOps.accepts_iff (hversion : env.sigversion = template.algorithm.sigversion)
    (hcltv : ScriptFlag.checklocktimeverify ∈ env.flags)
    (hcsv : ScriptFlag.checksequenceverify ∈ env.flags) (hminimal : env.requireMinimal = false)
    (hkey : template.key.length = 32) (hops : scriptOps script = ops.map some)
    (htemplate : TemplateOps template ops) :
    (evalScript env stack script execdata work >>= checkFinalStack).isOk = true ↔
      (∃ m, SignatureResult env template.algorithm
        ((Machine.start stack script execdata work).atChecksig template.key) template.key stack []
        m true) ∧ lockHolds env.checker template = true := by
  have hempty := (scriptOps_shape hops).1
  have hlimits : env.sigversion.scriptLimits = true := by
    rw [hversion]
    cases template.algorithm <;> rfl
  have hcount : (Machine.start stack script execdata work).nOpCount < maxOpsPerScript :=
    show 0 < maxOpsPerScript by decide
  have hroom : ∀ m, SignatureResult env template.algorithm
      ((Machine.start stack script execdata work).atChecksig template.key) template.key stack []
      m true → (template.key :: stack).length + 0 ≤ maxStackSize := by
    intro m hresult
    have hbelow := hresult.length_le
    simp only [List.length_cons, maxStackSize]
    omega
  rw [evalScript_accepts_iff (htemplate.script_length_le hkey hops), hops]
  cases htemplate with
  | plain key check hpush hdata hcheck hlock =>
    have hcheckData : check.data = [] := hempty check (by simp) (by rw [hcheck]; decide)
    have hrun := fun m => @evalLoop_key_check env template.algorithm
      (Machine.start stack script execdata work) m key check [] false hversion hminimal rfl
      hcount hpush (by rw [hdata, hkey]) hcheck hcheckData
    have hholds : lockHolds env.checker template = true := by
      unfold lockHolds
      rw [hlock]
    rw [hdata] at hrun
    constructor
    · rintro ⟨m, top, hloop, _, hstack, htop⟩
      obtain ⟨_, m₁, hsign, _, hend⟩ := (hrun m).mp hloop
      obtain rfl : m₁.next = m := Except.ok.inj hend
      obtain ⟨rest, m₂, success, hresult, hpushed⟩ :=
        (execChecksig_eq_ok hversion rfl false).mp hsign
      obtain rfl : (m₂.withStack rest).push (vchBool success) = m₁ := Except.ok.inj hpushed
      obtain ⟨rfl, rfl⟩ : vchBool success = top ∧ rest = [] := by simpa using hstack
      rw [castToBool_vchBool] at htop
      exact ⟨⟨m₂, htop ▸ hresult⟩, hholds⟩
    · rintro ⟨⟨m₂, hresult⟩, _⟩
      obtain ⟨hexec, halt, _⟩ := hresult.frame hkey rfl
      have hsign : execChecksig env
          ((Machine.start stack script execdata work).atChecksig template.key) false =
            .ok ((m₂.withStack []).push vchTrue) :=
        (execChecksig_eq_ok hversion rfl false).mpr ⟨[], m₂, true, hresult, rfl⟩
      refine ⟨((m₂.withStack []).push vchTrue).next, vchTrue, ?_, hexec, rfl, rfl⟩
      refine (hrun _).mpr ⟨hroom m₂ hresult, _, hsign, ?_, rfl⟩
      show 1 + m₂.altstack.length ≤ maxStackSize
      rw [halt]
      exact show 1 ≤ maxStackSize by decide
  | locked key check number lock hpush hdata hcheck hnumber hlow hhigh hlock =>
    have hcheckData : check.data = [] := hempty check (by simp) (by rw [hcheck]; decide)
    have hrun := fun m => @evalLoop_key_check env template.algorithm
      (Machine.start stack script execdata work) m key check [some number, some lock] true
      hversion hminimal rfl hcount hpush (by rw [hdata, hkey]) hcheck hcheckData
    rw [hdata] at hrun
    obtain ⟨vch, hvch, hlockRun⟩ := evalLoop_lock hcltv hcsv hminimal hlimits hnumber hlow hhigh
      hlock (hempty number (by simp)) (hempty lock (by simp))
    constructor
    · rintro ⟨m, top, hloop, _, hstack, _⟩
      obtain ⟨_, m₁, hsign, _, hend⟩ := (hrun m).mp hloop
      obtain ⟨rest, m₂, success, hresult, hpushed⟩ :=
        (execChecksig_eq_ok hversion rfl true).mp hsign
      obtain ⟨rfl, rfl⟩ := pushResult_true_eq_ok.mp hpushed
      obtain ⟨hexec, _, hops⟩ := hresult.frame hkey rfl
      have hcount₁ : m₂.nOpCount < maxOpsPerScript := by
        rw [hops]
        exact show 1 < maxOpsPerScript by decide
      obtain ⟨_, hholds, rfl⟩ := (hlockRun (m₂.withStack rest).next m hexec hcount₁).mp hend
      obtain ⟨_, rfl⟩ : vch = top ∧ rest = [] := by simpa using hstack
      exact ⟨⟨m₂, hresult⟩, hholds⟩
    · rintro ⟨⟨m₂, hresult⟩, hholds⟩
      obtain ⟨hexec, halt, hops⟩ := hresult.frame hkey rfl
      have hcount₁ : m₂.nOpCount < maxOpsPerScript := by
        rw [hops]
        exact show 1 < maxOpsPerScript by decide
      have hsign : execChecksig env
          ((Machine.start stack script execdata work).atChecksig template.key) true =
            .ok (m₂.withStack []) :=
        (execChecksig_eq_ok hversion rfl true).mpr
          ⟨[], m₂, true, hresult, pushResult_true_eq_ok.mpr ⟨rfl, rfl⟩⟩
      have hend := (hlockRun (m₂.withStack []).next _ hexec hcount₁).mpr
        ⟨show 1 + m₂.altstack.length ≤ maxStackSize by
          rw [halt]; exact show 1 ≤ maxStackSize by decide, hholds, rfl⟩
      refine ⟨_, vch, (hrun _).mpr ⟨hroom m₂ hresult, _, hsign, ?_, hend⟩, hexec, rfl, hvch⟩
      show 0 + m₂.altstack.length ≤ maxStackSize
      rw [halt]
      exact show 0 ≤ maxStackSize by decide

end Accept

theorem TemplateOps.scanOpSuccess_eq_none {ops : List Instr} (htemplate : TemplateOps template ops)
    (flags : Flags) : scanOpSuccess flags (ops.map some) = none := by
  cases htemplate with
  | plain key check hpush hdata hcheck hlock =>
    simp only [List.map_cons, List.map_nil, scanOpSuccess, hpush, hcheck]
    rfl
  | locked key check number lock hpush hdata hcheck hnumber hlow hhigh hlock =>
    have hnumberOp : isOpSuccess number.opcode = false := by
      have hsmall : number.opcode ≤ op16 ∧ number.opcode ≠ 80 := by
        unfold templateNumber at hnumber
        split_ifs at hnumber with hfew hpushed
        · exact ⟨hfew.2, by simp only [op1] at hfew; omega⟩
        · simp only [opPushdata4] at hpushed
          simp only [op16]
          omega
      simp only [op16] at hsmall
      simp [isOpSuccess]
      omega
    have hlockOp : isOpSuccess lock.opcode = false := by
      unfold templateTimelock at hlock
      split_ifs at hlock with habsolute hrelative
      · rw [habsolute]
        rfl
      · rw [hrelative]
        rfl
    simp only [List.map_cons, List.map_nil, scanOpSuccess, hpush, hcheck, hnumberOp, hlockOp]
    rfl

/-- The execution of a leaf without success opcodes: the limits on the items, then the run. -/
theorem executeWitnessScript_isOk_iff {items : List Bytes} {execdata : ExecData} {work : Work}
    (hv3 : env.sigversion.isXcoinV3Tapscript = true)
    (hscan : scanOpSuccess env.flags (scriptOps script) = none) :
    (executeWitnessScript env items script execdata work).isOk = true ↔
      items.length ≤ maxStackSize ∧
        (∀ item ∈ items, item.length ≤ maxXcoinV3InitialElementSize) ∧
        (evalScript env items.reverse script execdata work >>= checkFinalStack).isOk = true := by
  have hrules : env.sigversion.tapscriptRules = true := by
    cases hversion : env.sigversion <;> simp_all [SigVersion.isXcoinV3Tapscript,
      SigVersion.tapscriptRules]
  unfold executeWitnessScript runWitnessScript maxInitialElementSize
  rw [if_pos hrules, hscan, hv3, hrules]
  simp only [true_and, if_true]
  split_ifs with hmany hlarge
  · simp only [Except.isOk_error, Bool.false_eq_true, false_iff, not_and]
    omega
  · simp only [List.any_eq_true, decide_eq_true_eq] at hlarge
    obtain ⟨item, hmem, hsize⟩ := hlarge
    simp only [Except.isOk_error, Bool.false_eq_true, false_iff, not_and]
    intro _ hitems
    exact absurd (hitems item hmem) (not_le.mpr hsize)
  · simp only [List.any_eq_true, decide_eq_true_eq, not_exists, not_and, not_lt] at hlarge
    simp only [not_lt.mp hmany, true_and]
    exact ⟨fun hok => ⟨hlarge, hok⟩, fun hok => hok.2⟩

end XCoin.Script
