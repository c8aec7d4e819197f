import XCoin.Script.WitnessV3

/-!
# The validation weight of v3 leaves

A v3 leaf pays for its work from a budget that grows with its witness: one unit for
a hashed byte, 200 for an ML-DSA and 1080 for an SLH-DSA verification.  This file
proves that no run does work that it has not paid for, whether it succeeds or
fails, and from this that a block's v3 inputs cost no more than the block's weight.

The invariant is `Metered`: what was done, plus what is left of the budget, is within
the limit.  A step either leaves the meter alone (`Metered.of_meter_eq`) or charges
before it works (`Metered.charge` and the three lemmas after it).
-/

namespace XCoin.Script

open Consensus

/-! ## The meter -/

/-- What work costs. -/
def Work.cost (work : Work) : ℤ :=
  work.hashedBytes + 200 * work.mldsa + 1080 * work.slh

/-- Work within a limit of cost and within the limit of opcodes. -/
structure Work.Within (limit : ℤ) (work : Work) : Prop where
  cost_le : work.cost ≤ limit
  nonPushOps_le : work.nonPushOps ≤ 201

/-- An execution that can still pay: its cost and what is left of the budget are within the
limit, and every opcode that was not a push is counted. -/
structure Metered (limit : ℤ) (m : Machine) : Prop where
  paid : m.work.cost + m.execdata.validationWeightLeft ≤ limit
  left_nonneg : 0 ≤ m.execdata.validationWeightLeft
  counted : m.work.nonPushOps = m.nOpCount
  limited : m.nOpCount ≤ 201

/-- A step that stays within the limit: a failure has done no more than was paid for, and a
success can still pay. -/
abbrev KeepsMeter {α : Type} (limit : ℤ) (machine : α → Machine) (x : Except Fault α) : Prop :=
  x.Satisfies (fun fault => fault.work.Within limit) fun a => Metered limit (machine a)

section Meter

variable {limit : ℤ} {m m' : Machine} {α : Type}

theorem Metered.within (hmetered : Metered limit m) : m.work.Within limit := by
  refine ⟨?_, ?_⟩
  · have hpaid := hmetered.paid
    have hleft := hmetered.left_nonneg
    omega
  · rw [hmetered.counted]
    exact hmetered.limited

theorem Metered.of_meter_eq (hmetered : Metered limit m) (hwork : m'.work = m.work)
    (hleft : m'.execdata.validationWeightLeft = m.execdata.validationWeightLeft)
    (hcount : m'.nOpCount = m.nOpCount) : Metered limit m' := by
  refine ⟨?_, ?_, ?_, ?_⟩
  · rw [hwork, hleft]
    exact hmetered.paid
  · rw [hleft]
    exact hmetered.left_nonneg
  · rw [hwork, hcount]
    exact hmetered.counted
  · rw [hcount]
    exact hmetered.limited

theorem Metered.withStack (hmetered : Metered limit m) (stack : List Bytes) :
    Metered limit (m.withStack stack) := hmetered.of_meter_eq rfl rfl rfl

theorem Metered.push (hmetered : Metered limit m) (vch : Bytes) : Metered limit (m.push vch) :=
  hmetered.withStack _

theorem Metered.mono {limit' : ℤ} (hmetered : Metered limit m) (hle : limit ≤ limit') :
    Metered limit' m :=
  ⟨hmetered.paid.trans hle, hmetered.left_nonneg, hmetered.counted, hmetered.limited⟩

theorem Metered.fail (hmetered : Metered limit m) (machine : α → Machine) (error : ScriptError) :
    KeepsMeter limit machine (m.fail error) := hmetered.within

theorem Metered.lift {β : Type} (hmetered : Metered limit m) (x : Except ScriptError β) :
    (m.lift x).Satisfies (fun fault => fault.work.Within limit) fun _ => Metered limit m := by
  cases x with
  | error error => exact hmetered.within
  | ok value => exact hmetered

/-- After a charge the work it is for still fits under the limit. -/
theorem Metered.charge {weight : ℤ} (hmetered : Metered limit m) (error : ScriptError) :
    (m.charge weight error).Satisfies (fun fault => fault.work.Within limit)
      fun m' => Metered (limit - weight) m' := by
  unfold Machine.charge
  split_ifs with hover
  · exact hmetered.within
  · have hpaid := hmetered.paid
    simp only [Machine.spend] at hover
    refine ⟨?_, not_lt.mp hover, hmetered.counted, hmetered.limited⟩
    simp only [Machine.spend]
    omega

theorem Metered.countHash {bytes : ℕ} (hmetered : Metered (limit - bytes) m) :
    Metered limit (m.countHash bytes) := by
  refine ⟨?_, hmetered.left_nonneg, hmetered.counted, hmetered.limited⟩
  have hpaid := hmetered.paid
  simp only [Work.cost] at hpaid
  simp only [Machine.countHash, Work.cost]
  omega

theorem Metered.countMldsa (hmetered : Metered (limit - xcoinV3ValidationWeightMldsa) m)
    (performed : Bool) : Metered limit (m.countMldsa performed) := by
  refine ⟨?_, hmetered.left_nonneg, hmetered.counted, hmetered.limited⟩
  have hpaid := hmetered.paid
  have hone := performed.toNat_le
  simp only [Work.cost, xcoinV3ValidationWeightMldsa] at hpaid
  simp only [Machine.countMldsa, Work.cost]
  omega

theorem Metered.countSlh (hmetered : Metered (limit - xcoinV3ValidationWeightSlh) m)
    (performed : Bool) : Metered limit (m.countSlh performed) := by
  refine ⟨?_, hmetered.left_nonneg, hmetered.counted, hmetered.limited⟩
  have hpaid := hmetered.paid
  have hone := performed.toNat_le
  simp only [Work.cost, xcoinV3ValidationWeightSlh] at hpaid
  simp only [Machine.countSlh, Work.cost]
  omega

end Meter

/-! ## Every step keeps the meter -/

section Steps

variable {limit : ℤ} {env : Env} {m : Machine} {sig key : Bytes}

theorem keepsMeter_checkPubkeyAndSigV3 {sig key pubkey : Bytes}
    (hmetered : Metered (limit - xcoinV3ValidationWeightMldsa) m) :
    KeepsMeter limit Prod.fst (checkPubkeyAndSigV3 env m sig key pubkey) := by
  have hunspent : Metered limit m := hmetered.mono (by simp [xcoinV3ValidationWeightMldsa])
  unfold checkPubkeyAndSigV3
  split_ifs
  · exact hunspent.fail _ _
  · exact hunspent.fail _ _
  · simp only
    split
    · exact (hmetered.countMldsa _).fail _ _
    · exact hmetered.countMldsa _

theorem keepsMeter_checkSigSlh (hmetered : Metered (limit - xcoinV3ValidationWeightSlh) m) :
    KeepsMeter limit Prod.fst (checkSigSlh env m sig key) := by
  unfold checkSigSlh
  simp only
  split
  · exact (hmetered.countSlh _).fail _ _
  · exact hmetered.countSlh _

variable (hv3 : env.sigversion.isXcoinV3Tapscript = true)
  (hmetered : Metered limit m)

include hmetered

theorem keepsMeter_upgradablePubkey (success : Bool) :
    KeepsMeter limit Prod.fst (upgradablePubkey env m success) := by
  unfold upgradablePubkey
  split_ifs
  · exact hmetered.fail _ _
  · exact hmetered

/-- A signature that is not empty is paid for before anything is looked at. -/
theorem satisfies_chargeSignature {sig : Bytes} {weight : ℤ} :
    (m.chargeSignature sig weight).Satisfies (fun fault => fault.work.Within limit) fun m' =>
      (sig = [] ∧ Metered limit m') ∨ (sig ≠ [] ∧ Metered (limit - weight) m') := by
  unfold Machine.chargeSignature
  split_ifs with hsig
  · exact Or.inl ⟨hsig, hmetered⟩
  · have hcharged := @Metered.charge limit m weight hmetered .tapscriptValidationWeight
    cases hresult : m.charge weight .tapscriptValidationWeight with
    | error fault =>
      rw [hresult] at hcharged
      exact hcharged
    | ok m' =>
      rw [hresult] at hcharged
      exact Or.inr ⟨hsig, hcharged⟩

theorem keepsMeter_evalChecksigXcoinV3 {sig key pubkey : Bytes} :
    KeepsMeter limit Prod.fst (evalChecksigXcoinV3 env m sig key pubkey) := by
  unfold evalChecksigXcoinV3
  refine (satisfies_chargeSignature hmetered).bind ?_
  rintro charged (⟨rfl, hcharged⟩ | ⟨hsig, hcharged⟩)
  · -- an empty signature is free, and nothing is verified
    rw [if_pos rfl]
    split_ifs
    · exact hcharged.fail _ _
    · exact hcharged.fail _ _
    · exact hcharged
    · exact keepsMeter_upgradablePubkey hcharged _
  · have hunspent : Metered limit charged :=
      hcharged.mono (by simp [xcoinV3ValidationWeightMldsa])
    rw [if_neg hsig]
    split_ifs
    · exact hunspent.fail _ _
    · exact keepsMeter_checkPubkeyAndSigV3 hcharged
    · exact keepsMeter_upgradablePubkey hunspent _

theorem keepsMeter_evalChecksigXcoinSlh :
    KeepsMeter limit Prod.fst (evalChecksigXcoinSlh env m sig key) := by
  unfold evalChecksigXcoinSlh
  refine (satisfies_chargeSignature hmetered).bind ?_
  rintro charged (⟨rfl, hcharged⟩ | ⟨hsig, hcharged⟩)
  · rw [if_pos rfl]
    split_ifs
    · exact hcharged.fail _ _
    · exact hcharged
    · exact keepsMeter_upgradablePubkey hcharged _
  · have hunspent : Metered limit charged :=
      hcharged.mono (by simp [xcoinV3ValidationWeightSlh])
    rw [if_neg hsig]
    split_ifs
    · exact hunspent.fail _ _
    · exact keepsMeter_checkSigSlh hcharged
    · exact keepsMeter_upgradablePubkey hunspent _

theorem keepsMeter_pushResult (verify success : Bool) (error : ScriptError) :
    KeepsMeter limit id (m.pushResult verify success error) := by
  unfold Machine.pushResult
  split_ifs
  · exact hmetered
  · exact hmetered.fail _ _
  · exact hmetered.push _

theorem keepsMeter_execCheckLockTimeVerify :
    KeepsMeter limit id (execCheckLockTimeVerify env m) := by
  unfold execCheckLockTimeVerify
  split_ifs
  · split
    · exact hmetered.fail _ _
    · refine (hmetered.lift _).bind fun nLockTime _ => ?_
      split_ifs
      · exact hmetered.fail _ _
      · exact hmetered.fail _ _
      · exact hmetered
  · exact hmetered

theorem keepsMeter_execCheckSequenceVerify :
    KeepsMeter limit id (execCheckSequenceVerify env m) := by
  unfold execCheckSequenceVerify
  split_ifs
  · split
    · exact hmetered.fail _ _
    · refine (hmetered.lift _).bind fun nSequence _ => ?_
      split_ifs
      · exact hmetered.fail _ _
      · exact hmetered
      · exact hmetered.fail _ _
      · exact hmetered
  · exact hmetered

theorem keepsMeter_execUpgradableNop : KeepsMeter limit id (execUpgradableNop env m) := by
  unfold execUpgradableNop
  split_ifs
  · exact hmetered.fail _ _
  · exact hmetered

theorem keepsMeter_execCheckTemplateVerify :
    KeepsMeter limit id (execCheckTemplateVerify env m) := by
  unfold execCheckTemplateVerify
  split_ifs
  · split
    · exact hmetered.fail _ _
    · split_ifs
      · exact hmetered
      · exact hmetered.fail _ _
      · exact keepsMeter_execUpgradableNop hmetered
  · exact keepsMeter_execUpgradableNop hmetered

theorem keepsMeter_execIf (negated fExec : Bool) :
    KeepsMeter limit id (execIf env m negated fExec) := by
  unfold execIf
  split_ifs
  · split
    · exact hmetered.fail _ _
    · refine (hmetered.lift _).bind fun _ _ => ?_
      exact hmetered.of_meter_eq rfl rfl rfl
  · exact hmetered.of_meter_eq rfl rfl rfl

theorem keepsMeter_execElse : KeepsMeter limit id (execElse m) := by
  unfold execElse
  split
  · exact hmetered.fail _ _
  · exact hmetered.of_meter_eq rfl rfl rfl

theorem keepsMeter_execEndif : KeepsMeter limit id (execEndif m) := by
  unfold execEndif
  split
  · exact hmetered.fail _ _
  · exact hmetered.of_meter_eq rfl rfl rfl

theorem keepsMeter_execStackOp (op : StackOp) : KeepsMeter limit id (execStackOp env m op) := by
  unfold execStackOp
  refine (hmetered.lift _).bind fun next _ => ?_
  exact hmetered.of_meter_eq rfl rfl rfl

include hv3

theorem keepsMeter_evalChecksig : KeepsMeter limit Prod.fst (evalChecksig env m sig key) := by
  unfold evalChecksig
  split
  · simp_all [SigVersion.isXcoinV3Tapscript]
  · simp_all [SigVersion.isXcoinV3Tapscript]
  · simp_all [SigVersion.isXcoinV3Tapscript]
  · exact keepsMeter_evalChecksigXcoinSlh hmetered
  · exact hmetered.fail _ _
  · exact hmetered.fail _ _

theorem keepsMeter_execChecksig (verify : Bool) :
    KeepsMeter limit id (execChecksig env m verify) := by
  unfold execChecksig
  split_ifs
  · split
    · refine (keepsMeter_evalChecksigXcoinV3 hmetered).bind fun checked hchecked => ?_
      exact keepsMeter_pushResult (hchecked.withStack _) _ _ _
    · exact hmetered.fail _ _
  · split
    · refine (keepsMeter_evalChecksig hv3 hmetered).bind fun checked hchecked => ?_
      exact keepsMeter_pushResult (hchecked.withStack _) _ _ _
    · exact hmetered.fail _ _

theorem keepsMeter_execChecksigAdd : KeepsMeter limit id (execChecksigAdd env m) := by
  unfold execChecksigAdd
  split_ifs
  · exact hmetered.fail _ _
  · split
    · refine (hmetered.lift _).bind fun num hnum => ?_
      refine (keepsMeter_evalChecksigXcoinV3 hnum).bind fun checked hchecked => ?_
      exact hchecked.withStack _
    · exact hmetered.fail _ _
  · split
    · refine (hmetered.lift _).bind fun num hnum => ?_
      refine (keepsMeter_evalChecksig hv3 hnum).bind fun checked hchecked => ?_
      exact hchecked.withStack _
    · exact hmetered.fail _ _

/-- The hash opcodes: the bytes are paid for before they are hashed. -/
theorem keepsMeter_execHash (op : HashOp) : KeepsMeter limit id (execHash env m op) := by
  unfold execHash chargeHash
  split
  · exact hmetered.fail _ _
  · rename_i vch rest hstack
    rw [if_pos hv3]
    refine (hmetered.charge _).bind fun charged hcharged => ?_
    simp only [xcoinV3ValidationWeightPerHashedByte, mul_one] at hcharged
    exact hcharged.countHash.withStack _

/-- **One opcode.**  In a v3 leaf, every opcode but `OP_CHECKSIG_PQ` pays for what it does. -/
theorem keepsMeter_execOp {op : Op} (hop : ∀ verify, op ≠ .checksigPq verify)
    (fExec : Bool) (rest : Bytes) : KeepsMeter limit id (execOp env m op fExec rest) := by
  cases op with
  | smallInt value => exact hmetered.push _
  | nop => exact hmetered
  | checkLockTimeVerify => exact keepsMeter_execCheckLockTimeVerify hmetered
  | checkSequenceVerify => exact keepsMeter_execCheckSequenceVerify hmetered
  | checkTemplateVerify => exact keepsMeter_execCheckTemplateVerify hmetered
  | upgradableNop => exact keepsMeter_execUpgradableNop hmetered
  | opIf negated => exact keepsMeter_execIf hmetered negated fExec
  | opElse => exact keepsMeter_execElse hmetered
  | opEndif => exact keepsMeter_execEndif hmetered
  | stackOp op => exact keepsMeter_execStackOp hmetered op
  | hash op => exact keepsMeter_execHash hv3 hmetered op
  | codeSeparator => exact hmetered.of_meter_eq rfl rfl rfl
  | checksig verify => exact keepsMeter_execChecksig hv3 hmetered verify
  | checksigAdd => exact keepsMeter_execChecksigAdd hv3 hmetered
  | checksigPq verify => exact absurd rfl (hop verify)
  | checkMultisig verify =>
    have hrules : env.sigversion.tapscriptRules = true := by
      cases hversion : env.sigversion <;>
        simp_all [SigVersion.isXcoinV3Tapscript, SigVersion.tapscriptRules]
    unfold execOp execCheckMultisig
    simp only [hrules, if_true]
    exact hmetered.fail _ _
  | bad => exact hmetered.fail _ _

end Steps

/-! ## Whole runs -/

theorem decodeOp_ne_checksigPq {opcode : ℕ} (hsuccess : isOpSuccess opcode = false)
    (verify : Bool) : decodeOp opcode ≠ .checksigPq verify := by
  intro hop
  unfold decodeOp at hop
  split_ifs at hop with hsmall
  have hlookup : opTable.lookup opcode = some (.checksigPq verify) := by
    cases hentry : opTable.lookup opcode with
    | none => simp [hentry] at hop
    | some op =>
      rw [hentry, Option.getD_some] at hop
      rw [hop]
  have hentry : (opcode, Op.checksigPq verify) ∈ opTable := by
    obtain ⟨before, after, htable, _⟩ := List.lookup_eq_some_iff.mp hlookup
    rw [htable]
    simp
  have hcode : opcode = opChecksigPq ∨ opcode = opChecksigverifyPq := by
    simp only [opTable, List.mem_cons, Prod.mk.injEq, reduceCtorEq, and_false, false_or,
      Op.checksigPq.injEq, List.not_mem_nil, or_false] at hentry
    exact hentry.imp And.left And.left
  rcases hcode with rfl | rfl
  · exact absurd hsuccess (by decide)
  · exact absurd hsuccess (by decide)

theorem not_opSuccess_of_scan {flags : Flags} {ops : List (Option Instr)}
    (hscan : scanOpSuccess flags ops = none) :
    ∀ instr, some instr ∈ ops → isOpSuccess instr.opcode = false := by
  induction ops with
  | nil => simp
  | cons first rest ih =>
    cases first with
    | none => cases hscan
    | some instr =>
      unfold scanOpSuccess at hscan
      split_ifs at hscan with hsuccess
      intro other hother
      rcases List.mem_cons.mp hother with hfirst | hrest
      · rw [Option.some.inj hfirst]
        exact Bool.eq_false_iff.mpr hsuccess
      · exact ih hscan other hrest

section Runs

variable {limit : ℤ} {env : Env} {m : Machine} (hv3 : env.sigversion.isXcoinV3Tapscript = true)

include hv3

theorem keepsMeter_countOpcode (hmetered : Metered limit m) (opcode : ℕ) :
    KeepsMeter limit id (countOpcode env m opcode) := by
  have hlimits : env.sigversion.scriptLimits = true := by
    cases hversion : env.sigversion <;>
      simp_all [SigVersion.isXcoinV3Tapscript, SigVersion.scriptLimits]
  unfold countOpcode
  rw [hlimits]
  split_ifs with hpush hover
  · exact hmetered
  · exact hmetered.fail _ _
  · refine ⟨hmetered.paid, hmetered.left_nonneg, ?_, ?_⟩
    · have hcounted := hmetered.counted
      simp only [id, Machine.countOp, Bool.toNat_true]
      omega
    · simp only [id, Machine.countOp, Bool.toNat_true]
      simp only [true_and, maxOpsPerScript] at hover
      omega

theorem keepsMeter_evalInstr (hmetered : Metered limit m) {instr : Instr}
    (hsuccess : isOpSuccess instr.opcode = false) :
    KeepsMeter limit id (evalInstr env m instr) := by
  unfold evalInstr
  by_cases hlarge : maxScriptElementSize < instr.data.length
  · rw [if_pos hlarge]
    exact hmetered.fail _ _
  rw [if_neg hlarge]
  refine (keepsMeter_countOpcode hv3 hmetered instr.opcode).bind fun counted hcounted => ?_
  split_ifs
  · exact hcounted.fail _ _
  · exact hcounted.fail _ _
  have hdispatch : KeepsMeter limit id (dispatch env counted instr) := by
    unfold dispatch execPush
    split_ifs
    · exact hcounted.fail _ _
    · exact hcounted.push _
    · exact keepsMeter_execOp hv3 hcounted (decodeOp_ne_checksigPq hsuccess) _ _
    · exact hcounted
  refine hdispatch.bind fun done hdone => ?_
  unfold endStep
  split_ifs
  · exact hdone.fail _ _
  · exact hdone.of_meter_eq rfl rfl rfl

/-- **Whole runs.**  A run of a v3 leaf without success opcodes stays within the limit. -/
theorem keepsMeter_evalLoop {ops : List (Option Instr)}
    (hsuccess : ∀ instr, some instr ∈ ops → isOpSuccess instr.opcode = false)
    (hmetered : Metered limit m) : KeepsMeter limit id (evalLoop env m ops) := by
  induction ops generalizing m with
  | nil => exact hmetered
  | cons first rest ih =>
    cases first with
    | none => exact hmetered.fail _ _
    | some instr =>
      refine (keepsMeter_evalInstr hv3 hmetered (hsuccess instr List.mem_cons_self)).bind ?_
      intro next hnext
      exact ih (fun other hother => hsuccess other (List.mem_cons_of_mem _ hother)) hnext

end Runs

/-! ## Leaf executions -/

/-- The work that an execution has done when it ends, in success or failure. -/
def workDone : Except Fault Work → Work
  | .error fault => fault.work
  | .ok work => work

theorem metered_start (stack : List Bytes) (script : Bytes) {execdata : ExecData}
    (hbudget : 0 ≤ execdata.validationWeightLeft) :
    Metered execdata.validationWeightLeft (Machine.start stack script execdata .none) :=
  ⟨by simp [Machine.start, Work.none, Work.cost], hbudget, rfl, Nat.zero_le _⟩

theorem workDone_within {limit : ℤ} {x : Except Fault Work}
    (hx : x.Satisfies (fun fault => fault.work.Within limit) fun work => work.Within limit) :
    (workDone x).Within limit := by
  cases x with
  | error fault => exact hx
  | ok work => exact hx

theorem within_none {limit : ℤ} (hlimit : 0 ≤ limit) : Work.none.Within limit :=
  ⟨by simpa [Work.none, Work.cost] using hlimit, Nat.zero_le _⟩

/-- **The budget of a leaf.**  Any execution under the v3 rules costs at most its budget and
executes or skips at most 201 opcodes that are not pushes. -/
theorem executeWitnessScript_within {env : Env} (hv3 : env.sigversion.isXcoinV3Tapscript = true)
    (items : List Bytes) (script : Bytes) {execdata : ExecData}
    (hbudget : 0 ≤ execdata.validationWeightLeft) :
    (workDone (executeWitnessScript env items script execdata .none)).Within
      execdata.validationWeightLeft := by
  have hrules : env.sigversion.tapscriptRules = true := by
    cases hversion : env.sigversion <;>
      simp_all [SigVersion.isXcoinV3Tapscript, SigVersion.tapscriptRules]
  have hnone := within_none hbudget
  apply workDone_within
  unfold executeWitnessScript
  rw [if_pos hrules]
  cases hscan : scanOpSuccess env.flags (scriptOps script) with
  | some verdict =>
    cases verdict with
    | error error => exact hnone
    | ok value => exact hnone
  | none =>
    simp only
    unfold runWitnessScript evalScript
    split_ifs
    · exact hnone
    · exact hnone
    · exact hnone
    · have hstart := metered_start items.reverse script hbudget
      refine ((keepsMeter_evalLoop hv3 (not_opSuccess_of_scan hscan) hstart).bind
        (R := Metered execdata.validationWeightLeft) ?_).bind ?_
      · intro m hm
        unfold checkBalanced
        split_ifs
        · exact hm
        · exact hm.fail _ _
      · intro m hm
        unfold checkFinalStack
        split
        · split_ifs
          · exact hm.within
          · exact hm.within
        · exact hm.within

theorem executeXcoinV3Leaf_within (env : Env) (witness items : List Bytes)
    (script control : Bytes) :
    (workDone (executeXcoinV3Leaf env witness items script control .none)).Within
      ((serializeStack witness).length + 50) := by
  have hlimit : (0 : ℤ) ≤ (serializeStack witness).length + 50 := by omega
  have hbudget : ∀ leafHash,
      0 ≤ (leafExecData env.hashes witness leafHash).validationWeightLeft := fun _ => hlimit
  unfold executeXcoinV3Leaf unknownLeafVersion
  split_ifs
  · exact executeWitnessScript_within rfl items script (hbudget _)
  · exact executeWitnessScript_within rfl items script (hbudget _)
  · exact within_none hlimit
  · exact within_none hlimit

theorem verifyXcoinV3Program_cost_le (env : Env) (witness : List Bytes) (root : Bytes) :
    (workDone (verifyXcoinV3Program env witness root .none)).cost ≤
      if witness = [] then 0 else (serializeStack witness).length + 50 := by
  have hnone : ∀ limit : ℤ, 0 ≤ limit → Work.none.cost ≤ limit :=
    fun limit hlimit => (within_none hlimit).cost_le
  unfold verifyXcoinV3Program
  by_cases hflag : ScriptFlag.xcoinV3 ∉ env.flags
  · rw [if_pos hflag]
    apply hnone
    split_ifs <;> omega
  rw [if_neg hflag]
  by_cases hempty : witness = []
  · rw [if_pos hempty, if_pos hempty]
    exact hnone 0 le_rfl
  rw [if_neg hempty, if_neg hempty]
  split
  · split
    · exact hnone _ (by omega)
    · exact (executeXcoinV3Leaf_within env witness _ _ _).cost_le
  · exact hnone _ (by omega)

/-! ## Blocks -/

/-- The root of a witness v3 output. -/
def v3Root (txout : TxOut) : Option Bytes :=
  match isWitnessProgram txout.scriptPubKey with
  | some (witversion, program) =>
    if witversion = 3 ∧ program.length = witnessV3Size then some program else none
  | none => none

section Block

variable (hashes : HashFunctions) (primitives : Primitives) (others : OtherChecks) (flags : Flags)
  (tx : Transaction) (spentOutputs : List TxOut) (block : Block)

/-- The work of the leaf execution of an input; an input that spends no v3 output has none. -/
def inputLeafWork (txin : TxIn) (nIn : ℕ) : Work :=
  match (spentOutputs[nIn]?).bind v3Root with
  | some root =>
    workDone (verifyXcoinV3Program
      (inputEnv hashes primitives others flags tx spentOutputs nIn) txin.scriptWitness root .none)
  | none => .none

/-- The costs of the inputs of a transaction. -/
def txLeafCost : ℤ :=
  (tx.vin.zipIdx.map fun entry =>
    (inputLeafWork hashes primitives others flags tx spentOutputs entry.1 entry.2).cost).sum

/-- The inputs of a transaction that spend v3 outputs. -/
def v3InputCount : ℕ :=
  (tx.vin.zipIdx.map fun entry => ((spentOutputs[entry.2]?).bind v3Root).isSome.toNat).sum

/-- The leaf cost of a block's inputs. -/
def blockLeafCost (spentOutputs : Transaction → List TxOut) : ℤ :=
  (block.vtx.map fun tx => txLeafCost hashes primitives others flags tx (spentOutputs tx)).sum

/-- The witness v3 inputs of a block. -/
def blockV3InputCount (spentOutputs : Transaction → List TxOut) : ℕ :=
  (block.vtx.map fun tx => v3InputCount tx (spentOutputs tx)).sum

/-- The bytes of an input's witness in the serialized transaction. -/
def witnessSize (txin : TxIn) : ℕ :=
  if tx.hasWitness then (serializeStack txin.scriptWitness).length else 0

theorem inputLeafWork_cost_le {tx : Transaction} {txin : TxIn} (hin : txin ∈ tx.vin)
    (spentOutputs : List TxOut) (nIn : ℕ) :
    (inputLeafWork hashes primitives others flags tx spentOutputs txin nIn).cost ≤
      witnessSize tx txin + 50 * ((spentOutputs[nIn]?).bind v3Root).isSome.toNat := by
  unfold inputLeafWork
  cases (spentOutputs[nIn]?).bind v3Root with
  | none => simp [Work.none, Work.cost]
  | some root =>
    simp only [Option.isSome_some, Bool.toNat_true, Nat.cast_one, mul_one]
    refine (verifyXcoinV3Program_cost_le _ _ _).trans ?_
    split_ifs with hempty
    · omega
    · -- the witness is not empty, so that it is part of the transaction
      have hpresent : tx.hasWitness = true := by
        unfold Transaction.hasWitness
        rw [List.any_eq_true]
        exact ⟨txin, hin, by simpa using hempty⟩
      rw [witnessSize, if_pos hpresent]
      push_cast
      exact le_rfl

theorem sum_witnessSize_le :
    (tx.vin.map (witnessSize tx)).sum ≤ (serializeTransaction true tx).length := by
  have hsum : tx.hasWitness = true → (tx.vin.map (witnessSize tx)).sum =
      (tx.vin.flatMap fun txin => serializeStack txin.scriptWitness).length := by
    intro hpresent
    rw [List.length_flatMap]
    congr 1
    apply List.map_congr_left
    intro txin _
    rw [witnessSize, if_pos hpresent]
  cases hpresent : tx.hasWitness with
  | false =>
    have hnone : ∀ size ∈ tx.vin.map (witnessSize tx), size = 0 := by
      intro size hsize
      obtain ⟨txin, _, rfl⟩ := List.mem_map.mp hsize
      rw [witnessSize, if_neg (by simp [hpresent])]
    rw [List.sum_eq_zero hnone]
    exact Nat.zero_le _
  | true =>
    rw [hsum hpresent]
    simp only [serializeTransaction, hpresent, Bool.and_self, if_true, List.length_append]
    omega

theorem txLeafCost_le :
    txLeafCost hashes primitives others flags tx spentOutputs ≤
      (serializeTransaction true tx).length + 50 * v3InputCount tx spentOutputs := by
  have hinputs : txLeafCost hashes primitives others flags tx spentOutputs ≤
      (tx.vin.zipIdx.map fun entry => (witnessSize tx entry.1 : ℤ) +
        50 * ((spentOutputs[entry.2]?).bind v3Root).isSome.toNat).sum := by
    apply List.sum_le_sum
    intro entry hentry
    exact inputLeafWork_cost_le hashes primitives others flags
      (List.fst_mem_of_mem_zipIdx hentry) spentOutputs entry.2
  have hwitnesses : (tx.vin.zipIdx.map fun entry => (witnessSize tx entry.1 : ℤ)).sum ≤
      (serializeTransaction true tx).length := by
    calc (tx.vin.zipIdx.map fun entry => (witnessSize tx entry.1 : ℤ)).sum
        = (((tx.vin.zipIdx.map Prod.fst).map (witnessSize tx)).map (Nat.cast : ℕ → ℤ)).sum := by
          simp only [List.map_map, Function.comp_def]
      _ = ((tx.vin.map (witnessSize tx)).sum : ℕ) := by
          rw [List.zipIdx_map_fst, Nat.cast_list_sum]
      _ ≤ (serializeTransaction true tx).length := by
          exact_mod_cast sum_witnessSize_le tx
  have hcount : (v3InputCount tx spentOutputs : ℤ) = (tx.vin.zipIdx.map fun entry =>
      (((spentOutputs[entry.2]?).bind v3Root).isSome.toNat : ℤ)).sum := by
    unfold v3InputCount
    rw [Nat.cast_list_sum, List.map_map]
    rfl
  rw [List.sum_map_add, List.sum_map_mul_left, ← hcount] at hinputs
  omega

theorem sum_serializeTransaction_le :
    (block.vtx.map fun tx => (serializeTransaction true tx).length).sum ≤ getBlockWeight block := by
  have hbody : (block.vtx.map fun tx => (serializeTransaction true tx).length).sum =
      (block.vtx.flatMap (serializeTransaction true)).length := by
    rw [List.length_flatMap]
  rw [hbody, getBlockWeight, serializeBlock, serializeBlock, serializeVector, serializeVector]
  simp only [List.length_append]
  omega

theorem blockLeafCost_le (spentOutputs : Transaction → List TxOut) :
    blockLeafCost hashes primitives others flags block spentOutputs ≤
      getBlockWeight block + 50 * blockV3InputCount block spentOutputs := by
  have htransactions : blockLeafCost hashes primitives others flags block spentOutputs ≤
      (block.vtx.map fun tx => ((serializeTransaction true tx).length : ℤ) +
        50 * v3InputCount tx (spentOutputs tx)).sum := by
    apply List.sum_le_sum
    intro tx _
    exact txLeafCost_le hashes primitives others flags tx (spentOutputs tx)
  have hsizes : (block.vtx.map fun tx => ((serializeTransaction true tx).length : ℤ)).sum ≤
      getBlockWeight block := by
    have hweight := sum_serializeTransaction_le block
    zify at hweight
    rwa [List.map_map] at hweight
  have hcount : (blockV3InputCount block spentOutputs : ℤ) =
      (block.vtx.map fun tx => (v3InputCount tx (spentOutputs tx) : ℤ)).sum := by
    unfold blockV3InputCount
    rw [Nat.cast_list_sum, List.map_map]
    rfl
  rw [List.sum_map_add, List.sum_map_mul_left, ← hcount] at htransactions
  omega

end Block

/-- **The cost of v3 leaves.**  Whatever the leaf, the witness and the checker, a leaf
execution does work for at most the size of the serialized witness and 50, and executes
or skips at most 201 opcodes that are not pushes.  So the v3 inputs of a block cost at
most its weight and 50 for each of them. -/
theorem v3Leaf_work_bounded :
    (∀ (env : Env) (witness items : List Bytes) (script control : Bytes),
      (workDone (executeXcoinV3Leaf env witness items script control .none)).cost ≤
          (serializeStack witness).length + 50 ∧
        (workDone (executeXcoinV3Leaf env witness items script control .none)).nonPushOps ≤ 201) ∧
      ∀ (hashes : HashFunctions) (primitives : Primitives) (others : OtherChecks) (flags : Flags)
        (block : Block) (spentOutputs : Transaction → List TxOut),
        blockLeafCost hashes primitives others flags block spentOutputs ≤
          getBlockWeight block + 50 * blockV3InputCount block spentOutputs := by
  refine ⟨?_, blockLeafCost_le⟩
  intro env witness items script control
  have hwithin := executeXcoinV3Leaf_within env witness items script control
  exact ⟨hwithin.cost_le, hwithin.nonPushOps_le⟩

end XCoin.Script
