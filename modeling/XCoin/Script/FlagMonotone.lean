import XCoin.Script.LeafSpend

/-!
# Flags only narrow

A script flag is a rule: setting one more can make a verification fail, and never changes what a
verification that still succeeds computes.  Each function that looks at the flags is compared under
a set `g` and a subset `f` (`Except.Narrows`), from the opcodes up to a whole execution, and the
witness program on top: without the flags for witnesses or for v3 there is nothing left to check.
-/

namespace XCoin.Script

open Consensus Except

variable {minimal minimal' : Bool}

/-- The same environment with other flags. -/
def Env.withFlags (env : Env) (flags : Flags) : Env := { env with flags := flags }

section WithFlags

variable (env : Env) (flags : Flags)

@[simp] theorem Env.withFlags_flags : (env.withFlags flags).flags = flags := rfl

@[simp] theorem Env.withFlags_sigversion : (env.withFlags flags).sigversion = env.sigversion := rfl

@[simp] theorem Env.withFlags_hashes : (env.withFlags flags).hashes = env.hashes := rfl

@[simp] theorem Env.withFlags_checker : (env.withFlags flags).checker = env.checker := rfl

end WithFlags

/-- The checks that are parameters and look at the flags fail more often with more flags. -/
structure MonotoneChecks (checker : Checker) : Prop where
  checksig : ∀ (f g : Flags) (sigversion : SigVersion) (sig pubkey scriptCode : Bytes), f ⊆ g →
    (checker.evalChecksigPreTapscript g sigversion sig pubkey scriptCode).Narrows
      (checker.evalChecksigPreTapscript f sigversion sig pubkey scriptCode)
  multisig : ∀ (f g : Flags) (sigversion : SigVersion) (scriptCode : Bytes) (nOpCount : ℕ)
    (stack : List Bytes), f ⊆ g →
    (checker.evalCheckMultisig g sigversion scriptCode nOpCount stack).Narrows
      (checker.evalCheckMultisig f sigversion scriptCode nOpCount stack)

/-! ## Numbers and stack operations -/

theorem narrows_readNum (h : minimal' = true → minimal = true) (vch : Bytes) (size : ℕ) :
    (readNum vch minimal size).Narrows (readNum vch minimal' size) := by
  intro value hvalue
  unfold readNum scriptNum at hvalue ⊢
  cases minimal' with
  | true => rwa [h rfl] at hvalue
  | false =>
    split_ifs at hvalue with hsize hminimal
    · rw [if_neg hsize, Bool.false_and, if_neg (by decide)]
      exact hvalue

theorem narrows_readIndex (h : minimal' = true → minimal = true) (vch : Bytes)
    (below : List Bytes) :
    (readIndex vch minimal below).Narrows (readIndex vch minimal' below) :=
  (narrows_readNum h vch _).bind_left

theorem narrows_runStackOp (h : minimal' = true → minimal = true) (op : StackOp) (s : Stacks) :
    (runStackOp minimal op s).Narrows (runStackOp minimal' op s) := by
  unfold runStackOp
  split <;> try exact Narrows.refl _
  -- what is left are the operations that read numbers
  · exact (narrows_readIndex h _ _).bind_left
  · exact (narrows_readIndex h _ _).bind_left
  · exact (narrows_readNum h _ _).bind_left
  · exact (narrows_readNum h _ _).bind fun _ => (narrows_readNum h _ _).bind_left
  · exact (narrows_readNum h _ _).bind fun _ => (narrows_readNum h _ _).bind_left
  · exact (narrows_readNum h _ _).bind fun _ => (narrows_readNum h _ _).bind fun _ =>
      (narrows_readNum h _ _).bind_left

/-- The checks that are parameters are monotone, or the script is a v3 leaf, where none of them is
asked. -/
def FlagsNarrow (env : Env) : Prop :=
  env.sigversion.isXcoinV3Tapscript = true ∨ MonotoneChecks env.checker

section Steps

variable {env : Env} {f g : Flags} {m : Machine}

theorem narrows_lift {α : Type} {x y : Except ScriptError α} (h : x.Narrows y) :
    (m.lift x).Narrows (m.lift y) := by
  intro a ha
  exact Machine.lift_eq_ok.mpr (h a (Machine.lift_eq_ok.mp ha))

theorem execCheckLockTimeVerify_state {m' : Machine} (h : execCheckLockTimeVerify env m = .ok m') :
    m' = m := by
  unfold execCheckLockTimeVerify at h
  split at h
  · exact (Except.ok.inj h).symm
  · cases hstack : m.stack with
    | nil => simp [hstack] at h
    | cons top rest =>
      simp only [hstack] at h
      obtain ⟨nLockTime, -, h⟩ := Except.bind_eq_ok_iff.mp h
      split_ifs at h with hnegative hunsatisfied
      · exact absurd h (by simp)
      · exact absurd h (by simp)
      · exact (Except.ok.inj h).symm

theorem execCheckSequenceVerify_state {m' : Machine} (h : execCheckSequenceVerify env m = .ok m') :
    m' = m := by
  unfold execCheckSequenceVerify at h
  split at h
  · exact (Except.ok.inj h).symm
  · cases hstack : m.stack with
    | nil => simp [hstack] at h
    | cons top rest =>
      simp only [hstack] at h
      obtain ⟨nSequence, -, h⟩ := Except.bind_eq_ok_iff.mp h
      split_ifs at h with hnegative hdisabled hunsatisfied
      · exact absurd h (by simp)
      · exact (Except.ok.inj h).symm
      · exact absurd h (by simp)
      · exact (Except.ok.inj h).symm

variable (hsub : f ⊆ g) (henv : FlagsNarrow env)

include hsub

theorem requireMinimal_of_subset :
    (env.withFlags f).requireMinimal = true → (env.withFlags g).requireMinimal = true := by
  intro h
  exact decide_eq_true (hsub (of_decide_eq_true h))

theorem narrows_number {vch : Bytes} {size : ℕ} :
    (m.lift (readNum vch (env.withFlags g).requireMinimal size)).Narrows
      (m.lift (readNum vch (env.withFlags f).requireMinimal size)) :=
  narrows_lift (narrows_readNum (requireMinimal_of_subset hsub) vch size)

theorem narrows_execStackOp (op : StackOp) :
    (execStackOp (env.withFlags g) m op).Narrows (execStackOp (env.withFlags f) m op) :=
  (narrows_lift (narrows_runStackOp (requireMinimal_of_subset hsub) op _)).bind_left

/-! ## Signatures -/

theorem narrows_upgradablePubkey (success : Bool) :
    (upgradablePubkey (env.withFlags g) m success).Narrows
      (upgradablePubkey (env.withFlags f) m success) :=
  Narrows.guard (fun hflag => hsub hflag) (Narrows.refl _)

theorem narrows_bySize {p q : Prop} [Decidable p] [Decidable q]
    (x y : Except Fault (Machine × Bool)) (success : Bool) :
    (if p then x else if q then y else upgradablePubkey (env.withFlags g) m success).Narrows
      (if p then x else if q then y else upgradablePubkey (env.withFlags f) m success) := by
  refine Narrows.ite_right fun _ => ?_
  exact Narrows.ite_right fun _ => narrows_upgradablePubkey hsub _

theorem narrows_evalChecksigXcoinV3 (sig pubkeyHash pubkey : Bytes) :
    (evalChecksigXcoinV3 (env.withFlags g) m sig pubkeyHash pubkey).Narrows
      (evalChecksigXcoinV3 (env.withFlags f) m sig pubkeyHash pubkey) :=
  (Narrows.refl _).bind fun _ => narrows_bySize hsub _ _ _

theorem narrows_evalChecksigXcoinSlh (sig pubkey : Bytes) :
    (evalChecksigXcoinSlh (env.withFlags g) m sig pubkey).Narrows
      (evalChecksigXcoinSlh (env.withFlags f) m sig pubkey) :=
  (Narrows.refl _).bind fun _ => narrows_bySize hsub _ _ _

theorem narrows_evalChecksigTapscript (sig pubkey : Bytes) :
    (evalChecksigTapscript (env.withFlags g) m sig pubkey).Narrows
      (evalChecksigTapscript (env.withFlags f) m sig pubkey) :=
  (Narrows.refl _).bind fun _ => narrows_bySize hsub _ _ _

/-! ## Opcodes -/

theorem narrows_execCheckLockTimeVerify :
    (execCheckLockTimeVerify (env.withFlags g) m).Narrows
      (execCheckLockTimeVerify (env.withFlags f) m) := by
  by_cases hflag : ScriptFlag.checklocktimeverify ∈ f
  · unfold execCheckLockTimeVerify
    rw [Env.withFlags_flags, Env.withFlags_flags, if_neg (not_not.mpr (hsub hflag)),
      if_neg (not_not.mpr hflag)]
    cases m.stack with
    | nil => exact Narrows.refl _
    | cons top rest =>
      exact (narrows_number hsub).bind_left
  · intro m' h
    rw [execCheckLockTimeVerify_state h]
    exact if_pos hflag

theorem narrows_execCheckSequenceVerify :
    (execCheckSequenceVerify (env.withFlags g) m).Narrows
      (execCheckSequenceVerify (env.withFlags f) m) := by
  by_cases hflag : ScriptFlag.checksequenceverify ∈ f
  · unfold execCheckSequenceVerify
    rw [Env.withFlags_flags, Env.withFlags_flags, if_neg (not_not.mpr (hsub hflag)),
      if_neg (not_not.mpr hflag)]
    cases m.stack with
    | nil => exact Narrows.refl _
    | cons top rest =>
      exact (narrows_number hsub).bind_left
  · intro m' h
    rw [execCheckSequenceVerify_state h]
    exact if_pos hflag

theorem narrows_execUpgradableNop :
    (execUpgradableNop (env.withFlags g) m).Narrows (execUpgradableNop (env.withFlags f) m) :=
  Narrows.guard (fun hflag => hsub hflag) (Narrows.refl _)

theorem narrows_execCheckTemplateVerify :
    (execCheckTemplateVerify (env.withFlags g) m).Narrows
      (execCheckTemplateVerify (env.withFlags f) m) := by
  apply Narrows.ite
  · intro _
    cases m.stack with
    | nil => exact Narrows.refl _
    | cons top rest =>
      exact Narrows.ite_right fun _ => narrows_execUpgradableNop hsub
  · intro _
    exact narrows_execUpgradableNop hsub

theorem narrows_checkMinimalIf (vch : Bytes) :
    (checkMinimalIf (env.withFlags g) vch).Narrows (checkMinimalIf (env.withFlags f) vch) := by
  apply Narrows.ite
  · intro _
    refine Narrows.ite_right fun _ => ?_
    exact Narrows.guard (fun hflag => ⟨hflag.1, hsub hflag.2⟩) (Narrows.refl _)
  · intro _
    exact Narrows.refl _

theorem narrows_execIf (negated fExec : Bool) :
    (execIf (env.withFlags g) m negated fExec).Narrows
      (execIf (env.withFlags f) m negated fExec) := by
  apply Narrows.ite
  · intro _
    cases m.stack with
    | nil => exact Narrows.refl _
    | cons vch rest =>
      exact (narrows_lift (narrows_checkMinimalIf hsub vch)).bind_left
  · intro _
    exact Narrows.refl _

include henv

theorem narrows_evalChecksig (sig pubkey : Bytes) :
    (evalChecksig (env.withFlags g) m sig pubkey).Narrows
      (evalChecksig (env.withFlags f) m sig pubkey) := by
  have hpre : MonotoneChecks env.checker → (do
      let success ← m.lift (env.checker.evalChecksigPreTapscript g env.sigversion sig pubkey
        m.scriptCode)
      return (m, success) : Except Fault (Machine × Bool)).Narrows (do
      let success ← m.lift (env.checker.evalChecksigPreTapscript f env.sigversion sig pubkey
        m.scriptCode)
      return (m, success)) := fun hchecks =>
    (narrows_lift (hchecks.checksig f g _ _ _ _ hsub)).bind_left
  unfold FlagsNarrow at henv
  unfold evalChecksig
  simp only [Env.withFlags_sigversion, Env.withFlags_checker, Env.withFlags_flags]
  cases hversion : env.sigversion with
  | base =>
    rw [hversion] at henv hpre
    exact hpre (henv.resolve_left (by decide))
  | witnessV0 =>
    rw [hversion] at henv hpre
    exact hpre (henv.resolve_left (by decide))
  | tapscript => exact narrows_evalChecksigTapscript hsub sig pubkey
  | xcoinSlhTapscript => exact narrows_evalChecksigXcoinSlh hsub sig pubkey
  | taproot => exact Narrows.refl _
  | xcoinPqTapscript => exact Narrows.refl _

theorem narrows_execChecksig (verify : Bool) :
    (execChecksig (env.withFlags g) m verify).Narrows
      (execChecksig (env.withFlags f) m verify) := by
  apply Narrows.ite
  · intro _
    split
    · exact (narrows_evalChecksigXcoinV3 hsub _ _ _).bind_left
    · exact Narrows.refl _
  · intro _
    split
    · exact (narrows_evalChecksig hsub henv _ _).bind_left
    · exact Narrows.refl _

theorem narrows_execChecksigAdd :
    (execChecksigAdd (env.withFlags g) m).Narrows (execChecksigAdd (env.withFlags f) m) := by
  refine Narrows.ite_right fun _ => ?_
  apply Narrows.ite
  · intro _
    split
    · exact (narrows_number hsub).bind fun _ =>
        (narrows_evalChecksigXcoinV3 hsub _ _ _).bind_left
    · exact Narrows.refl _
  · intro _
    split
    · exact (narrows_number hsub).bind fun _ =>
        (narrows_evalChecksig hsub henv _ _).bind_left
    · exact Narrows.refl _

theorem narrows_execCheckMultisig (verify : Bool) :
    (execCheckMultisig (env.withFlags g) m verify).Narrows
      (execCheckMultisig (env.withFlags f) m verify) := by
  refine Narrows.ite_right fun hrules => ?_
  rcases henv with hv3 | hchecks
  · refine absurd ?_ hrules
    change env.sigversion.tapscriptRules = true
    cases hversion : env.sigversion <;> rw [hversion] at hv3 <;> first | rfl | cases hv3
  · exact (narrows_lift (hchecks.multisig f g _ _ _ _ hsub)).bind_left

theorem narrows_execOp (op : Op) (fExec : Bool) (rest : Bytes) :
    (execOp (env.withFlags g) m op fExec rest).Narrows
      (execOp (env.withFlags f) m op fExec rest) := by
  cases op with
  | checkLockTimeVerify => exact narrows_execCheckLockTimeVerify hsub
  | checkSequenceVerify => exact narrows_execCheckSequenceVerify hsub
  | checkTemplateVerify => exact narrows_execCheckTemplateVerify hsub
  | upgradableNop => exact narrows_execUpgradableNop hsub
  | opIf negated => exact narrows_execIf hsub negated fExec
  | stackOp op => exact narrows_execStackOp hsub op
  | checksig verify => exact narrows_execChecksig hsub henv verify
  | checksigAdd => exact narrows_execChecksigAdd hsub henv
  | checkMultisig verify => exact narrows_execCheckMultisig hsub henv verify
  -- the other opcodes do not look at the flags
  | smallInt value => exact Narrows.refl _
  | nop => exact Narrows.refl _
  | opElse => exact Narrows.refl _
  | opEndif => exact Narrows.refl _
  | hash op => exact Narrows.refl _
  | codeSeparator => exact Narrows.refl _
  | checksigPq verify => exact Narrows.refl _
  | bad => exact Narrows.refl _

theorem narrows_dispatch (instr : Instr) :
    (dispatch (env.withFlags g) m instr).Narrows (dispatch (env.withFlags f) m instr) := by
  apply Narrows.ite
  · intro _
    exact Narrows.guard (fun hminimal => ⟨requireMinimal_of_subset hsub hminimal.1, hminimal.2⟩)
      (Narrows.refl _)
  intro _
  apply Narrows.ite
  · intro _
    exact narrows_execOp hsub henv _ _ _
  · intro _
    exact Narrows.refl _

theorem narrows_evalInstr (instr : Instr) :
    (evalInstr (env.withFlags g) m instr).Narrows (evalInstr (env.withFlags f) m instr) := by
  refine Narrows.ite_right fun _ => ?_
  refine Narrows.bind (Narrows.refl _) fun counted => ?_
  refine Narrows.ite_right fun _ => ?_
  exact Narrows.guard (fun hseparator => ⟨hseparator.1, hseparator.2.1, hsub hseparator.2.2⟩)
    (narrows_dispatch hsub henv instr).bind_left

end Steps

/-! ## Scripts -/

section Scripts

variable {env : Env} {f g : Flags}

/-- The loop, by induction on the instructions that are left. -/
theorem narrows_evalLoop (hsub : f ⊆ g) (henv : FlagsNarrow env) :
    ∀ (ops : List (Option Instr)) (m : Machine),
      (evalLoop (env.withFlags g) m ops).Narrows (evalLoop (env.withFlags f) m ops) := by
  intro ops
  induction ops with
  | nil =>
    intro m
    exact Narrows.refl _
  | cons first rest ih =>
    intro m
    cases first with
    | none => exact Narrows.refl _
    | some instr => exact (narrows_evalInstr hsub henv instr).bind fun next => ih next

theorem narrows_evalScript (hsub : f ⊆ g) (henv : FlagsNarrow env) (stack : List Bytes)
    (script : Bytes) (execdata : ExecData) (work : Work) :
    (evalScript (env.withFlags g) stack script execdata work).Narrows
      (evalScript (env.withFlags f) stack script execdata work) := by
  exact Narrows.ite_right fun _ => (narrows_evalLoop hsub henv _ _).bind_left

/-- The scan for success opcodes fails more often, and otherwise comes to the same. -/
theorem scanOpSuccess_of_subset (hsub : f ⊆ g) : ∀ ops : List (Option Instr),
    scanOpSuccess g ops = scanOpSuccess f ops ∨
      ∃ code, scanOpSuccess g ops = some (.error code) := by
  intro ops
  induction ops with
  | nil => exact .inl rfl
  | cons first rest ih =>
    cases first with
    | none => exact .inl rfl
    | some instr =>
      unfold scanOpSuccess
      by_cases hsuccess : isOpSuccess instr.opcode = true
      · rw [if_pos hsuccess, if_pos hsuccess]
        by_cases hflag : ScriptFlag.discourageOpSuccess ∈ g
        · rw [if_pos hflag]
          exact .inr ⟨_, rfl⟩
        · rw [if_neg hflag, if_neg fun hless => hflag (hsub hless)]
          exact .inl rfl
      · rw [if_neg hsuccess, if_neg hsuccess]
        exact ih

theorem narrows_executeWitnessScript (hsub : f ⊆ g) (henv : FlagsNarrow env) (stack : List Bytes)
    (script : Bytes) (execdata : ExecData) (work : Work) :
    (executeWitnessScript (env.withFlags g) stack script execdata work).Narrows
      (executeWitnessScript (env.withFlags f) stack script execdata work) := by
  have hrun : (runWitnessScript (env.withFlags g) stack script execdata work).Narrows
      (runWitnessScript (env.withFlags f) stack script execdata work) := by
    refine Narrows.ite_right fun _ => ?_
    exact Narrows.ite_right fun _ => (narrows_evalScript hsub henv _ _ _ _).bind_left
  apply Narrows.ite
  · intro _
    rw [Env.withFlags_flags, Env.withFlags_flags]
    rcases scanOpSuccess_of_subset hsub (scriptOps script) with hsame | ⟨code, herror⟩
    · rw [hsame]
      split
      · exact Narrows.refl _
      · exact Narrows.refl _
      · exact hrun
    · rw [herror]
      exact narrows_error _ _
  · intro _
    exact hrun

/-! ## Witness v3 -/

theorem narrows_executeXcoinV3Leaf (hsub : f ⊆ g) (witness items : List Bytes)
    (script control : Bytes) (work : Work) :
    (executeXcoinV3Leaf (env.withFlags g) witness items script control work).Narrows
      (executeXcoinV3Leaf (env.withFlags f) witness items script control work) := by
  apply Narrows.ite
  · intro _
    exact @narrows_executeWitnessScript { env with sigversion := .xcoinPqTapscript } f g hsub
      (.inl rfl) _ _ _ _
  intro _
  apply Narrows.ite
  · intro _
    exact @narrows_executeWitnessScript { env with sigversion := .xcoinSlhTapscript } f g hsub
      (.inl rfl) _ _ _ _
  · intro _
    exact Narrows.guard (fun hflag => hsub hflag) (Narrows.refl _)

theorem narrows_verifyXcoinV3Program (hsub : f ⊆ g) (hflag : ScriptFlag.xcoinV3 ∈ f)
    (witness : List Bytes) (program : Bytes) (work : Work) :
    (verifyXcoinV3Program (env.withFlags g) witness program work).Narrows
      (verifyXcoinV3Program (env.withFlags f) witness program work) := by
  unfold verifyXcoinV3Program
  rw [Env.withFlags_flags, Env.withFlags_flags, if_neg (not_not.mpr (hsub hflag)),
    if_neg (not_not.mpr hflag), Env.withFlags_hashes, Env.withFlags_hashes]
  refine Narrows.ite_right fun _ => ?_
  cases (withoutAnnex witness).reverse with
  | nil => exact Narrows.refl _
  | cons control rest =>
    cases rest with
    | nil => exact Narrows.refl _
    | cons script items =>
      dsimp only
      cases checkControl env.hashes control script program with
      | error code => exact Narrows.refl _
      | ok value => exact narrows_executeXcoinV3Leaf hsub _ _ _ _ _

theorem verifyXcoinV3Program_of_subset (hsub : f ⊆ g) (witness : List Bytes) (program : Bytes)
    (work : Work)
    (hok : (verifyXcoinV3Program (env.withFlags g) witness program work).isOk = true) :
    (verifyXcoinV3Program (env.withFlags f) witness program work).isOk = true := by
  by_cases hflag : ScriptFlag.xcoinV3 ∈ f
  · obtain ⟨result, hresult⟩ := isOk_iff_exists.mp hok
    exact isOk_iff_exists.mpr
      ⟨result, narrows_verifyXcoinV3Program hsub hflag witness program work result hresult⟩
  · unfold verifyXcoinV3Program
    rw [Env.withFlags_flags, if_pos hflag]
    rfl

end Scripts

/-! ## Verifying an input -/

/-- The flags that `VerifyScript` asserts on. -/
structure ConsistentFlags (flags : Flags) : Prop where
  cleanstack : ScriptFlag.cleanstack ∈ flags →
    ScriptFlag.p2sh ∈ flags ∧ ScriptFlag.witness ∈ flags
  witness : ScriptFlag.witness ∈ flags → ScriptFlag.p2sh ∈ flags

section Verify

variable {env : Env} {f g : Flags} {scriptPubKey : Bytes} {witness : List Bytes}

theorem verifyEnd_isOk_iff {state : VerifyState} (hflags : ConsistentFlags env.flags) :
    (verifyEnd env witness state).isOk = true ↔
      (ScriptFlag.cleanstack ∈ env.flags → state.stack.length = 1) ∧
        (ScriptFlag.witness ∈ env.flags → state.hadWitness = true ∨ witness = []) := by
  unfold verifyEnd
  rw [if_neg fun h => h.2 (hflags.cleanstack h.1)]
  by_cases hclean : ScriptFlag.cleanstack ∈ env.flags ∧ state.stack.length ≠ 1
  · rw [if_pos hclean]
    simp only [isOk_error, Bool.false_eq_true, false_iff, not_and]
    intro hone
    exact absurd (hone hclean.1) hclean.2
  · rw [if_neg hclean, if_neg fun h => h.2 (hflags.witness h.1)]
    have hone : ScriptFlag.cleanstack ∈ env.flags → state.stack.length = 1 := by
      intro hflag
      by_contra hlength
      exact hclean ⟨hflag, hlength⟩
    split_ifs with hunexpected
    · simp only [isOk_error, Bool.false_eq_true, false_iff, not_and]
      intro _ hwitness
      rcases hwitness hunexpected.1 with hhad | hempty
      · simp [hhad] at hunexpected
      · exact hunexpected.2.2 hempty
    · simp only [isOk_ok, true_iff]
      refine ⟨hone, fun hflag => ?_⟩
      by_contra hneither
      obtain ⟨hhad, hempty⟩ := not_or.mp hneither
      exact hunexpected ⟨hflag, by simpa using hhad, hempty⟩

theorem eq_v3Output_of_isWitnessProgram {program : ℕ × Bytes} (hlength : scriptPubKey.length = 34)
    (hversion : byteAt scriptPubKey 0 = op3)
    (hprogram : isWitnessProgram scriptPubKey = some program) :
    ∃ root : Bytes, root.length = 32 ∧ scriptPubKey = v3Output root := by
  unfold isWitnessProgram at hprogram
  split_ifs at hprogram with hsize hopcode hpush
  match scriptPubKey, hlength, hversion, hpush with
  | first :: second :: root, hlength, hversion, hpush =>
    simp only [List.length_cons] at hlength hpush
    have hfirst : first = 0x53 := by
      apply UInt8.toNat_inj.mp
      simpa [byteAt] using hversion
    have hsecond : second = 0x20 := by
      apply UInt8.toNat_inj.mp
      simp only [byteAt, List.getElem?_cons_succ, List.getElem?_cons_zero, Option.getD_some]
        at hpush
      simpa using (by omega : second.toNat = 32)
    exact ⟨root, by omega, by rw [hfirst, hsecond]; rfl⟩

/-- The evaluation of the output leaves the same stack with fewer flags. -/
theorem evalBase_of_subset (hsub : f ⊆ g) (hlength : scriptPubKey.length = 34)
    (hversion : byteAt scriptPubKey 0 = op3)
    (hchecks : (isWitnessProgram scriptPubKey).isSome = true ∨ MonotoneChecks env.checker)
    {m : Machine} (heval : evalBase (env.withFlags g) [] scriptPubKey .none = .ok m) :
    ∃ m', evalBase (env.withFlags f) [] scriptPubKey .none = .ok m' ∧ m'.stack = m.stack ∧
      m'.work = m.work := by
  rcases hchecks with hprogram | hmonotone
  · obtain ⟨program, hprogram⟩ := Option.isSome_iff_exists.mp hprogram
    obtain ⟨root, hroot, rfl⟩ := eq_v3Output_of_isWitnessProgram hlength hversion hprogram
    obtain ⟨mg, hg, hgstack, hgwork⟩ := evalBase_v3Output (env.withFlags g) hroot .none
    obtain ⟨mf, hf, hfstack, hfwork⟩ := evalBase_v3Output (env.withFlags f) hroot .none
    obtain rfl := Except.ok.inj (hg.symm.trans heval)
    exact ⟨mf, hf, hfstack.trans hgstack.symm, hfwork.trans hgwork.symm⟩
  · exact ⟨m, @narrows_evalScript { env with sigversion := .base } f g hsub (.inr hmonotone) _ _
      _ _ m heval, rfl, rfl⟩

theorem checkTopTrue_of_stack {m m' : Machine} (hstack : m'.stack = m.stack)
    (htop : checkTopTrue m = .ok ()) : checkTopTrue m' = .ok () := by
  unfold checkTopTrue at htop ⊢
  rw [hstack]
  revert htop
  cases m.stack with
  | nil => simp
  | cons top rest =>
    dsimp only
    split_ifs
    · exact id
    · simp

theorem verifyProgram_end_of_subset (hsub : f ⊆ g) (hf : ConsistentFlags f)
    (hg : ConsistentFlags g) (hlength : scriptPubKey.length = 34)
    (hversion : byteAt scriptPubKey 0 = op3) {stack : List Bytes} {work : Work}
    (hok : (verifyProgramOf (env.withFlags g) scriptPubKey true false .witnessMalleated witness
      ⟨stack, false, work⟩ >>= verifyEnd (env.withFlags g) witness).isOk = true) :
    (verifyProgramOf (env.withFlags f) scriptPubKey true false .witnessMalleated witness
      ⟨stack, false, work⟩ >>= verifyEnd (env.withFlags f) witness).isOk = true := by
  obtain ⟨state, hprogram, hend⟩ := isOk_bind_iff.mp hok
  apply isOk_bind_iff.mpr
  by_cases hflag : ScriptFlag.witness ∈ f
  · -- both sets ask for the witness program
    unfold verifyProgramOf at hprogram ⊢
    rw [Env.withFlags_flags, if_neg (not_not.mpr (hsub hflag))] at hprogram
    rw [Env.withFlags_flags, if_neg (not_not.mpr hflag)]
    cases hwitness : isWitnessProgram scriptPubKey with
    | none =>
      rw [hwitness] at hprogram
      obtain rfl := Except.ok.inj hprogram
      obtain ⟨hclean, hunexpected⟩ := (verifyEnd_isOk_iff hg).mp hend
      exact ⟨_, rfl, (verifyEnd_isOk_iff hf).mpr
        ⟨fun hmore => hclean (hsub hmore), fun _ => hunexpected (hsub hflag)⟩⟩
    | some program =>
      obtain ⟨root, hroot, rfl⟩ := eq_v3Output_of_isWitnessProgram hlength hversion hwitness
      rw [isWitnessProgram_v3Output hroot] at hwitness hprogram
      have hv3 : ∀ flags : Flags, verifyWitnessProgram (env.withFlags flags) witness 3 root false
          work = verifyXcoinV3Program (env.withFlags flags) witness root work := by
        intro flags
        simp only [verifyWitnessProgram, hroot]
        rfl
      cases hwitness
      obtain ⟨spent, hspent, -⟩ := Except.bind_eq_ok_iff.mp hprogram
      rw [hv3] at hspent
      obtain ⟨left, hleft⟩ := isOk_iff_exists.mp
        (verifyXcoinV3Program_of_subset hsub witness root work (isOk_iff_exists.mpr ⟨_, hspent⟩))
      refine ⟨⟨resizeToOne stack, true, left⟩, ?_, (verifyEnd_isOk_iff hf).mpr
        ⟨fun _ => rfl, fun _ => .inl rfl⟩⟩
      exact Except.bind_eq_ok_iff.mpr ⟨left, (hv3 f).trans hleft, rfl⟩
  · -- without witnesses there is neither a program nor a clean stack to ask for
    refine ⟨⟨stack, false, work⟩, ?_, (verifyEnd_isOk_iff hf).mpr
      ⟨fun hclean => absurd (hf.cleanstack hclean).2 hflag, fun hwitness => absurd hwitness hflag⟩⟩
    unfold verifyProgramOf
    rw [Env.withFlags_flags, if_pos hflag]

end Verify

/-- **Flags only narrow.**  A spend of a 34-byte output that starts with `OP_3` that is valid under
some flags is valid under fewer flags. -/
theorem verifyScript_isOk_of_subset (hashes : HashFunctions) (primitives : Primitives)
    (others : OtherChecks) (tx : Transaction) (spentOutputs : List TxOut) (nIn : ℕ)
    {f g : Flags} (hsub : f ⊆ g) (hf : ConsistentFlags f) (hg : ConsistentFlags g)
    {scriptPubKey : Bytes} (hlength : scriptPubKey.length = 34)
    (hversion : byteAt scriptPubKey 0 = op3)
    (hchecks : (isWitnessProgram scriptPubKey).isSome = true ∨
      MonotoneChecks ((spendContext hashes primitives tx spentOutputs nIn).checker others))
    (witness : List Bytes)
    (hok : (verifyScript (inputEnv hashes primitives others g tx spentOutputs nIn) [] scriptPubKey
      witness).isOk = true) :
    (verifyScript (inputEnv hashes primitives others f tx spentOutputs nIn) [] scriptPubKey
      witness).isOk = true := by
  let env := inputEnv hashes primitives others f tx spentOutputs nIn
  change (verifyScript (env.withFlags g) [] scriptPubKey witness).isOk = true at hok
  change (verifyScript (env.withFlags f) [] scriptPubKey witness).isOk = true
  rw [verifyScript_of_length hlength] at hok ⊢
  obtain ⟨m, heval, hok⟩ := isOk_bind_iff.mp hok
  obtain ⟨⟨⟩, htop, hok⟩ := isOk_bind_iff.mp hok
  obtain ⟨m', heval', hstack, hwork⟩ :=
    @evalBase_of_subset env f g scriptPubKey hsub hlength hversion hchecks m heval
  refine isOk_bind_iff.mpr ⟨m', heval', isOk_bind_iff.mpr ⟨(), ?_, ?_⟩⟩
  · exact checkTopTrue_of_stack hstack htop
  · rw [hstack, hwork]
    exact verifyProgram_end_of_subset hsub hf hg hlength hversion hok

/-! ## A locked leaf -/

/-- The leaf `1 OP_CHECKLOCKTIMEVERIFY` is spent under the flags of a block, and also without the
one that gives the opcode its meaning. -/
theorem lockedLeaf_isOk_of_subset :
    (verifyScript (inputEnv constantHashes ⟨fun _ _ _ => false, fun _ _ _ => false⟩ noOtherChecks
      (blockScriptFlags.erase .checklocktimeverify) lockedLeafSpend.tx
      lockedLeafSpend.spentOutputs 0) [] (v3Output (List.replicate 32 1))
      [[0x51, 0xb1], lockedLeafControl]).isOk = true :=
  @verifyScript_isOk_of_subset constantHashes ⟨fun _ _ _ => false, fun _ _ _ => false⟩
    noOtherChecks lockedLeafSpend.tx lockedLeafSpend.spentOutputs 0
    (blockScriptFlags.erase .checklocktimeverify) blockScriptFlags (Finset.erase_subset _ _)
    ⟨by decide, by decide⟩ ⟨by decide, by decide⟩ (v3Output (List.replicate 32 1)) (by decide)
    (by decide) (.inl (by decide)) _ (by decide +kernel)

end XCoin.Script
