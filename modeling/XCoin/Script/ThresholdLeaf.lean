import XCoin.Script.LeafSpend

/-!
# Threshold leaves

The ML-DSA leaf that asks for `k` of `n` signatures,

```text
h₁ OP_CHECKSIG h₂ OP_CHECKSIGADD … hₙ OP_CHECKSIGADD k OP_NUMEQUAL
```

Each key has a slot in the witness, a public key and a signature, or two empty items where the key
does not sign.  The count of signatures so far stands on the stack above the slots that have not
been read (`Counting`), so the run is followed key by key: a slot is taken off and either counts
one or nothing (`evalChecksigXcoinV3_slot`), and any other slot fails the script.
-/

namespace XCoin.Script

open Consensus

variable {below : List Bytes} (slots : List Slot)

/-! ## The leaf -/

/-- A threshold leaf: key hashes and how many of them sign. -/
structure ThresholdLeaf where
  /-- the first key hash -/
  key : Bytes
  /-- the other key hashes -/
  keys : List Bytes
  k : ℕ
  length_key : key.length = 32
  length_keys : ∀ other ∈ keys, other.length = 32
  keys_le : keys.length + 1 ≤ 200
  one_le_k : 1 ≤ k
  k_le : k ≤ keys.length + 1

/-- The keys after the first one, each with `OP_CHECKSIGADD`. -/
def checksigAdds (keys : List Bytes) : Bytes := keys.flatMap fun key => pushData key ++ [0xba]

/-- The end of the script: the threshold and `OP_NUMEQUAL`. -/
def numEqualEnd (k : ℕ) : Bytes := pushInt64 k ++ [0x9c]

theorem checksigAdds_cons_append (key : Bytes) (keys : List Bytes) (rest : Bytes) :
    checksigAdds (key :: keys) ++ rest = pushData key ++ 0xba :: (checksigAdds keys ++ rest) := by
  simp [checksigAdds]

/-- The leaf script. -/
def ThresholdLeaf.script (leaf : ThresholdLeaf) : Bytes :=
  pushData leaf.key ++ 0xac :: (checksigAdds leaf.keys ++ numEqualEnd leaf.k)

/-- The two witness items of a key. -/
structure Slot where
  sig : Bytes
  pubkey : Bytes
deriving DecidableEq, Repr

/-- The key signs. -/
def Slot.signed (slot : Slot) : Bool := !slot.sig.isEmpty

/-- The slots as they lie on the stack, the signature of the first key on top. -/
def slotStack : List Bytes := slots.flatMap fun slot => [slot.sig, slot.pubkey]

/-- How many keys sign. -/
def signedCount : ℕ := slots.countP Slot.signed

@[simp] theorem slotStack_cons (slot : Slot) (slots : List Slot) :
    slotStack (slot :: slots) = slot.sig :: slot.pubkey :: slotStack slots := rfl

theorem length_slotStack : (slotStack slots).length = 2 * slots.length := by
  induction slots with
  | nil => rfl
  | cons slot rest ih =>
    rw [slotStack_cons, List.length_cons, List.length_cons, ih, List.length_cons]
    omega

theorem signedCount_cons (slot : Slot) (slots : List Slot) :
    signedCount (slot :: slots) = slot.signed.toNat + signedCount slots := by
  unfold signedCount
  rw [List.countP_cons]
  cases slot.signed with
  | false => simp
  | true => simp [add_comm]

/-! ## Its instructions -/

theorem scriptOps_key_op {key : Bytes} (hkey : key.length = 32) {op : UInt8}
    (hop : opPushdata4 < op.toNat) (rest : Bytes) :
    scriptOps (pushData key ++ op :: rest) =
      some ⟨0x20, key, op :: rest⟩ :: some ⟨op.toNat, [], rest⟩ :: scriptOps rest := by
  have hpush : pushData key = 0x20 :: key := by
    unfold pushData
    rw [hkey]
    rfl
  have hfirst : getScriptOp (0x20 :: (key ++ op :: rest)) = some ⟨0x20, key, op :: rest⟩ := by
    have hsize : readPushSize (0x20 : UInt8).toNat (key ++ op :: rest) =
        some (32, key ++ op :: rest) := rfl
    simp only [getScriptOp, hsize]
    rw [if_pos (by decide), if_neg (by simp [hkey]), List.take_left' hkey, List.drop_left' hkey]
    rfl
  have hsecond : getScriptOp (op :: rest) = some ⟨op.toNat, [], rest⟩ := by
    simp only [getScriptOp]
    rw [if_neg (not_le.mpr hop)]
  rw [hpush, List.cons_append, scriptOps_cons, hfirst]
  simp only
  rw [scriptOps_cons, hsecond]

/-- The instruction that pushes the threshold. -/
def numberInstr (k : ℕ) : Instr :=
  if k ≤ 16 then ⟨0x50 + k, [], [0x9c]⟩
  else ⟨(scriptNumSerialize k).length, scriptNumSerialize k, [0x9c]⟩

theorem scriptOps_numEqualEnd : ∀ {k : ℕ}, 1 ≤ k → k ≤ 200 →
    scriptOps (numEqualEnd k) = [some (numberInstr k), some ⟨opNumequal, [], []⟩] := by
  have hall : ∀ k ∈ List.range 201, 1 ≤ k →
      scriptOps (numEqualEnd k) = [some (numberInstr k), some ⟨opNumequal, [], []⟩] := by
    decide +kernel
  intro k hlow hhigh
  exact hall k (List.mem_range.mpr (by omega)) hlow

theorem readNum_count {c : ℕ} (hc : c ≤ 200) :
    readNum (scriptNumSerialize c) false defaultMaxNumSize = .ok (c : ℤ) ∧
      (scriptNumSerialize c).length ≤ 2 := by
  have hall : ∀ c ∈ List.range 201,
      readNum (scriptNumSerialize c) false defaultMaxNumSize = .ok (c : ℤ) ∧
        (scriptNumSerialize c).length ≤ 2 := by
    decide +kernel
  exact hall c (List.mem_range.mpr (by omega))

theorem evalInstr_numberInstr {env : Env} {m : Machine} {k : ℕ} (hlow : 1 ≤ k) (hhigh : k ≤ 200)
    (hminimal : env.requireMinimal = false) (hexec : m.vfExec = []) :
    evalInstr env m (numberInstr k) = endStep (m.push (scriptNumSerialize k)) := by
  unfold numberInstr
  split_ifs with hsmall
  · have hopcode : ((0x50 + k : ℕ) : ℤ) - 80 = k := by omega
    have hstep := @evalInstr_smallInt env m ⟨0x50 + k, [], [0x9c]⟩ hexec
      (show op1 ≤ 0x50 + k by simp only [op1]; omega)
      (show 0x50 + k ≤ op16 by simp only [op16]; omega) rfl
    rw [hstep]
    simp only [hopcode]
  · have hlength := (readNum_count hhigh).2
    exact evalInstr_push hexec (.inl hminimal)
      (show (scriptNumSerialize k).length ≤ opPushdata4 by simp only [opPushdata4]; omega)
      (show (scriptNumSerialize k).length ≤ maxScriptElementSize by
        simp only [maxScriptElementSize]; omega)

/-! ## One slot -/

section Slot

variable {env : Env} {m m' : Machine} {key : Bytes}

/-- **A slot.**  For a 32-byte key hash the check either fails the script or counts the slot: an
empty signature comes with an empty key, any other one is checked. -/
theorem evalChecksigXcoinV3_slot {success : Bool} {slot : Slot}
    (hkey : key.length = pqPubkeyHashSize) :
    evalChecksigXcoinV3 env m slot.sig key slot.pubkey = .ok (m', success) ↔
      success = slot.signed ∧
        ((slot.sig = [] ∧ slot.pubkey = [] ∧ m' = m) ∨
          (slot.sig ≠ [] ∧ xcoinV3ValidationWeightMldsa ≤ m.execdata.validationWeightLeft ∧
            checkPubkeyAndSigV3 env (m.spend xcoinV3ValidationWeightMldsa) slot.sig key
              slot.pubkey = .ok (m', true))) := by
  have hnonempty : pqPubkeyHashSize ≠ 0 := by decide
  by_cases hsig : slot.sig = []
  · have hunsigned : slot.signed = false := by
      unfold Slot.signed
      rw [hsig]
      rfl
    unfold evalChecksigXcoinV3 Machine.chargeSignature
    rw [if_pos hsig, Except.ok_bind, if_neg (by rw [hkey]; exact hnonempty), if_pos hkey,
      if_pos hsig, hunsigned]
    by_cases hpubkey : slot.pubkey = []
    · rw [if_neg (not_not.mpr hpubkey)]
      simp [Except.pure_eq_ok, hsig, hpubkey, eq_comm, and_comm]
    · rw [if_pos hpubkey]
      simp [hsig, hpubkey]
  · have hsigned : slot.signed = true := by
      unfold Slot.signed
      rw [Bool.not_eq_true', List.isEmpty_eq_false_iff]
      exact hsig
    rw [hsigned]
    cases success with
    | true =>
      rw [evalChecksigXcoinV3_eq_true hkey]
      simp [hsig]
    | false =>
      -- a signature that is not empty either fails the script or is valid
      have hnever : ∀ m'', evalChecksigXcoinV3 env m slot.sig key slot.pubkey ≠
          .ok (m'', false) := by
        intro m'' hcheck
        unfold evalChecksigXcoinV3 at hcheck
        obtain ⟨charged, -, hcheck⟩ := Except.bind_eq_ok_iff.mp hcheck
        rw [if_neg (by rw [hkey]; exact hnonempty), if_pos hkey, if_neg hsig] at hcheck
        exact absurd (checkPubkeyAndSigV3_eq_ok.mp hcheck).2.2.2.2 (by decide)
      simp [hnever]

theorem execChecksig_slot (hversion : env.sigversion = .xcoinPqTapscript)
    (hkey : key.length = pqPubkeyHashSize) (hstack : m.stack = key :: below) :
    execChecksig env m false = .ok m' ↔
      ∃ (slot : Slot) (rest : List Bytes) (checked : Machine),
        below = slot.sig :: slot.pubkey :: rest ∧
        evalChecksigXcoinV3 env m slot.sig key slot.pubkey = .ok (checked, slot.signed) ∧
        m' = checked.withStack (scriptNumSerialize slot.signed.toNat :: rest) := by
  have hbool : ∀ success : Bool, vchBool success = scriptNumSerialize success.toNat := by
    decide
  rw [@execChecksig_eq_ok env .mldsa m m' key below hversion hstack false]
  constructor
  · rintro ⟨rest, checked, success, ⟨sig, pubkey, hbelow, hcheck⟩, hpushed⟩
    obtain ⟨rfl, -⟩ := (@evalChecksigXcoinV3_slot env m checked key success ⟨sig, pubkey⟩ hkey).mp
      hcheck
    refine ⟨⟨sig, pubkey⟩, rest, checked, hbelow, hcheck, ?_⟩
    rw [← hbool]
    exact (Except.ok.inj hpushed).symm
  · rintro ⟨slot, rest, checked, hbelow, hcheck, rfl⟩
    refine ⟨rest, checked, slot.signed, ⟨slot.sig, slot.pubkey, hbelow, hcheck⟩, ?_⟩
    rw [← hbool]
    rfl

/-- `OP_CHECKSIGADD` on a later slot: the count goes up by one or stays. -/
theorem execChecksigAdd_slot {c : ℕ} (hversion : env.sigversion = .xcoinPqTapscript)
    (hminimal : env.requireMinimal = false) (hkey : key.length = pqPubkeyHashSize) (hc : c ≤ 200)
    (hstack : m.stack = key :: scriptNumSerialize c :: below) :
    execChecksigAdd env m = .ok m' ↔
      ∃ (slot : Slot) (rest : List Bytes) (checked : Machine),
        below = slot.sig :: slot.pubkey :: rest ∧
        evalChecksigXcoinV3 env m slot.sig key slot.pubkey = .ok (checked, slot.signed) ∧
        m' = checked.withStack (scriptNumSerialize (c + slot.signed.toNat : ℕ) :: rest) := by
  have hsum : ∀ success : Bool, (c : ℤ) + success.toInt = (c + success.toNat : ℕ) := by
    intro success
    cases success <;> simp
  unfold execChecksigAdd
  rw [if_neg (by rw [hversion]; decide), if_pos hversion, hstack]
  match below with
  | [] => simp
  | [_] => simp
  | sig :: pubkey :: rest =>
    simp only [hminimal, (readNum_count hc).1, Machine.lift, Except.ok_bind,
      Except.bind_eq_ok_iff, Prod.exists, Except.pure_eq_ok, Except.ok.injEq]
    constructor
    · rintro ⟨checked, success, hcheck, rfl⟩
      obtain ⟨rfl, -⟩ :=
        (@evalChecksigXcoinV3_slot env m checked key success ⟨sig, pubkey⟩ hkey).mp hcheck
      refine ⟨⟨sig, pubkey⟩, rest, checked, rfl, hcheck, ?_⟩
      rw [hsum]
    · rintro ⟨slot, others, checked, hbelow, hcheck, rfl⟩
      obtain ⟨rfl, rfl, rfl⟩ : slot.sig = sig ∧ slot.pubkey = pubkey ∧ others = rest := by
        simpa [eq_comm] using hbelow
      refine ⟨checked, slot.signed, hcheck, ?_⟩
      rw [hsum]

end Slot

/-! ## The run -/

namespace V3Spend

variable {hashes : HashFunctions}

/-- A state of the leaf's run outside conditionals: the stack, the opcodes counted so far and the
budget that is left. -/
structure Running (spend : V3Spend hashes) (m : Machine) (stack : List Bytes) (used : ℕ)
    (budget : ℤ) : Prop where
  stack_eq : m.stack = stack
  altstack : m.altstack = []
  vfExec : m.vfExec = []
  nOpCount : m.nOpCount = used
  leafData : spend.IsLeafData m.execdata
  budget_eq : m.execdata.validationWeightLeft = budget
  budget_nonneg : 0 ≤ budget

/-- A slot that its key accepts: two empty items, or the public key of the hash and a signature that
is valid on the v3 signature hash. -/
def SlotValid (spend : V3Spend hashes) (primitives : Primitives) (key : Bytes) (slot : Slot) :
    Prop :=
  (slot.sig = [] ∧ slot.pubkey = []) ∨
    (slot.pubkey.length = pqPubkeySize ∧ hashes.sha256 slot.pubkey = key ∧
      ValidSignature spend.tx spend.nIn pqSignatureSize spend.signatureHash
        primitives.verifyMldsa slot.pubkey slot.sig)

variable {spend : V3Spend hashes} {primitives : Primitives} {others : OtherChecks} {m : Machine}
  {stack : List Bytes} {used : ℕ} {budget : ℤ} {key : Bytes} {slot : Slot}

theorem Running.atChecksig (hrunning : spend.Running m stack used budget) (vch : Bytes) :
    spend.Running (m.atChecksig vch) (vch :: stack) (used + 1) budget where
  stack_eq := congrArg (vch :: ·) hrunning.stack_eq
  altstack := hrunning.altstack
  vfExec := hrunning.vfExec
  nOpCount := congrArg (· + 1) hrunning.nOpCount
  leafData := ⟨hrunning.leafData.tapleafHash, hrunning.leafData.annexHash,
    hrunning.leafData.codeseparatorPos⟩
  budget_eq := hrunning.budget_eq
  budget_nonneg := hrunning.budget_nonneg

theorem checkPubkeyAndSigV3_iff (halgorithm : spend.algorithm = .mldsa)
    (hrunning : spend.Running m stack used budget) {m' : Machine} :
    checkPubkeyAndSigV3 (spend.env primitives others) m slot.sig key slot.pubkey =
        .ok (m', true) ↔
      slot.pubkey.length = pqPubkeySize ∧ hashes.sha256 slot.pubkey = key ∧
        ValidSignature spend.tx spend.nIn pqSignatureSize spend.signatureHash
          primitives.verifyMldsa slot.pubkey slot.sig ∧
        m' = m.countMldsa ((spend.env primitives others).checker.checkPQSigV3 slot.sig slot.pubkey
          m.execdata).performed := by
  have hcheck := @checkSigV3_iff hashes spend primitives pqPubkeySize pqSignatureSize
    primitives.verifyMldsa slot.sig slot.pubkey m.execdata hrunning.leafData
  rw [halgorithm] at hcheck
  rw [checkPubkeyAndSigV3_eq_ok]
  constructor
  · rintro ⟨hlength, hhash, hresult, hstate, -⟩
    exact ⟨hlength, hhash, (hcheck.mp hresult).2, hstate⟩
  · rintro ⟨hlength, hhash, hvalid, hstate⟩
    exact ⟨hlength, hhash, hcheck.mpr ⟨hlength, hvalid⟩, hstate, rfl⟩

theorem SlotValid.signature (hvalid : spend.SlotValid primitives key slot) :
    (slot.signed = false ∧ slot.sig = [] ∧ slot.pubkey = []) ∨
      (slot.signed = true ∧ pqSignatureSize ≤ slot.sig.length ∧
        slot.sig.length ≤ pqSignatureSize + 1 ∧ slot.pubkey.length = pqPubkeySize) := by
  rcases hvalid with ⟨hsig, hpubkey⟩ | ⟨hlength, -, hsignature⟩
  · refine .inl ⟨?_, hsig, hpubkey⟩
    unfold Slot.signed
    rw [hsig]
    rfl
  · obtain ⟨hlow, hhigh⟩ := hsignature.length_ge
    refine .inr ⟨?_, hlow, hhigh, hlength⟩
    unfold Slot.signed
    rw [Bool.not_eq_true', List.isEmpty_eq_false_iff]
    rintro hempty
    rw [hempty] at hlow
    exact absurd hlow (by decide)

theorem Running.spend_mldsa (hrunning : spend.Running m stack used budget)
    (hweight : xcoinV3ValidationWeightMldsa ≤ budget) :
    spend.Running (m.spend xcoinV3ValidationWeightMldsa) stack used
      (budget - xcoinV3ValidationWeightMldsa) where
  stack_eq := hrunning.stack_eq
  altstack := hrunning.altstack
  vfExec := hrunning.vfExec
  nOpCount := hrunning.nOpCount
  leafData := ⟨hrunning.leafData.tapleafHash, hrunning.leafData.annexHash,
    hrunning.leafData.codeseparatorPos⟩
  budget_eq := congrArg (· - xcoinV3ValidationWeightMldsa) hrunning.budget_eq
  budget_nonneg := by omega

theorem Running.next_withStack (hrunning : spend.Running m stack used budget) (performed : Bool)
    (after : List Bytes) :
    spend.Running ((m.countMldsa performed).withStack after).next after used budget where
  stack_eq := rfl
  altstack := hrunning.altstack
  vfExec := hrunning.vfExec
  nOpCount := hrunning.nOpCount
  leafData := ⟨hrunning.leafData.tapleafHash, hrunning.leafData.annexHash,
    hrunning.leafData.codeseparatorPos⟩
  budget_eq := hrunning.budget_eq
  budget_nonneg := hrunning.budget_nonneg

/-- What a slot costs. -/
def slotWeight (slot : Slot) : ℤ := xcoinV3ValidationWeightMldsa * slot.signed.toNat

theorem Running.slot_of_check (halgorithm : spend.algorithm = .mldsa) (hkey : key.length = 32)
    (hrunning : spend.Running m stack used budget) {checked : Machine}
    (hcheck : evalChecksigXcoinV3 (spend.env primitives others) m slot.sig key slot.pubkey =
      .ok (checked, slot.signed)) :
    spend.SlotValid primitives key slot ∧ slotWeight slot ≤ budget ∧
      ∀ after, spend.Running (checked.withStack after).next after used
        (budget - slotWeight slot) := by
  unfold slotWeight
  rcases ((evalChecksigXcoinV3_slot hkey).mp hcheck).2 with
    ⟨hsig, hpubkey, rfl⟩ | ⟨hsig, hweight, hsigned⟩
  · have hvalid : spend.SlotValid primitives key slot := .inl ⟨hsig, hpubkey⟩
    rcases hvalid.signature with ⟨hunsigned, -⟩ | ⟨-, hlow, -⟩
    · rw [hunsigned]
      refine ⟨hvalid, by simpa using hrunning.budget_nonneg, fun after => ?_⟩
      simpa [Machine.countMldsa] using hrunning.next_withStack false after
    · rw [hsig] at hlow
      exact absurd hlow (by decide)
  · rw [hrunning.budget_eq] at hweight
    have hspent := hrunning.spend_mldsa hweight
    obtain ⟨hlength, hhash, hsignature, rfl⟩ := (checkPubkeyAndSigV3_iff halgorithm hspent).mp hsigned
    have hvalid : spend.SlotValid primitives key slot := .inr ⟨hlength, hhash, hsignature⟩
    rcases hvalid.signature with ⟨-, hempty, -⟩ | ⟨hsigned, -⟩
    · exact absurd hempty hsig
    · rw [hsigned]
      refine ⟨hvalid, by simpa using hweight, fun after => ?_⟩
      simpa using hspent.next_withStack _ after

theorem Running.check_of_slot (halgorithm : spend.algorithm = .mldsa) (hkey : key.length = 32)
    (hrunning : spend.Running m stack used budget) (hvalid : spend.SlotValid primitives key slot)
    (hweight : slotWeight slot ≤ budget) :
    ∃ checked, evalChecksigXcoinV3 (spend.env primitives others) m slot.sig key slot.pubkey =
      .ok (checked, slot.signed) := by
  unfold slotWeight at hweight
  rcases hvalid.signature with ⟨-, hsig, hpubkey⟩ | ⟨hsigned, hlow, -⟩
  · exact ⟨m, (evalChecksigXcoinV3_slot hkey).mpr ⟨rfl, .inl ⟨hsig, hpubkey, rfl⟩⟩⟩
  · have hsig : slot.sig ≠ [] := by
      intro hempty
      rw [hempty] at hlow
      exact absurd hlow (by decide)
    have hpaid : xcoinV3ValidationWeightMldsa ≤ budget := by
      rw [hsigned] at hweight
      simpa using hweight
    rcases hvalid with ⟨hempty, -⟩ | ⟨hlength, hhash, hsignature⟩
    · exact absurd hempty hsig
    · have hchecked := (@checkPubkeyAndSigV3_iff hashes spend primitives others _ stack used _ key
        slot halgorithm (hrunning.spend_mldsa hpaid) _).mpr ⟨hlength, hhash, hsignature, rfl⟩
      exact ⟨_, (evalChecksigXcoinV3_slot hkey).mpr
        ⟨rfl, .inr ⟨hsig, hrunning.budget_eq ▸ hpaid, hchecked⟩⟩⟩

/-! ### The keys -/

theorem Running.accepts_numEqualEnd_iff {c k : ℕ} (hlow : 1 ≤ k) (hhigh : k ≤ 200) (hc : c ≤ 200)
    (hused : used < maxOpsPerScript)
    (hrunning : spend.Running m (scriptNumSerialize c :: below) used budget) :
    Accepts (spend.env primitives others) m (scriptOps (numEqualEnd k)) ↔
      below = [] ∧ c = k := by
  have hminimal : (spend.env primitives others).requireMinimal = false := requireMinimal_env
  have hlimits : (spend.env primitives others).sigversion.scriptLimits = true :=
    spend.algorithm.scriptLimits
  have hstack := (hrunning.atChecksig (scriptNumSerialize k)).stack_eq
  have hop : execOp (spend.env primitives others) (m.atChecksig (scriptNumSerialize k))
      (decodeOp opNumequal) true [] = .ok ((m.atChecksig (scriptNumSerialize k)).withStack
        (scriptNumSerialize (if (c : ℤ) = k then 1 else 0) :: below)) := by
    change execStackOp _ _ (.binary .numequal) = _
    unfold execStackOp
    rw [hstack, hminimal]
    simp only [runStackOp, (readNum_count hc).1, (readNum_count hhigh).1, Except.ok_bind]
    rfl
  rw [scriptOps_numEqualEnd hlow hhigh, accepts_push_op_iff hlimits hrunning.vfExec
    (hrunning.nOpCount ▸ hused) (evalInstr_numberInstr hlow hhigh hminimal hrunning.vfExec)
    (show op16 < opNumequal by decide) rfl (show isDisabled opNumequal = false by decide)
    (show opNumequal ≠ opCodeseparator by decide)]
  constructor
  · rintro ⟨-, m₁, hrun, -, m', top, hend, -, hfinal, htrue⟩
    obtain rfl := Except.ok.inj (hop.symm.trans hrun)
    obtain rfl := Except.ok.inj hend
    obtain ⟨rfl, rfl⟩ := List.cons.inj hfinal
    refine ⟨rfl, ?_⟩
    by_contra hne
    rw [if_neg (by exact_mod_cast hne)] at htrue
    exact absurd htrue (by decide)
  · rintro ⟨rfl, rfl⟩
    refine ⟨?_, _, hop, ?_, _, _, rfl, hrunning.vfExec, rfl, by rw [if_pos rfl]; decide⟩
    · rw [Machine.push_stack, hrunning.stack_eq, hrunning.altstack]
      exact show 2 ≤ maxStackSize by decide
    · rw [Machine.withStack_stack]
      change 1 + m.altstack.length ≤ maxStackSize
      rw [hrunning.altstack]
      decide

/-- What is left of the stack are valid slots of these keys, in this order, which bring the count
from `c` to `k` within the budget. -/
def SlotsFor (spend : V3Spend hashes) (primitives : Primitives) (keys : List Bytes) (c k : ℕ)
    (budget : ℤ) (below : List Bytes) : Prop :=
  ∃ slots, below = slotStack slots ∧ List.Forall₂ (spend.SlotValid primitives) keys slots ∧
    c + signedCount slots = k ∧ xcoinV3ValidationWeightMldsa * signedCount slots ≤ budget

/-- **One key.**  An opcode that checks a slot and counts it, with `above` between the key and the
slots, goes before the keys that follow. -/
theorem Running.accepts_slot_iff (halgorithm : spend.algorithm = .mldsa) (hkey : key.length = 32)
    {keys : List Bytes} {c k opcode : ℕ} {above below : List Bytes} {after next : Bytes}
    {ops : List (Option Instr)} (hopcode : op16 < opcode) (hdisabled : isDisabled opcode = false)
    (hseparator : opcode ≠ opCodeseparator) (hused : used < maxOpsPerScript)
    (hroom : above.length + 2 * (keys.length + 1) + 1 ≤ maxStackSize)
    (hrunning : spend.Running m (above ++ below) used budget)
    (hop : ∀ m₁, execOp (spend.env primitives others) (m.atChecksig key) (decodeOp opcode) true
        next = .ok m₁ ↔ ∃ (slot : Slot) (rest : List Bytes) (checked : Machine),
      below = slot.sig :: slot.pubkey :: rest ∧
      evalChecksigXcoinV3 (spend.env primitives others) (m.atChecksig key) slot.sig key
        slot.pubkey = .ok (checked, slot.signed) ∧
      m₁ = checked.withStack (scriptNumSerialize (c + slot.signed.toNat : ℕ) :: rest))
    (hrest : ∀ (m' : Machine) (success : Bool) (rest : List Bytes) (left : ℤ),
      spend.Running m' (scriptNumSerialize (c + success.toNat : ℕ) :: rest) (used + 1) left →
        (Accepts (spend.env primitives others) m' ops ↔
          spend.SlotsFor primitives keys (c + success.toNat) k left rest)) :
    Accepts (spend.env primitives others) m
        (some ⟨0x20, key, after⟩ :: some ⟨opcode, [], next⟩ :: ops) ↔
      spend.SlotsFor primitives (key :: keys) c k budget below := by
  have hchecking := hrunning.atChecksig key
  have hpush : evalInstr (spend.env primitives others) m ⟨0x20, key, after⟩ =
      endStep (m.push key) :=
    evalInstr_push hrunning.vfExec (.inl requireMinimal_env) (show 0x20 ≤ opPushdata4 by decide)
      (show key.length ≤ maxScriptElementSize by rw [hkey]; decide)
  rw [accepts_push_op_iff spend.algorithm.scriptLimits hrunning.vfExec
    (hrunning.nOpCount ▸ hused) hpush hopcode rfl hdisabled hseparator]
  constructor
  · -- a run that accepts gives this slot, and the rest of the run the others
    rintro ⟨-, m₁, hrun, -, haccepts⟩
    obtain ⟨slot, rest, checked, rfl, hcheck, rfl⟩ := (hop m₁).mp hrun
    obtain ⟨hvalid, hweight, hnext⟩ := hchecking.slot_of_check halgorithm hkey hcheck
    obtain ⟨slots, rfl, hslots, hcount, hbudget⟩ := (hrest _ _ _ _ (hnext _)).mp haccepts
    refine ⟨slot :: slots, rfl, List.Forall₂.cons hvalid hslots, ?_, ?_⟩
    · rw [signedCount_cons]
      omega
    · rw [signedCount_cons]
      unfold slotWeight at hbudget
      push_cast
      linarith
  · rintro ⟨slots, rfl, hslots, hcount, hbudget⟩
    cases hslots with
    | cons hvalid hslots =>
      rename_i slot slots
      have hlength := hslots.length_eq
      rw [signedCount_cons] at hcount hbudget
      push_cast at hbudget
      have hnonneg : (0 : ℤ) ≤ xcoinV3ValidationWeightMldsa * signedCount slots := by
        unfold xcoinV3ValidationWeightMldsa
        positivity
      have hweight : slotWeight slot ≤ budget := by
        unfold slotWeight
        linarith
      obtain ⟨checked, hcheck⟩ := hchecking.check_of_slot halgorithm hkey hvalid hweight
      have hnext := (hchecking.slot_of_check halgorithm hkey hcheck).2.2
        (scriptNumSerialize (c + slot.signed.toNat : ℕ) :: slotStack slots)
      refine ⟨?_, _, (hop _).mpr ⟨slot, slotStack slots, checked, rfl, hcheck, rfl⟩, ?_,
        (hrest _ slot.signed _ _ hnext).mpr ⟨slots, rfl, hslots, by omega, ?_⟩⟩
      · rw [Machine.push_stack, hrunning.stack_eq, hrunning.altstack]
        simp only [List.length_cons, List.length_append, length_slotStack, List.length_nil]
        omega
      · have halt : checked.altstack = [] := hnext.altstack
        rw [Machine.withStack_stack]
        change _ + checked.altstack.length ≤ _
        rw [halt]
        simp only [List.length_cons, length_slotStack, List.length_nil]
        omega
      · unfold slotWeight
        linarith

theorem sigversion_env (halgorithm : spend.algorithm = .mldsa) :
    (spend.env primitives others).sigversion = .xcoinPqTapscript := by
  change spend.algorithm.sigversion = _
  rw [halgorithm]
  rfl

theorem Running.accepts_checksigAdds_iff (halgorithm : spend.algorithm = .mldsa) {k : ℕ}
    (hlow : 1 ≤ k) (hhigh : k ≤ 200) : ∀ {keys : List Bytes} {m : Machine} {c used : ℕ}
    {below : List Bytes} {budget : ℤ}, (∀ key ∈ keys, key.length = 32) → c + keys.length ≤ 200 →
      used + keys.length < maxOpsPerScript →
      spend.Running m (scriptNumSerialize c :: below) used budget →
      (Accepts (spend.env primitives others) m (scriptOps (checksigAdds keys ++ numEqualEnd k)) ↔
        spend.SlotsFor primitives keys c k budget below) := by
  intro keys
  induction keys with
  | nil =>
    intro m c used below budget _ hc hused hrunning
    rw [show checksigAdds [] ++ numEqualEnd k = numEqualEnd k from rfl,
      hrunning.accepts_numEqualEnd_iff hlow hhigh hc hused]
    constructor
    · rintro ⟨rfl, rfl⟩
      exact ⟨[], rfl, List.Forall₂.nil, rfl, hrunning.budget_nonneg⟩
    · rintro ⟨slots, rfl, hslots, hcount, -⟩
      cases hslots
      exact ⟨rfl, hcount⟩
  | cons key keys ih =>
    intro m c used below budget hkeys hc hused hrunning
    rw [List.length_cons] at hc hused
    have hkey := hkeys key List.mem_cons_self
    rw [checksigAdds_cons_append, scriptOps_key_op hkey (by decide)]
    refine @accepts_slot_iff hashes spend primitives others m used budget key halgorithm hkey keys
      c k opChecksigadd [scriptNumSerialize c] below _ _ _ (by decide) (by decide) (by decide)
      (by omega) ?_ hrunning ?_ ?_
    · simp only [List.length_singleton, maxStackSize]
      omega
    · intro m₁
      exact execChecksigAdd_slot (sigversion_env halgorithm) requireMinimal_env hkey (by omega)
        (hrunning.atChecksig key).stack_eq
    · intro m' success rest left hnext
      have hone := success.toNat_le
      exact ih (fun other hother => hkeys other (List.mem_cons_of_mem _ hother)) (by omega)
        (by omega) hnext

end V3Spend

/-! ## The whole leaf -/

namespace ThresholdLeaf

variable (leaf : ThresholdLeaf)

/-- All key hashes in the order of the script. -/
def allKeys : List Bytes := leaf.key :: leaf.keys

theorem k_le_max : leaf.k ≤ 200 := leaf.k_le.trans leaf.keys_le

theorem scriptOps_script : scriptOps leaf.script =
    some ⟨0x20, leaf.key, 0xac :: (checksigAdds leaf.keys ++ numEqualEnd leaf.k)⟩ ::
      some ⟨opChecksig, [], checksigAdds leaf.keys ++ numEqualEnd leaf.k⟩ ::
      scriptOps (checksigAdds leaf.keys ++ numEqualEnd leaf.k) :=
  scriptOps_key_op leaf.length_key (by decide) _

theorem length_script_le : leaf.script.length ≤ maxScriptSize := by
  have hpush : ∀ key : Bytes, key.length = 32 → (pushData key).length = 33 := by
    intro key hkey
    unfold pushData
    rw [hkey]
    exact congrArg (· + 1) hkey
  have hadds : (checksigAdds leaf.keys).length = 34 * leaf.keys.length := by
    unfold checksigAdds
    rw [List.length_flatMap, List.map_congr_left (g := fun _ => 34), List.map_const',
      List.sum_replicate, smul_eq_mul, mul_comm]
    intro key hkey
    rw [List.length_append, hpush key (leaf.length_keys key hkey)]
    rfl
  have hend : (numEqualEnd leaf.k).length ≤ 5 := by
    have hall : ∀ k ∈ List.range 201, (numEqualEnd k).length ≤ 5 := by decide +kernel
    exact hall leaf.k (List.mem_range.mpr (by have := leaf.k_le_max; omega))
  have hkeys := leaf.keys_le
  unfold script maxScriptSize
  rw [List.length_append, List.length_cons, List.length_append, hpush _ leaf.length_key, hadds]
  omega

theorem scanOpSuccess_checksigAdds (flags : Flags) {k : ℕ} (hlow : 1 ≤ k) (hhigh : k ≤ 200) :
    ∀ {keys : List Bytes}, (∀ key ∈ keys, key.length = 32) →
      scanOpSuccess flags (scriptOps (checksigAdds keys ++ numEqualEnd k)) = none := by
  intro keys
  induction keys with
  | nil =>
    intro _
    have hall : ∀ k ∈ List.range 201, 1 ≤ k → isOpSuccess (numberInstr k).opcode = false := by
      decide +kernel
    have hnumber := hall k (List.mem_range.mpr (by omega)) hlow
    rw [show checksigAdds [] ++ numEqualEnd k = numEqualEnd k from rfl,
      scriptOps_numEqualEnd hlow hhigh]
    simp only [scanOpSuccess, hnumber]
    rfl
  | cons key keys ih =>
    intro hkeys
    rw [checksigAdds_cons_append, scriptOps_key_op (hkeys key List.mem_cons_self) (by decide)]
    simp only [scanOpSuccess]
    rw [ih fun other hother => hkeys other (List.mem_cons_of_mem _ hother)]
    rfl

theorem scanOpSuccess_script (flags : Flags) :
    scanOpSuccess flags (scriptOps leaf.script) = none := by
  rw [leaf.scriptOps_script]
  simp only [scanOpSuccess]
  rw [scanOpSuccess_checksigAdds flags leaf.one_le_k leaf.k_le_max leaf.length_keys]
  rfl

end ThresholdLeaf

namespace V3Spend

variable {hashes : HashFunctions} {spend : V3Spend hashes} {primitives : Primitives}

/-- The slots of a valid stack are paid for by their own bytes. -/
theorem weight_slots_le {keys : List Bytes} {slots : List Slot}
    (hslots : List.Forall₂ (spend.SlotValid primitives) keys slots) :
    200 * signedCount slots ≤ ((slotStack slots).map List.length).sum := by
  induction hslots with
  | nil => exact Nat.zero_le _
  | cons hvalid _ ih =>
    rw [signedCount_cons, slotStack_cons, List.map_cons, List.map_cons, List.sum_cons,
      List.sum_cons]
    rcases hvalid.signature with ⟨hunsigned, -⟩ | ⟨hsigned, hlow, -⟩
    · rw [hunsigned, Bool.toNat_false]
      omega
    · rw [hsigned, Bool.toNat_true]
      simp only [pqSignatureSize] at hlow
      omega

theorem SlotValid.length_le {key : Bytes} {slot : Slot}
    (hvalid : spend.SlotValid primitives key slot) :
    slot.sig.length ≤ maxXcoinV3InitialElementSize ∧
      slot.pubkey.length ≤ maxXcoinV3InitialElementSize := by
  rcases hvalid.signature with ⟨-, hsig, hpubkey⟩ | ⟨-, -, hhigh, hpubkey⟩
  · rw [hsig, hpubkey]
    exact ⟨Nat.zero_le _, Nat.zero_le _⟩
  · rw [hpubkey]
    exact ⟨hhigh.trans (by decide), by decide⟩

theorem length_item_slots_le {keys : List Bytes} {slots : List Slot}
    (hslots : List.Forall₂ (spend.SlotValid primitives) keys slots) :
    ∀ item ∈ slotStack slots, item.length ≤ maxXcoinV3InitialElementSize := by
  induction hslots with
  | nil =>
    intro item hitem
    cases hitem
  | cons hvalid _ ih =>
    intro item hitem
    have hsmall := hvalid.length_le
    rw [slotStack_cons] at hitem
    rcases List.mem_cons.mp hitem with rfl | hitem
    · exact hsmall.1
    rcases List.mem_cons.mp hitem with rfl | hitem
    · exact hsmall.2
    · exact ih item hitem

/-- The witness items of slots: the last key's first, each public key before its signature. -/
def slotItems : List Bytes :=
  slots.reverse.flatMap fun slot => [slot.pubkey, slot.sig]

theorem reverse_slotItems : (slotItems slots).reverse = slotStack slots := by
  unfold slotItems slotStack
  rw [List.reverse_flatMap, List.reverse_reverse]
  rfl

/-- **Threshold leaves.**  Under the flags of a block the leaf is satisfied exactly by one slot for
each key, of which `k` are signed: each signed one has the public key of its hash and a valid
signature on the v3 signature hash, each other one is empty. -/
theorem thresholdLeaf_isOk_iff (spend : V3Spend hashes) (primitives : Primitives)
    (others : OtherChecks) (leaf : ThresholdLeaf) (halgorithm : spend.algorithm = .mldsa)
    (hscript : spend.script = leaf.script) :
    (executeWitnessScript (spend.env primitives others) spend.items spend.script spend.execdata
      .none).isOk = true ↔
      ∃ slots, spend.items = slotItems slots ∧
        List.Forall₂ (spend.SlotValid primitives) leaf.allKeys slots ∧
        signedCount slots = leaf.k := by
  have hlow := leaf.one_le_k
  have hhigh := leaf.k_le_max
  have hkeys := leaf.keys_le
  have hstart : spend.Running
      (Machine.start spend.items.reverse leaf.script spend.execdata .none) ([] ++
        spend.items.reverse) 0 spend.execdata.validationWeightLeft :=
    { stack_eq := rfl
      altstack := rfl
      vfExec := rfl
      nOpCount := rfl
      leafData := ⟨rfl, rfl, rfl⟩
      budget_eq := rfl
      budget_nonneg := le_trans (Int.natCast_nonneg _) spend.sum_length_items_le }
  have hrun : Accepts (spend.env primitives others)
      (Machine.start spend.items.reverse leaf.script spend.execdata .none)
      (scriptOps leaf.script) ↔ spend.SlotsFor primitives leaf.allKeys 0 leaf.k
        spend.execdata.validationWeightLeft spend.items.reverse := by
    rw [leaf.scriptOps_script]
    refine hstart.accepts_slot_iff halgorithm leaf.length_key (by decide) (by decide) (by decide)
      (by decide) ?_ ?_ ?_
    · simp only [List.length_nil, maxStackSize]
      omega
    · intro m₁
      change execChecksig _ _ false = _ ↔ _
      rw [execChecksig_slot (sigversion_env halgorithm) leaf.length_key
        (hstart.atChecksig leaf.key).stack_eq]
      simp only [Nat.zero_add, List.nil_append]
    · intro m' success rest left hnext
      have hone := success.toNat_le
      exact hnext.accepts_checksigAdds_iff halgorithm hlow hhigh leaf.length_keys (by omega)
        (by simp only [maxOpsPerScript]; omega)
  rw [hscript, executeWitnessScript_isOk_iff spend.algorithm.isXcoinV3Tapscript
    (leaf.scanOpSuccess_script _), evalScript_accepts_iff leaf.length_script_le]
  change _ ∧ _ ∧ Accepts _ _ _ ↔ _
  rw [hrun]
  constructor
  · rintro ⟨-, -, slots, hstack, hslots, hcount, -⟩
    refine ⟨slots, ?_, hslots, by omega⟩
    rw [← List.reverse_inj, hstack, reverse_slotItems]
  · rintro ⟨slots, hitems, hslots, hcount⟩
    have hstack : spend.items.reverse = slotStack slots := by
      rw [hitems, reverse_slotItems]
    have hlength : spend.items.length = 2 * leaf.allKeys.length := by
      rw [← List.length_reverse, hstack, length_slotStack, hslots.length_eq]
    refine ⟨?_, ?_, slots, hstack, hslots, by omega, ?_⟩
    · rw [hlength, ThresholdLeaf.allKeys, List.length_cons]
      simp only [maxStackSize]
      omega
    · intro item hitem
      apply length_item_slots_le hslots
      rw [← hstack]
      exact List.mem_reverse.mpr hitem
    · have hpaid := weight_slots_le hslots
      rw [← hstack, List.map_reverse, List.sum_reverse] at hpaid
      have hbytes := spend.sum_length_items_le
      simp only [xcoinV3ValidationWeightMldsa]
      omega

end V3Spend

/-! ## One of two keys -/

/-- Either of two keys may sign. -/
def oneOfTwoLeaf : ThresholdLeaf where
  key := List.replicate 32 1
  keys := [List.replicate 32 1]
  k := 1
  length_key := rfl
  length_keys := by
    intro other hother
    rw [List.mem_singleton.mp hother]
    rfl
  keys_le := by decide
  one_le_k := by decide
  k_le := by decide

/-- The first key signs. -/
def oneOfTwoSlots : List Slot := [⟨List.replicate 3309 0, List.replicate 1952 0⟩, ⟨[], []⟩]

/-- The control block of a one-leaf tree. -/
def oneOfTwoControl : Bytes := controlBlock constantHashes xcoinLeafPq []

/-- An input that one key signs. -/
def oneOfTwoInput : TxIn where
  prevout := ⟨0, 0⟩
  scriptSig := []
  nSequence := 0
  scriptWitness := V3Spend.slotItems oneOfTwoSlots ++ [oneOfTwoLeaf.script, oneOfTwoControl]

/-- Its spend. -/
def oneOfTwoSpend : V3Spend constantHashes where
  tx := ⟨2, [oneOfTwoInput], [], 0⟩
  spentOutputs := [⟨1, v3Output (List.replicate 32 1)⟩]
  nIn := 0
  txin := oneOfTwoInput
  txout := ⟨1, v3Output (List.replicate 32 1)⟩
  root := List.replicate 32 1
  algorithm := .mldsa
  script := oneOfTwoLeaf.script
  control := oneOfTwoControl
  items := V3Spend.slotItems oneOfTwoSlots
  annex := none
  commits := commitsLeaf_single constantHashes xcoinLeafPq oneOfTwoLeaf.script
  annex_tagged := annex_tagged_none
  spentOutputs_length := rfl
  input := rfl
  output := rfl
  witness_eq := (List.append_nil _).symm
  scriptPubKey_eq := rfl

/-- With a primitive that accepts, one signature satisfies the leaf. -/
theorem oneOfTwoSpend_isOk :
    (executeWitnessScript (oneOfTwoSpend.env ⟨fun _ _ _ => true, fun _ _ _ => true⟩ noOtherChecks)
      oneOfTwoSpend.items oneOfTwoSpend.script oneOfTwoSpend.execdata .none).isOk = true := by
  refine (V3Spend.thresholdLeaf_isOk_iff oneOfTwoSpend _ _ oneOfTwoLeaf rfl rfl).mpr
    ⟨oneOfTwoSlots, rfl, ?_, rfl⟩
  refine List.Forall₂.cons (.inr ⟨List.length_replicate, rfl, ?_⟩)
    (List.Forall₂.cons (.inl ⟨rfl, rfl⟩) List.Forall₂.nil)
  refine ⟨List.replicate 3309 0, sighashDefault, List.length_replicate, .inl ⟨rfl, rfl⟩, ?_, rfl⟩
  intro hsingle
  exact absurd hsingle (by decide)

end XCoin.Script
