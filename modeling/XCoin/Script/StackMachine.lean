import XCoin.Script.Script

/-!
# Opcodes and the stack

The opcodes of `EvalScript` sorted by what they need, and those that only move
or compute on the two stacks.  `runStackOp` is a function of the stacks and of the
minimal-number flag alone: it can neither read nor change the condition stack,
the opcode count, the code separator or the validation weight.

A stack is a list with its top first, so that the source's
`(x1 x2 -- x2 x1)` reads `x2 :: x1 :: rest` before and `x1 :: x2 :: rest` after.
-/

namespace XCoin.Script

/-- The script errors that the modelled functions set. -/
inductive ScriptError where
  | unknownError
  | evalFalse
  | opReturn
  | scriptnum
  | scriptSize
  | pushSize
  | opCount
  | stackSize
  | verify
  | equalverify
  | checkmultisigverify
  | checksigverify
  | numequalverify
  | badOpcode
  | disabledOpcode
  | invalidStackOperation
  | invalidAltstackOperation
  | unbalancedConditional
  | negativeLocktime
  | unsatisfiedLocktime
  | minimaldata
  | sigPushonly
  | cleanstack
  | minimalif
  | discourageUpgradableNops
  | discourageUpgradableWitnessProgram
  | discourageUpgradableTaprootVersion
  | discourageOpSuccess
  | discourageUpgradablePubkeytype
  | witnessProgramWrongLength
  | witnessProgramWitnessEmpty
  | witnessProgramMismatch
  | witnessMalleated
  | witnessMalleatedP2sh
  | witnessUnexpected
  | schnorrSigSize
  | schnorrSigHashtype
  | schnorrSig
  | taprootWrongControlSize
  | tapscriptValidationWeight
  | tapscriptCheckmultisig
  | tapscriptMinimalif
  | tapscriptEmptyPubkey
  | opCodeseparator
  | xcoinV3Control
  | xcoinV3SigSize
  | xcoinV3SigHashtype
  | xcoinV3Sig
  | xcoinV3Pubkey
  | xcoinV3HashWeight
  | discourageUpgradableXcoinLeafVersion
  | templateMismatch
  /-- set by a check that is a parameter of the model -/
  | other (code : ℕ)
deriving DecidableEq, Repr

/-! ## Truth -/

/-- `CastToBool`: any byte that is not zero, unless it is a sign bit in last place. -/
def castToBool : Bytes → Bool
  | [] => false
  | [last] => last ≠ 0 && last ≠ 0x80
  | byte :: next :: rest => byte ≠ 0 || castToBool (next :: rest)

/-- `vchFalse`. -/
def vchFalse : Bytes := []
/-- `vchTrue`. -/
def vchTrue : Bytes := [1]

/-- The element of a truth value. -/
def vchBool (value : Bool) : Bytes := if value then vchTrue else vchFalse

@[simp] theorem castToBool_vchBool (value : Bool) : castToBool (vchBool value) = value := by
  cases value <;> rfl

/-- A stack element that is false as a truth value is zero as a number. -/
theorem setVch_eq_zero_of_castToBool {vch : Bytes} (hfalse : castToBool vch = false) :
    setVch vch = 0 := by
  -- all bytes are zero but the last, which is zero or a sign bit
  have hshape : ∃ last, (last = 0 ∨ last = 0x80) ∧
      (vch = [] ∨ vch = List.replicate (vch.length - 1) 0 ++ [last]) := by
    induction vch with
    | nil => exact ⟨0, Or.inl rfl, Or.inl rfl⟩
    | cons byte rest ih =>
      cases rest with
      | nil =>
        refine ⟨byte, ?_, Or.inr rfl⟩
        by_contra hbyte
        obtain ⟨hzero, hsign⟩ := not_or.mp hbyte
        simp [castToBool, hzero, hsign] at hfalse
      | cons next older =>
        simp only [castToBool, Bool.or_eq_false_iff, decide_eq_false_iff_not, not_not] at hfalse
        obtain ⟨last, hlast, hrest⟩ := ih hfalse.2
        refine ⟨last, hlast, Or.inr ?_⟩
        rcases hrest with hnil | hrest
        · cases hnil
        · rw [hfalse.1]
          conv_lhs => rw [hrest]
          simp [List.replicate_succ]
  obtain ⟨last, hlast, hvch⟩ := hshape
  have hzeros : ∀ n, Bytes.toNatLE (List.replicate n 0 ++ [last]) = last.toNat * 256 ^ n := by
    intro n
    induction n with
    | zero => simp
    | succ n ih =>
      rw [List.replicate_succ, List.cons_append, Bytes.toNatLE_cons, ih, pow_succ]
      simp only [UInt8.toNat_zero]
      ring
  rcases hvch with rfl | hvch
  · rfl
  · have hgetLast : vch.getLast? = some last := by
      rw [hvch]
      simp
    unfold setVch
    rw [hgetLast]
    rcases hlast with rfl | rfl
    · simp only
      rw [if_neg (by decide), hvch, hzeros]
      simp
    · simp only
      rw [if_pos (by decide)]
      conv_lhs => rw [hvch, hzeros]
      simp

theorem castToBool_of_setVch_ne_zero {vch : Bytes} (hne : setVch vch ≠ 0) :
    castToBool vch = true := by
  by_contra hfalse
  exact hne (setVch_eq_zero_of_castToBool (Bool.eq_false_iff.mpr hfalse))

/-! ## Stack operations -/

/-- `OP_1ADD` to `OP_0NOTEQUAL`. -/
inductive NumUnary where
  | add1
  | sub1
  | negate
  | abs
  | not
  | notEqual0
deriving DecidableEq, Repr

/-- What the opcode computes. -/
def NumUnary.eval : NumUnary → ℤ → ℤ
  | add1, bn => bn + 1
  | sub1, bn => bn - 1
  | negate, bn => -bn
  | abs, bn => if bn < 0 then -bn else bn
  | not, bn => if bn = 0 then 1 else 0
  | notEqual0, bn => if bn ≠ 0 then 1 else 0

/-- `OP_ADD` to `OP_MAX`, without `OP_NUMEQUALVERIFY`. -/
inductive NumBinary where
  | add
  | sub
  | booland
  | boolor
  | numequal
  | numnotequal
  | lessthan
  | greaterthan
  | lessthanorequal
  | greaterthanorequal
  | min
  | max
deriving DecidableEq, Repr

/-- What the opcode computes. -/
def NumBinary.eval : NumBinary → ℤ → ℤ → ℤ
  | add, bn1, bn2 => bn1 + bn2
  | sub, bn1, bn2 => bn1 - bn2
  | booland, bn1, bn2 => if bn1 ≠ 0 ∧ bn2 ≠ 0 then 1 else 0
  | boolor, bn1, bn2 => if bn1 ≠ 0 ∨ bn2 ≠ 0 then 1 else 0
  | numequal, bn1, bn2 => if bn1 = bn2 then 1 else 0
  | numnotequal, bn1, bn2 => if bn1 ≠ bn2 then 1 else 0
  | lessthan, bn1, bn2 => if bn1 < bn2 then 1 else 0
  | greaterthan, bn1, bn2 => if bn1 > bn2 then 1 else 0
  | lessthanorequal, bn1, bn2 => if bn1 ≤ bn2 then 1 else 0
  | greaterthanorequal, bn1, bn2 => if bn1 ≥ bn2 then 1 else 0
  | min, bn1, bn2 => if bn1 < bn2 then bn1 else bn2
  | max, bn1, bn2 => if bn1 > bn2 then bn1 else bn2

/-- The opcodes that only read and write the two stacks. -/
inductive StackOp where
  | verify
  | opReturn
  | toAltStack
  | fromAltStack
  | drop2
  | dup2
  | dup3
  | over2
  | rot2
  | swap2
  | ifDup
  | depth
  | drop
  | dup
  | nip
  | over
  | pick
  | roll
  | rot
  | swap
  | tuck
  | size
  | equal
  | equalVerify
  | unary (op : NumUnary)
  | binary (op : NumBinary)
  | numEqualVerify
  | within
deriving DecidableEq, Repr

/-- A number operand; `scriptnum_error` is caught at the end of `EvalScript`. -/
def readNum (vch : Bytes) (fRequireMinimal : Bool) (nMaxNumSize : ℕ) : Except ScriptError ℤ :=
  match scriptNum vch fRequireMinimal nMaxNumSize with
  | .error _ => .error .scriptnum
  | .ok value => .ok value

/-- The default `nMaxNumSize` of `CScriptNum`. -/
def defaultMaxNumSize : ℕ := 4

/-- The index operand of `OP_PICK` and `OP_ROLL`, checked against the stack below it. -/
def readIndex (vch : Bytes) (fRequireMinimal : Bool) (below : List Bytes) :
    Except ScriptError ℕ := do
  let n ← readNum vch fRequireMinimal defaultMaxNumSize
  if getInt n < 0 ∨ (below.length : ℤ) ≤ getInt n then .error .invalidStackOperation
  else .ok (getInt n).toNat

/-- The main and the alternative stack. -/
structure Stacks where
  stack : List Bytes
  altstack : List Bytes
deriving DecidableEq, Repr

/-- The stack opcodes of `EvalScript`. -/
def runStackOp (fRequireMinimal : Bool) (op : StackOp) (s : Stacks) : Except ScriptError Stacks :=
  match op, s.stack with
  | .verify, x :: rest =>
    if castToBool x then .ok { s with stack := rest } else .error .verify
  | .opReturn, _ => .error .opReturn
  | .toAltStack, x :: rest => .ok ⟨rest, x :: s.altstack⟩
  | .fromAltStack, stack =>
    match s.altstack with
    | [] => .error .invalidAltstackOperation
    | x :: rest => .ok ⟨x :: stack, rest⟩
  | .drop2, _ :: _ :: rest => .ok { s with stack := rest }
  | .dup2, x2 :: x1 :: rest => .ok { s with stack := x2 :: x1 :: x2 :: x1 :: rest }
  | .dup3, x3 :: x2 :: x1 :: rest =>
    .ok { s with stack := x3 :: x2 :: x1 :: x3 :: x2 :: x1 :: rest }
  | .over2, x4 :: x3 :: x2 :: x1 :: rest =>
    .ok { s with stack := x2 :: x1 :: x4 :: x3 :: x2 :: x1 :: rest }
  | .rot2, x6 :: x5 :: x4 :: x3 :: x2 :: x1 :: rest =>
    .ok { s with stack := x2 :: x1 :: x6 :: x5 :: x4 :: x3 :: rest }
  | .swap2, x4 :: x3 :: x2 :: x1 :: rest =>
    .ok { s with stack := x2 :: x1 :: x4 :: x3 :: rest }
  | .ifDup, x :: rest =>
    .ok { s with stack := if castToBool x then x :: x :: rest else x :: rest }
  | .depth, stack => .ok { s with stack := scriptNumSerialize stack.length :: stack }
  | .drop, _ :: rest => .ok { s with stack := rest }
  | .dup, x :: rest => .ok { s with stack := x :: x :: rest }
  | .nip, x2 :: _ :: rest => .ok { s with stack := x2 :: rest }
  | .over, x2 :: x1 :: rest => .ok { s with stack := x1 :: x2 :: x1 :: rest }
  | .pick, n :: x :: rest => do
    let index ← readIndex n fRequireMinimal (x :: rest)
    return { s with stack := (x :: rest).getD index [] :: x :: rest }
  | .roll, n :: x :: rest => do
    let index ← readIndex n fRequireMinimal (x :: rest)
    return { s with stack := (x :: rest).getD index [] :: (x :: rest).eraseIdx index }
  | .rot, x3 :: x2 :: x1 :: rest => .ok { s with stack := x1 :: x3 :: x2 :: rest }
  | .swap, x2 :: x1 :: rest => .ok { s with stack := x1 :: x2 :: rest }
  | .tuck, x2 :: x1 :: rest => .ok { s with stack := x2 :: x1 :: x2 :: rest }
  | .size, x :: rest => .ok { s with stack := scriptNumSerialize x.length :: x :: rest }
  | .equal, x2 :: x1 :: rest => .ok { s with stack := vchBool (x1 == x2) :: rest }
  | .equalVerify, x2 :: x1 :: rest =>
    if x1 == x2 then .ok { s with stack := rest } else .error .equalverify
  | .unary op, x :: rest => do
    let bn ← readNum x fRequireMinimal defaultMaxNumSize
    return { s with stack := scriptNumSerialize (op.eval bn) :: rest }
  | .binary op, x2 :: x1 :: rest => do
    let bn1 ← readNum x1 fRequireMinimal defaultMaxNumSize
    let bn2 ← readNum x2 fRequireMinimal defaultMaxNumSize
    return { s with stack := scriptNumSerialize (op.eval bn1 bn2) :: rest }
  | .numEqualVerify, x2 :: x1 :: rest => do
    let bn1 ← readNum x1 fRequireMinimal defaultMaxNumSize
    let bn2 ← readNum x2 fRequireMinimal defaultMaxNumSize
    if bn1 = bn2 then return { s with stack := rest } else .error .numequalverify
  | .within, x3 :: x2 :: x1 :: rest => do
    let bn1 ← readNum x1 fRequireMinimal defaultMaxNumSize
    let bn2 ← readNum x2 fRequireMinimal defaultMaxNumSize
    let bn3 ← readNum x3 fRequireMinimal defaultMaxNumSize
    return { s with stack := vchBool (decide (bn2 ≤ bn1 ∧ bn1 < bn3)) :: rest }
  | _, _ => .error .invalidStackOperation

/-! ## The cases of the switch -/

/-- The hash opcodes. -/
inductive HashOp where
  | ripemd160
  | sha1
  | sha256
  | hash160
  | hash256
deriving DecidableEq, Repr

/-- The cases of the switch in `EvalScript`. -/
inductive Op where
  | smallInt (value : ℤ)
  | nop
  | checkLockTimeVerify
  | checkSequenceVerify
  | checkTemplateVerify
  | upgradableNop
  | opIf (negated : Bool)
  | opElse
  | opEndif
  | stackOp (op : StackOp)
  | hash (op : HashOp)
  | codeSeparator
  | checksig (verify : Bool)
  | checksigAdd
  | checksigPq (verify : Bool)
  | checkMultisig (verify : Bool)
  | bad
deriving DecidableEq, Repr

/-- The case labels of the switch. -/
def opTable : List (ℕ × Op) :=
  [(opNop, .nop), (opIf, .opIf false), (opNotif, .opIf true), (opElse, .opElse),
    (opEndif, .opEndif), (opVerify, .stackOp .verify), (opReturn, .stackOp .opReturn),
    (opToaltstack, .stackOp .toAltStack), (opFromaltstack, .stackOp .fromAltStack),
    (op2drop, .stackOp .drop2), (op2dup, .stackOp .dup2), (op3dup, .stackOp .dup3),
    (op2over, .stackOp .over2), (op2rot, .stackOp .rot2), (op2swap, .stackOp .swap2),
    (opIfdup, .stackOp .ifDup), (opDepth, .stackOp .depth), (opDrop, .stackOp .drop),
    (opDup, .stackOp .dup), (opNip, .stackOp .nip), (opOver, .stackOp .over),
    (opPick, .stackOp .pick), (opRoll, .stackOp .roll), (opRot, .stackOp .rot),
    (opSwap, .stackOp .swap), (opTuck, .stackOp .tuck), (opSize, .stackOp .size),
    (opEqual, .stackOp .equal), (opEqualverify, .stackOp .equalVerify),
    (op1add, .stackOp (.unary .add1)), (op1sub, .stackOp (.unary .sub1)),
    (opNegate, .stackOp (.unary .negate)), (opAbs, .stackOp (.unary .abs)),
    (opNot, .stackOp (.unary .not)), (op0notequal, .stackOp (.unary .notEqual0)),
    (opAdd, .stackOp (.binary .add)), (opSub, .stackOp (.binary .sub)),
    (opBooland, .stackOp (.binary .booland)), (opBoolor, .stackOp (.binary .boolor)),
    (opNumequal, .stackOp (.binary .numequal)), (opNumequalverify, .stackOp .numEqualVerify),
    (opNumnotequal, .stackOp (.binary .numnotequal)),
    (opLessthan, .stackOp (.binary .lessthan)),
    (opGreaterthan, .stackOp (.binary .greaterthan)),
    (opLessthanorequal, .stackOp (.binary .lessthanorequal)),
    (opGreaterthanorequal, .stackOp (.binary .greaterthanorequal)),
    (opMin, .stackOp (.binary .min)), (opMax, .stackOp (.binary .max)),
    (opWithin, .stackOp .within), (opRipemd160, .hash .ripemd160), (opSha1, .hash .sha1),
    (opSha256, .hash .sha256), (opHash160, .hash .hash160), (opHash256, .hash .hash256),
    (opCodeseparator, .codeSeparator), (opChecksig, .checksig false),
    (opChecksigverify, .checksig true), (opCheckmultisig, .checkMultisig false),
    (opCheckmultisigverify, .checkMultisig true), (opNop1, .upgradableNop),
    (opChecklocktimeverify, .checkLockTimeVerify),
    (opChecksequenceverify, .checkSequenceVerify),
    (opChecktemplateverify, .checkTemplateVerify), (0xb4, .upgradableNop),
    (0xb5, .upgradableNop), (0xb6, .upgradableNop), (0xb7, .upgradableNop),
    (0xb8, .upgradableNop), (opNop10, .upgradableNop), (opChecksigadd, .checksigAdd),
    (opChecksigPq, .checksigPq false), (opChecksigverifyPq, .checksigPq true)]

/-- The case of `EvalScript` an opcode belongs to. -/
def decodeOp (opcode : ℕ) : Op :=
  if opcode = op1negate ∨ (op1 ≤ opcode ∧ opcode ≤ op16) then
    .smallInt ((opcode : ℤ) - (op1 - 1 : ℕ))
  else (opTable.lookup opcode).getD .bad

/-- The opcodes that fail a script even where they are not executed. -/
def isDisabled (opcode : ℕ) : Bool :=
  [opCat, opSubstr, opLeft, opRight, opInvert, opAnd, opOr, opXor, op2mul, op2div, opMul, opDiv,
    opMod, opLshift, opRshift].contains opcode

end XCoin.Script
