import XCoin.Lib.Bytes

/-!
# Scripts

The byte-level view of `CScript`: reading one instruction (`GetScriptOp`), the
output patterns that are recognised by their bytes, script numbers
(`CScriptNum`) and minimal pushes.  Opcodes are the byte values the source
compares as numbers, under the source's names.

The C++ loops `while (pc < end) { if (!GetOp(pc, opcode, data)) ... }` all walk
the same instructions, so they are modelled as recursions over `scriptOps`: the
instructions of a script in order, ended by `none` where `GetOp` fails.
-/

namespace XCoin.Script

variable {script : Bytes}

/-! ## Limits -/

/-- `MAX_SCRIPT_ELEMENT_SIZE`. -/
def maxScriptElementSize : ℕ := 520
/-- `MAX_OPS_PER_SCRIPT`. -/
def maxOpsPerScript : ℕ := 201
/-- `MAX_PUBKEYS_PER_MULTISIG`. -/
def maxPubkeysPerMultisig : ℕ := 20
/-- `MAX_SCRIPT_SIZE`. -/
def maxScriptSize : ℕ := 10000
/-- `MAX_STACK_SIZE`. -/
def maxStackSize : ℕ := 1000
/-- `LOCKTIME_THRESHOLD`. -/
def locktimeThreshold : ℕ := 500000000
/-- `ANNEX_TAG`. -/
def annexTag : UInt8 := 0x50

/-! ## Opcodes

`opcodetype`: each opcode has the name it has in the source, `OP_CHECKSIG` being `opChecksig`. -/

abbrev op0 : ℕ := 0x00
abbrev opPushdata1 : ℕ := 0x4c
abbrev opPushdata2 : ℕ := 0x4d
abbrev opPushdata4 : ℕ := 0x4e
abbrev op1negate : ℕ := 0x4f
abbrev opReserved : ℕ := 0x50
abbrev op1 : ℕ := 0x51
abbrev op2 : ℕ := 0x52
abbrev op3 : ℕ := 0x53
abbrev op16 : ℕ := 0x60
abbrev opNop : ℕ := 0x61
abbrev opVer : ℕ := 0x62
abbrev opIf : ℕ := 0x63
abbrev opNotif : ℕ := 0x64
abbrev opVerif : ℕ := 0x65
abbrev opVernotif : ℕ := 0x66
abbrev opElse : ℕ := 0x67
abbrev opEndif : ℕ := 0x68
abbrev opVerify : ℕ := 0x69
abbrev opReturn : ℕ := 0x6a
abbrev opToaltstack : ℕ := 0x6b
abbrev opFromaltstack : ℕ := 0x6c
abbrev op2drop : ℕ := 0x6d
abbrev op2dup : ℕ := 0x6e
abbrev op3dup : ℕ := 0x6f
abbrev op2over : ℕ := 0x70
abbrev op2rot : ℕ := 0x71
abbrev op2swap : ℕ := 0x72
abbrev opIfdup : ℕ := 0x73
abbrev opDepth : ℕ := 0x74
abbrev opDrop : ℕ := 0x75
abbrev opDup : ℕ := 0x76
abbrev opNip : ℕ := 0x77
abbrev opOver : ℕ := 0x78
abbrev opPick : ℕ := 0x79
abbrev opRoll : ℕ := 0x7a
abbrev opRot : ℕ := 0x7b
abbrev opSwap : ℕ := 0x7c
abbrev opTuck : ℕ := 0x7d
abbrev opCat : ℕ := 0x7e
abbrev opSubstr : ℕ := 0x7f
abbrev opLeft : ℕ := 0x80
abbrev opRight : ℕ := 0x81
abbrev opSize : ℕ := 0x82
abbrev opInvert : ℕ := 0x83
abbrev opAnd : ℕ := 0x84
abbrev opOr : ℕ := 0x85
abbrev opXor : ℕ := 0x86
abbrev opEqual : ℕ := 0x87
abbrev opEqualverify : ℕ := 0x88
abbrev op1add : ℕ := 0x8b
abbrev op1sub : ℕ := 0x8c
abbrev op2mul : ℕ := 0x8d
abbrev op2div : ℕ := 0x8e
abbrev opNegate : ℕ := 0x8f
abbrev opAbs : ℕ := 0x90
abbrev opNot : ℕ := 0x91
abbrev op0notequal : ℕ := 0x92
abbrev opAdd : ℕ := 0x93
abbrev opSub : ℕ := 0x94
abbrev opMul : ℕ := 0x95
abbrev opDiv : ℕ := 0x96
abbrev opMod : ℕ := 0x97
abbrev opLshift : ℕ := 0x98
abbrev opRshift : ℕ := 0x99
abbrev opBooland : ℕ := 0x9a
abbrev opBoolor : ℕ := 0x9b
abbrev opNumequal : ℕ := 0x9c
abbrev opNumequalverify : ℕ := 0x9d
abbrev opNumnotequal : ℕ := 0x9e
abbrev opLessthan : ℕ := 0x9f
abbrev opGreaterthan : ℕ := 0xa0
abbrev opLessthanorequal : ℕ := 0xa1
abbrev opGreaterthanorequal : ℕ := 0xa2
abbrev opMin : ℕ := 0xa3
abbrev opMax : ℕ := 0xa4
abbrev opWithin : ℕ := 0xa5
abbrev opRipemd160 : ℕ := 0xa6
abbrev opSha1 : ℕ := 0xa7
abbrev opSha256 : ℕ := 0xa8
abbrev opHash160 : ℕ := 0xa9
abbrev opHash256 : ℕ := 0xaa
abbrev opCodeseparator : ℕ := 0xab
abbrev opChecksig : ℕ := 0xac
abbrev opChecksigverify : ℕ := 0xad
abbrev opCheckmultisig : ℕ := 0xae
abbrev opCheckmultisigverify : ℕ := 0xaf
abbrev opNop1 : ℕ := 0xb0
abbrev opChecklocktimeverify : ℕ := 0xb1
abbrev opChecksequenceverify : ℕ := 0xb2
abbrev opChecktemplateverify : ℕ := 0xb3
abbrev opNop10 : ℕ := 0xb9
abbrev opChecksigadd : ℕ := 0xba
abbrev opChecksigPq : ℕ := 0xbb
abbrev opChecksigverifyPq : ℕ := 0xbc

/-- Opcodes that make a script unconditionally valid in the leaf pre-scan. -/
def isOpSuccess (opcode : ℕ) : Bool :=
  opcode == 80 || opcode == 98 || (126 ≤ opcode && opcode ≤ 129) ||
    (131 ≤ opcode && opcode ≤ 134) || (137 ≤ opcode && opcode ≤ 138) ||
    (141 ≤ opcode && opcode ≤ 142) || (149 ≤ opcode && opcode ≤ 153) ||
    (187 ≤ opcode && opcode ≤ 254)

/-! ## Reading instructions -/

/-- The bytes of the length operand of `OP_PUSHDATA1`, `2` and `4`. -/
def pushSizeWidth (opcode : ℕ) : ℕ :=
  if opcode = opPushdata1 then 1 else if opcode = opPushdata2 then 2 else 4

/-- The length operand of a push and what follows it. -/
def readPushSize (opcode : ℕ) (rest : Bytes) : Option (ℕ × Bytes) :=
  if opcode < opPushdata1 then some (opcode, rest)
  else if rest.length < pushSizeWidth opcode then none
  else some (Bytes.toNatLE (rest.take (pushSizeWidth opcode)), rest.drop (pushSizeWidth opcode))

/-- One instruction: its opcode, the bytes it pushes and the script after it. -/
structure Instr where
  opcode : ℕ
  data : Bytes
  rest : Bytes
deriving DecidableEq, Repr

/-- `GetScriptOp`; `none` is its failure. -/
def getScriptOp : Bytes → Option Instr
  | [] => none
  | byte :: rest =>
    if byte.toNat ≤ opPushdata4 then
      match readPushSize byte.toNat rest with
      | none => none
      | some (nSize, operand) =>
        if operand.length < nSize then none
        else some ⟨byte.toNat, operand.take nSize, operand.drop nSize⟩
    else some ⟨byte.toNat, [], rest⟩

theorem readPushSize_length {opcode : ℕ} {rest operand : Bytes} {nSize : ℕ}
    (h : readPushSize opcode rest = some (nSize, operand)) : operand.length ≤ rest.length := by
  unfold readPushSize at h
  split at h
  · simp only [Option.some.injEq, Prod.mk.injEq] at h
    rw [h.2]
  · split at h
    · cases h
    · simp only [Option.some.injEq, Prod.mk.injEq] at h
      rw [← h.2, List.length_drop]
      omega

theorem getScriptOp_length {instr : Instr} (h : getScriptOp script = some instr) :
    instr.data.length + instr.rest.length < script.length := by
  cases script with
  | nil => cases h
  | cons byte rest =>
    simp only [getScriptOp] at h
    split at h
    · split at h
      · cases h
      · rename_i nSize operand hsize
        have hoperand := readPushSize_length hsize
        split at h
        · cases h
        · cases h
          simp only [List.length_take, List.length_drop, List.length_cons]
          omega
    · cases h
      simp

theorem getScriptOp_shape {instr : Instr} (h : getScriptOp script = some instr) :
    (opPushdata4 < instr.opcode → instr.data = []) ∧
      script.length ≤ instr.data.length + instr.rest.length + 5 := by
  cases script with
  | nil => cases h
  | cons byte rest =>
    simp only [getScriptOp] at h
    split at h
    · rename_i hpush
      split at h
      · cases h
      · rename_i nSize operand hsize
        have hwidth : pushSizeWidth byte.toNat ≤ 4 := by
          unfold pushSizeWidth
          split_ifs <;> omega
        have hoperand : rest.length ≤ operand.length + 4 := by
          unfold readPushSize at hsize
          split_ifs at hsize
          · simp only [Option.some.injEq, Prod.mk.injEq] at hsize
            rw [hsize.2]
            omega
          · simp only [Option.some.injEq, Prod.mk.injEq] at hsize
            rw [← hsize.2, List.length_drop]
            omega
        split at h
        · cases h
        · cases h
          refine ⟨fun hlarge => absurd hpush (not_le.mpr hlarge), ?_⟩
          simp only [List.length_take, List.length_drop, List.length_cons]
          omega
    · cases h
      refine ⟨fun _ => rfl, ?_⟩
      simp

/-- `scriptOps` with a bound on the number of instructions still to read. -/
def scriptOpsFuel : ℕ → Bytes → List (Option Instr)
  | 0, _ => []
  | _ + 1, [] => []
  | fuel + 1, byte :: rest =>
    match getScriptOp (byte :: rest) with
    | none => [none]
    | some instr => some instr :: scriptOpsFuel fuel instr.rest

/-- The instructions of a script in order, ended by `none` where one cannot be read. -/
def scriptOps (script : Bytes) : List (Option Instr) := scriptOpsFuel script.length script

theorem scriptOpsFuel_eq {fuel : ℕ} (hfuel : script.length ≤ fuel) :
    scriptOpsFuel fuel script = scriptOps script := by
  induction fuel using Nat.strong_induction_on generalizing script with
  | h fuel ih =>
    cases script with
    | nil => cases fuel <;> rfl
    | cons byte rest =>
      cases fuel with
      | zero => simp at hfuel
      | succ fuel =>
        simp only [scriptOps, List.length_cons, scriptOpsFuel]
        cases hop : getScriptOp (byte :: rest) with
        | none => rfl
        | some instr =>
          have hlength := getScriptOp_length hop
          simp only [List.length_cons] at hfuel hlength
          have hleft : scriptOpsFuel fuel instr.rest = scriptOps instr.rest :=
            ih fuel (by omega) (by omega)
          have hright : scriptOpsFuel rest.length instr.rest = scriptOps instr.rest :=
            ih rest.length (by omega) (by omega)
          simp only [hleft, hright]

@[simp] theorem scriptOps_nil : scriptOps [] = [] := rfl

/-- The loop equation: read one instruction, go on with the rest. -/
theorem scriptOps_cons (byte : UInt8) (rest : Bytes) :
    scriptOps (byte :: rest) =
      match getScriptOp (byte :: rest) with
      | none => [none]
      | some instr => some instr :: scriptOps instr.rest := by
  rw [scriptOps, List.length_cons, scriptOpsFuel]
  cases hop : getScriptOp (byte :: rest) with
  | none => rfl
  | some instr =>
    have hlength := getScriptOp_length hop
    simp only [List.length_cons] at hlength
    simp only [scriptOpsFuel_eq (show instr.rest.length ≤ rest.length by omega)]

theorem scriptOps_shape {ops : List Instr} (hops : scriptOps script = ops.map some) :
    (∀ instr ∈ ops, opPushdata4 < instr.opcode → instr.data = []) ∧
      script.length ≤ (ops.map fun instr => instr.data.length + 5).sum := by
  induction ops generalizing script with
  | nil =>
    cases script with
    | nil => simp
    | cons byte rest =>
      rw [scriptOps_cons] at hops
      cases hop : getScriptOp (byte :: rest) <;> simp [hop] at hops
  | cons first ops ih =>
    cases script with
    | nil => simp at hops
    | cons byte rest =>
      rw [scriptOps_cons] at hops
      cases hop : getScriptOp (byte :: rest) with
      | none => simp [hop] at hops
      | some instr =>
        simp only [hop, List.map_cons, List.cons.injEq, Option.some.injEq] at hops
        obtain ⟨rfl, hrest⟩ := hops
        obtain ⟨hempty, hlength⟩ := ih hrest
        obtain ⟨hfirst, hbytes⟩ := getScriptOp_shape hop
        refine ⟨?_, ?_⟩
        · intro other hother
          rcases List.mem_cons.mp hother with rfl | hother
          · exact hfirst
          · exact hempty other hother
        · rw [List.map_cons, List.sum_cons]
          omega

/-! ## Patterns recognised by their bytes -/

/-- `DecodeOP_N`. -/
def decodeOpN (opcode : ℕ) : ℕ := if opcode = op0 then 0 else opcode - (op1 - 1)

/-- Whether a loop over `GetOp` only meets push opcodes (and no bad one). -/
def isPushOnly (script : Bytes) : Bool :=
  (scriptOps script).all fun
    | none => false
    | some instr => decide (instr.opcode ≤ op16)

/-- The byte at `i`, zero past the end. -/
def byteAt (script : Bytes) (i : ℕ) : ℕ := ((script[i]?).getD 0).toNat

/-- `IsPayToScriptHash`. -/
def isPayToScriptHash (script : Bytes) : Bool :=
  script.length == 23 && byteAt script 0 == opHash160 && byteAt script 1 == 0x14 &&
    byteAt script 22 == opEqual

/-- `IsPayToAnchor`. -/
def isPayToAnchor (script : Bytes) : Bool :=
  script.length == 4 && byteAt script 0 == op1 && byteAt script 1 == 0x02 &&
    byteAt script 2 == 0x4e && byteAt script 3 == 0x73

/-- A one-byte push opcode followed by a push of 2 to 40 bytes: the witness
version and program. -/
def isWitnessProgram (script : Bytes) : Option (ℕ × Bytes) :=
  if script.length < 4 ∨ 42 < script.length then none
  else if byteAt script 0 ≠ op0 ∧ (byteAt script 0 < op1 ∨ op16 < byteAt script 0) then none
  else if byteAt script 1 + 2 = script.length then
    some (decodeOpN (byteAt script 0), script.drop 2)
  else none

/-- `IsUnspendable`. -/
def isUnspendable (script : Bytes) : Bool :=
  (decide (0 < script.length) && byteAt script 0 == opReturn) ||
    decide (maxScriptSize < script.length)

/-- The loop of `CScript::GetSigOpCount`, with the opcode before the current one. -/
def getSigOpCountLoop (fAccurate : Bool) : List (Option Instr) → ℕ → ℕ
  | [], _ => 0
  | none :: _, _ => 0
  | some instr :: rest, lastOpcode =>
    (if instr.opcode = opChecksig ∨ instr.opcode = opChecksigverify then 1
      else if instr.opcode = opCheckmultisig ∨ instr.opcode = opCheckmultisigverify then
        if fAccurate ∧ op1 ≤ lastOpcode ∧ lastOpcode ≤ op16 then decodeOpN lastOpcode
        else maxPubkeysPerMultisig
      else 0) +
      getSigOpCountLoop fAccurate rest instr.opcode

/-- `GetSigOpCount`. -/
def getSigOpCount (script : Bytes) (fAccurate : Bool) : ℕ :=
  getSigOpCountLoop fAccurate (scriptOps script) 0xff

/-! ## Script numbers -/

/-- The reasons `CScriptNum` throws `scriptnum_error`. -/
inductive ScriptNumError where
  | overflow
  | nonMinimal
deriving DecidableEq, Repr

/-- Whether the most significant byte is needed: it has more than the sign bit,
or the byte before it uses its top bit. -/
def isMinimalNum (vch : Bytes) : Bool :=
  match vch.reverse with
  | [] => true
  | last :: before =>
    if last &&& 0x7f = 0 then
      match before with
      | [] => false
      | previous :: _ => previous &&& 0x80 ≠ 0
    else true

/-- `set_vch`: little-endian magnitude, with the sign in the top bit. -/
def setVch (vch : Bytes) : ℤ :=
  match vch.getLast? with
  | none => 0
  | some last =>
    if last &&& 0x80 ≠ 0 then
      -((Bytes.toNatLE vch : ℤ) - 0x80 * 256 ^ (vch.length - 1))
    else Bytes.toNatLE vch

/-- The constructor `CScriptNum(vch, fRequireMinimal, nMaxNumSize)`. -/
def scriptNum (vch : Bytes) (fRequireMinimal : Bool) (nMaxNumSize : ℕ) :
    Except ScriptNumError ℤ :=
  if nMaxNumSize < vch.length then .error .overflow
  else if fRequireMinimal && !isMinimalNum vch then .error .nonMinimal
  else .ok (setVch vch)

/-- `getint`: clamped to the range of `int`. -/
def getInt (value : ℤ) : ℤ := max (-2 ^ 31) (min (2 ^ 31 - 1) value)

/-- The magnitude bytes that `CScriptNum::serialize` collects. -/
def magnitudeBytes : ℕ → ℕ → Bytes
  | 0, _ => []
  | fuel + 1, n => if n = 0 then [] else UInt8.ofNat n :: magnitudeBytes fuel (n / 256)

/-- `CScriptNum::serialize`. -/
def scriptNumSerialize (value : ℤ) : Bytes :=
  let result := magnitudeBytes 8 value.natAbs
  match result.getLast? with
  | none => []
  | some last =>
    if last &&& 0x80 ≠ 0 then result ++ [if value < 0 then 0x80 else 0]
    else if value < 0 then result.dropLast ++ [last ||| 0x80]
    else result

/-- `CheckMinimalPush`, for the push opcodes. -/
def checkMinimalPush (data : Bytes) (opcode : ℕ) : Bool :=
  if data.length = 0 then opcode == op0
  else if data.length = 1 ∧ 1 ≤ byteAt data 0 ∧ byteAt data 0 ≤ 16 then false
  else if data.length = 1 ∧ byteAt data 0 = 0x81 then false
  else if data.length ≤ 75 then opcode == data.length
  else if data.length ≤ 255 then opcode == opPushdata1
  else if data.length ≤ 65535 then opcode == opPushdata2
  else true

end XCoin.Script
