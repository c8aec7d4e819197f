import XCoin.Script.LeafSpend

/-!
# Warnings about leaves

`XcoinV3LeafWarnings` looks for two ways in which anyone can spend a leaf: a success opcode, and a
signature opcode whose key push has not 32 bytes.  It takes for a key push only the opcodes up to
`OP_PUSHDATA4`, while the interpreter takes whatever is on the stack: the number opcodes put one
byte there, which is a key of unknown size, and any signature passes.

For the leaf `<push> OP_CHECKSIG` the warnings are therefore sound exactly for the pushes up to
`OP_PUSHDATA4` (`leafWarnings_sound_iff`).
-/

namespace XCoin.Script

open Consensus

/-! ## The warnings -/

/-- The instructions up to the first one that cannot be read. -/
def readableOps (script : Bytes) : List Instr := (scriptOps script).filterMap id

/-- Every instruction can be read. -/
def parses (script : Bytes) : Bool := (scriptOps script).all Option.isSome

/-- A byte as `%02x`. -/
def hexByte (n : ℕ) : String := String.ofList (List.leftpad 2 '0' (Nat.toDigits 16 n))

/-- How each of these warnings starts. -/
def leafWarningStart : String := "as an xCoin witness v3 leaf script this is ANYONE-CAN-SPEND: "

/-- The warning about an `OP_SUCCESS`. -/
def opSuccessWarning (opcode : ℕ) : String :=
  leafWarningStart ++ "it contains OP_SUCCESS" ++ toString opcode ++ " (0x" ++ hexByte opcode ++
    "), which makes the whole leaf succeed without running"

/-- The names of the signature opcodes that have a key push, from `GetOpName`. -/
def signatureOpName (opcode : ℕ) : Option String :=
  if opcode = opChecksig then some "OP_CHECKSIG"
  else if opcode = opChecksigverify then some "OP_CHECKSIGVERIFY"
  else if opcode = opChecksigadd then some "OP_CHECKSIGADD"
  else none

/-- The warning about a key of another size. -/
def keyPushWarning (name : String) (size : ℕ) : String :=
  leafWarningStart ++ "the key push before " ++ name ++ " is " ++ toString size ++
    " bytes, not 32, which is an upgradable key type and passes the check without verifying a " ++
    "signature"

/-- The warning about a signature opcode and the instruction before it. -/
def keySlotWarning (push check : Instr) : Option String :=
  match signatureOpName check.opcode with
  | none => none
  | some name =>
    if opPushdata4 < push.opcode then none
    else if push.data.length = 32 then none
    else some (keyPushWarning name push.data.length)

/-- The first such warning. -/
def keyWarning : List Instr → Option String
  | push :: check :: rest =>
    match keySlotWarning push check with
    | some warning => some warning
    | none => keyWarning (check :: rest)
  | _ => none

/-- The warning about the first success opcode. -/
def successWarning (ops : List Instr) : Option String :=
  (ops.find? fun instr => isOpSuccess instr.opcode).map fun instr => opSuccessWarning instr.opcode

/-- `XcoinV3LeafWarnings`. -/
def xcoinV3LeafWarnings (script : Bytes) : List String :=
  (successWarning (readableOps script)).toList ++
    if parses script then (keyWarning (readableOps script)).toList else []

/-! ## The leaf of one push -/

/-- The opcodes that push a constant. -/
def isConstantPush (opcode : ℕ) : Bool := decide (opcode ≤ op16 ∧ opcode ≠ opReserved)

/-- A leaf of one constant push and `OP_CHECKSIG`. -/
structure PushChecksigLeaf where
  script : Bytes
  push : Instr
  ops : scriptOps script = [some push, some ⟨opChecksig, [], []⟩]
  constant : isConstantPush push.opcode = true

namespace PushChecksigLeaf

variable (leaf : PushChecksigLeaf)

theorem opcode_le : leaf.push.opcode ≤ op16 ∧ leaf.push.opcode ≠ opReserved :=
  of_decide_eq_true leaf.constant

theorem not_isOpSuccess : isOpSuccess leaf.push.opcode = false := by
  have hall : ∀ opcode ∈ List.range 97, opcode ≠ opReserved → isOpSuccess opcode = false := by
    decide
  obtain ⟨hle, hne⟩ := leaf.opcode_le
  exact hall _ (List.mem_range.mpr (Nat.lt_succ_of_le hle)) hne

theorem xcoinV3LeafWarnings_eq_nil_iff :
    xcoinV3LeafWarnings leaf.script = [] ↔
      opPushdata4 < leaf.push.opcode ∨ leaf.push.data.length = 32 := by
  have hreadable : readableOps leaf.script = [leaf.push, ⟨opChecksig, [], []⟩] := by
    unfold readableOps
    rw [leaf.ops]
    rfl
  have hparses : parses leaf.script = true := by
    unfold parses
    rw [leaf.ops]
    rfl
  have hsuccess : successWarning [leaf.push, ⟨opChecksig, [], []⟩] = none := by
    unfold successWarning
    rw [List.find?_cons_of_neg (by rw [leaf.not_isOpSuccess]; decide)]
    rfl
  unfold xcoinV3LeafWarnings
  rw [hreadable, hsuccess, hparses, if_pos rfl]
  by_cases hpush : opPushdata4 < leaf.push.opcode
  · simp [keyWarning, keySlotWarning, signatureOpName, hpush]
  · by_cases hsize : leaf.push.data.length = 32
    · simp [keyWarning, keySlotWarning, signatureOpName, hpush, hsize]
    · simp [keyWarning, keySlotWarning, signatureOpName, hpush, hsize]

theorem scanOpSuccess_eq_none (flags : Flags) :
    scanOpSuccess flags (scriptOps leaf.script) = none := by
  rw [leaf.ops]
  simp only [scanOpSuccess, leaf.not_isOpSuccess]
  rfl

end PushChecksigLeaf

/-! ## Leaves that need a signature -/

/-- Bytes of a signature. -/
def LeafAlgorithm.signatureSize : LeafAlgorithm → ℕ
  | mldsa => pqSignatureSize
  | slh => slhSignatureSize

/-- The primitive that verifies the leaf's signatures. -/
def LeafAlgorithm.verify (primitives : Primitives) :
    LeafAlgorithm → Bytes → Bytes → Bytes → Bool
  | mldsa => primitives.verifyMldsa
  | slh => primitives.verifySlh

/-- What its check costs. -/
def LeafAlgorithm.signatureWeight : LeafAlgorithm → ℤ
  | mldsa => xcoinV3ValidationWeightMldsa
  | slh => xcoinV3ValidationWeightSlh

/-- The leaf succeeds under the flags of a block only with a signature that the primitive of the
leaf's algorithm has accepted. -/
def NeedsSignature (hashes : HashFunctions) (algorithm : LeafAlgorithm) (script : Bytes) : Prop :=
  ∀ (spend : V3Spend hashes) (primitives : Primitives) (others : OtherChecks),
    spend.algorithm = algorithm → spend.script = script →
    (executeWitnessScript (spend.env primitives others) spend.items spend.script spend.execdata
      .none).isOk = true →
    ∃ sig ∈ spend.items, ∃ pubkey, ValidSignature spend.tx spend.nIn algorithm.signatureSize
      spend.signatureHash (algorithm.verify primitives) pubkey sig

namespace V3Spend

variable {hashes : HashFunctions} {spend : V3Spend hashes} {primitives : Primitives}
  {others : OtherChecks}

theorem validSignature_of_result {m m' : Machine} {key : Bytes} {below rest : List Bytes}
    (hdata : spend.IsLeafData m.execdata) (hkey : key.length = 32)
    (hresult : SignatureResult (spend.env primitives others) spend.algorithm m key below rest m'
      true) :
    ∃ sig ∈ below, ∃ pubkey, ValidSignature spend.tx spend.nIn spend.algorithm.signatureSize
      spend.signatureHash (spend.algorithm.verify primitives) pubkey sig := by
  have hspent : ∀ weight, spend.IsLeafData (m.spend weight).execdata := fun weight =>
    ⟨hdata.tapleafHash, hdata.annexHash, hdata.codeseparatorPos⟩
  unfold SignatureResult at hresult
  have hcheck := fun sig pubkey keySize => @checkSigV3_iff hashes spend primitives keySize
    spend.algorithm.signatureSize (spend.algorithm.verify primitives) sig pubkey _
    (hspent spend.algorithm.signatureWeight)
  cases halgorithm : spend.algorithm with
  | mldsa =>
    rw [halgorithm] at hresult hcheck
    obtain ⟨sig, pubkey, rfl, heval⟩ := hresult
    obtain ⟨-, -, hsigned⟩ := (evalChecksigXcoinV3_eq_true hkey).mp heval
    obtain ⟨-, -, hverified, -⟩ := checkPubkeyAndSigV3_eq_ok.mp hsigned
    exact ⟨sig, List.mem_cons_self, pubkey, ((hcheck sig pubkey _).mp hverified).2⟩
  | slh =>
    rw [halgorithm] at hresult hcheck
    obtain ⟨sig, rfl, heval⟩ := hresult
    obtain ⟨-, -, hsigned⟩ := (evalChecksigXcoinSlh_eq_true hkey).mp heval
    obtain ⟨hverified, -⟩ := checkSigSlh_eq_ok.mp hsigned
    exact ⟨sig, List.mem_cons_self, key, ((hcheck sig key _).mp hverified).2⟩

end V3Spend

namespace PushChecksigLeaf

variable {hashes : HashFunctions} {algorithm : LeafAlgorithm} (leaf : PushChecksigLeaf)

theorem needsSignature (hopcode : leaf.push.opcode ≤ opPushdata4)
    (hsize : leaf.push.data.length = 32) : NeedsSignature hashes algorithm leaf.script := by
  rintro spend primitives others rfl hscript hok
  have hlength : leaf.script.length ≤ maxScriptSize := by
    have hshape := (@scriptOps_shape leaf.script [leaf.push, ⟨opChecksig, [], []⟩] leaf.ops).2
    refine hshape.trans ?_
    simp only [List.map_cons, List.map_nil, List.sum_cons, List.sum_nil, hsize, List.length_nil]
    decide
  rw [hscript, executeWitnessScript_isOk_iff spend.algorithm.isXcoinV3Tapscript
    (leaf.scanOpSuccess_eq_none _), evalScript_accepts_iff hlength, leaf.ops] at hok
  have hpush := @evalInstr_push (spend.env primitives others)
    (Machine.start spend.items.reverse leaf.script spend.execdata .none) leaf.push rfl
    (Or.inl V3Spend.requireMinimal_env) hopcode (by rw [hsize]; decide)
  obtain ⟨-, m₁, hrun, -, m', top, hend, -, hstack, htrue⟩ :=
    (accepts_push_op_iff spend.algorithm.scriptLimits rfl (show 0 < maxOpsPerScript by decide) hpush
      (show op16 < opChecksig by decide) rfl (show isDisabled opChecksig = false by decide)
      (show opChecksig ≠ opCodeseparator by decide)).mp hok.2.2
  obtain ⟨rest, checked, success, hresult, hpushed⟩ :=
    (@execChecksig_eq_ok (spend.env primitives others) spend.algorithm _ m₁ leaf.push.data
      spend.items.reverse rfl rfl false).mp hrun
  obtain rfl := Except.ok.inj hpushed
  obtain rfl := Except.ok.inj hend
  obtain ⟨rfl, -⟩ := List.cons.inj hstack
  rw [castToBool_vchBool] at htrue
  subst htrue
  obtain ⟨sig, hsig, hvalid⟩ := V3Spend.validSignature_of_result ⟨rfl, rfl, rfl⟩ hsize hresult
  exact ⟨sig, List.mem_reverse.mp hsig, hvalid⟩

theorem number_of_opcode (hopcode : opPushdata4 < leaf.push.opcode) :
    ∃ value, decodeOp leaf.push.opcode = .smallInt value ∧
      (scriptNumSerialize value).length = 1 := by
  have hall : ∀ opcode ∈ List.range 97, opPushdata4 < opcode → opcode ≠ opReserved →
      decodeOp opcode = .smallInt ((opcode : ℤ) - (op1 - 1 : ℕ)) ∧
        (scriptNumSerialize ((opcode : ℤ) - (op1 - 1 : ℕ))).length = 1 := by
    decide
  obtain ⟨hle, hne⟩ := leaf.opcode_le
  exact ⟨_, hall _ (List.mem_range.mpr (Nat.lt_succ_of_le hle)) hopcode hne⟩

end PushChecksigLeaf

/-- Bytes in the place of a signature, enough of them to pay for the check. -/
def anyoneSignature : Bytes := List.replicate 2000 0

theorem length_anyoneSignature : anyoneSignature.length = 2000 := List.length_replicate

theorem anyoneSignature_ne_nil : anyoneSignature ≠ [] :=
  List.ne_nil_of_length_pos (by rw [length_anyoneSignature]; decide)

/-- The items that satisfy a key of unknown size, with ML-DSA a public key that nothing looks at. -/
def LeafAlgorithm.anyoneItems : LeafAlgorithm → List Bytes
  | mldsa => [[], anyoneSignature]
  | slh => [anyoneSignature]

theorem LeafAlgorithm.length_anyoneItems_le (algorithm : LeafAlgorithm) :
    algorithm.anyoneItems.length ≤ 2 ∧
      ∀ item ∈ algorithm.anyoneItems, item.length ≤ maxXcoinV3InitialElementSize := by
  cases algorithm <;>
    simp [anyoneItems, length_anyoneSignature, maxXcoinV3InitialElementSize]

theorem LeafAlgorithm.sum_length_anyoneItems (algorithm : LeafAlgorithm) :
    (algorithm.anyoneItems.map List.length).sum = 2000 := by
  cases algorithm <;> simp [anyoneItems, length_anyoneSignature]

/-- A key whose size has no rule passes any signature. -/
theorem signatureResult_of_upgradable {env : Env} {algorithm : LeafAlgorithm} {m : Machine}
    {key : Bytes} (hflag : ScriptFlag.discourageUpgradablePubkeytype ∉ env.flags)
    (hkey : key.length = 1) (hweight : 2000 ≤ m.execdata.validationWeightLeft) :
    SignatureResult env algorithm m key algorithm.anyoneItems.reverse []
      (m.spend algorithm.signatureWeight) true := by
  have hcharge : m.chargeSignature anyoneSignature algorithm.signatureWeight =
      .ok (m.spend algorithm.signatureWeight) := by
    refine (chargeSignature_eq_ok anyoneSignature_ne_nil).mpr ⟨le_trans ?_ hweight, rfl⟩
    cases algorithm <;> decide
  have hpasses : ∀ m : Machine,
      upgradablePubkey env m (decide (anyoneSignature ≠ [])) = .ok (m, true) := by
    intro m
    unfold upgradablePubkey
    rw [if_neg hflag, decide_eq_true anyoneSignature_ne_nil]
  unfold SignatureResult
  cases algorithm with
  | mldsa =>
    refine ⟨anyoneSignature, [], rfl, ?_⟩
    unfold evalChecksigXcoinV3
    change m.chargeSignature _ xcoinV3ValidationWeightMldsa = _ at hcharge
    rw [hcharge, Except.ok_bind, if_neg (by rw [hkey]; decide), if_neg (by rw [hkey]; decide)]
    exact hpasses _
  | slh =>
    refine ⟨anyoneSignature, rfl, ?_⟩
    unfold evalChecksigXcoinSlh
    change m.chargeSignature _ xcoinV3ValidationWeightSlh = _ at hcharge
    rw [hcharge, Except.ok_bind, if_neg (by rw [hkey]; decide), if_neg (by rw [hkey]; decide)]
    exact hpasses _

/-- The input of a spend through the only leaf of an output. -/
def anyoneInput (hashes : HashFunctions) (algorithm : LeafAlgorithm) (script : Bytes) : TxIn where
  prevout := ⟨0, 0⟩
  scriptSig := []
  nSequence := 0
  scriptWitness := algorithm.anyoneItems ++
    [script, controlBlock hashes algorithm.leafVersion []]

/-- A spend with these items through the only leaf of an output. -/
def anyoneSpend (hashes : HashFunctions) (algorithm : LeafAlgorithm) (script : Bytes) :
    V3Spend hashes where
  tx := ⟨2, [anyoneInput hashes algorithm script], [], 0⟩
  spentOutputs := [⟨0, v3Output (computeXcoinLeafHash hashes algorithm.leafVersion script)⟩]
  nIn := 0
  txin := anyoneInput hashes algorithm script
  txout := ⟨0, v3Output (computeXcoinLeafHash hashes algorithm.leafVersion script)⟩
  root := computeXcoinLeafHash hashes algorithm.leafVersion script
  algorithm := algorithm
  script := script
  control := controlBlock hashes algorithm.leafVersion []
  items := algorithm.anyoneItems
  annex := none
  commits := commitsLeaf_single hashes algorithm.leafVersion script
  annex_tagged := annex_tagged_none
  spentOutputs_length := rfl
  input := rfl
  output := rfl
  witness_eq := (List.append_nil _).symm
  scriptPubKey_eq := rfl

/-- **Anyone can spend.**  A number opcode for a key is satisfied without any signature. -/
theorem PushChecksigLeaf.anyoneSpend_isOk (leaf : PushChecksigLeaf) (hashes : HashFunctions)
    (algorithm : LeafAlgorithm) (hopcode : opPushdata4 < leaf.push.opcode)
    (primitives : Primitives) (others : OtherChecks) :
    (executeWitnessScript ((anyoneSpend hashes algorithm leaf.script).env primitives others)
      algorithm.anyoneItems leaf.script (anyoneSpend hashes algorithm leaf.script).execdata
      .none).isOk = true := by
  have hshape := @scriptOps_shape leaf.script [leaf.push, ⟨opChecksig, [], []⟩] leaf.ops
  have hdata : leaf.push.data = [] := hshape.1 leaf.push List.mem_cons_self hopcode
  have hlength : leaf.script.length ≤ maxScriptSize := by
    refine hshape.2.trans ?_
    simp only [List.map_cons, List.map_nil, List.sum_cons, List.sum_nil, hdata, List.length_nil]
    decide
  obtain ⟨value, hop, hbyte⟩ := leaf.number_of_opcode hopcode
  have hweight :
      2000 ≤ (anyoneSpend hashes algorithm leaf.script).execdata.validationWeightLeft := by
    have hpaid := (anyoneSpend hashes algorithm leaf.script).sum_length_items_le
    rw [show (anyoneSpend hashes algorithm leaf.script).items = algorithm.anyoneItems from rfl,
      algorithm.sum_length_anyoneItems] at hpaid
    exact hpaid
  have hpush := @evalInstr_number ((anyoneSpend hashes algorithm leaf.script).env primitives others)
    (Machine.start algorithm.anyoneItems.reverse leaf.script
      (anyoneSpend hashes algorithm leaf.script).execdata .none) leaf.push value rfl hopcode
    leaf.opcode_le.1 hdata hop
  have hresult := @signatureResult_of_upgradable
    ((anyoneSpend hashes algorithm leaf.script).env primitives others) algorithm
    ((Machine.start algorithm.anyoneItems.reverse leaf.script
      (anyoneSpend hashes algorithm leaf.script).execdata .none).atChecksig
        (scriptNumSerialize value)) (scriptNumSerialize value)
    (by simp [V3Spend.env, inputEnv, blockScriptFlags]) hbyte hweight
  obtain ⟨hcount, hsizes⟩ := algorithm.length_anyoneItems_le
  rw [executeWitnessScript_isOk_iff algorithm.isXcoinV3Tapscript (leaf.scanOpSuccess_eq_none _),
    evalScript_accepts_iff hlength, leaf.ops]
  refine ⟨hcount.trans (by decide), hsizes, ?_⟩
  refine (accepts_push_op_iff algorithm.scriptLimits rfl (show 0 < maxOpsPerScript by decide) hpush
    (show op16 < opChecksig by decide) rfl (show isDisabled opChecksig = false by decide)
    (show opChecksig ≠ opCodeseparator by decide)).mpr ⟨?_, _,
      (execChecksig_eq_ok rfl rfl false).mpr ⟨[], _, true, hresult, rfl⟩, ?_, _, vchTrue, rfl, rfl,
      rfl, rfl⟩
  · change (algorithm.anyoneItems.reverse.length + 1) + 0 ≤ maxStackSize
    rw [List.length_reverse]
    simp only [maxStackSize]
    omega
  · exact show 1 ≤ maxStackSize by decide

/-- With a primitive that accepts nothing, the leaf still succeeds. -/
theorem PushChecksigLeaf.not_needsSignature (leaf : PushChecksigLeaf) (hashes : HashFunctions)
    (algorithm : LeafAlgorithm) (hopcode : opPushdata4 < leaf.push.opcode) :
    ¬NeedsSignature hashes algorithm leaf.script := by
  intro hneeds
  obtain ⟨sig, -, pubkey, body, hashType, -, -, -, hverify⟩ :=
    hneeds (anyoneSpend hashes algorithm leaf.script) ⟨fun _ _ _ => false, fun _ _ _ => false⟩
      noOtherChecks rfl rfl (leaf.anyoneSpend_isOk hashes algorithm hopcode _ _)
  cases algorithm <;> cases hverify

/-- **Soundness of the warnings.**  For a leaf of one constant push and `OP_CHECKSIG`, no warning
means that the leaf needs a signature, exactly if the push is not one of the number opcodes. -/
theorem leafWarnings_sound_iff (leaf : PushChecksigLeaf) (hashes : HashFunctions)
    (algorithm : LeafAlgorithm) :
    (xcoinV3LeafWarnings leaf.script = [] → NeedsSignature hashes algorithm leaf.script) ↔
      leaf.push.opcode ≤ opPushdata4 := by
  rw [leaf.xcoinV3LeafWarnings_eq_nil_iff]
  constructor
  · intro hsound
    by_contra hnumber
    have hopcode : opPushdata4 < leaf.push.opcode := not_le.mp hnumber
    exact leaf.not_needsSignature hashes algorithm hopcode (hsound (Or.inl hopcode))
  · rintro hopcode (hnumber | hsize)
    · omega
    · exact leaf.needsSignature hopcode hsize

/-- The leaf `OP_1 OP_CHECKSIG`. -/
def opOneLeaf : PushChecksigLeaf where
  script := [0x51, 0xac]
  push := ⟨op1, [], [0xac]⟩
  ops := by decide
  constant := by decide

/-- It gets no warning, and anyone can spend it. -/
theorem opOneLeaf_anyone_can_spend :
    xcoinV3LeafWarnings [0x51, 0xac] = [] ∧
      ¬NeedsSignature constantHashes .mldsa [0x51, 0xac] ∧
      ¬NeedsSignature constantHashes .slh [0x51, 0xac] := by
  refine ⟨?_, ?_, ?_⟩
  · exact opOneLeaf.xcoinV3LeafWarnings_eq_nil_iff.mpr (Or.inl (by decide))
  · exact opOneLeaf.not_needsSignature constantHashes .mldsa (by decide)
  · exact opOneLeaf.not_needsSignature constantHashes .slh (by decide)

end XCoin.Script
