import XCoin.Script.EvalLemmas

/-!
# Spending a witness v3 output

What the steps before a leaf's execution come to.  An output `OP_3 <root>` spent
with an empty script signature is decided by the witness alone
(`verifyScript_v3Output`); a control block is the leaf version, the marker and the
path (`controlBlock`), and it opens the output exactly when the path leads to the
root; the annex is cut off.  For the leaf's signature checks, the precomputed data
of a transaction with a v3 spend is always there, so that a signature hash is
missing only for an undefined hash type or a SINGLE without an output.
-/

namespace XCoin.Script

open Consensus

/-! ## The output -/

/-- The script `OP_3 <root>`. -/
def v3Output (root : Bytes) : Bytes := 0x53 :: 0x20 :: root

section Output

variable {env : Env} {root : Bytes}

theorem scriptOps_v3Output (hlength : root.length = 32) :
    scriptOps (v3Output root) =
      [some ⟨op3, [], 0x20 :: root⟩, some ⟨0x20, root, []⟩] := by
  have hfirst : getScriptOp (0x53 :: 0x20 :: root) = some ⟨op3, [], 0x20 :: root⟩ := rfl
  have hsecond : getScriptOp (0x20 :: root) = some ⟨0x20, root, []⟩ := by
    have hsize : readPushSize (0x20 : UInt8).toNat root = some (32, root) := rfl
    simp only [getScriptOp, hsize]
    rw [if_pos (by decide), if_neg (by rw [hlength]; decide), List.take_of_length_le hlength.le,
      List.drop_of_length_le hlength.le]
    rfl
  rw [v3Output, scriptOps_cons, hfirst]
  simp only
  rw [scriptOps_cons, hsecond]
  rfl

theorem evalBase_v3Output (env : Env) (hlength : root.length = 32) (work : Work) :
    ∃ m, evalBase env [] (v3Output root) work = .ok m ∧ m.stack = [root, [3]] ∧
      m.work = work := by
  have hsize : (v3Output root).length = 34 := by
    simp only [v3Output, List.length_cons, hlength]
  have hminimal : checkMinimalPush root 0x20 = true := by
    unfold checkMinimalPush
    simp [hlength]
  have hversion : scriptNumSerialize ((op3 : ℕ) - 80 : ℤ) = [3] := by decide
  let first := (Machine.start [] (v3Output root) .init work).push [3]
  let second := first.next.push root
  have hfirst : endStep first = .ok first.next :=
    endStep_eq_ok.mpr ⟨show 1 ≤ maxStackSize by decide, rfl⟩
  have hsecond : endStep second = .ok second.next :=
    endStep_eq_ok.mpr ⟨show 2 ≤ maxStackSize by decide, rfl⟩
  refine ⟨second.next, ?_, rfl, rfl⟩
  unfold evalBase evalScript
  rw [if_neg (by rw [hsize]; simp [maxScriptSize]), scriptOps_v3Output hlength, evalLoop,
    evalInstr_smallInt rfl (show op1 ≤ op3 by decide) (show op3 ≤ op16 by decide) rfl, hversion,
    hfirst, Except.ok_bind, evalLoop,
    evalInstr_push rfl (Or.inr hminimal) (show 0x20 ≤ opPushdata4 by decide)
      (by simp only [hlength]; decide), hsecond]
  rfl

theorem isWitnessProgram_v3Output (hlength : root.length = 32) :
    isWitnessProgram (v3Output root) = some (3, root) := by
  have hsize : (v3Output root).length = 34 := by
    simp only [v3Output, List.length_cons, hlength]
  unfold isWitnessProgram
  rw [hsize, if_neg (by decide), if_neg (by simp [v3Output, byteAt, op1, op16]),
    if_pos (by simp [v3Output, byteAt])]
  rfl

/-- With an empty script signature, an output of 34 bytes is evaluated, and its witness program
verified if it has one. -/
theorem verifyScript_of_length {scriptPubKey : Bytes} (hlength : scriptPubKey.length = 34)
    (witness : List Bytes) :
    verifyScript env [] scriptPubKey witness = (do
      let m ← evalBase env [] scriptPubKey .none
      let _ ← checkTopTrue m
      let state ← verifyProgramOf env scriptPubKey true false .witnessMalleated witness
        ⟨m.stack, false, m.work⟩
      verifyEnd env witness state) := by
  have hempty : evalBase env [] [] .none = .ok (Machine.start [] [] .init .none) := by
    unfold evalBase evalScript
    rw [if_neg (by simp [maxScriptSize])]
    rfl
  have hnotP2sh : isPayToScriptHash scriptPubKey = false := by
    simp [isPayToScriptHash, hlength]
  have hp2sh : ∀ state, verifyP2sh env [] scriptPubKey [] witness state = .ok state := by
    intro state
    unfold verifyP2sh
    rw [if_neg (by simp [hnotP2sh])]
  unfold verifyScript
  rw [if_neg (by simp [isPushOnly]), hempty, Except.ok_bind]
  change (evalBase env [] scriptPubKey .none >>= fun m => _) = _
  simp only [Machine.start, hp2sh, Except.ok_bind]
  rfl

/-- **Witness v3 outputs.**  With an empty script signature and a root that is true as a
stack value, the witness decides. -/
theorem verifyScript_v3Output (hlength : root.length = 32)
    (htrue : castToBool root = true) (hp2sh : ScriptFlag.p2sh ∈ env.flags)
    (hwitness : ScriptFlag.witness ∈ env.flags) (witness : List Bytes) :
    verifyScript env [] (v3Output root) witness =
      verifyXcoinV3Program env witness root .none := by
  obtain ⟨m, heval, hstack, hwork⟩ := evalBase_v3Output env hlength .none
  have hsize : (v3Output root).length = 34 := by
    simp only [v3Output, List.length_cons, hlength]
  have htop : checkTopTrue m = .ok () := by
    unfold checkTopTrue
    rw [hstack]
    simp [htrue]
  have hprogram : verifyProgramOf env (v3Output root) true false .witnessMalleated witness
      ⟨m.stack, false, m.work⟩ = (verifyXcoinV3Program env witness root .none).map
        fun work => ⟨[[3]], true, work⟩ := by
    unfold verifyProgramOf
    rw [if_neg (not_not.mpr hwitness), isWitnessProgram_v3Output hlength, hwork, hstack]
    simp only [verifyWitnessProgram, hlength]
    rfl
  rw [verifyScript_of_length hsize, heval, Except.ok_bind, htop, Except.ok_bind, hprogram]
  cases verifyXcoinV3Program env witness root .none with
  | error fault => rfl
  | ok work =>
    change verifyEnd env witness ⟨[[3]], true, work⟩ = _
    simp [verifyEnd, hp2sh, hwitness]

end Output

/-! ## The control block and the annex -/

/-- The control block of a leaf version and a path: the version, the marker in the place of
an internal key, and the nodes. -/
def controlBlock (hashes : HashFunctions) (leafVersion : UInt8) (path : List Bytes) : Bytes :=
  leafVersion :: (xcoinV3Nokey hashes ++ path.flatten)

/-- A control block commits a leaf to a root: its path of at most 128 nodes leads from the
leaf to the root. -/
def CommitsLeaf (hashes : HashFunctions) (leafVersion : UInt8) (script control root : Bytes) :
    Prop :=
  ∃ path : List Bytes, (∀ node ∈ path, node.length = 32) ∧ path.length ≤ 128 ∧
    control = controlBlock hashes leafVersion path ∧
    root = path.foldl (computeXcoinBranchHash hashes)
      (computeXcoinLeafHash hashes leafVersion script)

section Control

variable {hashes : HashFunctions} {leafVersion : UInt8} {script control root : Bytes}
  {path : List Bytes}

theorem length_controlBlock (hnodes : ∀ node ∈ path, node.length = 32) :
    (controlBlock hashes leafVersion path).length = 33 + 32 * path.length := by
  have hnokey : (xcoinV3Nokey hashes).length = 32 := hashes.length_sha256 _
  rw [controlBlock, List.length_cons, List.length_append, hnokey,
    Bytes.length_flatten_of_width hnodes]
  omega

theorem controlPath_controlBlock (hnodes : ∀ node ∈ path, node.length = 32) :
    controlPath (controlBlock hashes leafVersion path) = path := by
  have hnokey : (xcoinV3Nokey hashes).length = 32 := hashes.length_sha256 _
  have hdrop : ∀ i, (controlBlock hashes leafVersion path).drop (33 + 32 * i) =
      path.flatten.drop (32 * i) := by
    intro i
    rw [← List.drop_drop, controlBlock, List.drop_succ_cons, ← hnokey, List.drop_left]
  unfold controlPath
  rw [length_controlBlock hnodes]
  simp only [xcoinV3ControlBaseSize, xcoinV3ControlNodeSize, hdrop, Nat.add_sub_cancel_left,
    Nat.mul_div_cancel_left _ (show 0 < 32 by decide)]
  exact Bytes.map_take_drop_flatten hnodes

theorem validControlSize_controlBlock (hnodes : ∀ node ∈ path, node.length = 32)
    (hcount : path.length ≤ 128) :
    validControlSize (controlBlock hashes leafVersion path) = true := by
  unfold validControlSize
  rw [length_controlBlock hnodes, decide_eq_true_eq]
  simp only [xcoinV3ControlBaseSize, xcoinV3ControlNodeSize, xcoinV3ControlMaxNodeCount]
  omega

/-- A leaf version has its lowest bit clear, so that the mask keeps it. -/
theorem CommitsLeaf.controlLeafVersion_eq
    (hcommits : CommitsLeaf hashes leafVersion script control root)
    (hmask : leafVersion &&& taprootLeafMask = leafVersion) :
    controlLeafVersion control = leafVersion := by
  obtain ⟨path, _, _, rfl, _⟩ := hcommits
  exact hmask

theorem CommitsLeaf.checkControl_eq_ok
    (hcommits : CommitsLeaf hashes leafVersion script control root)
    (hmask : leafVersion &&& taprootLeafMask = leafVersion)
    (hbit : leafVersion &&& ~~~taprootLeafMask = 0) :
    checkControl hashes control script root = .ok () := by
  have hversion := hcommits.controlLeafVersion_eq hmask
  obtain ⟨path, hnodes, hcount, rfl, hroot⟩ := hcommits
  have hnokey : (xcoinV3Nokey hashes).length = 32 := hashes.length_sha256 _
  have hsize : validControlSize (controlBlock hashes leafVersion path) = true :=
    validControlSize_controlBlock hnodes hcount
  have hmarker : ((controlBlock hashes leafVersion path).drop 1).take 32 =
      xcoinV3Nokey hashes := by
    rw [controlBlock, List.drop_succ_cons, List.drop_zero, ← hnokey, List.take_left]
  unfold checkControl
  rw [if_neg (by simp [hsize]), if_neg (by simpa [controlBlock] using hbit),
    if_neg (not_not.mpr hmarker), if_neg]
  rw [not_ne_iff, computeXcoinV3MerkleRoot, controlPath_controlBlock hnodes, controlLeafHash,
    hversion, hroot]

end Control

section Annex

variable {items : List Bytes} {script control : Bytes} {annex : Option Bytes}

theorem annexOf_append (hcontrol : control.head? ≠ some annexTag)
    (hannex : ∀ item ∈ annex, item.head? = some annexTag) :
    annexOf (items ++ [script, control] ++ annex.toList) = annex := by
  unfold annexOf
  cases annex with
  | none => simp [hcontrol]
  | some item =>
    have htag := hannex item rfl
    simp [htag]

theorem withoutAnnex_append (hcontrol : control.head? ≠ some annexTag)
    (hannex : ∀ item ∈ annex, item.head? = some annexTag) :
    withoutAnnex (items ++ [script, control] ++ annex.toList) = items ++ [script, control] := by
  unfold withoutAnnex
  rw [annexOf_append hcontrol hannex]
  cases annex with
  | none => simp
  | some item => simp

/-- **Opening an output.**  A witness that ends in a committed leaf runs this leaf on the
items before it. -/
theorem verifyXcoinV3Program_of_commitsLeaf {env : Env} {leafVersion : UInt8} {root : Bytes}
    (hflag : ScriptFlag.xcoinV3 ∈ env.flags)
    (hcommits : CommitsLeaf env.hashes leafVersion script control root)
    (hmask : leafVersion &&& taprootLeafMask = leafVersion)
    (hbit : leafVersion &&& ~~~taprootLeafMask = 0) (htag : leafVersion ≠ annexTag)
    (hannex : ∀ item ∈ annex, item.head? = some annexTag) (work : Work) :
    verifyXcoinV3Program env (items ++ [script, control] ++ annex.toList) root work =
      executeXcoinV3Leaf env (items ++ [script, control] ++ annex.toList) items script control
        work := by
  have hcontrol : control.head? ≠ some annexTag := by
    obtain ⟨path, _, _, rfl, _⟩ := hcommits
    simpa [controlBlock] using htag
  unfold verifyXcoinV3Program
  rw [if_neg (not_not.mpr hflag), if_neg (by simp), withoutAnnex_append hcontrol hannex]
  simp [hcommits.checkControl_eq_ok hmask hbit]

end Annex

/-! ## The precomputed data -/

theorem scanInputs_bip341Taproot_of_uses {uses : Features} (huses : uses.bip341Taproot = true)
    (vin : List TxIn) (spent : List TxOut) :
    (scanInputs uses vin spent).bip341Taproot = true := by
  have hadd : ∀ (uses : Features) (txin : TxIn) (txout : Option TxOut),
      uses.bip341Taproot = true → (uses.addInput txin txout).bip341Taproot = true := by
    intro uses txin txout h
    unfold Features.addInput Features.addSpend
    split_ifs
    · exact h
    · cases txout with
      | none => exact h
      | some txout =>
        simp only
        split_ifs <;> first | rfl | exact h
  induction vin generalizing uses spent with
  | nil => exact huses
  | cons txin rest ih =>
    unfold scanInputs
    split_ifs
    · exact huses
    · exact hadd uses txin spent.head? huses
    · exact ih (hadd uses txin spent.head? huses) spent.tail

/-- A v3 spend is seen by the scan, or the scan stopped because it had seen a taproot or v3
spend before. -/
theorem scanInputs_bip341Taproot {uses : Features} {vin : List TxIn} {spent : List TxOut}
    {nIn : ℕ} {txin : TxIn} {txout : TxOut} (hin : vin[nIn]? = some txin)
    (hout : spent[nIn]? = some txout) (hwitness : txin.scriptWitness ≠ [])
    (hprogram : looksLikeProgram op3 txout.scriptPubKey = true) :
    (scanInputs uses vin spent).bip341Taproot = true := by
  induction vin generalizing uses spent nIn with
  | nil => simp at hin
  | cons first rest ih =>
    unfold scanInputs
    split_ifs with hall hstop
    · simp only [Bool.and_eq_true] at hall
      exact hall.1.2
    · exact (Bool.and_eq_true _ _ ▸ hstop).1
    · cases nIn with
      | zero =>
        obtain rfl : first = txin := by simpa using hin
        have hhead : spent.head? = some txout := by
          rw [List.head?_eq_getElem?]
          exact hout
        apply scanInputs_bip341Taproot_of_uses
        rw [hhead]
        unfold Features.addInput Features.addSpend
        rw [if_neg hwitness]
        simp only [hprogram, if_true]
        split_ifs <;> rfl
      | succ nIn =>
        have hinRest : rest[nIn]? = some txin := by simpa using hin
        have houtRest : spent.tail[nIn]? = some txout := by simpa using hout
        exact ih hinRest houtRest

theorem initTransactionData_ready {hashes : HashFunctions} {tx : Transaction}
    {spentOutputs : List TxOut} {nIn : ℕ} {txin : TxIn} {txout : TxOut}
    (hlength : spentOutputs.length = tx.vin.length) (hin : tx.vin[nIn]? = some txin)
    (hout : spentOutputs[nIn]? = some txout) (hwitness : txin.scriptWitness ≠ [])
    (hprogram : looksLikeProgram op3 txout.scriptPubKey = true) :
    ∃ cache, initTransactionData hashes tx spentOutputs false = some cache ∧
      cache.bip341TaprootReady = true ∧ cache.spentOutputsReady = true ∧
      cache.spentOutputs = spentOutputs := by
  have hnonempty : spentOutputs.isEmpty = false := by
    cases spentOutputs with
    | nil => simp at hout
    | cons first rest => rfl
  have hscan : (scanInputs ⟨false, false, false⟩ tx.vin spentOutputs).bip341Taproot = true :=
    scanInputs_bip341Taproot hin hout hwitness hprogram
  unfold initTransactionData
  rw [if_neg (by simp [hlength])]
  refine ⟨_, rfl, ?_, ?_, rfl⟩
  · simp [hscan, hnonempty]
  · simp [hnonempty]

/-! ## The signature hash and the signature checks -/

/-- The hash types that a signature may name in its last byte. -/
def explicitHashTypes : List UInt8 := [0x01, 0x02, 0x03, 0x81, 0x82, 0x83]

theorem validHashType_iff {hashType : UInt8} :
    validHashType hashType = true ↔ hashType = sighashDefault ∨ hashType ∈ explicitHashTypes := by
  simp only [validHashType, decide_eq_true_eq, explicitHashTypes, sighashDefault, List.mem_cons,
    List.not_mem_nil, or_false, ← UInt8.toNat_inj, UInt8.reduceToNat]
  omega

theorem outputType_eq_single_iff {hashType : UInt8} (hvalid : validHashType hashType = true) :
    outputType hashType = sighashSingle ↔ hashType = 0x03 ∨ hashType = 0x83 := by
  rw [validHashType_iff] at hvalid
  simp only [explicitHashTypes, List.mem_cons, List.not_mem_nil, or_false] at hvalid
  rcases hvalid with rfl | rfl | rfl | rfl | rfl | rfl | rfl <;> decide

section Sighash

variable {hashes : HashFunctions} {tx : Transaction} {nIn : ℕ} {txin : TxIn} {txout : TxOut}
  {cache : PrecomputedTransactionData} {execdata : ExecData} {sigversion : SigVersion}
  {hashType : UInt8}

/-- With the data at hand, only the hash type can be wrong. -/
theorem signatureHashXcoinV3_isSome_iff (hextension : sigversion.extension.isSome = true)
    (hin : tx.vin[nIn]? = some txin) (hready : cache.bip341TaprootReady = true)
    (hspent : cache.spentOutputsReady = true) (hout : cache.spentOutputs[nIn]? = some txout) :
    (signatureHashXcoinV3 hashes tx nIn hashType sigversion execdata cache).isSome = true ↔
      (hashType = sighashDefault ∨ hashType ∈ explicitHashTypes) ∧
        (hashType = 0x03 ∨ hashType = 0x83 → nIn < tx.vout.length) := by
  obtain ⟨extension, hextension⟩ := Option.isSome_iff_exists.mp hextension
  rw [signatureHashXcoinV3, Option.isSome_map, ← validHashType_iff]
  unfold bip341Message
  rw [hextension, Option.bind_eq_bind, Option.bind_some, hin, Option.bind_eq_bind,
    Option.bind_some, hready, hspent, if_neg (by simp)]
  cases hvalid : validHashType hashType with
  | false => simp
  | true =>
    rw [if_neg (by simp), hout, ← outputType_eq_single_iff hvalid]
    unfold messageSingleOutput
    by_cases hsingle : outputType hashType = sighashSingle
    · rw [if_pos hsingle]
      cases houtput : tx.vout[nIn]? with
      | none => simpa [hsingle] using houtput
      | some output =>
        have hindex : nIn < tx.vout.length := (List.getElem?_eq_some_iff.mp houtput).1
        simp [hindex]
    · rw [if_neg hsingle]
      simp [hsingle]

end Sighash

/-- A signature of the fixed size, or of that size and a hash type, for this input: a SINGLE
type has its output, and the primitive accepts the digest. -/
def ValidSignature (tx : Transaction) (nIn size : ℕ) (sighash : UInt8 → Bytes)
    (verify : Bytes → Bytes → Bytes → Bool) (pubkey sig : Bytes) : Prop :=
  ∃ (body : Bytes) (hashType : UInt8), body.length = size ∧
    ((sig = body ∧ hashType = sighashDefault) ∨
      (sig = body ++ [hashType] ∧ hashType ∈ explicitHashTypes)) ∧
    (hashType = 0x03 ∨ hashType = 0x83 → nIn < tx.vout.length) ∧
    verify pubkey (sighash hashType) body = true

theorem ValidSignature.length_ge {tx : Transaction} {nIn size : ℕ} {sighash : UInt8 → Bytes}
    {verify : Bytes → Bytes → Bytes → Bool} {pubkey sig : Bytes}
    (hvalid : ValidSignature tx nIn size sighash verify pubkey sig) :
    size ≤ sig.length ∧ sig.length ≤ size + 1 := by
  obtain ⟨body, hashType, rfl, hform, _, _⟩ := hvalid
  rcases hform with ⟨rfl, _⟩ | ⟨rfl, _⟩
  · omega
  · simp

theorem splitHashType_eq_ok {size : ℕ} {sig body : Bytes} {hashType : UInt8} :
    splitHashType size sig = .ok (body, hashType) ↔
      body.length = size ∧ ((sig = body ∧ hashType = sighashDefault) ∨
        (sig = body ++ [hashType] ∧ hashType ≠ sighashDefault)) := by
  unfold splitHashType
  split_ifs with hfixed hlonger hdefault
  · simp only [Except.ok.injEq, Prod.mk.injEq]
    constructor
    · rintro ⟨rfl, rfl⟩
      exact ⟨hfixed, Or.inl ⟨rfl, rfl⟩⟩
    · rintro ⟨hbody, ⟨rfl, rfl⟩ | ⟨rfl, _⟩⟩
      · exact ⟨rfl, rfl⟩
      · simp [hbody] at hfixed
  · simp only [false_iff, not_and]
    rintro hbody (⟨rfl, _⟩ | ⟨rfl, hne⟩)
    · exact hfixed hbody
    · simp only [List.getLastD_concat] at hdefault
      exact hne hdefault
  · have hnonempty : sig ≠ [] := by
      rintro rfl
      simp at hlonger
    have hsplit : sig.dropLast ++ [sig.getLastD 0] = sig := by
      rw [List.getLastD_eq_getLast?, List.getLast?_eq_some_getLast hnonempty, Option.getD_some,
        List.dropLast_append_getLast hnonempty]
    simp only [Except.ok.injEq, Prod.mk.injEq]
    constructor
    · rintro ⟨rfl, rfl⟩
      refine ⟨by simp [hlonger], Or.inr ⟨hsplit.symm, hdefault⟩⟩
    · rintro ⟨hbody, ⟨rfl, _⟩ | ⟨rfl, _⟩⟩
      · exact absurd hbody hfixed
      · simp
  · simp only [false_iff, not_and]
    rintro hbody (⟨rfl, _⟩ | ⟨rfl, _⟩)
    · exact hfixed hbody
    · simp [hbody] at hlonger

section Checks

variable {context : SpendContext} {keySize sigSize : ℕ} {sigversion : SigVersion}
  {verify : Bytes → Bytes → Bytes → Bool} {sig pubkey : Bytes} {execdata : ExecData}
  {cache : PrecomputedTransactionData}

theorem checkSigV3_result_eq_ok (hcache : context.txdata = some cache) :
    (context.checkSigV3 keySize sigSize sigversion verify sig pubkey execdata).result = .ok () ↔
      pubkey.length = keySize ∧ ∃ body hashType sighash,
        splitHashType sigSize sig = .ok (body, hashType) ∧
        signatureHashXcoinV3 context.hashes context.tx context.nIn hashType sigversion execdata
          cache = some sighash ∧ verify pubkey sighash body = true := by
  unfold SpendContext.checkSigV3
  split_ifs with hkey
  · simp [hkey]
  rw [not_ne_iff] at hkey
  cases splitHashType sigSize sig with
  | error error => simp
  | ok parts =>
    obtain ⟨body, hashType⟩ := parts
    simp only [hcache, hkey, true_and, Except.ok.injEq, Prod.mk.injEq]
    cases hsighash : signatureHashXcoinV3 context.hashes context.tx context.nIn hashType
        sigversion execdata cache with
    | none =>
      simp only [reduceCtorEq, false_iff]
      rintro ⟨_, _, _, ⟨_, rfl⟩, hsome, _⟩
      rw [hsighash] at hsome
      cases hsome
    | some sighash =>
      simp only
      constructor
      · intro hresult
        refine ⟨body, hashType, sighash, ⟨rfl, rfl⟩, hsighash, ?_⟩
        by_contra hverify
        rw [if_neg hverify] at hresult
        cases hresult
      · rintro ⟨_, _, _, ⟨rfl, rfl⟩, hsome, hverify⟩
        obtain rfl := Option.some.inj (hsighash.symm.trans hsome)
        rw [if_pos hverify]

/-- **The signature checks.**  With the precomputed data at hand, a check succeeds exactly on
the valid signatures. -/
theorem checkSigV3_iff_validSignature {txin : TxIn} {txout : TxOut}
    (hextension : sigversion.extension.isSome = true) (hcache : context.txdata = some cache)
    (hin : context.tx.vin[context.nIn]? = some txin) (hready : cache.bip341TaprootReady = true)
    (hspent : cache.spentOutputsReady = true)
    (hout : cache.spentOutputs[context.nIn]? = some txout) :
    (context.checkSigV3 keySize sigSize sigversion verify sig pubkey execdata).result = .ok () ↔
      pubkey.length = keySize ∧
        ValidSignature context.tx context.nIn sigSize
          (fun hashType => (signatureHashXcoinV3 context.hashes context.tx context.nIn hashType
            sigversion execdata cache).getD []) verify pubkey sig := by
  have hdefined : ∀ hashType, _ := fun hashType =>
    @signatureHashXcoinV3_isSome_iff context.hashes context.tx context.nIn txin txout cache
      execdata sigversion hashType hextension hin hready hspent hout
  rw [checkSigV3_result_eq_ok hcache]
  refine and_congr_right fun _ => ?_
  constructor
  · rintro ⟨body, hashType, sighash, hsplit, hsighash, hverify⟩
    obtain ⟨hbody, hform⟩ := splitHashType_eq_ok.mp hsplit
    obtain ⟨htype, hsingle⟩ := (hdefined hashType).mp (by simp [hsighash])
    refine ⟨body, hashType, hbody, ?_, hsingle, by simpa [hsighash] using hverify⟩
    exact hform.imp_right fun hlonger => ⟨hlonger.1, htype.resolve_left hlonger.2⟩
  · rintro ⟨body, hashType, hbody, hform, hsingle, hverify⟩
    have htype : hashType = sighashDefault ∨ hashType ∈ explicitHashTypes :=
      hform.imp And.right And.right
    obtain ⟨sighash, hsighash⟩ :=
      Option.isSome_iff_exists.mp ((hdefined hashType).mpr ⟨htype, hsingle⟩)
    refine ⟨body, hashType, sighash, splitHashType_eq_ok.mpr ⟨hbody, ?_⟩, hsighash,
      by simpa [hsighash] using hverify⟩
    refine hform.imp_right fun hlonger => ⟨hlonger.1, ?_⟩
    rintro rfl
    exact absurd hlonger.2 (by decide)

end Checks

end XCoin.Script
