import XCoin.Script.Script

/-!
# Output types

`Solver` sorts a `scriptPubKey` into one of the output types.  Consensus reads
only the type (`CheckTransaction` allows three of them), so the solutions that
`Solver` also returns are left out.
-/

namespace XCoin.Script

/-- `TxoutType`. -/
inductive TxoutType where
  | nonstandard
  | anchor
  | pubkey
  | pubkeyhash
  | scripthash
  | multisig
  | nullData
  | witnessV0Scripthash
  | witnessV0Keyhash
  | witnessV1Taproot
  | witnessV2Pq
  | witnessV3Pq
  | witnessUnknown
deriving DecidableEq, Repr

/-- `CPubKey::ValidSize`: the first byte fixes the length. -/
def validPubKeySize (vch : Bytes) : Bool :=
  let header := byteAt vch 0
  decide (0 < vch.length) &&
    (if header = 2 ∨ header = 3 then vch.length == 33
      else if header = 4 ∨ header = 6 ∨ header = 7 then vch.length == 65
      else false)

/-- `MatchPayToPubkey`. -/
def matchPayToPubkey (script : Bytes) : Bool :=
  if script.length = 67 ∧ byteAt script 0 = 65 ∧ byteAt script 66 = opChecksig then
    validPubKeySize ((script.drop 1).take 65)
  else if script.length = 35 ∧ byteAt script 0 = 33 ∧ byteAt script 34 = opChecksig then
    validPubKeySize ((script.drop 1).take 33)
  else false

/-- `MatchPayToPubkeyHash`. -/
def matchPayToPubkeyHash (script : Bytes) : Bool :=
  script.length == 25 && byteAt script 0 == opDup && byteAt script 1 == opHash160 &&
    byteAt script 2 == 20 && byteAt script 23 == opEqualverify && byteAt script 24 == opChecksig

/-- A minimally encoded number in `[min, max]`, by `OP_n` or by a push. -/
def getScriptNumber (instr : Instr) (min max : ℤ) : Option ℤ :=
  let count : Option ℤ :=
    if op1 ≤ instr.opcode ∧ instr.opcode ≤ op16 then some (decodeOpN instr.opcode)
    else if op0 < instr.opcode ∧ instr.opcode ≤ opPushdata4 then
      if checkMinimalPush instr.data instr.opcode then
        match scriptNum instr.data true 4 with
        | .ok value => some (getInt value)
        | .error _ => none
      else none
    else none
  count.filter fun count => decide (min ≤ count ∧ count ≤ max)

/-- The key loop of `MatchMultisig`: the number of keys, the instruction that
ended the loop and the script after it. -/
def multisigKeys : List (Option Instr) → ℕ → Option (ℕ × Instr)
  | some instr :: rest, keys =>
    if validPubKeySize instr.data then multisigKeys rest (keys + 1) else some (keys, instr)
  | _, _ => none

/-- `MatchMultisig`. -/
def matchMultisig (script : Bytes) : Bool :=
  if script.length < 1 ∨ byteAt script (script.length - 1) ≠ opCheckmultisig then false
  else
    match scriptOps script with
    | some first :: rest =>
      match getScriptNumber first 1 maxPubkeysPerMultisig with
      | none => false
      | some required =>
        match multisigKeys rest 0 with
        | none => false
        | some (keys, stop) =>
          match getScriptNumber stop required maxPubkeysPerMultisig with
          | none => false
          | some total => (keys : ℤ) == total && stop.rest.length == 1
    | _ => false

/-- `Solver`. -/
def solver (scriptPubKey : Bytes) : TxoutType :=
  if isPayToScriptHash scriptPubKey then .scripthash
  else
    match isWitnessProgram scriptPubKey with
    | some (version, witnessProgram) =>
      if version = 0 ∧ witnessProgram.length = 20 then .witnessV0Keyhash
      else if version = 0 ∧ witnessProgram.length = 32 then .witnessV0Scripthash
      else if version = 1 ∧ witnessProgram.length = 32 then .witnessV1Taproot
      else if version = 2 ∧ witnessProgram.length = 32 then .witnessV2Pq
      else if version = 3 ∧ witnessProgram.length = 32 then .witnessV3Pq
      else if isPayToAnchor scriptPubKey then .anchor
      else if version ≠ 0 then .witnessUnknown
      else .nonstandard
    | none =>
      if 1 ≤ scriptPubKey.length ∧ byteAt scriptPubKey 0 = opReturn ∧
          isPushOnly (scriptPubKey.drop 1) then .nullData
      else if matchPayToPubkey scriptPubKey then .pubkey
      else if matchPayToPubkeyHash scriptPubKey then .pubkeyhash
      else if matchMultisig scriptPubKey then .multisig
      else .nonstandard

end XCoin.Script
