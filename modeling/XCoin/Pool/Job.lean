import XCoin.Pool.Coinbase
import XCoin.Primitives.Merkle

/-!
# Jobs and the check of a share

The Merkle branch that `refresh` computes for a template, the job that `notify` keeps for a
session, and `validate`.  `validate` waits once, for the node to compute the proof-of-work
hash, so it is two functions here: `validateStart` up to the call and `validateFinish` from the
answer on.  What it holds meanwhile is `Pending`; other code runs in between and cannot
change it.

Hex strings are the bytes or numbers they stand for: a field of a request is `none` if Python
cannot parse it.  Share difficulties are exact rational numbers; the pool uses floats.
-/

namespace XCoin.Pool

/-! ## The branch of a template -/

/-- The loop of `refresh`.  `idx` is the position of the coinbase in the layer. -/
def branchLoop (dsha256 : Dsha256) : ℕ → ℕ → List Bytes → List Bytes
  | 0, _, _ => []
  | fuel + 1, idx, layer =>
    if layer.length ≤ 1 then []
    else
      let layer := MerkleTree.evenUp layer
      (if idx ^^^ 1 < layer.length then layer[idx ^^^ 1]?.toList else []) ++
        branchLoop dsha256 fuel (idx >>> 1)
          (MerkleTree.pairs (fun left right => dsha256.hash (left ++ right)) layer)

/-- The branch of the coinbase, with a placeholder in its place. -/
def coinbaseBranch (dsha256 : Dsha256) (txHashesLe : List Bytes) : List Bytes :=
  branchLoop dsha256 (txHashesLe.length + 1) 0 (List.replicate 32 0 :: txHashesLe)

/-! ## Jobs -/

/-- What a session keeps of a job; `txs` is the data of the template's transactions. -/
structure Job where
  p1 : Bytes
  p2 : Bytes
  prevLe : Bytes
  version : ℕ
  bits : ℕ
  height : ℕ
  mintime : ℕ
  shareDiff : ℚ
  branchLe : List Bytes
  txs : List Bytes
deriving DecidableEq, Repr

/-- `bits_to_target`. -/
def bitsToTarget (bits : ℕ) : ℕ :=
  let exp := bits >>> 24
  let mant := bits &&& 0xffffff
  if 3 < exp then mant * 2 ^ (8 * (exp - 3)) else mant >>> (8 * (3 - exp))

/-- The block target. -/
def Job.target (job : Job) : ℕ := bitsToTarget job.bits

/-- `MAX_TARGET`. -/
def maxTarget : ℕ := 0xffff * 2 ^ 208

/-- `diff_to_target`. -/
def diffToTarget (diff : ℚ) : ℕ := if 0 < diff then ⌊(maxTarget : ℚ) / diff⌋.toNat else maxTarget

/-! ## Requests -/

/-- The fields of a `mining.submit`.  `jid` is the number of the job whose id the text is. -/
structure Submit where
  jid : Option ℕ
  en2 : Option Bytes
  ntime : Option ℤ
  nonce : Option ℤ
  vbits : Option (Option ℤ)
deriving DecidableEq, Repr

/-- Why a request is refused. -/
inductive Rejection where
  /-- no reason is kept, and the reply says `low difficulty / stale` -/
  | lowDifficultyOrStale
  /-- `bad params: ntime` -/
  | ntime
  /-- `bad params:` and what Python says of text that is not hex -/
  | notHex
  /-- `bad params: extranonce2 is %d bytes, expected %d` -/
  | extranonce2Length (length expected : ℕ)
  /-- `bad params: ntime is not a 32-bit value` -/
  | ntimeRange
  /-- `bad params: nonce is not a 32-bit value` -/
  | nonceRange
  /-- `bad params: version bits are not a 32-bit value` -/
  | versionBitsRange
deriving DecidableEq, Repr

/-- The stratum error code of the reply: 20 for bad params, 23 otherwise. -/
def Rejection.code : Rejection → ℕ
  | .lowDifficultyOrStale => 23
  | _ => 20

/-- A number that fits into 32 bits. -/
def parseUint32 (range : Rejection) : Option ℤ → Except Rejection ℕ
  | none => .error .notHex
  | some n => if 0 ≤ n ∧ n ≤ 0xffffffff then .ok n.toNat else .error range

/-- The parsed parameters of `mining.submit`. -/
structure SubmitParams where
  en2 : Bytes
  ntime : ℕ
  nonce : ℕ
  vbits : Option ℕ
deriving DecidableEq, Repr

/-- `parse_submit_params`. -/
def parseSubmitParams (submit : Submit) (en2Size : ℕ) : Except Rejection SubmitParams :=
  match submit.en2 with
  | none => .error .notHex
  | some en2 =>
    if en2.length ≠ en2Size then .error (.extranonce2Length en2.length en2Size)
    else do
      let ntime ← parseUint32 .ntimeRange submit.ntime
      let nonce ← parseUint32 .nonceRange submit.nonce
      match submit.vbits with
      | none => return ⟨en2, ntime, nonce, none⟩
      | some field =>
        let vbits ← parseUint32 .versionBitsRange field
        return ⟨en2, ntime, nonce, some vbits⟩

/-! ## Validation -/

/-- The version bits a miner may choose: 13 to 27. -/
def versionMask : ℕ := 0x0fffe000

/-- The version with the miner's rolled bits. -/
def rolledVersion (version : ℕ) : Option ℕ → ℕ
  | none => version
  | some vbits => (version &&& (0xffffffff ^^^ versionMask)) ||| (vbits &&& versionMask)

/-- The coinbase without its witness. -/
def Job.coinbase (job : Job) (en1 en2 : Bytes) : Bytes := job.p1 ++ en1 ++ en2 ++ job.p2

/-- The root that the branch gives. -/
def Job.root (dsha256 : Dsha256) (job : Job) (cb : Bytes) : Bytes :=
  job.branchLe.foldl (fun root sib => dsha256.hash (root ++ sib)) (dsha256.hash cb)

/-- The 80-byte header of a submission. -/
def Job.header (dsha256 : Dsha256) (job : Job) (en1 : Bytes) (params : SubmitParams) : Bytes :=
  Bytes.ofNatLE 4 (rolledVersion job.version params.vbits) ++ job.prevLe ++
    job.root dsha256 (job.coinbase en1 params.en2) ++ Bytes.ofNatLE 4 params.ntime ++
    Bytes.ofNatLE 4 job.bits ++ Bytes.ofNatLE 4 params.nonce

/-- What `validate` holds while the node computes. -/
structure Pending where
  job : Job
  cb : Bytes
  header : Bytes
deriving DecidableEq, Repr

/-- A session's jobs in the order they were stored. -/
abbrev JobTable := List (ℕ × Job)

/-- The job of an identifier. -/
def JobTable.find (jobs : JobTable) (jid : ℕ) : Option Job := jobs.lookup jid

/-- The job that a request names. -/
def namedJob (jobs : JobTable) (submit : Submit) : Except Rejection Job :=
  match submit.jid.bind jobs.find with
  | none => .error .lowDifficultyOrStale
  | some job => .ok job

/-- The time of a request: not before the template's, not over two hours ahead. -/
def checkTime (job : Job) (now : ℤ) (submit : Submit) : Except Rejection Unit :=
  match submit.ntime with
  | none => .error .ntime
  | some ntime =>
    if ntime < job.mintime ∨ now + 2 * 60 * 60 < ntime then .error .lowDifficultyOrStale
    else .ok ()

/-- A job on a tip that is not the live template's is stale. -/
def checkTip (job : Job) (tip : Option Bytes) : Except Rejection Unit :=
  if tip.any fun prev => decide (job.prevLe ≠ prev) then .error .lowDifficultyOrStale else .ok ()

/-- `validate` up to the call of the node.  `tip` is the previous block of the live template, if
there is a template. -/
def validateStart (dsha256 : Dsha256) (jobs : JobTable) (en1 : Bytes) (en2Size : ℕ) (now : ℤ)
    (tip : Option Bytes) (submit : Submit) : Except Rejection Pending := do
  let job ← namedJob jobs submit
  checkTime job now submit
  checkTip job tip
  let params ← parseSubmitParams submit en2Size
  return ⟨job, job.coinbase en1 params.en2, job.header dsha256 en1 params⟩

/-- The outcome of a submission. -/
inductive Verdict where
  | rejected (why : Rejection)
  | share
  | block (bytes hash : Bytes)
deriving DecidableEq, Repr

/-- The coinbase with marker, flag and the reserved value as its witness.  `cb[4:-4]` and
`cb[-4:]` are the parts before and from the last four bytes. -/
def segwitCoinbase (cb : Bytes) : Bytes :=
  cb.take 4 ++ [0x00, 0x01] ++ (cb.drop 4).take (cb.length - 8) ++ [0x01, 0x20] ++
    List.replicate 32 0 ++ cb.drop (cb.length - 4)

/-- The serialized block. -/
def Pending.blockBytes (pending : Pending) : Bytes :=
  pending.header ++ varint (1 + pending.job.txs.length) ++ segwitCoinbase pending.cb ++
    pending.job.txs.flatten

/-- `validate` from the node's answer on. -/
def validateFinish (dsha256 : Dsha256) (pending : Pending) (powHash : Option ℕ) : Verdict :=
  match powHash with
  | none => .rejected .lowDifficultyOrStale
  | some hi =>
    if diffToTarget pending.job.shareDiff < hi ∧ ¬hi ≤ pending.job.target then
      .rejected .lowDifficultyOrStale
    else if hi ≤ pending.job.target then
      .block pending.blockBytes (dsha256.hash pending.header).reverse
    else .share

end XCoin.Pool
