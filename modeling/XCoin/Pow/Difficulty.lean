import XCoin.Pow.Asert

/-!
# Difficulty rules for headers

`GetNextWorkRequired` with the classic retarget that ASERT replaces from its
activation height on, `PermittedDifficultyTransition`, and
`ContextualCheckBlockHeader`, which compares a header with the chain it extends.

A chain is a list of headers, the newest first; the block index entry of its head
is the chain itself (`HeaderChain`).  The hash of a header enters
`ContextualCheckBlockHeader` only through the release checkpoints and is a parameter.
-/

namespace XCoin.Pow

open Consensus

variable {params : Params} {chain chain' : HeaderChain}

/-! ## The required work -/

/-- The limits on `nActualTimespan`. -/
def clampTimespan (params : Params) (timespan : ℤ) : ℤ :=
  if timespan < params.nPowTargetTimespan.tdiv 4 then params.nPowTargetTimespan.tdiv 4
  else if params.nPowTargetTimespan * 4 < timespan then params.nPowTargetTimespan * 4
  else timespan

/-- `target *= timespan; target /= nPowTargetTimespan;`, cut off at the limit.  The
64-bit timespan is converted to `uint32_t` by the multiplication. -/
def rescaleTarget (params : Params) (target : ℕ) (timespan : ℤ) : ℕ :=
  min params.powLimit.toNat
    (mulUint32 target (timespan % 2 ^ 32).toNat / params.nPowTargetTimespan.toNat)

/-- `CalculateNextWorkRequired`; `none` stands for a null ancestor or a division by zero. -/
def calculateNextWorkRequired (params : Params) (pindexLast : HeaderChain)
    (nFirstBlockTime : ℤ) : Option UInt32 := do
  let last ← pindexLast.head?
  if params.fPowNoRetargeting then some last.nBits
  else if params.nPowTargetTimespan ≤ 0 then none
  else
    let base ←
      if params.enforceBIP94 then
        pindexLast.getAncestor (pindexLast.nHeight - (params.difficultyAdjustmentInterval - 1))
      else some last
    some (UInt32.ofNat (getCompact (rescaleTarget params (setCompact base.nBits.toNat)
      (clampTimespan params (last.nTime.toNat - nFirstBlockTime)))))

/-- The loop of the minimum-difficulty rule: the last block that was not mined at the
limit, or the first of its interval. -/
def lastRegularBits (params : Params) : HeaderChain → Option UInt32
  | [] => none
  | [block] => some block.nBits
  | block :: parent :: rest =>
    if (HeaderChain.nHeight (block :: parent :: rest)).tmod
          params.difficultyAdjustmentInterval ≠ 0 ∧
        block.nBits.toNat = getCompact params.powLimit.toNat then
      lastRegularBits params (parent :: rest)
    else some block.nBits

/-- `GetNextWorkRequired`; `none` is a failed assertion. -/
def getNextWorkRequired (params : Params) (pindexLast : HeaderChain) (block : BlockHeader) :
    Option UInt32 := do
  let last ← pindexLast.head?
  if params.nASERTActivationHeight ≤ pindexLast.nHeight + 1 then
    asertGetNextWorkRequired params pindexLast
  else if (pindexLast.nHeight + 1).tmod params.difficultyAdjustmentInterval ≠ 0 then
    if params.fPowAllowMinDifficultyBlocks then
      if (last.nTime.toNat : ℤ) + params.nPowTargetSpacing * 2 < block.nTime.toNat then
        some (UInt32.ofNat (getCompact params.powLimit.toNat))
      else lastRegularBits params pindexLast
    else some last.nBits
  else
    let first ←
      pindexLast.getAncestor (pindexLast.nHeight - (params.difficultyAdjustmentInterval - 1))
    calculateNextWorkRequired params pindexLast first.nTime.toNat

theorem getNextWorkRequired_of_asert {pindexLast : HeaderChain} (block : BlockHeader)
    (hactive : params.nASERTActivationHeight ≤ pindexLast.nHeight + 1) :
    getNextWorkRequired params pindexLast block = asertGetNextWorkRequired params pindexLast := by
  cases pindexLast with
  | nil => rfl
  | cons last rest => simp [getNextWorkRequired, hactive]

/-! ## Permitted transitions -/

/-- The branch of `PermittedDifficultyTransition` for heights under ASERT. -/
def permittedUnderAsert (params : Params) (oldNbits newNbits : ℕ) : Bool :=
  if params.powLimit.toNat < setCompact newNbits then false
  else if setCompact newNbits < setCompact (getCompact (setCompact oldNbits / 4)) then false
  else true

/-- The branch for heights before ASERT. -/
def permittedClassic (params : Params) (height : ℤ) (oldNbits newNbits : ℕ) : Bool :=
  if height.tmod params.difficultyAdjustmentInterval = 0 then
    if setCompact (getCompact (rescaleTarget params (setCompact oldNbits)
        (params.nPowTargetTimespan * 4))) < setCompact newNbits then false
    else if setCompact newNbits < setCompact (getCompact (rescaleTarget params
        (setCompact oldNbits) (params.nPowTargetTimespan.tdiv 4))) then false
    else true
  else decide (oldNbits = newNbits)

/-- `PermittedDifficultyTransition`. -/
def permittedDifficultyTransition (params : Params) (height : ℤ) (oldNbits newNbits : UInt32) :
    Bool :=
  if params.fPowAllowMinDifficultyBlocks then true
  else if params.nASERTActivationHeight ≤ height then
    permittedUnderAsert params oldNbits.toNat newNbits.toNat
  else permittedClassic params height oldNbits.toNat newNbits.toNat

/-! ## Checking a header against its chain -/

/-- `MAX_FUTURE_BLOCK_TIME`. -/
def maxFutureBlockTime : ℤ := 2 * 60 * 60

/-- `MAX_TIMEWARP`. -/
def maxTimewarp : ℤ := 600

/-- `GetMedianTimePast`: the middle one of the last eleven times. -/
def HeaderChain.getMedianTimePast (chain : HeaderChain) : ℤ :=
  let times := ((chain.take 11).map fun header => header.nTime.toNat).insertionSort (· ≤ ·)
  (times.getD (times.length / 2) 0 : ℕ)

/-- The reject reasons of `ContextualCheckBlockHeader`. -/
inductive HeaderReject where
  | badDiffbits
  | timeTooOld
  | timeTimewarpAttack
  | timeTooNew
  | badVersion (nVersion : UInt32)
  | badPowAlgo
  | badCheckpointRelease
deriving DecidableEq, Repr

/-- `GetPowAlgoId`: bits 28 and 29 of the version. -/
def getPowAlgoId (nVersion : UInt32) : ℕ := nVersion.toNat / 2 ^ 28 % 4

/-- The version is too old for a deployment that is active after the parent. -/
def outdatedVersion (params : Params) (height : ℤ) (nVersion : UInt32) : Bool :=
  decide ((nVersion.toBitVec.toInt < 2 ∧ params.bip34Height ≤ height) ∨
    (nVersion.toBitVec.toInt < 3 ∧ params.bip66Height ≤ height) ∨
    (nVersion.toBitVec.toInt < 4 ∧ params.bip65Height ≤ height))

/-- `ContextualCheckBlockHeader` at the time `now`, for a header on top of `pindexPrev`. -/
def contextualCheckBlockHeader (params : Params) (getHash : BlockHeader → Uint256) (now : ℤ)
    (pindexPrev : HeaderChain) (block : BlockHeader) : Except HeaderReject Unit :=
  if getNextWorkRequired params pindexPrev block ≠ some block.nBits then
    .error .badDiffbits
  else if (block.nTime.toNat : ℤ) ≤ pindexPrev.getMedianTimePast then
    .error .timeTooOld
  else if params.enforceBIP94 ∧
      (pindexPrev.nHeight + 1).tmod params.difficultyAdjustmentInterval = 0 ∧
      (block.nTime.toNat : ℤ) <
        ((pindexPrev.head?.map fun last => last.nTime.toNat).getD 0 : ℕ) - maxTimewarp then
    .error .timeTimewarpAttack
  else if now + maxFutureBlockTime < block.nTime.toNat then
    .error .timeTooNew
  else if outdatedVersion params (pindexPrev.nHeight + 1) block.nVersion then
    .error (.badVersion block.nVersion)
  else if getPowAlgoId block.nVersion ≠ 0 ∧
      params.multiAlgoActiveAt (pindexPrev.nHeight + 1) = false then
    .error .badPowAlgo
  else if params.releaseCheckpointAllows (pindexPrev.nHeight + 1) (getHash block) = false then
    .error .badCheckpointRelease
  else .ok ()

theorem nBits_of_contextualCheckBlockHeader {getHash : BlockHeader → Uint256} {now : ℤ}
    {pindexPrev : HeaderChain} {block : BlockHeader}
    (hcheck : contextualCheckBlockHeader params getHash now pindexPrev block = .ok ()) :
    getNextWorkRequired params pindexPrev block = some block.nBits := by
  unfold contextualCheckBlockHeader at hcheck
  by_contra hbits
  rw [if_pos hbits] at hcheck
  cases hcheck

/-- What the check reads of an ancestor once ASERT is active. -/
def timeAndBits (header : BlockHeader) : UInt32 × UInt32 := (header.nTime, header.nBits)

theorem nHeight_congr (hchain : chain.map timeAndBits = chain'.map timeAndBits) :
    chain.nHeight = chain'.nHeight := by
  have hlen := congrArg List.length hchain
  simp only [List.length_map] at hlen
  rw [HeaderChain.nHeight, HeaderChain.nHeight, hlen]

theorem getMedianTimePast_congr (hchain : chain.map timeAndBits = chain'.map timeAndBits) :
    chain.getMedianTimePast = chain'.getMedianTimePast := by
  have htimes : ∀ headers : HeaderChain, (headers.take 11).map (fun header => header.nTime.toNat) =
      ((headers.map timeAndBits).take 11).map (fun entry => entry.1.toNat) := by
    intro headers
    rw [← List.map_take, List.map_map]
    rfl
  rw [HeaderChain.getMedianTimePast, HeaderChain.getMedianTimePast, htimes, htimes, hchain]

theorem asertGetNextWorkRequired_congr (hchain : chain.map timeAndBits = chain'.map timeAndBits) :
    asertGetNextWorkRequired params chain = asertGetNextWorkRequired params chain' := by
  have hheight := nHeight_congr hchain
  cases chain with
  | nil =>
    obtain rfl : chain' = [] := by simpa using hchain.symm
    rfl
  | cons last rest =>
    cases chain' with
    | nil => simp at hchain
    | cons last' rest' =>
      have hancestor := congrArg List.getLast? hchain
      rw [List.getLast?_map, List.getLast?_map] at hancestor
      rw [List.map_cons, List.map_cons, List.cons.injEq] at hchain
      obtain ⟨htime, hbits⟩ := Prod.mk.inj hchain.1
      unfold asertGetNextWorkRequired
      simp only [HeaderChain.getAncestor_zero (List.cons_ne_nil _ _), hheight, htime, hbits]
      -- both chains have an anchor, and it has the same time and bits
      cases hfirst : (last :: rest).getLast? with
      | none => simp at hfirst
      | some anchor =>
        cases hsecond : (last' :: rest').getLast? with
        | none => simp at hsecond
        | some anchor' =>
          rw [hfirst, hsecond] at hancestor
          obtain ⟨hatime, habits⟩ := Prod.mk.inj (Option.some.inj hancestor)
          simp only [hatime, habits]

/-- Under ASERT and without checkpoints and the BIP94 rule, the check reads the times
and bits of the chain and the time, bits and version of the header. -/
theorem contextualCheckBlockHeader_congr (hcheckpoints : params.releaseCheckpoints = [])
    (hBIP94 : params.enforceBIP94 = false) (getHash getHash' : BlockHeader → Uint256) (now : ℤ)
    {chain chain' : HeaderChain} {block block' : BlockHeader}
    (hactive : params.nASERTActivationHeight ≤ chain.nHeight + 1)
    (hchain : chain.map timeAndBits = chain'.map timeAndBits)
    (hblock : timeAndBits block = timeAndBits block') (hversion : block.nVersion = block'.nVersion) :
    contextualCheckBlockHeader params getHash now chain block =
      contextualCheckBlockHeader params getHash' now chain' block' := by
  have hheight := nHeight_congr hchain
  obtain ⟨htime, hbits⟩ := Prod.mk.inj hblock
  unfold contextualCheckBlockHeader
  rw [getNextWorkRequired_of_asert _ hactive, getNextWorkRequired_of_asert _ (hheight ▸ hactive),
    asertGetNextWorkRequired_congr hchain, getMedianTimePast_congr hchain, hheight, htime, hbits,
    hversion]
  simp [Params.releaseCheckpointAllows, hcheckpoints, hBIP94]

/-! ## Chains that pass the check -/

/-- A header together with the time at which a node accepted it. -/
structure AcceptedHeader where
  header : BlockHeader
  acceptedAt : ℤ
deriving DecidableEq, Repr

/-- The headers of a run, the newest first. -/
def headersOf (run : List AcceptedHeader) : HeaderChain := run.map AcceptedHeader.header

/-- A chain from the mainnet genesis whose later headers each name the header below them
and passed `ContextualCheckBlockHeader` on top of it, at times that do not decrease.
Heights are C++ `int` values. -/
def ConsensusValid (params : Params) (getHash : BlockHeader → Uint256) :
    List AcceptedHeader → Prop
  | [] => False
  | [genesis] => genesis.header = genesisHeader
  | block :: parent :: rest =>
    ConsensusValid params getHash (parent :: rest) ∧
      block.header.hashPrevBlock = getHash parent.header ∧
      parent.acceptedAt ≤ block.acceptedAt ∧
      (headersOf (block :: parent :: rest)).nHeight < 2 ^ 31 ∧
      contextualCheckBlockHeader params getHash block.acceptedAt (headersOf (parent :: rest))
        block.header = .ok ()

instance decidableConsensusValid (params : Params) (getHash : BlockHeader → Uint256) :
    (run : List AcceptedHeader) → Decidable (ConsensusValid params getHash run)
  | [] => inferInstanceAs (Decidable False)
  | [genesis] => inferInstanceAs (Decidable (genesis.header = genesisHeader))
  | block :: parent :: rest =>
    haveI := decidableConsensusValid params getHash (parent :: rest)
    haveI : Decidable (contextualCheckBlockHeader params getHash block.acceptedAt
        (headersOf (parent :: rest)) block.header = .ok ()) := by
      exact match contextualCheckBlockHeader params getHash block.acceptedAt
          (headersOf (parent :: rest)) block.header with
      | .ok () => isTrue rfl
      | .error _ => isFalse (by simp)
    inferInstanceAs (Decidable (_ ∧ _ ∧ _ ∧ _ ∧ _))

end XCoin.Pow
