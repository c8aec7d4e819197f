import XCoin.Pow.Difficulty

/-!
# Headers presync and the permitted difficulty transitions

While a node first downloads headers it does not compute the required work.  It
only asks `PermittedDifficultyTransition` whether each header may follow the one
before it (`HeadersSyncState::ValidateAndProcessSingleHeader`), and under ASERT a
target may not fall below a quarter of its predecessor.

The required target depends on the schedule error of the parent, so a step is
bounded by how far the schedule error falls from one block to the next.  A fall of
two half-lives is exactly a factor of four.  The rules on timestamps do not bound the fall: a
timestamp may run ahead of the median by as much as the clock allows and the next
one may return to the median (`skippedRun_refused`).  As long as every fall is at
most two half-lives, counted from the schedule itself when the chain is late, no header of a
valid chain is refused (`transitions_permitted_of_boundedSwing`).
-/

namespace XCoin.Pow

open Consensus

variable {getHash : BlockHeader → Uint256} {chain : HeaderChain}

/-! ## Presync -/

/-- `HeadersSyncState::State`. -/
inductive DownloadState where
  | presync
  | redownload
  | final
deriving DecidableEq, Repr

/-- The fields of `HeadersSyncState` that the presync phase reads and writes. -/
structure HeadersSyncState where
  downloadState : DownloadState
  currentHeight : ℤ
  lastHeaderReceived : BlockHeader
  currentChainWork : ℕ
  headerCommitments : List Bool
  maxCommitments : ℕ
  commitmentPeriod : ℤ
  commitOffset : ℤ
deriving DecidableEq, Repr

/-- Why a presync gives up. -/
inductive PresyncAbort where
  | notPresync
  | invalidDifficultyTransition (height : ℤ)
  | exceededMaxCommitments (height : ℤ)
deriving DecidableEq, Repr

/-- `GetBlockProof`: the complement of the target over the target plus one, plus one. -/
def getBlockProof (header : BlockHeader) : ℕ :=
  if compactNegative header.nBits.toNat ∨ compactOverflow header.nBits.toNat ∨
      setCompact header.nBits.toNat = 0 then 0
  else
    (2 ^ 256 - 1 - setCompact header.nBits.toNat) / (setCompact header.nBits.toNat + 1) + 1

/-- The height asks for a commitment. -/
def HeadersSyncState.commitsAt (sync : HeadersSyncState) (height : ℤ) : Bool :=
  decide (height.tmod sync.commitmentPeriod = sync.commitOffset)

/-- The commitments once a header at this height is processed. -/
def HeadersSyncState.commitmentsAfter (sync : HeadersSyncState) (height : ℤ) (bit : Bool) :
    List Bool :=
  if sync.commitsAt height then sync.headerCommitments ++ [bit] else sync.headerCommitments

/-- `ValidateAndProcessSingleHeader`.  `commitment` is the salted hash of a header, of
which one bit is kept. -/
def validateAndProcessSingleHeader (params : Params) (commitment : BlockHeader → Bool)
    (sync : HeadersSyncState) (current : BlockHeader) : Except PresyncAbort HeadersSyncState :=
  if sync.downloadState ≠ .presync then .error .notPresync
  else if permittedDifficultyTransition params (sync.currentHeight + 1)
      sync.lastHeaderReceived.nBits current.nBits = false then
    .error (.invalidDifficultyTransition (sync.currentHeight + 1))
  else if sync.commitsAt (sync.currentHeight + 1) ∧
      sync.maxCommitments < sync.headerCommitments.length + 1 then
    .error (.exceededMaxCommitments (sync.currentHeight + 1))
  else
    .ok { sync with
      headerCommitments := sync.commitmentsAfter (sync.currentHeight + 1) (commitment current)
      currentChainWork := (sync.currentChainWork + getBlockProof current) % 2 ^ 256
      lastHeaderReceived := current
      currentHeight := sync.currentHeight + 1 }

/-- The loop of `ValidateAndStoreHeadersCommitments` over one message. -/
def validateHeaders (params : Params) (commitment : BlockHeader → Bool)
    (sync : HeadersSyncState) (headers : List BlockHeader) :
    Except PresyncAbort HeadersSyncState :=
  headers.foldlM (validateAndProcessSingleHeader params commitment) sync

/-- The presync has processed this chain and no more. -/
def HeadersSyncState.At (sync : HeadersSyncState) (chain : HeaderChain) : Prop :=
  chain.head? = some sync.lastHeaderReceived ∧ sync.currentHeight = chain.nHeight

/-- Every header of the chain but genesis may follow its parent. -/
def TransitionsPermitted (params : Params) (chain : HeaderChain) : Prop :=
  ∀ block parent rest, block :: parent :: rest <:+ chain →
    permittedDifficultyTransition params (HeaderChain.nHeight (block :: parent :: rest))
      parent.nBits block.nBits = true

theorem validateAndProcessSingleHeader_cases {params : Params}
    (commitment : BlockHeader → Bool) {sync : HeadersSyncState} {chain : HeaderChain}
    {current : BlockHeader} (hat : sync.At chain)
    (hpermitted : ∀ parent rest, chain = parent :: rest → permittedDifficultyTransition params
      (HeaderChain.nHeight (current :: chain)) parent.nBits current.nBits = true) :
    (∃ next, validateAndProcessSingleHeader params commitment sync current = .ok next ∧
        next.At (current :: chain)) ∨
      ∃ abort, validateAndProcessSingleHeader params commitment sync current = .error abort ∧
        ∀ height, abort ≠ .invalidDifficultyTransition height := by
  obtain ⟨hhead, hheight⟩ := hat
  obtain ⟨rest, rfl⟩ : ∃ rest, chain = sync.lastHeaderReceived :: rest := by
    cases chain with
    | nil => simp at hhead
    | cons first rest => exact ⟨rest, by simpa using hhead⟩
  have hnext : sync.currentHeight + 1 =
      HeaderChain.nHeight (current :: sync.lastHeaderReceived :: rest) := by
    rw [hheight, HeaderChain.nHeight, HeaderChain.nHeight]
    simp only [List.length_cons]
    push_cast
    ring
  have hallowed := hpermitted _ _ rfl
  rw [← hnext] at hallowed
  unfold validateAndProcessSingleHeader
  rw [if_neg (by simp [hallowed] : ¬permittedDifficultyTransition params (sync.currentHeight + 1)
    sync.lastHeaderReceived.nBits current.nBits = false)]
  split_ifs
  · exact Or.inr ⟨_, rfl, by simp⟩
  · exact Or.inr ⟨_, rfl, by simp⟩
  · exact Or.inl ⟨_, rfl, rfl, hnext⟩

/-- A presync that starts anywhere on a chain whose transitions are all permitted never
gives up because of one.  The later headers are listed newest first. -/
theorem validateHeaders_ne_transition {params : Params} (commitment : BlockHeader → Bool)
    (later start : HeaderChain) (sync : HeadersSyncState) (hat : sync.At start)
    (hpermitted : TransitionsPermitted params (later ++ start)) (height : ℤ) :
    validateHeaders params commitment sync later.reverse ≠
      .error (.invalidDifficultyTransition height) := by
  -- the first header to be processed is the last one of the list
  induction later using List.reverseRecOn generalizing start sync with
  | nil => simp [validateHeaders, pure, Except.pure]
  | append_singleton later first ih =>
    rw [List.append_assoc, List.singleton_append] at hpermitted
    rw [List.reverse_append, List.reverse_singleton, List.singleton_append, validateHeaders,
      List.foldlM_cons]
    have hfirst : ∀ parent rest, start = parent :: rest → permittedDifficultyTransition params
        (HeaderChain.nHeight (first :: start)) parent.nBits first.nBits = true := by
      rintro parent rest rfl
      exact hpermitted first parent rest (List.suffix_append _ _)
    rcases validateAndProcessSingleHeader_cases commitment hat hfirst with
      ⟨next, hok, hnext⟩ | ⟨abort, herror, hother⟩
    · rw [hok]
      exact ih (first :: start) next hnext hpermitted
    · rw [herror]
      intro hsame
      exact hother height (Except.error.inj hsame)

/-! ## The swing of the schedule error -/

/-- How far the head of a chain is behind the schedule that starts at genesis. -/
def scheduleError (params : Params) (chain : HeaderChain) : ℤ :=
  ((chain.head?.map fun last => last.nTime.toNat).getD 0 : ℕ) -
    ((chain.getLast?.map fun anchor => anchor.nTime.toNat).getD 0 : ℕ) -
    chain.nHeight * params.nPowTargetSpacing

/-- The head of the chain lowers the schedule error by at most two half-lives, counted
from zero if the chain was behind the schedule. -/
def BoundedSwing (params : Params) : HeaderChain → Prop
  | last :: parent :: rest =>
    min (scheduleError params (parent :: rest)) 0 -
      scheduleError params (last :: parent :: rest) ≤ 2 * params.nASERTHalfLife
  | _ => True

instance decidableBoundedSwing (params : Params) (chain : HeaderChain) :
    Decidable (BoundedSwing params chain) := by
  unfold BoundedSwing
  split <;> infer_instance

/-- The exponent of the target that follows a chain. -/
def chainExponent (chain : HeaderChain) : ℤ := scheduleError mainParams chain * 65536 / 7200

/-- The target of the genesis block. -/
def genesisTarget : ℕ := setCompact genesisHeader.nBits.toNat

theorem genesisTarget_eq_compactFloor :
    genesisTarget = compactFloor mainParams.powLimit.toNat := by
  decide +kernel

theorem genesisTarget_pos : 0 < genesisTarget := by decide +kernel

theorem two_pow_dvd_genesisTarget : 2 ^ 16 ∣ genesisTarget := by decide +kernel

theorem powLimit_pos : 0 < mainParams.powLimit.toNat := by decide

theorem genesisTarget_le : genesisTarget ≤ mainParams.powLimit.toNat :=
  genesisTarget_eq_compactFloor ▸ compactFloor_le _

theorem asertScaled_zero (anchor : ℕ) : asertScaled anchor 0 = anchor := by
  have hfactor : asertFactor 0 = 2 ^ 16 := by decide
  calc asertScaled anchor 0 = Nat.scaleTwo (anchor * 2 ^ 16) (-16) := by
        simp [asertScaled, hfactor]
    _ = Nat.scaleTwo anchor (-16 + (16 : ℕ)) := Nat.scaleTwo_mul_two_pow _ _ _
    _ = anchor := by norm_num

/-! ## The target that follows a chain -/

/-- The target of a block on top of this chain, on unbounded integers. -/
def nextTarget (chain : HeaderChain) : ℕ :=
  min mainParams.powLimit.toNat (max 1 (asertScaled genesisTarget (chainExponent chain)))

theorem nextTarget_lt (chain : HeaderChain) : nextTarget chain < 2 ^ 256 :=
  (min_le_left _ _).trans_lt mainParams.powLimit.isLt

/-- A chain of headers from the mainnet genesis at a height that an `int` holds. -/
structure FromGenesis (chain : HeaderChain) : Prop where
  anchor : chain.getLast? = some genesisHeader
  height : chain.nHeight < 2 ^ 31

theorem FromGenesis.nHeight_nonneg (hchain : FromGenesis chain) : 0 ≤ chain.nHeight := by
  have hne : chain ≠ [] := by
    rintro rfl
    exact absurd hchain.anchor (by simp)
  have := List.length_pos_iff.mpr hne
  unfold HeaderChain.nHeight
  omega

theorem FromGenesis.exists_head (hchain : FromGenesis chain) : ∃ last, chain.head? = some last := by
  cases chain with
  | nil => exact absurd hchain.anchor (by simp)
  | cons last rest => exact ⟨last, rfl⟩

theorem FromGenesis.scheduleError_eq (hchain : FromGenesis chain) {last : BlockHeader}
    (hlast : chain.head? = some last) :
    scheduleError mainParams chain =
      (last.nTime.toNat - genesisHeader.nTime.toNat) - chain.nHeight * 300 := by
  rw [scheduleError, hlast, hchain.anchor]
  rfl

theorem FromGenesis.asertGetNextWorkRequired_eq (hchain : FromGenesis chain) :
    asertGetNextWorkRequired mainParams chain =
      some (UInt32.ofNat (getCompact (nextTarget chain))) := by
  obtain ⟨last, hlast⟩ := hchain.exists_head
  have hrange : SignedInRange mainParams chain.nHeight
      (last.nTime.toNat - genesisHeader.nTime.toNat) := by
    have hlastTime := last.nTime.toNat_lt
    have hgenesisTime := genesisHeader.nTime.toNat_lt
    apply signedInRange_of_bounds rfl ⟨hchain.nHeight_nonneg, hchain.height⟩
    constructor <;> omega
  have hexponent : exactExponent mainParams chain.nHeight
      (last.nTime.toNat - genesisHeader.nTime.toNat) = chainExponent chain := by
    rw [chainExponent, hchain.scheduleError_eq hlast]
    rfl
  rw [Pow.asertGetNextWorkRequired_eq hlast hchain.anchor rfl (by decide),
    asertTarget_eq hrange (by decide) two_pow_dvd_genesisTarget genesisTarget_pos
      (genesisTarget_le.trans_lt (by decide)) powLimit_pos, hexponent]
  rfl

theorem FromGenesis.getNextWorkRequired_eq (hchain : FromGenesis chain) (block : BlockHeader) :
    getNextWorkRequired mainParams chain block =
      some (UInt32.ofNat (getCompact (nextTarget chain))) := by
  have hactive : mainParams.nASERTActivationHeight ≤ chain.nHeight + 1 := by
    have hpos := hchain.nHeight_nonneg
    change (1 : ℤ) ≤ _
    omega
  rw [getNextWorkRequired_of_asert block hactive, hchain.asertGetNextWorkRequired_eq]

theorem FromGenesis.setCompact_required (hchain : FromGenesis chain) {block : BlockHeader}
    (hbits : getNextWorkRequired mainParams chain block = some block.nBits) :
    setCompact block.nBits.toNat = compactFloor (nextTarget chain) := by
  rw [hchain.getNextWorkRequired_eq block, Option.some.injEq] at hbits
  rw [← hbits, UInt32.toNat_ofNat_of_lt' (getCompact_lt (nextTarget_lt chain)),
    setCompact_getCompact (nextTarget_lt chain)]

/-- A chain behind the schedule has the genesis target: the limit rounds down to it. -/
theorem compactFloor_nextTarget_le (chain : HeaderChain) :
    compactFloor (nextTarget chain) ≤
      max 1 (asertScaled genesisTarget (min (chainExponent chain) 0)) := by
  by_cases hlate : 0 ≤ chainExponent chain
  · rw [min_eq_right hlate, asertScaled_zero]
    calc compactFloor (nextTarget chain)
        ≤ compactFloor mainParams.powLimit.toNat := compactFloor_mono (min_le_left _ _)
      _ = genesisTarget := genesisTarget_eq_compactFloor.symm
      _ ≤ max 1 genesisTarget := le_max_right _ _
  · rw [min_eq_left (not_le.mp hlate).le]
    exact (compactFloor_le _).trans (min_le_right _ _)

/-! ## One transition -/

/-- If the exponent falls by at most two from a value that is not positive, the new target is at
least a quarter of the old one and the transition is permitted. -/
theorem permittedUnderAsert_of_exponent {oldNbits newNbits : ℕ} {chain : HeaderChain} {e : ℤ}
    (hzero : e ≤ 0) (hold : setCompact oldNbits ≤ max 1 (asertScaled genesisTarget e))
    (hnew : setCompact newNbits = compactFloor (nextTarget chain))
    (hfall : e - 2 * 65536 ≤ chainExponent chain) :
    permittedUnderAsert mainParams oldNbits newNbits = true := by
  have hlimit : setCompact newNbits ≤ mainParams.powLimit.toNat :=
    hnew ▸ (compactFloor_le _).trans (min_le_left _ _)
  have hquarter : setCompact oldNbits / 4 ≤ nextTarget chain := by
    have hscaled : asertScaled genesisTarget e / 2 ^ 2 ≤
        asertScaled genesisTarget (chainExponent chain) :=
      calc asertScaled genesisTarget e / 2 ^ 2
          = asertScaled genesisTarget (e - 2 * 65536) := (asertScaled_sub_two _ _).symm
        _ ≤ asertScaled genesisTarget (chainExponent chain) := asertScaled_mono _ hfall
    have heasy : asertScaled genesisTarget e ≤ mainParams.powLimit.toNat :=
      calc asertScaled genesisTarget e ≤ asertScaled genesisTarget 0 := asertScaled_mono _ hzero
        _ = genesisTarget := asertScaled_zero _
        _ ≤ mainParams.powLimit.toNat := genesisTarget_le
    unfold nextTarget
    omega
  have hold256 : setCompact oldNbits / 4 < 2 ^ 256 := hquarter.trans_lt (nextTarget_lt chain)
  have hminimum : setCompact (getCompact (setCompact oldNbits / 4)) ≤ setCompact newNbits := by
    rw [setCompact_getCompact hold256, hnew]
    exact compactFloor_mono hquarter
  unfold permittedUnderAsert
  rw [if_neg (not_lt.mpr hlimit), if_neg (not_lt.mpr hminimum)]

/-! ## Runs -/

theorem ConsensusValid.fromGenesis :
    ∀ {run : List AcceptedHeader}, ConsensusValid mainParams getHash run →
      FromGenesis (headersOf run)
  | [], hvalid => hvalid.elim
  | [genesis], hvalid => by
    have hheader : genesis.header = genesisHeader := hvalid
    refine ⟨?_, by simp [headersOf, HeaderChain.nHeight]⟩
    simp [headersOf, hheader]
  | block :: parent :: rest, ⟨hvalid, _, _, hheight, _⟩ => by
    refine ⟨?_, hheight⟩
    have hanchor := hvalid.fromGenesis.anchor
    simpa [headersOf] using hanchor

/-- The parent's bits stand for a target that is no easier than the schedule error of the
chain below it makes it. -/
theorem ConsensusValid.setCompact_le {block : AcceptedHeader} {parent : AcceptedHeader}
    {rest : List AcceptedHeader}
    (hvalid : ConsensusValid mainParams getHash (block :: parent :: rest)) :
    setCompact block.header.nBits.toNat ≤
      max 1 (asertScaled genesisTarget (min (chainExponent (headersOf (parent :: rest))) 0)) := by
  obtain ⟨hparent, _, _, _, hcheck⟩ := hvalid
  rw [hparent.fromGenesis.setCompact_required (nBits_of_contextualCheckBlockHeader hcheck)]
  exact compactFloor_nextTarget_le _

/-- One step: a header on top of a chain whose last swing is bounded may follow its parent. -/
theorem ConsensusValid.permitted {block parent : AcceptedHeader} {rest : List AcceptedHeader}
    (hvalid : ConsensusValid mainParams getHash (block :: parent :: rest))
    (hswing : BoundedSwing mainParams (headersOf (parent :: rest))) :
    permittedDifficultyTransition mainParams (headersOf (block :: parent :: rest)).nHeight
      parent.header.nBits block.header.nBits = true := by
  obtain ⟨hparent, _, _, _, hcheck⟩ := hvalid
  have hactive : mainParams.nASERTActivationHeight ≤
      (headersOf (block :: parent :: rest)).nHeight := by
    change (1 : ℤ) ≤ _
    simp only [headersOf, HeaderChain.nHeight, List.map_cons, List.length_cons]
    push_cast
    omega
  have hnew := hparent.fromGenesis.setCompact_required (nBits_of_contextualCheckBlockHeader hcheck)
  unfold permittedDifficultyTransition
  rw [if_neg (by decide), if_pos hactive]
  cases rest with
  | nil =>
    -- the parent is genesis, on schedule by definition
    have hgenesis : parent.header = genesisHeader := hparent
    have hexponent : chainExponent (headersOf [parent]) = 0 := by
      simp [chainExponent, scheduleError, headersOf, HeaderChain.nHeight]
    apply permittedUnderAsert_of_exponent (e := 0) le_rfl _ hnew (by rw [hexponent]; norm_num)
    rw [asertScaled_zero, hgenesis]
    exact le_max_right _ _
  | cons grandparent older =>
    apply permittedUnderAsert_of_exponent (min_le_right _ 0) hparent.setCompact_le hnew
    have hfall : min (scheduleError mainParams (headersOf (grandparent :: older))) 0 -
        scheduleError mainParams (headersOf (parent :: grandparent :: older)) ≤ 14400 := hswing
    unfold chainExponent
    omega

theorem ConsensusValid.transitionsPermitted :
    ∀ {run : List AcceptedHeader}, ConsensusValid mainParams getHash run →
      (∀ earlier, earlier <:+ (headersOf run).tail → BoundedSwing mainParams earlier) →
      TransitionsPermitted mainParams (headersOf run)
  | [], hvalid, _ => hvalid.elim
  | [genesis], _, _ => by
    intro block parent rest hsuffix
    have hlen := hsuffix.length_le
    simp [headersOf] at hlen
  | block :: parent :: rest, hvalid, hswing => by
    intro new old older hsuffix
    rcases List.suffix_cons_iff.mp hsuffix with hwhole | hlower
    · obtain ⟨rfl, rfl, rfl⟩ : new = block.header ∧ old = parent.header ∧
          older = headersOf rest := by
        simpa [headersOf] using hwhole
      exact hvalid.permitted (hswing _ List.suffix_rfl)
    · have hbelow : ∀ earlier, earlier <:+ (headersOf (parent :: rest)).tail →
          BoundedSwing mainParams earlier := by
        intro earlier hearlier
        exact hswing earlier (hearlier.trans (List.tail_suffix _))
      exact hvalid.1.transitionsPermitted hbelow new old older hlower

/-- **Presync refuses no valid chain of bounded swings.**  Take a chain that
`ContextualCheckBlockHeader` accepted header by header, and suppose that at every step the
head of the chain had lowered the schedule error by at most two half-lives, counted from
zero if the chain was late.  Then every transition is permitted, and no presync that starts on
the chain gives up because of one. -/
theorem transitions_permitted_of_boundedSwing (getHash : BlockHeader → Uint256)
    (commitment : BlockHeader → Bool) (run : List AcceptedHeader)
    (hvalid : ConsensusValid mainParams getHash run)
    (hswing : ∀ earlier, earlier <:+ (headersOf run).tail → BoundedSwing mainParams earlier) :
    TransitionsPermitted mainParams (headersOf run) ∧
      ∀ later start sync height, headersOf run = later ++ start →
        HeadersSyncState.At sync start →
        validateHeaders mainParams commitment sync later.reverse ≠
          .error (.invalidDifficultyTransition height) := by
  have hpermitted := hvalid.transitionsPermitted hswing
  refine ⟨hpermitted, ?_⟩
  intro later start sync height hsplit hat
  exact validateHeaders_ne_transition commitment later start sync hat (hsplit ▸ hpermitted) height

/-- A run that extends another one by a header with the required bits. -/
def mineHeader (run : List AcceptedHeader) (nTime : UInt32) (acceptedAt : ℤ) :
    List AcceptedHeader :=
  let draft : BlockHeader :=
    { nVersion := 4
      hashPrevBlock := 0#256
      hashMerkleRoot := 0#256
      nTime := nTime
      nBits := 0
      nNonce := 0 }
  ⟨{ draft with nBits := (getNextWorkRequired mainParams (headersOf run) draft).getD 0 },
    acceptedAt⟩ :: run

/-- Genesis and two blocks on schedule. -/
def scheduledRun : List AcceptedHeader :=
  mineHeader (mineHeader [⟨genesisHeader, 1790380800⟩] 1790381100 1790381100) 1790381400 1790381400

theorem transitions_permitted_of_boundedSwing_scheduledRun :
    TransitionsPermitted mainParams (headersOf scheduledRun) ∧
      ∀ later start sync height, headersOf scheduledRun = later ++ start →
        HeadersSyncState.At sync start →
        validateHeaders mainParams (fun _ => true) sync later.reverse ≠
          .error (.invalidDifficultyTransition height) := by
  apply transitions_permitted_of_boundedSwing (fun _ => 0#256) (fun _ => true) scheduledRun
  · decide +kernel
  · intro earlier hearlier
    have hall : ∀ chain ∈ (headersOf scheduledRun).tail.tails, BoundedSwing mainParams chain := by
      decide +kernel
    exact hall earlier ((List.mem_tails _ _).mpr hearlier)

/-! ## A valid chain that presync refuses -/

/-- The run with every header but genesis naming its parent. -/
def relink (getHash : BlockHeader → Uint256) : List AcceptedHeader → List AcceptedHeader
  | [] => []
  | [genesis] => [genesis]
  | block :: parent :: rest =>
    { block with
      header := { block.header with
        hashPrevBlock := ((headersOf (relink getHash (parent :: rest))).head?.map getHash).getD 0 } } ::
      relink getHash (parent :: rest)

theorem relink_cons (getHash : BlockHeader → Uint256) (block : AcceptedHeader)
    (rest : List AcceptedHeader) :
    ∃ header, relink getHash (block :: rest) = ⟨header, block.acceptedAt⟩ :: relink getHash rest ∧
      timeAndBits header = timeAndBits block.header ∧ header.nVersion = block.header.nVersion := by
  cases rest with
  | nil => exact ⟨block.header, rfl, rfl, rfl⟩
  | cons parent older => exact ⟨_, rfl, rfl, rfl⟩

theorem map_timeAndBits_relink (getHash : BlockHeader → Uint256) (run : List AcceptedHeader) :
    (headersOf (relink getHash run)).map timeAndBits = (headersOf run).map timeAndBits := by
  induction run with
  | nil => rfl
  | cons block rest ih =>
    obtain ⟨header, hrelink, hsame, _⟩ := relink_cons getHash block rest
    rw [hrelink]
    simp only [headersOf, List.map_cons] at ih ⊢
    rw [hsame, ih]

/-- Validity on mainnet does not depend on the hash: the run can be linked by any. -/
theorem ConsensusValid.relink (getHash' : BlockHeader → Uint256) :
    ∀ {run : List AcceptedHeader}, ConsensusValid mainParams getHash run →
      ConsensusValid mainParams getHash' (relink getHash' run)
  | [], hvalid => hvalid.elim
  | [_], hvalid => hvalid
  | block :: parent :: rest, ⟨hvalid, _, htime, hheight, hcheck⟩ => by
    have hparent := hvalid.relink getHash'
    have hsame := map_timeAndBits_relink getHash' (parent :: rest)
    have hwhole := map_timeAndBits_relink getHash' (block :: parent :: rest)
    rw [← nHeight_congr hwhole] at hheight
    have hactive : mainParams.nASERTActivationHeight ≤
        (headersOf (XCoin.Pow.relink getHash' (parent :: rest))).nHeight + 1 := by
      rw [nHeight_congr hsame]
      change (1 : ℤ) ≤ _
      simp only [headersOf, HeaderChain.nHeight, List.map_cons, List.length_cons]
      push_cast
      omega
    unfold XCoin.Pow.relink at hheight ⊢
    obtain ⟨header, hrelink, _⟩ := relink_cons getHash' parent rest
    rw [hrelink] at hparent hsame hheight hactive ⊢
    refine ⟨hparent, by simp [headersOf], htime, hheight, ?_⟩
    rw [← hcheck]
    exact contextualCheckBlockHeader_congr rfl rfl _ _ _ hactive hsame rfl rfl

/-- Mine a header so many seconds after genesis; it is accepted two hours after genesis. -/
def mineAfter (run : List AcceptedHeader) (offset : ℕ) : List AcceptedHeader :=
  mineHeader run (genesisHeader.nTime + UInt32.ofNat offset) 1790388000

/-- Forty-seven blocks a second apart, and one on the limit for future times. -/
def aheadRun : List AcceptedHeader :=
  mineAfter (((List.range 47).map (· + 1)).foldl mineAfter [⟨genesisHeader, 1790388000⟩]) 14400

/-- Two more blocks return to the median. -/
def skippedRun : List AcceptedHeader := mineAfter (mineAfter aheadRun 49) 50

theorem skippedRun_valid : ConsensusValid mainParams (fun _ => 0#256) skippedRun := by
  decide +kernel

theorem skippedRun_bits : (headersOf skippedRun).nHeight = 50 ∧
    ((headersOf skippedRun).take 2).map (fun header => header.nBits) = [0x1e03e799, 0x1e0fffff] := by
  decide +kernel

theorem relink_skippedRun (getHash : BlockHeader → Uint256) : ∃ block parent rest,
    relink getHash skippedRun = block :: parent :: rest ∧
      (headersOf (block :: parent :: rest)).nHeight = 50 ∧
      block.header.nBits = 0x1e03e799 ∧ parent.header.nBits = 0x1e0fffff := by
  obtain ⟨hheight, hbits⟩ := skippedRun_bits
  have hsame := map_timeAndBits_relink getHash skippedRun
  rw [← nHeight_congr hsame] at hheight
  have hpair := congrArg (fun entries => (entries.take 2).map Prod.snd) hsame
  simp only [List.map_take, List.map_map] at hpair
  rw [List.map_take] at hbits
  rw [show (Prod.snd ∘ timeAndBits) = fun header : BlockHeader => header.nBits from rfl, hbits]
    at hpair
  match hcases : relink getHash skippedRun with
  | [] => simp [hcases, headersOf] at hpair
  | [genesis] => simp [hcases, headersOf] at hpair
  | block :: parent :: rest =>
    rw [hcases] at hheight hpair
    simp only [headersOf, List.map_cons, List.take_succ_cons, List.take_zero, List.cons.injEq,
      and_true] at hpair
    exact ⟨block, parent, rest, rfl, hheight, hpair.1, hpair.2⟩

/-- The last transition of this chain is not permitted.  Yet every header passes
`ContextualCheckBlockHeader`, whatever hash links the headers, and presync gives up at the
last one. -/
theorem skippedRun_refused :
    permittedDifficultyTransition mainParams 50 0x1e0fffff 0x1e03e799 = false ∧
      ∀ getHash : BlockHeader → Uint256,
        ConsensusValid mainParams getHash (relink getHash skippedRun) ∧
        ¬ TransitionsPermitted mainParams (headersOf (relink getHash skippedRun)) ∧
        ∃ block parent rest, relink getHash skippedRun = block :: parent :: rest ∧
          ∀ commitment sync, sync.downloadState = .presync →
            HeadersSyncState.At sync (headersOf (parent :: rest)) →
            validateAndProcessSingleHeader mainParams commitment sync block.header =
              .error (.invalidDifficultyTransition 50) := by
  have hrefused : permittedDifficultyTransition mainParams 50 0x1e0fffff 0x1e03e799 = false := by
    decide +kernel
  refine ⟨hrefused, ?_⟩
  intro getHash
  obtain ⟨block, parent, rest, hrun, hheight, hblock, hparent⟩ := relink_skippedRun getHash
  refine ⟨skippedRun_valid.relink getHash, ?_, block, parent, rest, hrun, ?_⟩
  · intro hpermitted
    have hlast := hpermitted block.header parent.header (headersOf rest)
      (by rw [hrun]; exact List.suffix_rfl)
    change permittedDifficultyTransition mainParams (headersOf (block :: parent :: rest)).nHeight
      parent.header.nBits block.header.nBits = true at hlast
    rw [hheight, hparent, hblock, hrefused] at hlast
    cases hlast
  · rintro commitment sync hphase ⟨hhead, hcurrent⟩
    have hlast : sync.lastHeaderReceived = parent.header := by
      simpa [headersOf, eq_comm] using hhead
    have hnext : sync.currentHeight + 1 = 50 := by
      rw [hcurrent, ← hheight]
      simp only [headersOf, HeaderChain.nHeight, List.map_cons, List.length_cons]
      push_cast
      ring
    rw [← hparent, ← hblock] at hrefused
    unfold validateAndProcessSingleHeader
    rw [if_neg (by simp [hphase]), hnext, hlast, if_pos hrefused]

end XCoin.Pow
