import XCoin.Pow.Presync

/-!
# How the required target depends on time and height

The target that `AsertGetNextWorkRequired` asks for is a function of the schedule error
alone: the exact scaling of the genesis target, clamped, and rounded to compact form.
Each of these steps is monotone, the scaling also where one halving ends and the next
begins, so a later parent never makes the next block harder and a higher parent never
makes it easier.
-/

namespace XCoin.Pow

open Consensus

/-- `DeriveTarget`. -/
def deriveTarget (nBits powLimit : ℕ) : Option ℕ :=
  if compactNegative nBits ∨ setCompact nBits = 0 ∨ compactOverflow nBits ∨
      powLimit < setCompact nBits then none
  else some (setCompact nBits)

/-- The target that the block after this chain must reach. -/
def requiredTarget (chain : HeaderChain) : Option ℕ := do
  let nBits ← asertGetNextWorkRequired mainParams chain
  deriveTarget nBits.toNat mainParams.powLimit.toNat

/-! ## Encoded targets decode -/

theorem compactNegative_getCompact {x : ℕ} (hx : x ≠ 0) :
    compactNegative (getCompact x) = false := by
  have hbit : (getCompact x).testBit 23 = false := by
    have hword := mantissa_lt x
    rw [getCompact_eq hx, Nat.testBit_eq_decide_div_mod_eq, decide_eq_false_iff_not]
    omega
  rw [compactNegative, hbit, Bool.and_false]

theorem compactOverflow_getCompact {x : ℕ} (hx : x < 2 ^ 240) :
    compactOverflow (getCompact x) = false := by
  by_cases hzero : x = 0
  · rw [hzero]
    decide
  · have hsize : getCompact x / 2 ^ 24 ≤ 31 := by
      have hword := mantissa_lt x
      have hbytes : sizeByte x ≤ 31 := by
        have hbits := bits_le_iff.mpr hx
        unfold sizeByte
        omega
      rw [getCompact_eq hzero]
      omega
    have h34 : decide (34 < getCompact x / 2 ^ 24) = false := decide_eq_false (by omega)
    have h33 : decide (33 < getCompact x / 2 ^ 24) = false := decide_eq_false (by omega)
    have h32 : decide (32 < getCompact x / 2 ^ 24) = false := decide_eq_false (by omega)
    rw [compactOverflow, h34, h33, h32]
    simp

theorem deriveTarget_getCompact {x powLimit : ℕ} (hpos : 0 < x) (hle : x ≤ powLimit)
    (hlimit : powLimit < 2 ^ 240) : deriveTarget (getCompact x) powLimit = some (compactFloor x) := by
  have hx : x < 2 ^ 240 := hle.trans_lt hlimit
  have hfloor := compactFloor_pos hpos
  have hfloor' := compactFloor_le x
  rw [deriveTarget, setCompact_getCompact (hx.trans (by norm_num)),
    compactNegative_getCompact hpos.ne', compactOverflow_getCompact hx, if_neg]
  simp only [Bool.false_eq_true, false_or, not_or]
  omega

/-! ## The required target -/

variable {chain chain' : HeaderChain}

theorem nextTarget_pos (chain : HeaderChain) : 0 < nextTarget chain := by
  have hlimit := powLimit_pos
  unfold nextTarget
  omega

theorem FromGenesis.requiredTarget_eq (hchain : FromGenesis chain) :
    requiredTarget chain = some (compactFloor (nextTarget chain)) := by
  rw [requiredTarget, hchain.asertGetNextWorkRequired_eq, Option.bind_eq_bind, Option.bind_some,
    UInt32.toNat_ofNat_of_lt' (getCompact_lt (nextTarget_lt chain))]
  exact deriveTarget_getCompact (nextTarget_pos chain) (min_le_left _ _) (by decide)

theorem compactFloor_nextTarget_mono
    (herror : scheduleError mainParams chain ≤ scheduleError mainParams chain') :
    compactFloor (nextTarget chain) ≤ compactFloor (nextTarget chain') := by
  have hexponent : chainExponent chain ≤ chainExponent chain' :=
    Int.ediv_le_ediv (by norm_num) (by omega)
  apply compactFloor_mono
  apply min_le_min_left
  apply max_le_max_left
  exact asertScaled_mono genesisTarget hexponent

/-- **Monotone difficulty.** On the mainnet the required target is positive and at most the
limit; it does not fall when the parent is later, and does not rise when the parent is higher. -/
theorem requiredTarget_monotone (chain chain' : HeaderChain) (last last' : BlockHeader)
    (hchain : FromGenesis chain) (hchain' : FromGenesis chain')
    (hlast : chain.head? = some last) (hlast' : chain'.head? = some last') :
    ∃ target target', requiredTarget chain = some target ∧ requiredTarget chain' = some target' ∧
      0 < target ∧ target ≤ mainParams.powLimit.toNat ∧
      (chain.nHeight = chain'.nHeight → last.nTime ≤ last'.nTime → target ≤ target') ∧
      (last.nTime = last'.nTime → chain.nHeight ≤ chain'.nHeight → target' ≤ target) := by
  have herror := hchain.scheduleError_eq hlast
  have herror' := hchain'.scheduleError_eq hlast'
  refine ⟨_, _, hchain.requiredTarget_eq, hchain'.requiredTarget_eq, ?_, ?_, ?_, ?_⟩
  · exact compactFloor_pos (nextTarget_pos chain)
  · exact (compactFloor_le _).trans (min_le_left _ _)
  · intro hheight htime
    have htime' : last.nTime.toNat ≤ last'.nTime.toNat := htime
    apply compactFloor_nextTarget_mono
    omega
  · intro htime hheight
    have htime' : last.nTime.toNat = last'.nTime.toNat := congrArg UInt32.toNat htime
    apply compactFloor_nextTarget_mono
    omega

/-- A block at height 1, so many seconds after the genesis block. -/
def blockAfter (seconds : UInt32) : BlockHeader :=
  { genesisHeader with nTime := genesisHeader.nTime + seconds, nNonce := 7 }

theorem requiredTarget_later_parent : ∃ target target',
    requiredTarget [blockAfter 10, genesisHeader] = some target ∧
      requiredTarget [blockAfter 310, genesisHeader] = some target' ∧ target ≤ target' := by
  have hchain (seconds : UInt32) : FromGenesis [blockAfter seconds, genesisHeader] :=
    ⟨rfl, show (2 : ℤ) - 1 < 2 ^ 31 by norm_num⟩
  obtain ⟨target, target', hrequired, hrequired', -, -, htime, -⟩ :=
    requiredTarget_monotone [blockAfter 10, genesisHeader] [blockAfter 310, genesisHeader]
      (blockAfter 10) (blockAfter 310) (hchain 10) (hchain 310) rfl rfl
  exact ⟨target, target', hrequired, hrequired', htime rfl (by decide)⟩

end XCoin.Pow
