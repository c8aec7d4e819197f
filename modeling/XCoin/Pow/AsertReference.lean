import XCoin.Pow.Asert

/-!
# ASERT against the big-integer reference

`contrib/regenesis/aserti3_2d_reference.py` states the rule on Python integers:
the anchor's target is multiplied by the factor, shifted by the whole part of the
exponent and only then divided by `2 ^ 16`.  The node divides first, shifts 256-bit
words and compares with the limit before a left shift.  For an anchor whose size
byte is at least 5 the two agree on every height and every pair of times
(`asertGetNextWorkRequired_eq_reference`).
-/

namespace XCoin.Pow

open Consensus
open Nat (scaleTwo)

/-! ## The reference -/

/-- `bits_to_target`. -/
def bitsToTarget (nBits : ℕ) : ℕ :=
  if nBits / 2 ^ 24 ≤ 3 then
    nBits % 2 ^ 23 / 2 ^ (8 * (3 - nBits / 2 ^ 24))
  else
    nBits % 2 ^ 23 * 2 ^ (8 * (nBits / 2 ^ 24 - 3))

/-- `compact` in `target_to_bits`, before the sign bit is made free. -/
def referenceMantissa (target : ℕ) : ℕ :=
  if (bits target + 7) / 8 ≤ 3 then
    target * 2 ^ (8 * (3 - (bits target + 7) / 8)) % 2 ^ 32
  else
    target / 2 ^ (8 * ((bits target + 7) / 8 - 3)) % 2 ^ 32

/-- The last two lines of `target_to_bits`; `none` is the failed assertion. -/
def packBits (compact size : ℕ) : Option ℕ :=
  if compact / 2 ^ 23 = 0 then some (compact ||| size <<< 24) else none

/-- `target_to_bits`. -/
def targetToBits (target : ℕ) : Option ℕ :=
  if (referenceMantissa target).testBit 23 then
    packBits (referenceMantissa target / 2 ^ 8) ((bits target + 7) / 8 + 1)
  else
    packBits (referenceMantissa target) ((bits target + 7) / 8)

/-- The exponent as a signed 16.16 number; Python's `//` is floor division. -/
def referenceExponent (anchorParentTime idealBlockTime halflife lastTime heightDelta : ℤ) : ℤ :=
  ((lastTime - anchorParentTime) - idealBlockTime * (heightDelta + 1)) * 65536 / halflife

/-- The cubic approximation of `2 ^ x`. -/
def referenceFactor (exponent : ℕ) : ℕ :=
  (195766423245049 * exponent + 971821376 * exponent ^ 2 + 5127 * exponent ^ 3 + 2 ^ 47) / 2 ^ 48

/-- The target after both shifts. -/
def referenceTarget (anchorTarget : ℕ) (exponent : ℤ) : ℕ :=
  if exponent / 65536 < 0 then
    anchorTarget * (65536 + referenceFactor (exponent - exponent / 65536 * 65536).toNat) /
      2 ^ (-(exponent / 65536)).toNat / 2 ^ 16
  else
    anchorTarget * (65536 + referenceFactor (exponent - exponent / 65536 * 65536).toNat) *
      2 ^ (exponent / 65536).toNat / 2 ^ 16

/-- The final tests on the target. -/
def referenceBits (powLimit target : ℕ) : Option ℕ :=
  if target = 0 then targetToBits 1
  else if powLimit < target then targetToBits powLimit
  else targetToBits target

/-- `next_bits_aserti3_2d`; `none` is a failed assertion. -/
def nextBitsAserti32d (anchorBits : ℕ) (anchorParentTime idealBlockTime halflife : ℤ)
    (powLimit : ℕ) (lastTime heightDelta : ℤ) : Option ℕ :=
  let exponent :=
    referenceExponent anchorParentTime idealBlockTime halflife lastTime heightDelta
  if 0 ≤ exponent - exponent / 65536 * 65536 ∧ exponent - exponent / 65536 * 65536 < 65536 then
    referenceBits powLimit (referenceTarget (bitsToTarget anchorBits) exponent)
  else none

/-! ## The two compact forms agree -/

theorem setCompact_eq_bitsToTarget {nBits : ℕ} (hlt : bitsToTarget nBits < 2 ^ 256) :
    setCompact nBits = bitsToTarget nBits := by
  unfold setCompact shl256
  unfold bitsToTarget at hlt ⊢
  split_ifs with hsmall
  · rfl
  · rw [if_neg hsmall] at hlt
    exact Nat.mod_eq_of_lt hlt

theorem two_pow_dvd_bitsToTarget {nBits : ℕ} (hsize : 5 ≤ nBits / 2 ^ 24) :
    2 ^ 16 ∣ bitsToTarget nBits := by
  rw [bitsToTarget, if_neg (by omega)]
  exact Dvd.dvd.mul_left (pow_dvd_pow 2 (by omega)) _

theorem packBits_eq {compact size : ℕ} (hcompact : compact < 2 ^ 23) :
    packBits compact size = some (compact + size * 2 ^ 24) := by
  rw [packBits, if_pos (Nat.div_eq_of_lt hcompact), Nat.or_comm,
    ← Nat.shiftLeft_add_eq_or_of_lt (by omega), Nat.shiftLeft_eq, add_comm]

theorem referenceMantissa_eq (target : ℕ) :
    referenceMantissa target = compactMantissa target := by
  have hlt := three_bytes_lt target
  rw [compactMantissa_eq]
  rw [← shift_to_three_bytes] at hlt ⊢
  unfold referenceMantissa
  unfold compactSize at hlt ⊢
  split_ifs with hsmall
  · rw [if_pos hsmall] at hlt
    exact Nat.mod_eq_of_lt (hlt.trans (by norm_num))
  · rw [if_neg hsmall] at hlt
    exact Nat.mod_eq_of_lt (hlt.trans (by norm_num))

theorem targetToBits_eq_getCompact (target : ℕ) :
    targetToBits target = some (getCompact target) := by
  have hfull : compactMantissa target < 2 ^ 24 := by
    rw [compactMantissa_eq]
    exact three_bytes_lt target
  unfold targetToBits getCompact
  rw [referenceMantissa_eq]
  split_ifs with hbit
  · rw [packBits_eq (by omega), compactSize]
  · -- without the sign bit a mantissa of 24 bits is one of 23
    have hshort : compactMantissa target < 2 ^ 23 := by
      rw [Nat.testBit_eq_decide_div_mod_eq, decide_eq_true_eq] at hbit
      omega
    rw [packBits_eq hshort, compactSize]

/-! ## The two rules agree -/

theorem referenceFactor_eq {frac : ℕ} (hfrac : frac < 65536) :
    65536 + referenceFactor frac = asertFactor frac := by
  rw [asertFactor_eq hfrac, referenceFactor, asertCubic]
  ring_nf

theorem referenceTarget_eq (anchorTarget : ℕ) (exponent : ℤ) :
    referenceTarget anchorTarget exponent = asertScaled anchorTarget exponent := by
  have hfrac : exponent - exponent / 65536 * 65536 = exponent % 65536 := by omega
  have hlt : (exponent % 65536).toNat < 65536 := by omega
  unfold referenceTarget asertScaled
  rw [hfrac, referenceFactor_eq hlt]
  have hsub : exponent / 65536 - 16 = exponent / 65536 - (16 : ℕ) := by push_cast; ring
  rw [hsub, ← Nat.scaleTwo_div_two_pow, scaleTwo]
  split_ifs <;> rfl

theorem referenceBits_eq {powLimit : ℕ} (target : ℕ) (hlimit : 0 < powLimit) :
    referenceBits powLimit target = some (getCompact (min powLimit (max 1 target))) := by
  simp only [referenceBits, targetToBits_eq_getCompact]
  split_ifs with hzero hlarge <;> congr 2 <;> omega

theorem nextBitsAserti32d_eq {anchorBits powLimit : ℕ}
    {anchorParentTime idealBlockTime halflife lastTime heightDelta : ℤ} (hlimit : 0 < powLimit) :
    nextBitsAserti32d anchorBits anchorParentTime idealBlockTime halflife powLimit lastTime
        heightDelta =
      some (getCompact (min powLimit (max 1 (asertScaled (bitsToTarget anchorBits)
        (referenceExponent anchorParentTime idealBlockTime halflife lastTime heightDelta))))) := by
  unfold nextBitsAserti32d
  rw [if_pos (by omega), referenceTarget_eq, referenceBits_eq _ hlimit]

/-- No step of the node's computation leaves its machine type: signed 64-bit for the
exponent, unsigned 64-bit for the cubic, 32 bits for the factor, 256 bits for the
target.  The left shift is taken only when it is not cut off by the limit. -/
structure AsertNoOverflow (params : Params) (anchorBits : ℕ) (heightDiff timeDiff : ℤ) :
    Prop where
  signed : SignedInRange params heightDiff timeDiff
  exponent : Int64Range (exactExponent params heightDiff timeDiff)
  cubic : asertCubic (exactExponent params heightDiff timeDiff % 65536).toNat < 2 ^ 64
  factor : asertFactor (exactExponent params heightDiff timeDiff % 65536).toNat < 2 ^ 32
  anchor : bitsToTarget anchorBits < 2 ^ 256
  product : bitsToTarget anchorBits / 2 ^ 16 *
    asertFactor (exactExponent params heightDiff timeDiff % 65536).toNat < 2 ^ 256
  leftShift : 0 ≤ exactExponent params heightDiff timeDiff / 65536 →
    bitsToTarget anchorBits / 2 ^ 16 *
        asertFactor (exactExponent params heightDiff timeDiff % 65536).toNat ≤
      params.powLimit.toNat / 2 ^ (exactExponent params heightDiff timeDiff / 65536).toNat →
    bitsToTarget anchorBits / 2 ^ 16 *
        asertFactor (exactExponent params heightDiff timeDiff % 65536).toNat *
      2 ^ (exactExponent params heightDiff timeDiff / 65536).toNat < 2 ^ 256

theorem asertNoOverflow_of_bounds {params : Params} {anchorBits : ℕ} {heightDiff timeDiff : ℤ}
    (hspacing : params.nPowTargetSpacing = 300) (hhalf : params.nASERTHalfLife = 7200)
    (hheight : 0 ≤ heightDiff ∧ heightDiff < 2 ^ 31)
    (htime : -2 ^ 32 < timeDiff ∧ timeDiff < 2 ^ 32)
    (hanchor : bitsToTarget anchorBits < 2 ^ 255) :
    AsertNoOverflow params anchorBits heightDiff timeDiff where
  signed := signedInRange_of_bounds hspacing hheight htime
  exponent := by
    unfold exactExponent
    rw [hspacing, hhalf]
    constructor <;> omega
  cubic := asertCubic_lt (by omega)
  factor := (asertFactor_lt _).trans (by norm_num)
  anchor := hanchor.trans (by norm_num)
  product := product_lt hanchor
  leftShift := fun _ hbound =>
    ((Nat.le_div_iff_mul_le (Nat.two_pow_pos _)).mp hbound).trans_lt params.powLimit.isLt

/-- **The node and the reference compute the same bits.**  For every anchor with a size
byte of at least 5 and a positive target within the limit, every height below `2 ^ 31`
and all 32-bit times, `AsertGetNextWorkRequired` returns what
`next_bits_aserti3_2d` returns, and no intermediate leaves its type. -/
theorem asertGetNextWorkRequired_eq_reference (params : Params) (pindexLast : HeaderChain)
    (last anchor : BlockHeader) (hlast : pindexLast.head? = some last)
    (hanchor : pindexLast.getAncestor 0 = some anchor) (hheight : pindexLast.nHeight < 2 ^ 31)
    (hretarget : params.fPowNoRetargeting = false) (hspacing : params.nPowTargetSpacing = 300)
    (hhalf : params.nASERTHalfLife = 7200) (hsize : 5 ≤ anchor.nBits.toNat / 2 ^ 24)
    (hpos : 0 < bitsToTarget anchor.nBits.toNat)
    (hle : bitsToTarget anchor.nBits.toNat ≤ params.powLimit.toNat)
    (hlimit : params.powLimit.toNat < 2 ^ 255) :
    (asertGetNextWorkRequired params pindexLast).map UInt32.toNat =
        nextBitsAserti32d anchor.nBits.toNat anchor.nTime.toNat 300 7200 params.powLimit.toNat
          last.nTime.toNat (pindexLast.nHeight - 1) ∧
      (asertGetNextWorkRequired params pindexLast).isSome ∧
      AsertNoOverflow params anchor.nBits.toNat pindexLast.nHeight
        (last.nTime.toNat - anchor.nTime.toNat) := by
  have hne : pindexLast ≠ [] := by
    rintro rfl
    simp at hlast
  have hgenesis : pindexLast.getLast? = some anchor := by
    rw [← HeaderChain.getAncestor_zero hne, hanchor]
  have hlength : 0 ≤ pindexLast.nHeight := by
    have := List.length_pos_iff.mpr hne
    unfold HeaderChain.nHeight
    omega
  have htime : -2 ^ 32 < (last.nTime.toNat : ℤ) - anchor.nTime.toNat ∧
      (last.nTime.toNat : ℤ) - anchor.nTime.toNat < 2 ^ 32 := by
    have hlastTime := last.nTime.toNat_lt
    have hanchorTime := anchor.nTime.toNat_lt
    constructor <;> omega
  have htarget : bitsToTarget anchor.nBits.toNat < 2 ^ 255 := hle.trans_lt hlimit
  have hnode : AsertNoOverflow params anchor.nBits.toNat pindexLast.nHeight
      (last.nTime.toNat - anchor.nTime.toNat) :=
    asertNoOverflow_of_bounds hspacing hhalf ⟨hlength, hheight⟩ htime htarget
  have hset : setCompact anchor.nBits.toNat = bitsToTarget anchor.nBits.toNat :=
    setCompact_eq_bitsToTarget hnode.anchor
  have hhalfPos : 0 < params.nASERTHalfLife := by omega
  rw [asertGetNextWorkRequired_eq hlast hgenesis hretarget hhalfPos]
  refine ⟨?_, rfl, hnode⟩
  have hexponent : referenceExponent anchor.nTime.toNat 300 7200 last.nTime.toNat
      (pindexLast.nHeight - 1) =
      exactExponent params pindexLast.nHeight (last.nTime.toNat - anchor.nTime.toNat) := by
    rw [referenceExponent, exactExponent, hspacing, hhalf]
    congr 2
    ring
  -- both sides round the target of one exponent to the compact form
  rw [nextBitsAserti32d_eq (hpos.trans_le hle), hexponent, ← hset,
    ← asertTarget_eq hnode.signed hhalfPos (hset ▸ two_pow_dvd_bitsToTarget hsize)
      (hset ▸ hpos) (hset ▸ htarget) (hpos.trans_le hle)]
  have hencoded : getCompact (asertTarget params anchor.nBits.toNat pindexLast.nHeight
      (last.nTime.toNat - anchor.nTime.toNat)) < 2 ^ 32 :=
    getCompact_lt ((asertTarget_le _ _ _ (hpos.trans_le hle)).trans_lt params.powLimit.isLt)
  simp [UInt32.toNat_ofNat_of_lt' hencoded]

/-- A first block ten seconds after genesis is ahead of the schedule. -/
def earlyBlock : BlockHeader :=
  { genesisHeader with nTime := genesisHeader.nTime + 10, nNonce := 7 }

theorem asertGetNextWorkRequired_eq_reference_earlyBlock :
    (asertGetNextWorkRequired mainParams [earlyBlock, genesisHeader]).map UInt32.toNat =
        nextBitsAserti32d 0x1e0fffff 1790380800 300 7200 mainParams.powLimit.toNat 1790380810 0 ∧
      (asertGetNextWorkRequired mainParams [earlyBlock, genesisHeader]).isSome ∧
      AsertNoOverflow mainParams 0x1e0fffff 1 10 :=
  asertGetNextWorkRequired_eq_reference mainParams [earlyBlock, genesisHeader] earlyBlock
    genesisHeader rfl rfl (by decide) rfl rfl rfl (by decide) (by decide +kernel)
    (by decide +kernel) (by decide)

end XCoin.Pow
