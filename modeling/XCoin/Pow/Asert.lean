import XCoin.Pow.ArithUint256

/-!
# The anchored ASERT difficulty rule

`AsertGetNextWorkRequired` of `pow.cpp`.  The target of the next block is the
anchor's target times two to the power of the schedule error in half-lives.  The
exponent is a signed 16.16 fixed-point number, its fractional part goes through a
cubic, its whole part is a shift.

Signed 64-bit arithmetic wraps through `toInt64`, unsigned 64-bit arithmetic is
reduced modulo `2 ^ 64`, and the target lives in 256 bits.  For an anchor whose low
16 bits are zero and arguments that keep the signed arithmetic in range,
`asertTarget_eq` removes all of these reductions: the code computes
`2 ^ exponent` times the anchor on unbounded integers, clamped to `[1, powLimit]`.
The two other facts about the exact value, `asertScaled_mono` and
`asertScaled_sub_two`, are what the bounds on difficulty steps rest on.
-/

namespace XCoin.Pow

open Consensus
open Nat (scaleTwo)

variable {params : Params} {heightDiff timeDiff : ℤ}

/-! ## Chains of headers -/

/-- A block index entry with its ancestors: the newest header first, genesis last. -/
abbrev HeaderChain := List BlockHeader

/-- The header of the mainnet genesis block. -/
def genesisHeader : BlockHeader where
  nVersion := 1
  hashPrevBlock := 0#256
  hashMerkleRoot := 0x5e80b4ba24a9fb9956ed06543af8b20354150e48962fef81a63b64783f4754df#256
  nTime := 1790380800
  nBits := 0x1e0fffff
  nNonce := 802894

/-- `CBlockIndex::nHeight`. -/
def HeaderChain.nHeight (chain : HeaderChain) : ℤ := (chain.length : ℤ) - 1

/-- `CBlockIndex::GetAncestor`. -/
def HeaderChain.getAncestor (chain : HeaderChain) (height : ℤ) : Option BlockHeader :=
  if chain.nHeight < height ∨ height < 0 then none
  else chain[(chain.nHeight - height).toNat]?

theorem HeaderChain.getAncestor_zero {chain : HeaderChain} (hne : chain ≠ []) :
    chain.getAncestor 0 = chain.getLast? := by
  have hlen := List.length_pos_iff.mpr hne
  have hindex : (chain.nHeight - 0).toNat = chain.length - 1 := by
    unfold nHeight
    omega
  rw [getAncestor, if_neg (by unfold nHeight; omega), hindex, List.getLast?_eq_getElem?]

/-! ## The rule -/

/-- The value an `int64_t` holds after an operation with this result. -/
def toInt64 (value : ℤ) : ℤ := value.bmod (2 ^ 64)

theorem toInt64_of_range {value : ℤ} (hvalue : Int64Range value) : toInt64 value = value := by
  obtain ⟨hlow, hhigh⟩ := hvalue
  unfold toInt64
  apply Int.bmod_eq_of_le <;> omega

/-- `numerator`: the schedule error as a signed 16.16 number. -/
def asertNumerator (params : Params) (heightDiff timeDiff : ℤ) : ℤ :=
  toInt64 (toInt64 (timeDiff - toInt64 (heightDiff * params.nPowTargetSpacing)) * 65536)

/-- `exponent`: the C++ division truncates, so a negative inexact quotient is lowered. -/
def asertExponent (params : Params) (heightDiff timeDiff : ℤ) : ℤ :=
  if asertNumerator params heightDiff timeDiff < 0 ∧
      (asertNumerator params heightDiff timeDiff).tmod params.nASERTHalfLife ≠ 0 then
    (asertNumerator params heightDiff timeDiff).tdiv params.nASERTHalfLife - 1
  else
    (asertNumerator params heightDiff timeDiff).tdiv params.nASERTHalfLife

/-- The cubic under the shift of `factor`, on unbounded integers. -/
def asertCubic (frac : ℕ) : ℕ :=
  195766423245049 * frac + 971821376 * frac * frac + 5127 * frac * frac * frac + 2 ^ 47

/-- `factor`: two to the power of `frac / 65536` as an unsigned 16.16 number.
Unsigned arithmetic is reduced once, after the sum. -/
def asertFactor (frac : ℕ) : ℕ := 65536 + asertCubic frac % 2 ^ 64 / 2 ^ 48

/-- The last two statements of the rule. -/
def clampTarget (powLimit target : ℕ) : ℕ :=
  if powLimit < (if target = 0 then 1 else target) then powLimit
  else if target = 0 then 1 else target

/-- The shift by the whole part of the exponent, and the clamp. -/
def asertShift (powLimit product : ℕ) (shifts : ℤ) : ℕ :=
  if shifts < 0 then
    if 256 ≤ -shifts then 1
    else clampTarget powLimit (product / 2 ^ (-shifts).toNat)
  else if 256 ≤ shifts ∨ powLimit / 2 ^ shifts.toNat < product then
    clampTarget powLimit powLimit
  else clampTarget powLimit (shl256 product shifts.toNat)

/-- The target that `AsertGetNextWorkRequired` encodes.  `exponent >> 16` is an
arithmetic shift and the cast to `uint16_t` keeps the residue modulo `2 ^ 16`. -/
def asertTarget (params : Params) (anchorBits : ℕ) (heightDiff timeDiff : ℤ) : ℕ :=
  asertShift params.powLimit.toNat
    (mulUint32 (setCompact anchorBits / 2 ^ 16)
      (asertFactor (asertExponent params heightDiff timeDiff % 65536).toNat))
    (asertExponent params heightDiff timeDiff / 65536)

/-- The source's function; `none` is a failed assertion. -/
def asertGetNextWorkRequired (params : Params) (pindexLast : HeaderChain) : Option UInt32 :=
  match pindexLast with
  | [] => none
  | last :: _ =>
    if params.fPowNoRetargeting then some last.nBits
    else if params.nASERTHalfLife ≤ 0 then none
    else
      match pindexLast.getAncestor 0 with
      | none => none
      | some anchor =>
        some (UInt32.ofNat (getCompact (asertTarget params anchor.nBits.toNat
          pindexLast.nHeight (last.nTime.toNat - anchor.nTime.toNat))))

theorem asertGetNextWorkRequired_eq {pindexLast : HeaderChain} {last anchor : BlockHeader}
    (hlast : pindexLast.head? = some last) (hanchor : pindexLast.getLast? = some anchor)
    (hretarget : params.fPowNoRetargeting = false) (hhalf : 0 < params.nASERTHalfLife) :
    asertGetNextWorkRequired params pindexLast =
      some (UInt32.ofNat (getCompact (asertTarget params anchor.nBits.toNat
        pindexLast.nHeight (last.nTime.toNat - anchor.nTime.toNat)))) := by
  cases pindexLast with
  | nil => simp at hlast
  | cons first rest =>
    obtain rfl : first = last := by simpa using hlast
    unfold asertGetNextWorkRequired
    rw [HeaderChain.getAncestor_zero (List.cons_ne_nil _ _), hanchor]
    simp [hretarget, hhalf]

/-! ## The cubic -/

theorem asertCubic_mono {f g : ℕ} (hfg : f ≤ g) : asertCubic f ≤ asertCubic g := by
  unfold asertCubic
  gcongr

theorem asertCubic_lt {frac : ℕ} (hfrac : frac < 65536) : asertCubic frac < 2 ^ 64 :=
  (asertCubic_mono (Nat.le_sub_one_of_lt hfrac)).trans_lt (by decide)

theorem asertFactor_eq {frac : ℕ} (hfrac : frac < 65536) :
    asertFactor frac = 65536 + asertCubic frac / 2 ^ 48 := by
  rw [asertFactor, Nat.mod_eq_of_lt (asertCubic_lt hfrac)]

theorem le_asertFactor (frac : ℕ) : 65536 ≤ asertFactor frac := Nat.le_add_right _ _

theorem asertFactor_lt (frac : ℕ) : asertFactor frac < 2 ^ 17 := by
  have hmod : asertCubic frac % 2 ^ 64 < 2 ^ 64 := Nat.mod_lt _ (by norm_num)
  unfold asertFactor
  omega

theorem asertFactor_mono {f g : ℕ} (hfg : f ≤ g) (hg : g < 65536) :
    asertFactor f ≤ asertFactor g := by
  rw [asertFactor_eq (hfg.trans_lt hg), asertFactor_eq hg]
  have hdiv := Nat.div_le_div_right (c := 2 ^ 48) (asertCubic_mono hfg)
  omega

/-! ## The exact value -/

/-- The exponent on unbounded integers. -/
def exactExponent (params : Params) (heightDiff timeDiff : ℤ) : ℤ :=
  (timeDiff - heightDiff * params.nPowTargetSpacing) * 65536 / params.nASERTHalfLife

/-- `anchor * 2 ^ (exponent / 65536)` on unbounded integers, rounded down. -/
def asertScaled (anchor : ℕ) (exponent : ℤ) : ℕ :=
  scaleTwo (anchor * asertFactor (exponent % 65536).toNat) (exponent / 65536 - 16)

/-- The signed 64-bit intermediates stay in range. -/
structure SignedInRange (params : Params) (heightDiff timeDiff : ℤ) : Prop where
  ideal : Int64Range (heightDiff * params.nPowTargetSpacing)
  scheduleError : Int64Range (timeDiff - heightDiff * params.nPowTargetSpacing)
  numerator : Int64Range ((timeDiff - heightDiff * params.nPowTargetSpacing) * 65536)

theorem signedInRange_of_bounds (hspacing : params.nPowTargetSpacing = 300)
    (hheight : 0 ≤ heightDiff ∧ heightDiff < 2 ^ 31)
    (htime : -2 ^ 32 < timeDiff ∧ timeDiff < 2 ^ 32) :
    SignedInRange params heightDiff timeDiff := by
  refine ⟨?_, ?_, ?_⟩ <;> rw [hspacing] <;> constructor <;> omega

theorem SignedInRange.asertNumerator_eq (hrange : SignedInRange params heightDiff timeDiff) :
    asertNumerator params heightDiff timeDiff =
      (timeDiff - heightDiff * params.nPowTargetSpacing) * 65536 := by
  rw [asertNumerator, toInt64_of_range hrange.ideal, toInt64_of_range hrange.scheduleError,
    toInt64_of_range hrange.numerator]

/-- Truncated division with the correction for negative values is floor division. -/
theorem floor_of_tdiv {n d : ℤ} (hd : 0 < d) :
    (if n < 0 ∧ n.tmod d ≠ 0 then n.tdiv d - 1 else n.tdiv d) = n / d := by
  rw [Int.tdiv_eq_ediv, Int.tmod_eq_emod]
  have hsign : d.sign = 1 := Int.sign_eq_one_of_pos hd
  have habs : (d.natAbs : ℤ) = d := Int.natAbs_of_nonneg hd.le
  have hmod := Int.emod_nonneg n hd.ne'
  have hlt := Int.emod_lt_of_pos n hd
  by_cases hdvd : d ∣ n
  · have hzero := Int.emod_eq_zero_of_dvd hdvd
    simp [hdvd, hzero]
  · have hne : n % d ≠ 0 := fun hzero => hdvd (Int.dvd_of_emod_eq_zero hzero)
    by_cases hn : 0 ≤ n
    · simp [hn]
    · have hneg : n < 0 := not_le.mp hn
      simp only [hn, hdvd, or_self, if_false, hsign, hneg, true_and]
      rw [if_pos (by omega)]
      omega

theorem SignedInRange.asertExponent_eq (hrange : SignedInRange params heightDiff timeDiff)
    (hhalf : 0 < params.nASERTHalfLife) :
    asertExponent params heightDiff timeDiff = exactExponent params heightDiff timeDiff := by
  rw [asertExponent, floor_of_tdiv hhalf, hrange.asertNumerator_eq, exactExponent]

theorem clampTarget_eq (powLimit target : ℕ) :
    clampTarget powLimit target = min powLimit (max 1 target) := by
  unfold clampTarget
  split_ifs <;> omega

/-- The shift computes the exact scaling, clamped: the bound is compared before the
left shift, and a right shift by 256 or more leaves nothing of a 256-bit product. -/
theorem asertShift_eq {powLimit product : ℕ} (shifts : ℤ) (hpos : 0 < powLimit)
    (hlimit : powLimit < 2 ^ 256) (hproduct : product < 2 ^ 256) (hne : 0 < product) :
    asertShift powLimit product shifts = min powLimit (max 1 (scaleTwo product shifts)) := by
  unfold asertShift
  by_cases hneg : shifts < 0
  · rw [if_pos hneg]
    split_ifs with hfar
    · have hzero : scaleTwo product shifts < 2 ^ 0 :=
        Nat.scaleTwo_lt_two_pow hproduct (by push_cast; omega)
      omega
    · rw [clampTarget_eq, Nat.scaleTwo_of_neg hneg]
  · rw [if_neg hneg, Nat.scaleTwo_of_nonneg (not_lt.mp hneg)]
    simp only [Nat.div_two_pow_lt_iff]
    split_ifs with hover
    · have hlarge : powLimit < product * 2 ^ shifts.toNat := by
        rcases hover with hfar | hover
        · calc powLimit < 2 ^ 256 := hlimit
            _ ≤ 2 ^ shifts.toNat := Nat.pow_le_pow_right two_pos (by omega)
            _ ≤ product * 2 ^ shifts.toNat := Nat.le_mul_of_pos_left _ hne
        · exact hover
      rw [clampTarget_eq]
      omega
    · have hsmall : product * 2 ^ shifts.toNat < 2 ^ 256 := by
        have := not_or.mp hover
        omega
      rw [clampTarget_eq, shl256, Nat.mod_eq_of_lt hsmall]

theorem product_lt {target frac : ℕ} (htarget : target < 2 ^ 255) :
    target / 2 ^ 16 * asertFactor frac < 2 ^ 256 := by
  have hdiv : target / 2 ^ 16 < 2 ^ 239 := by omega
  calc target / 2 ^ 16 * asertFactor frac
      ≤ 2 ^ 239 * asertFactor frac := Nat.mul_le_mul_right _ hdiv.le
    _ < 2 ^ 239 * 2 ^ 17 := Nat.mul_lt_mul_of_pos_left (asertFactor_lt frac) (by norm_num)
    _ = 2 ^ 256 := by norm_num

/-- **The fixed-width rule is the exact one.**  Dividing the anchor by `2 ^ 16` before
the multiplication loses nothing when its low 16 bits are zero. -/
theorem asertTarget_eq {anchorBits : ℕ} {heightDiff timeDiff : ℤ}
    (hrange : SignedInRange params heightDiff timeDiff) (hhalf : 0 < params.nASERTHalfLife)
    (hdvd : 2 ^ 16 ∣ setCompact anchorBits) (hpos : 0 < setCompact anchorBits)
    (hanchor : setCompact anchorBits < 2 ^ 255) (hlimit : 0 < params.powLimit.toNat) :
    asertTarget params anchorBits heightDiff timeDiff =
      min params.powLimit.toNat
        (max 1 (asertScaled (setCompact anchorBits)
          (exactExponent params heightDiff timeDiff))) := by
  unfold asertTarget asertScaled
  rw [hrange.asertExponent_eq hhalf]
  set exponent := exactExponent params heightDiff timeDiff
  set factor := asertFactor (exponent % 65536).toNat with hfactor
  obtain ⟨high, hhigh⟩ := hdvd
  have hfactorLt : factor < 2 ^ 32 := (asertFactor_lt _).trans (by norm_num)
  have hproduct : setCompact anchorBits / 2 ^ 16 * factor < 2 ^ 256 := product_lt hanchor
  have hquot : setCompact anchorBits / 2 ^ 16 = high := by omega
  have hhighPos : 0 < high := by omega
  have hfactorPos : 0 < factor := lt_of_lt_of_le (by norm_num) (le_asertFactor _)
  rw [mulUint32, Nat.mod_eq_of_lt hfactorLt, Nat.mod_eq_of_lt hproduct]
  rw [hquot] at hproduct ⊢
  rw [asertShift_eq _ hlimit params.powLimit.isLt hproduct (Nat.mul_pos hhighPos hfactorPos)]
  have hmove : setCompact anchorBits * factor = high * factor * 2 ^ 16 := by
    rw [hhigh]
    ring
  rw [hmove, Nat.scaleTwo_mul_two_pow]
  congr 3
  push_cast
  ring

theorem asertTarget_le (anchorBits : ℕ) (heightDiff timeDiff : ℤ)
    (hlimit : 0 < params.powLimit.toNat) :
    asertTarget params anchorBits heightDiff timeDiff ≤ params.powLimit.toNat := by
  unfold asertTarget asertShift
  simp only [clampTarget_eq]
  split_ifs <;> omega

/-! ## How the exact value depends on the exponent -/

/-- The exact value grows with the exponent, also across the seam where the fraction
starts again at zero and the shift goes up by one. -/
theorem asertScaled_mono (anchor : ℕ) {e f : ℤ} (hef : e ≤ f) :
    asertScaled anchor e ≤ asertScaled anchor f := by
  unfold asertScaled
  have hshift : e / 65536 ≤ f / 65536 := Int.ediv_le_ediv (by norm_num) hef
  rcases hshift.eq_or_lt with hsame | hlt
  · rw [hsame]
    apply Nat.scaleTwo_mono_left
    apply Nat.mul_le_mul_left
    exact asertFactor_mono (by omega) (by omega)
  · have hdouble : anchor * asertFactor (e % 65536).toNat ≤
        anchor * asertFactor (f % 65536).toNat * 2 ^ 1 := by
      rw [mul_assoc]
      apply Nat.mul_le_mul_left
      have hupper := asertFactor_lt (e % 65536).toNat
      have hlower := le_asertFactor (f % 65536).toNat
      omega
    calc scaleTwo (anchor * asertFactor (e % 65536).toNat) (e / 65536 - 16)
        ≤ scaleTwo (anchor * asertFactor (f % 65536).toNat * 2 ^ 1) (e / 65536 - 16) :=
          Nat.scaleTwo_mono_left hdouble _
      _ = scaleTwo (anchor * asertFactor (f % 65536).toNat) (e / 65536 - 16 + (1 : ℕ)) :=
          Nat.scaleTwo_mul_two_pow _ _ _
      _ ≤ scaleTwo (anchor * asertFactor (f % 65536).toNat) (f / 65536 - 16) :=
          Nat.scaleTwo_mono_right _ (by push_cast; omega)

theorem asertScaled_sub_two (anchor : ℕ) (e : ℤ) :
    asertScaled anchor (e - 2 * 65536) = asertScaled anchor e / 2 ^ 2 := by
  have hfrac : (e - 2 * 65536) % 65536 = e % 65536 := by omega
  have hshift : (e - 2 * 65536) / 65536 - 16 = e / 65536 - 16 - (2 : ℕ) := by push_cast; omega
  rw [asertScaled, asertScaled, Nat.scaleTwo_div_two_pow, hfrac, hshift]

end XCoin.Pow
