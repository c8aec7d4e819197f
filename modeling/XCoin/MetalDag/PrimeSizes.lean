import XCoin.MetalDag.Epoch

/-!
# The item counts of an epoch are prime

`GetEpochSizing` rounds the raw sizes of an epoch down to a prime number of items.  The
trial division of `is_prime` decides primality, the downward search of
`largest_prime_sized` therefore stops at the greatest prime not above its start, and
both sizes grow with the time as long as the raw sizes do, which they do while their
sum does not wrap.
-/

namespace XCoin.MetalDag

open Consensus

/-! ## Trial division -/

/-- No number from 2 up to below `i` divides `n`. -/
def NoDivisorBelow (n i : ℕ) : Prop := ∀ m, 2 ≤ m → m < i → ¬ m ∣ n

theorem NoDivisorBelow.prime {n i : ℕ} (hnone : NoDivisorBelow n i) (htwo : 2 ≤ n)
    (hsquare : n < i * i) : n.Prime := by
  rw [Nat.prime_def_le_sqrt]
  refine ⟨htwo, ?_⟩
  intro m hm hsqrt
  apply hnone m hm
  have hle : m * m ≤ n := Nat.le_sqrt.mp hsqrt
  exact Nat.mul_self_lt_mul_self_iff.mp (hle.trans_lt hsquare)

/-- The even candidate between two odd ones does not divide an odd number. -/
theorem NoDivisorBelow.step {n i : ℕ} (hnone : NoDivisorBelow n i) (hodd : n % 2 = 1)
    (hi : i % 2 = 1) (hdivides : n % i ≠ 0) : NoDivisorBelow n (i + 2) := by
  intro m hm hlt hdvd
  rcases Nat.lt_or_ge m i with hbelow | habove
  · exact hnone m hm hbelow hdvd
  · rcases (show m = i ∨ m = i + 1 by omega) with rfl | rfl
    · exact hdivides (Nat.mod_eq_zero_of_dvd hdvd)
    · have heven : 2 ∣ n := (show 2 ∣ i + 1 by omega).trans hdvd
      omega

/-- The loop with candidates from `i` on, none below `i` being a divisor, when its rounds
reach past the root of `n`. -/
theorem isPrimeLoop_iff {n : ℕ} (htwo : 2 ≤ n) (hodd : n % 2 = 1) : ∀ fuel i : ℕ,
    3 ≤ i → i % 2 = 1 → NoDivisorBelow n i → n < (i + 2 * fuel) * (i + 2 * fuel) →
      (isPrimeLoop n fuel i = true ↔ n.Prime) := by
  intro fuel
  induction fuel with
  | zero =>
    intro i _ _ hnone hreach
    exact iff_of_true rfl (hnone.prime htwo hreach)
  | succ fuel ih =>
    intro i hthree hi hnone hreach
    rw [isPrimeLoop]
    split_ifs with hsquare hdivides
    · -- a divisor of at most the root of `n` is neither 1 nor `n`
      refine iff_of_false id ?_
      intro hprime
      rcases (Nat.dvd_prime hprime).mp (Nat.dvd_of_mod_eq_zero hdivides) with hone | hself
      · omega
      · rw [← hself] at hsquare
        have hlt : i * 1 < i * i := Nat.mul_lt_mul_of_pos_left (by omega) (by omega)
        omega
    · have hsame : i + 2 * (fuel + 1) = i + 2 + 2 * fuel := by ring
      exact ih (i + 2) (by omega) (by omega) (hnone.step hodd hi hdivides) (hsame ▸ hreach)
    · exact iff_of_true rfl (hnone.prime htwo (Nat.lt_of_not_le hsquare))

/-- **Trial division.** `is_prime` decides primality. -/
theorem isPrime_iff (n : ℕ) : isPrime n = true ↔ n.Prime := by
  rw [isPrime]
  split_ifs with hsmall heven
  · refine iff_of_false id ?_
    intro hprime
    exact hsmall.not_ge hprime.two_le
  · rw [decide_eq_true_iff]
    constructor
    · rintro rfl
      exact Nat.prime_two
    · intro hprime
      exact ((Nat.prime_dvd_prime_iff_eq Nat.prime_two hprime).mp
        (Nat.dvd_of_mod_eq_zero heven)).symm
  · apply isPrimeLoop_iff (by omega) (by omega) n 3 le_rfl rfl
    · intro m hm hlt hdvd
      have htwo : m = 2 := by omega
      rw [htwo] at hdvd
      omega
    · calc n < 3 + 2 * n := by omega
        _ ≤ (3 + 2 * n) * (3 + 2 * n) := Nat.le_mul_self _

/-! ## The downward search -/

/-- The primes not above a number of items. -/
def primesUpTo (items : ℕ) : Set ℕ := {p | p.Prime ∧ p ≤ items}

/-- **Downward search.** From two items on, the search stops at the greatest prime not
above its start. -/
theorem isGreatest_largestPrimeItems : ∀ items : ℕ, 2 ≤ items →
    IsGreatest (primesUpTo items) (largestPrimeItems items) := by
  intro items
  induction items with
  | zero => intro htwo; omega
  | succ items ih =>
    intro htwo
    rw [largestPrimeItems]
    split_ifs with hgo
    · -- the start is not prime, so the primes up to it are those below it
      obtain ⟨hmem, hgreatest⟩ := ih (by omega)
      have hcomposite : ¬ (items + 1).Prime := by
        rw [← isPrime_iff, hgo.2]
        exact Bool.false_ne_true
      refine ⟨⟨hmem.1, hmem.2.trans (Nat.le_succ items)⟩, ?_⟩
      rintro p ⟨hprime, hle⟩
      apply hgreatest
      refine ⟨hprime, ?_⟩
      rcases Nat.lt_or_eq_of_le hle with hlt | rfl
      · exact Nat.le_of_lt_succ hlt
      · exact absurd hprime hcomposite
    · refine ⟨⟨?_, le_rfl⟩, fun p hp => hp.2⟩
      rcases Nat.lt_or_eq_of_le htwo with hlt | heq
      · rw [← isPrime_iff]
        by_contra hcomposite
        exact hgo ⟨hlt, Bool.eq_false_of_not_eq_true hcomposite⟩
      · rw [← heq]
        exact Nat.prime_two

theorem largestPrimeItems_mono {items more : ℕ} (htwo : 2 ≤ items) (hle : items ≤ more) :
    largestPrimeItems items ≤ largestPrimeItems more := by
  obtain ⟨hprime, hbound⟩ := (isGreatest_largestPrimeItems items htwo).1
  exact (isGreatest_largestPrimeItems more (htwo.trans hle)).2 ⟨hprime, hbound.trans hle⟩

theorem largestPrimeSized_mono {target larger unit : ℕ} (hle : target ≤ larger) :
    largestPrimeSized target unit ≤ largestPrimeSized larger unit := by
  apply Nat.mul_le_mul_right
  apply largestPrimeItems_mono (le_max_right _ _)
  exact max_le_max (Nat.div_le_div_right hle) le_rfl

theorem largestPrimeSized_spec {target unit : ℕ} (hunit : 0 < unit) (htwo : unit * 2 ≤ target) :
    unit ∣ largestPrimeSized target unit ∧
      IsGreatest (primesUpTo (target / unit)) (largestPrimeSized target unit / unit) := by
  have hitems : 2 ≤ target / unit := (Nat.le_div_iff_mul_le hunit).mpr (by rwa [mul_comm])
  refine ⟨Dvd.intro_left _ rfl, ?_⟩
  rw [largestPrimeSized, Nat.mul_div_cancel _ hunit, max_eq_left hitems]
  exact isGreatest_largestPrimeItems _ hitems

/-! ## Sizes of an epoch -/

section Sizes

variable (params : Params)

/-- The divisor of the cache size. -/
def cacheDivisor : ℕ :=
  if params.metaldagCacheDivisor = 0 then 128 else toUint32 params.metaldagCacheDivisor

/-- The raw bytes of the dataset, not wrapped. -/
def rawFullBytes (nTime : UInt32) : ℕ :=
  toUint64 params.metaldagDagInitBytes +
    toUint64 params.metaldagDagGrowthBytes * epochOf params nTime

/-- The raw sizes of a time fit in 64 bits and are at least two units each. -/
structure RawSizesFit (nTime : UInt32) : Prop where
  full_lt : rawFullBytes params nTime < 2 ^ 64
  full_ge : mixBytes * 2 ≤ rawFullBytes params nTime
  cache_ge : hashBytes * 2 ≤ rawFullBytes params nTime / cacheDivisor params

variable {params} {nTime earlier : UInt32}

theorem RawSizesFit.rawFull_eq (hfit : RawSizesFit params nTime) :
    rawFull params (epochOf params nTime) = rawFullBytes params nTime :=
  Nat.mod_eq_of_lt hfit.full_lt

theorem RawSizesFit.rawCache_eq (hfit : RawSizesFit params nTime) :
    rawCache params (epochOf params nTime) =
      rawFullBytes params nTime / cacheDivisor params := by
  rw [rawCache, hfit.rawFull_eq, cacheDivisor]

theorem epochOf_mono (hle : earlier ≤ nTime) : epochOf params earlier ≤ epochOf params nTime := by
  have htime : earlier.toNat ≤ nTime.toNat := UInt32.le_iff_toNat_le.mp hle
  exact Nat.div_le_div_right (Nat.sub_le_sub_right htime _)

theorem RawSizesFit.rawFull_le (hfit : RawSizesFit params nTime) (hle : earlier ≤ nTime) :
    rawFull params (epochOf params earlier) ≤ rawFull params (epochOf params nTime) := by
  rw [hfit.rawFull_eq]
  calc rawFull params (epochOf params earlier)
      ≤ rawFullBytes params earlier := Nat.mod_le _ _
    _ ≤ rawFullBytes params nTime :=
        Nat.add_le_add_left (Nat.mul_le_mul_left _ (epochOf_mono hle)) _

/-- **Sizes of an epoch.** Where the raw sizes fit, the dataset has the greatest prime
number of pages and the cache the greatest prime number of items that the raw sizes
allow, and no earlier time has a larger dataset or a larger cache. -/
theorem getEpochSizing_primeSized (params : Params) (nTime : UInt32)
    (hfit : RawSizesFit params nTime) :
    (mixBytes ∣ (getEpochSizing nTime params).fullSize ∧
      IsGreatest {p | p.Prime ∧ p ≤ rawFullBytes params nTime / mixBytes}
        ((getEpochSizing nTime params).fullSize / mixBytes)) ∧
    (hashBytes ∣ (getEpochSizing nTime params).cacheSize ∧
      IsGreatest {p | p.Prime ∧
          p ≤ rawFullBytes params nTime / cacheDivisor params / hashBytes}
        ((getEpochSizing nTime params).cacheSize / hashBytes)) ∧
    ∀ earlier ≤ nTime,
      (getEpochSizing earlier params).fullSize ≤ (getEpochSizing nTime params).fullSize ∧
      (getEpochSizing earlier params).cacheSize ≤ (getEpochSizing nTime params).cacheSize := by
  refine ⟨?_, ?_, ?_⟩
  · have hfull : (getEpochSizing nTime params).fullSize =
        largestPrimeSized (rawFullBytes params nTime) mixBytes := by
      change largestPrimeSized (max (rawFull _ _) _) _ = _
      rw [hfit.rawFull_eq, max_eq_left hfit.full_ge]
    rw [hfull]
    exact largestPrimeSized_spec (by decide) hfit.full_ge
  · have hcache : (getEpochSizing nTime params).cacheSize =
        largestPrimeSized (rawFullBytes params nTime / cacheDivisor params) hashBytes := by
      change largestPrimeSized (max (rawCache _ _) _) _ = _
      rw [hfit.rawCache_eq, max_eq_left hfit.cache_ge]
    rw [hcache]
    exact largestPrimeSized_spec (by decide) hfit.cache_ge
  · intro earlier hle
    have hraw := hfit.rawFull_le hle
    exact ⟨largestPrimeSized_mono (max_le_max hraw le_rfl),
      largestPrimeSized_mono (max_le_max (Nat.div_le_div_right hraw) le_rfl)⟩

end Sizes

theorem mainParams_rawSizesFit : RawSizesFit mainParams 1790380800 where
  full_lt := by decide +kernel
  full_ge := by decide +kernel
  cache_ge := by decide +kernel

/-- The sizes of the first epoch of mainnet. -/
theorem mainParams_primeSized :
    (mixBytes ∣ (getEpochSizing 1790380800 mainParams).fullSize ∧
      IsGreatest {p | p.Prime ∧ p ≤ rawFullBytes mainParams 1790380800 / mixBytes}
        ((getEpochSizing 1790380800 mainParams).fullSize / mixBytes)) ∧
    rawFullBytes mainParams 1790380800 / mixBytes = 2 ^ 25 :=
  ⟨(getEpochSizing_primeSized mainParams 1790380800 mainParams_rawSizesFit).1,
    by decide +kernel⟩

end XCoin.MetalDag
