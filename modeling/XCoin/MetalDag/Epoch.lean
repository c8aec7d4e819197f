import XCoin.Consensus.Params

/-!
# Epochs of the MetalDAG

`GetEpochSizing` of `metaldag.cpp`: the time of a header decides its epoch, and the
epoch the size of the full dataset and of the verification cache.  Both sizes are
the largest multiples below a target whose number of items is prime.

The parameters are signed fields that the code casts to unsigned ones, and sums and
products of them wrap at `2 ^ 64`.
-/

namespace XCoin.MetalDag

open Consensus

/-- The value of a signed parameter as a `uint64_t`. -/
def toUint64 (value : ℤ) : ℕ := (value % 2 ^ 64).toNat

/-- The value of a signed parameter as a `uint32_t`. -/
def toUint32 (value : ℤ) : ℕ := (value % 2 ^ 32).toNat

/-- `HASH_BYTES`. -/
def hashBytes : ℕ := 64
/-- `MIX_BYTES`. -/
def mixBytes : ℕ := 128

/-- `METALDAG_MAX_CACHE_BYTES`: no larger cache is built. -/
def metaldagMaxCacheBytes : ℕ := 64 * 1024 * 1024 * 1024

/-! ## Prime item counts -/

/-- The loop of `is_prime` over odd candidates from `i` on.  Item counts are below `2 ^ 58`, so that
no square wraps. -/
def isPrimeLoop (n : ℕ) : ℕ → ℕ → Bool
  | 0, _ => true
  | fuel + 1, i =>
    if i * i ≤ n then
      if n % i = 0 then false else isPrimeLoop n fuel (i + 2)
    else true

/-- `is_prime`.  No candidate is above `n`, so `n` rounds are enough. -/
def isPrime (n : ℕ) : Bool :=
  if n < 2 then false
  else if n % 2 = 0 then decide (n = 2)
  else isPrimeLoop n n 3

/-- The loop of `largest_prime_sized`, down to 2. -/
def largestPrimeItems : ℕ → ℕ
  | 0 => 0
  | items + 1 =>
    if 2 < items + 1 ∧ isPrime (items + 1) = false then largestPrimeItems items else items + 1

/-- The largest size not above `target` that has a prime number of units. -/
def largestPrimeSized (target unit : ℕ) : ℕ :=
  largestPrimeItems (max (target / unit) 2) * unit

/-! ## Sizing -/

/-- `EpochSizing`. -/
structure EpochSizing where
  epoch : ℕ
  cacheSize : ℕ
  fullSize : ℕ
deriving DecidableEq, Repr

/-- The epoch of a time; times before the base are of epoch 0. -/
def epochOf (params : Params) (nTime : UInt32) : ℕ :=
  (nTime.toNat - toUint64 params.metaldagBaseTime) /
    (if params.metaldagEpochSeconds = 0 then 1209600 else toUint64 params.metaldagEpochSeconds)

/-- The bytes of the dataset before it is rounded. -/
def rawFull (params : Params) (epoch : ℕ) : ℕ :=
  (toUint64 params.metaldagDagInitBytes + toUint64 params.metaldagDagGrowthBytes * epoch) % 2 ^ 64

/-- The bytes of the cache before they are rounded. -/
def rawCache (params : Params) (epoch : ℕ) : ℕ :=
  rawFull params epoch /
    (if params.metaldagCacheDivisor = 0 then 128 else toUint32 params.metaldagCacheDivisor)

/-- The cache size of an epoch. -/
def cacheSizeOf (params : Params) (epoch : ℕ) : ℕ :=
  largestPrimeSized (max (rawCache params epoch) (hashBytes * 2)) hashBytes

/-- The dataset size of an epoch. -/
def fullSizeOf (params : Params) (epoch : ℕ) : ℕ :=
  largestPrimeSized (max (rawFull params epoch) (mixBytes * 2)) mixBytes

/-- `GetEpochSizing`. -/
def getEpochSizing (nTime : UInt32) (params : Params) : EpochSizing where
  epoch := epochOf params nTime
  cacheSize := cacheSizeOf params (epochOf params nTime)
  fullSize := fullSizeOf params (epochOf params nTime)

@[simp] theorem getEpochSizing_cacheSize {nTime : UInt32} {params : Params} :
    (getEpochSizing nTime params).cacheSize = cacheSizeOf params (epochOf params nTime) := rfl

/-- The key of a verification cache: the epoch and its cache size. -/
def cacheKey (params : Params) (nTime : UInt32) : ℕ × ℕ :=
  ((getEpochSizing nTime params).epoch, (getEpochSizing nTime params).cacheSize)

end XCoin.MetalDag
