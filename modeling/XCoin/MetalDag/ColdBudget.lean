import XCoin.Lib.LruCache
import XCoin.MetalDag.Epoch
import XCoin.Primitives.Transaction

/-!
# The budget for cold caches

Verifying a header costs a cache build unless the cache of its epoch is resident.
Before a node hashes headers for a peer, `MayVerifyHeadersNow` asks for each of them
whether that is affordable:

| epoch of the header                              | verdict                       |
| ------------------------------------------------ | ----------------------------- |
| resident                                         | yes                           |
| from one before the best header's to one after   | yes                           |
| the present one (the hot window)                 |                               |
| above the window                                 | no                            |
| below the window                                 | one grant in every 30 seconds |

The loop only reads which caches are resident and builds none, so the second header
of a cold epoch asks for a second grant although the first one's build would serve
it.  `mayVerifyHeadersNow_eq_true_iff` gives the exact condition under which a batch
passes, and `mayVerifyHeadersNow_common_epoch_iff` what is left of it when all cold
headers are of one epoch.
-/

namespace XCoin.MetalDag

open Consensus

/-! ## The source's functions -/

/-- `METALDAG_CACHE_ENTRIES`. -/
def metaldagCacheEntries : ℕ := 6

/-- The resident verification caches.  What a slot holds is decided by its key. -/
abbrev Caches := LruCache (ℕ × ℕ) metaldagCacheEntries

/-- `CacheResident`. -/
def cacheResident (caches : Caches) (nTime : UInt32) (params : Params) : Bool :=
  caches.resident (cacheKey params nTime)

/-- `COLD_EPOCH_BUILD_INTERVAL`, in seconds. -/
def coldEpochBuildInterval : ℤ := 30

/-- A grant for one build per interval. -/
structure CacheBuildBudget where
  intervalSeconds : ℤ
  lastBuild : ℤ
deriving DecidableEq, Repr

/-- The budget of the node, `m_cold_cache_budget`. -/
def coldCacheBudget (lastBuild : ℤ) : CacheBuildBudget := ⟨coldEpochBuildInterval, lastBuild⟩

/-- `m_last_build` before the first grant. -/
def neverBuilt : ℤ := -2 ^ 62

/-- `CacheBuildBudget::Take`. -/
def CacheBuildBudget.take (budget : CacheBuildBudget) (nowSeconds : ℤ) :
    Bool × CacheBuildBudget :=
  if nowSeconds - budget.lastBuild < budget.intervalSeconds then (false, budget)
  else (true, { budget with lastBuild := nowSeconds })

/-- The clock as the time of a header. -/
def nowTime (now : ℤ) : UInt32 :=
  if 0 < now ∧ now ≤ 0xffffffff then UInt32.ofNat now.toNat else 0xffffffff

/-- What the verdict on a header depends on besides the budget. -/
structure Clocks where
  params : Params
  caches : Caches
  bestHeaderTime : UInt32
  now : ℤ

namespace Clocks

variable (clocks : Clocks)

/-- The first epoch of the hot window. -/
def lo : ℕ := epochOf clocks.params clocks.bestHeaderTime - 1

/-- The last epoch of the hot window. -/
def hi : ℕ := epochOf clocks.params (nowTime clocks.now) + 1

/-- The epoch of a header. -/
def epoch (header : BlockHeader) : ℕ := epochOf clocks.params header.nTime

/-- The epoch of the header is resident. -/
def Resident (header : BlockHeader) : Prop :=
  cacheResident clocks.caches header.nTime clocks.params = true

/-- The epoch of the header lies in the hot window. -/
def Hot (header : BlockHeader) : Prop :=
  clocks.lo ≤ clocks.epoch header ∧ clocks.epoch header ≤ clocks.hi

instance (header : BlockHeader) : Decidable (clocks.Resident header) :=
  inferInstanceAs (Decidable (_ = _))

instance (header : BlockHeader) : Decidable (clocks.Hot header) :=
  inferInstanceAs (Decidable (_ ∧ _))

/-- `MayVerifyFromNetwork`. -/
def mayVerifyFromNetwork (header : BlockHeader) (budget : CacheBuildBudget) :
    Bool × CacheBuildBudget :=
  if clocks.Resident header then (true, budget)
  else if clocks.Hot header then (true, budget)
  else if clocks.hi < clocks.epoch header then (false, budget)
  else budget.take clocks.now

/-- The loop over the headers of a message; the first refusal ends it. -/
def mayVerifyHeadersNow : List BlockHeader → CacheBuildBudget → Bool × CacheBuildBudget
  | [], budget => (true, budget)
  | header :: headers, budget =>
    if (clocks.mayVerifyFromNetwork header budget).1 then
      mayVerifyHeadersNow headers (clocks.mayVerifyFromNetwork header budget).2
    else (false, (clocks.mayVerifyFromNetwork header budget).2)

/-! ## When a batch passes -/

/-- The header needs a cache that is neither resident nor free to build. -/
def NeedsGrant (header : BlockHeader) : Prop :=
  ¬ clocks.Resident header ∧ ¬ clocks.Hot header

instance (header : BlockHeader) : Decidable (clocks.NeedsGrant header) :=
  inferInstanceAs (Decidable (_ ∧ _))

/-- The headers of a batch that need a grant, each as often as it occurs. -/
def needGrant (headers : List BlockHeader) : List BlockHeader :=
  headers.filter fun header => decide (clocks.NeedsGrant header)

variable {clocks} {header : BlockHeader} {headers : List BlockHeader} {budget : CacheBuildBudget}

theorem mem_needGrant_iff :
    header ∈ clocks.needGrant headers ↔ header ∈ headers ∧ clocks.NeedsGrant header := by
  rw [needGrant, List.mem_filter, decide_eq_true_iff]

theorem needGrant_cons_of_pos (hneeds : clocks.NeedsGrant header) :
    clocks.needGrant (header :: headers) = header :: clocks.needGrant headers :=
  List.filter_cons_of_pos (decide_eq_true hneeds)

theorem needGrant_cons_of_neg (hfree : ¬ clocks.NeedsGrant header) :
    clocks.needGrant (header :: headers) = clocks.needGrant headers :=
  List.filter_cons_of_neg (by simpa using hfree)

theorem mayVerifyFromNetwork_of_free (hfree : ¬ clocks.NeedsGrant header) :
    clocks.mayVerifyFromNetwork header budget = (true, budget) := by
  unfold mayVerifyFromNetwork
  by_cases hresident : clocks.Resident header
  · rw [if_pos hresident]
  · have hhot : clocks.Hot header := by
      by_contra hcold
      exact hfree ⟨hresident, hcold⟩
    rw [if_neg hresident, if_pos hhot]

theorem mayVerifyFromNetwork_of_needs (hneeds : clocks.NeedsGrant header) :
    clocks.mayVerifyFromNetwork header budget =
      if clocks.hi < clocks.epoch header then (false, budget) else budget.take clocks.now := by
  rw [mayVerifyFromNetwork, if_neg hneeds.1, if_neg hneeds.2]

theorem mayVerifyHeadersNow_cons_of_free (hfree : ¬ clocks.NeedsGrant header) :
    clocks.mayVerifyHeadersNow (header :: headers) budget =
      clocks.mayVerifyHeadersNow headers budget := by
  rw [mayVerifyHeadersNow, mayVerifyFromNetwork_of_free hfree, if_pos rfl]

theorem mayVerifyHeadersNow_of_spent
    (hspent : clocks.now - budget.lastBuild < budget.intervalSeconds) :
    ∀ headers : List BlockHeader,
      ((clocks.mayVerifyHeadersNow headers budget).1 = true ↔ clocks.needGrant headers = []) ∧
        (clocks.mayVerifyHeadersNow headers budget).2 = budget := by
  intro headers
  induction headers with
  | nil => exact ⟨Iff.intro (fun _ => rfl) (fun _ => rfl), rfl⟩
  | cons header headers ih =>
    by_cases hneeds : clocks.NeedsGrant header
    · have hrefused : clocks.mayVerifyFromNetwork header budget = (false, budget) := by
        rw [mayVerifyFromNetwork_of_needs hneeds, CacheBuildBudget.take, if_pos hspent, ite_self]
      rw [mayVerifyHeadersNow, hrefused, if_neg Bool.false_ne_true, needGrant_cons_of_pos hneeds]
      exact ⟨Iff.intro (fun h => absurd h Bool.false_ne_true) (fun h => absurd h (by simp)), rfl⟩
    · rw [mayVerifyHeadersNow_cons_of_free hneeds, needGrant_cons_of_neg hneeds]
      exact ih

/-- What it takes for a batch with cold headers to pass. -/
structure PassesOnGrant (clocks : Clocks) (headers : List BlockHeader)
    (budget : CacheBuildBudget) : Prop where
  single : (clocks.needGrant headers).length = 1
  below : ∀ header ∈ clocks.needGrant headers, clocks.epoch header ≤ clocks.hi
  due : budget.intervalSeconds ≤ clocks.now - budget.lastBuild

/-- **The gate.** A batch passes if no header of it needs a grant, or if exactly one
does, it is not of an epoch above the window, and a grant is due. -/
theorem mayVerifyHeadersNow_eq_true_iff (hinterval : 0 < budget.intervalSeconds) :
    ∀ headers : List BlockHeader,
      (clocks.mayVerifyHeadersNow headers budget).1 = true ↔
        clocks.needGrant headers = [] ∨ PassesOnGrant clocks headers budget := by
  intro headers
  induction headers with
  | nil => exact Iff.intro (fun _ => Or.inl rfl) (fun _ => rfl)
  | cons header headers ih =>
    by_cases hneeds : clocks.NeedsGrant header
    · rw [mayVerifyHeadersNow, mayVerifyFromNetwork_of_needs hneeds]
      have hcons := @needGrant_cons_of_pos clocks header headers hneeds
      have hnonempty : ¬ clocks.needGrant (header :: headers) = [] := by simp [hcons]
      rw [or_iff_right hnonempty]
      by_cases habove : clocks.hi < clocks.epoch header
      · rw [if_pos habove, if_neg Bool.false_ne_true]
        refine Iff.intro (fun h => absurd h Bool.false_ne_true) fun hpasses => ?_
        exact absurd (hpasses.below header (by rw [hcons]; exact List.mem_cons_self)) (by omega)
      rw [if_neg habove, CacheBuildBudget.take]
      by_cases hspent : clocks.now - budget.lastBuild < budget.intervalSeconds
      · rw [if_pos hspent, if_neg Bool.false_ne_true]
        exact Iff.intro (fun h => absurd h Bool.false_ne_true)
          fun hpasses => absurd hpasses.due (by omega)
      · -- the grant is given and there is no second one at the same time
        rw [if_neg hspent, if_pos rfl]
        have hnext : clocks.now - clocks.now < budget.intervalSeconds := by omega
        rw [(@mayVerifyHeadersNow_of_spent clocks { budget with lastBuild := clocks.now }
          hnext headers).1]
        constructor
        · intro hnone
          refine ⟨by rw [hcons, hnone]; rfl, ?_, by omega⟩
          intro other hother
          rw [hcons, hnone, List.mem_singleton] at hother
          rw [hother]
          omega
        · intro hpasses
          have hlength := hpasses.single
          rw [hcons, List.length_cons] at hlength
          exact List.length_eq_zero_iff.mp (by omega)
    · have hcons := @needGrant_cons_of_neg clocks header headers hneeds
      rw [mayVerifyHeadersNow_cons_of_free hneeds, ih, hcons]
      apply or_congr_right
      constructor
      · exact fun h => ⟨hcons ▸ h.single, hcons ▸ h.below, h.due⟩
      · exact fun h => ⟨hcons ▸ h.single, hcons ▸ h.below, h.due⟩

end Clocks

/-! ## One cold epoch in a batch -/

/-- The last grant was not taken within the last interval. -/
def NoRecentGrant (now lastBuild : ℤ) : Prop :=
  ¬ (now - coldEpochBuildInterval < lastBuild ∧ lastBuild ≤ now)

instance (now lastBuild : ℤ) : Decidable (NoRecentGrant now lastBuild) :=
  inferInstanceAs (Decidable (¬ _))

/-- Every header of the batch is of a resident epoch, of a hot one or of `coldEpoch`. -/
def OneColdEpoch (clocks : Clocks) (coldEpoch : ℕ) (headers : List BlockHeader) : Prop :=
  ∀ header ∈ headers,
    clocks.Resident header ∨ clocks.Hot header ∨ clocks.epoch header = coldEpoch

instance (clocks : Clocks) (coldEpoch : ℕ) (headers : List BlockHeader) :
    Decidable (OneColdEpoch clocks coldEpoch headers) :=
  inferInstanceAs (Decidable (∀ _ ∈ _, _))

/-- **A batch with one cold epoch.** With no recent grant, a batch whose cold headers
are all of one epoch passes exactly if it has no cold header, or if it has a single
one, the clock has not been set back behind the last grant, and the epoch is not
above the window's end.  An epoch below the window's begin can be above its end when
the clock is far behind the best header. -/
theorem mayVerifyHeadersNow_common_epoch_iff (clocks : Clocks) (lastBuild : ℤ)
    (headers : List BlockHeader) (coldEpoch : ℕ) (hbatch : OneColdEpoch clocks coldEpoch headers)
    (hgrant : NoRecentGrant clocks.now lastBuild) :
    (clocks.mayVerifyHeadersNow headers (coldCacheBudget lastBuild)).1 = true ↔
      (clocks.needGrant headers).length = 0 ∨
        ((clocks.needGrant headers).length = 1 ∧ lastBuild ≤ clocks.now ∧
          coldEpoch ≤ clocks.hi) := by
  have hpositive : 0 < coldEpochBuildInterval := by decide
  have hdue : coldEpochBuildInterval ≤ clocks.now - lastBuild ↔ lastBuild ≤ clocks.now := by
    unfold NoRecentGrant at hgrant
    omega
  have hcommon : ∀ header ∈ clocks.needGrant headers, clocks.epoch header = coldEpoch := by
    intro header hheader
    obtain ⟨hmem, hresident, hcold⟩ := Clocks.mem_needGrant_iff.mp hheader
    rcases hbatch header hmem with h | h | hepoch
    · exact absurd h hresident
    · exact absurd h hcold
    · exact hepoch
  rw [Clocks.mayVerifyHeadersNow_eq_true_iff hpositive, List.length_eq_zero_iff]
  apply or_congr_right
  constructor
  · intro hpasses
    obtain ⟨header, hheader⟩ := List.exists_mem_of_length_pos (hpasses.single ▸ Nat.one_pos)
    refine ⟨hpasses.single, hdue.mp hpasses.due, ?_⟩
    rw [← hcommon header hheader]
    exact hpasses.below header hheader
  · rintro ⟨hsingle, hclock, hepoch⟩
    refine ⟨hsingle, ?_, hdue.mpr hclock⟩
    intro header hheader
    rw [hcommon header hheader]
    exact hepoch

/-- A node with no cache resident, whose best header and clock stand in epoch 5. -/
def epochFive : Clocks where
  params := mainParams
  caches := LruCache.empty
  bestHeaderTime := 1796428800
  now := 1796428800

/-- A header of epoch 0, right after the genesis block. -/
def epochZeroHeader (nNonce : UInt32) : BlockHeader where
  nVersion := 4
  hashPrevBlock := 0
  hashMerkleRoot := 0
  nTime := 1790380801
  nBits := 0x1e0fffff
  nNonce := nNonce

/-- Two headers of the same cold epoch are refused though no grant was ever taken. -/
theorem two_cold_headers_refused :
    0 < epochFive.lo ∧ OneColdEpoch epochFive 0 [epochZeroHeader 1, epochZeroHeader 2] ∧
      NoRecentGrant epochFive.now neverBuilt ∧
      (epochFive.mayVerifyHeadersNow [epochZeroHeader 1, epochZeroHeader 2]
        (coldCacheBudget neverBuilt)).1 = false := by
  decide

theorem one_cold_header_passes :
    (epochFive.mayVerifyHeadersNow [epochZeroHeader 1] (coldCacheBudget neverBuilt)).1 = true :=
  (mayVerifyHeadersNow_common_epoch_iff epochFive neverBuilt [epochZeroHeader 1] 0 (by decide)
    (by decide)).mpr (by decide)

end XCoin.MetalDag
