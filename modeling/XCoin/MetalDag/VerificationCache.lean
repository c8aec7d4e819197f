import XCoin.MetalDag.ColdBudget

/-!
# The verification caches

`mkcache` fills the cache of an epoch from its seed, and `get_cache` keeps the caches it
has built in a map from the epoch and the cache size.  Every slot of the map holds the
value a clock had when the slot was last used, and when the map has become too large the
slot with the smallest one is erased.

The map refines the cache of `Lib/LruCache.lean`, so that the resident keys are the most
recently used ones of all requests there have been.  The clock is a `uint64_t`.  The
refinement holds as long as it has not wrapped, and `resident_after_wrap` shows what
happens when it does: the slots used after the wrap look older than those from before.
-/

namespace XCoin.MetalDag

open Consensus

/-! ## Building a cache -/

section Build

/-- An item of 64 bytes, as its sixteen little-endian words. -/
abbrev Item := Fin 16 → UInt32

/-- The 64 bytes of an item. -/
def itemBytes (item : Item) : Bytes := (List.ofFn item).flatMap fun word =>
  Bytes.ofNatLE 4 word.toNat

/-- `CACHE_ROUNDS`. -/
def cacheRounds : ℕ := 3

variable (keccak256 : Bytes → Bytes) (keccak512 : Bytes → Item)

/-- The first loop of `mkcache`: every item is the hash of the one before it. -/
def fillItem (o : List Item) (i : ℕ) : List Item :=
  o.set i (keccak512 (itemBytes (o.getD (i - 1) 0)))

/-- The body of the rounds of `mkcache`. -/
def mixItem (n : ℕ) (o : List Item) (i : ℕ) : List Item :=
  let v := (o.getD i 0 0).toNat % (n % 2 ^ 32)
  let tmp : Item := fun k => o.getD ((i + n - 1) % n) 0 k ^^^ o.getD v 0 k
  o.set i (keccak512 (itemBytes tmp))

/-- `mkcache`. -/
def mkcache (cacheSize : ℕ) (seed : Bytes) : List Item :=
  let n := cacheSize / hashBytes
  let first := (List.replicate n (0 : Item)).set 0 (keccak512 seed)
  let filled := (List.range' 1 (n - 1)).foldl (fillItem keccak512) first
  (List.range cacheRounds).foldl (fun o _ => (List.range n).foldl (mixItem keccak512 n) o) filled

/-- The chain of seeds starts with 32 zero bytes. -/
def seedForEpoch (epoch : ℕ) : Bytes := keccak256^[epoch] (List.replicate 32 0)

/-- What `get_cache` builds on a miss. -/
def builtCache (epoch cacheSize : ℕ) : List Item :=
  mkcache keccak512 cacheSize (seedForEpoch keccak256 epoch)

end Build

/-! ## The map of caches -/

/-- A cache and the clock of its last use. -/
structure CacheSlot (β : Type) where
  cache : β
  lastUse : UInt64

/-- `g_cache_by_key`, in the order of its keys, and `g_cache_clock`. -/
structure CacheState (β : Type) where
  byKey : List ((ℕ × ℕ) × CacheSlot β)
  clock : UInt64

/-- What a call of `get_cache` returns, whether it built the cache, and the state after it. -/
structure GetCacheResult (β : Type) where
  cache : β
  built : Bool
  state : CacheState β

variable {β : Type} (build : ℕ → ℕ → β) (st : CacheState β) (key : ℕ × ℕ)

/-- The order of the pairs. -/
def keyLess (key other : ℕ × ℕ) : Bool :=
  decide (key.1 < other.1 ∨ (key.1 = other.1 ∧ key.2 < other.2))

namespace CacheState

/-- No cache is held at the start. -/
def empty : CacheState β := ⟨[], 0⟩

/-- The slot of a key. -/
def find : Option (CacheSlot β) :=
  (st.byKey.find? fun entry => decide (entry.1 = key)).map Prod.snd

/-- `g_cache_by_key[key] = slot`. -/
def put (key : ℕ × ℕ) (slot : CacheSlot β) :
    List ((ℕ × ℕ) × CacheSlot β) → List ((ℕ × ℕ) × CacheSlot β)
  | [] => [(key, slot)]
  | entry :: rest =>
    if keyLess key entry.1 then (key, slot) :: entry :: rest
    else if entry.1 = key then (key, slot) :: rest
    else entry :: put key slot rest

/-- The loop that erases the first slot of the smallest clock while there are too many. -/
def evict : ℕ → List ((ℕ × ℕ) × CacheSlot β) → List ((ℕ × ℕ) × CacheSlot β)
  | 0, entries => entries
  | fuel + 1, entries =>
    if metaldagCacheEntries < entries.length then
      match entries.argmin (fun entry => entry.2.lastUse.toNat) with
      | none => entries
      | some victim => evict fuel (entries.eraseP fun entry => decide (entry.1 = victim.1))
    else entries

/-- The state after the use of a resident key. -/
def restamp : CacheState β where
  byKey := st.byKey.map fun entry =>
    if entry.1 = key then (key, ⟨entry.2.cache, st.clock + 1⟩) else entry
  clock := st.clock + 1

/-- The state after a cache was built. -/
def store (sp : β) : CacheState β where
  byKey := evict (st.byKey.length + 1) (put key ⟨sp, st.clock + 1⟩ st.byKey)
  clock := st.clock + 1

/-- `get_cache`: the resident cache, or a build that may evict another. -/
def getCache (epoch cacheSize : ℕ) : GetCacheResult β :=
  match st.find (epoch, cacheSize) with
  | some slot => ⟨slot.cache, false, st.restamp (epoch, cacheSize)⟩
  | none =>
    ⟨build epoch cacheSize, true, st.store (epoch, cacheSize) (build epoch cacheSize)⟩

/-- `CacheResident`. -/
def cacheResident (nTime : UInt32) (params : Params) : Bool :=
  (st.find (cacheKey params nTime)).isSome

end CacheState

/-! ## Calls -/

/-- The two functions that look at the map. -/
inductive CacheCall where
  | getCache (epoch cacheSize : ℕ)
  | cacheResident (nTime : UInt32) (params : Params)

/-- The state after a call; `CacheResident` only reads it. -/
def CacheCall.after : CacheCall → CacheState β
  | .getCache epoch cacheSize => (st.getCache build epoch cacheSize).state
  | .cacheResident _ _ => st

/-- The state after a sequence of calls. -/
def CacheState.run (calls : List CacheCall) (st : CacheState β) : CacheState β :=
  calls.foldl (CacheCall.after build) st

/-- The keys that calls of `get_cache` request, in order. -/
def requests (calls : List CacheCall) : List (ℕ × ℕ) :=
  calls.filterMap fun call =>
    match call with
    | .getCache epoch cacheSize => some (epoch, cacheSize)
    | .cacheResident _ _ => none

/-! ## The map refines the cache of recent keys -/

namespace CacheState

variable {build : ℕ → ℕ → β} {st : CacheState β} {caches : Caches} {key : ℕ × ℕ}

/-- A slot as the key and the clock of its last use. -/
def stamped (entry : (ℕ × ℕ) × CacheSlot β) : (ℕ × ℕ) × ℕ := (entry.1, entry.2.lastUse.toNat)

/-- Every slot holds what is built for its key. -/
def Built (build : ℕ → ℕ → β) (st : CacheState β) : Prop :=
  ∀ entry ∈ st.byKey, entry.2.cache = build entry.1.1 entry.1.2

/-- The map has the keys and the clocks of the cache of recent keys, and every slot holds
what is built for its key. -/
structure Refines (build : ℕ → ℕ → β) (st : CacheState β) (caches : Caches) : Prop where
  clock_eq : st.clock.toNat = caches.clock
  slots_perm : (st.byKey.map stamped).Perm caches.slots
  built : Built build st

theorem find_isSome_iff : (st.find key).isSome = true ↔ ∃ slot, (key, slot) ∈ st.byKey := by
  rw [find, Option.isSome_map, List.find?_isSome]
  constructor
  · rintro ⟨⟨other, slot⟩, hmem, hkey⟩
    exact ⟨slot, of_decide_eq_true hkey ▸ hmem⟩
  · rintro ⟨slot, hmem⟩
    exact ⟨_, hmem, decide_eq_true rfl⟩

theorem mem_of_find_eq_some {slot : CacheSlot β} (hfind : st.find key = some slot) :
    (key, slot) ∈ st.byKey := by
  rw [find, Option.map_eq_some_iff] at hfind
  obtain ⟨⟨other, slot'⟩, hfind, rfl⟩ := hfind
  have hkey : other = key := by simpa using List.find?_some hfind
  exact hkey ▸ List.mem_of_find?_eq_some hfind

theorem Refines.find_isSome (hrefines : Refines build st caches) :
    (st.find key).isSome = caches.resident key := by
  rw [Bool.eq_iff_iff, find_isSome_iff, LruCache.resident_iff]
  constructor
  · rintro ⟨slot, hmem⟩
    exact ⟨_, hrefines.slots_perm.mem_iff.mp (List.mem_map_of_mem hmem)⟩
  · rintro ⟨stamp, hmem⟩
    obtain ⟨⟨other, slot⟩, hentry, heq⟩ := List.mem_map.mp (hrefines.slots_perm.mem_iff.mpr hmem)
    exact ⟨slot, (Prod.mk.inj heq).1 ▸ hentry⟩

theorem put_perm {slot : CacheSlot β} : ∀ {entries : List ((ℕ × ℕ) × CacheSlot β)},
    (∀ entry ∈ entries, entry.1 ≠ key) → (put key slot entries).Perm ((key, slot) :: entries) := by
  intro entries
  induction entries with
  | nil => exact fun _ => List.Perm.refl _
  | cons first rest ih =>
    intro hother
    rw [put]
    split_ifs with hbefore hsame
    · exact List.Perm.refl _
    · exact absurd hsame (hother first List.mem_cons_self)
    · exact ((ih fun entry h => hother entry (List.mem_cons_of_mem _ h)).cons first).trans
        (List.Perm.swap _ _ _)

theorem evict_of_length_le {fuel : ℕ} {entries : List ((ℕ × ℕ) × CacheSlot β)}
    (hlength : entries.length ≤ metaldagCacheEntries) : evict fuel entries = entries := by
  cases fuel with
  | zero => rfl
  | succ fuel => rw [evict, if_neg (Nat.not_lt.mpr hlength)]

theorem evict_of_length_eq (fuel : ℕ) {entries : List ((ℕ × ℕ) × CacheSlot β)}
    (hlength : entries.length = metaldagCacheEntries + 1) (hnodup : (entries.map Prod.fst).Nodup) :
    ∃ victim, entries.Perm (victim :: evict (fuel + 1) entries) ∧
      ∀ entry ∈ entries, victim.2.lastUse.toNat ≤ entry.2.lastUse.toNat := by
  cases hvictim : entries.argmin (fun entry => entry.2.lastUse.toNat) with
  | none =>
    rw [List.argmin_eq_none.mp hvictim] at hlength
    cases hlength
  | some victim =>
    have hmem : victim ∈ entries := List.argmin_mem hvictim
    obtain ⟨erased, front, back, hfront, hkey, hsplit, herase⟩ :=
      List.exists_of_eraseP (p := fun entry => decide (entry.1 = victim.1)) hmem
        (decide_eq_true rfl)
    have hsame : erased = victim := by
      apply List.inj_on_of_nodup_map hnodup _ hmem (of_decide_eq_true hkey)
      rw [hsplit]
      exact List.mem_append_right _ List.mem_cons_self
    have hperm : entries.Perm
        (victim :: entries.eraseP fun entry => decide (entry.1 = victim.1)) := by
      rw [herase, ← hsame]
      exact hsplit ▸ List.perm_middle
    have hleast : ∀ entry ∈ entries, victim.2.lastUse.toNat ≤ entry.2.lastUse.toNat := by
      intro entry hentry
      exact @List.le_of_mem_argmin _ _ _ (fun entry => entry.2.lastUse.toNat) _ _ _ hentry hvictim
    refine ⟨victim, ?_, hleast⟩
    have hone := hperm.length_eq
    rw [List.length_cons] at hone
    rw [evict, if_pos (by omega), hvictim]
    simp only
    rwa [evict_of_length_le (by omega)]

theorem evict_subset (fuel : ℕ) (entries : List ((ℕ × ℕ) × CacheSlot β)) :
    evict fuel entries ⊆ entries := by
  induction fuel generalizing entries with
  | zero => exact List.Subset.refl _
  | succ fuel ih =>
    rw [evict]
    split_ifs
    · split
      · exact List.Subset.refl _
      · exact List.Subset.trans (ih _) List.eraseP_subset
    · exact List.Subset.refl _

theorem Built.restamp (hbuilt : Built build st) : Built build (st.restamp key) := by
  intro entry hentry
  obtain ⟨old, hold, rfl⟩ := List.mem_map.mp hentry
  have hcache := hbuilt old hold
  by_cases hkey : old.1 = key
  · rw [if_pos hkey, ← hkey]
    exact hcache
  · rw [if_neg hkey]
    exact hcache

theorem Built.store (hbuilt : Built build st) (hother : ∀ entry ∈ st.byKey, entry.1 ≠ key) :
    Built build (st.store key (build key.1 key.2)) := by
  intro entry hentry
  rcases List.mem_cons.mp ((put_perm hother).mem_iff.mp (evict_subset _ _ hentry)) with rfl | hold
  · rfl
  · exact hbuilt entry hold

theorem ne_of_find_eq_none (hfind : st.find key = none) : ∀ entry ∈ st.byKey, entry.1 ≠ key := by
  rintro ⟨other, slot⟩ hentry rfl
  have hsome := find_isSome_iff.mpr ⟨slot, hentry⟩
  rw [hfind] at hsome
  cases hsome

/-- A call returns what is built for its key and keeps the slots so, also when the clock wraps. -/
theorem Built.getCache (hbuilt : Built build st) (epoch cacheSize : ℕ) :
    (st.getCache build epoch cacheSize).cache = build epoch cacheSize ∧
      Built build (st.getCache build epoch cacheSize).state := by
  rw [CacheState.getCache]
  cases hfind : st.find (epoch, cacheSize) with
  | some slot => exact ⟨hbuilt _ (mem_of_find_eq_some hfind), hbuilt.restamp⟩
  | none => exact ⟨rfl, hbuilt.store (ne_of_find_eq_none hfind)⟩

theorem built_empty : Built build empty := fun _ hentry => absurd hentry List.not_mem_nil

theorem Built.run (hbuilt : Built build st) (calls : List CacheCall) :
    Built build (st.run build calls) := by
  induction calls generalizing st with
  | nil => exact hbuilt
  | cons call calls ih =>
    apply ih
    cases call with
    | getCache epoch cacheSize => exact (hbuilt.getCache epoch cacheSize).2
    | cacheResident nTime params => exact hbuilt

theorem toNat_succ_clock (hwrap : st.clock.toNat + 1 < 2 ^ 64) :
    (st.clock + 1).toNat = st.clock.toNat + 1 := by
  rw [UInt64.toNat_add]
  exact Nat.mod_eq_of_lt hwrap

theorem Refines.getCache_built (hrefines : Refines build st caches) (epoch cacheSize : ℕ) :
    (st.getCache build epoch cacheSize).built = !caches.resident (epoch, cacheSize) := by
  rw [← hrefines.find_isSome]
  cases hfind : st.find (epoch, cacheSize) with
  | some slot =>
    rw [getCache, hfind]
    rfl
  | none =>
    rw [getCache, hfind]
    rfl

theorem Refines.restamp (hrefines : Refines build st caches)
    (hwrap : st.clock.toNat + 1 < 2 ^ 64) (hhit : caches.resident key = true) :
    Refines build (st.restamp key) (caches.touch key) := by
  have hclock : (st.clock + 1).toNat = caches.clock + 1 :=
    (toNat_succ_clock hwrap).trans (congrArg (· + 1) hrefines.clock_eq)
  have hslots : (caches.touch key).slots = caches.restamped key := if_pos hhit
  refine ⟨hclock, ?_, hrefines.built.restamp⟩
  rw [hslots, LruCache.restamped]
  refine (List.Perm.of_eq ?_).trans (hrefines.slots_perm.map _)
  rw [CacheState.restamp, List.map_map, List.map_map]
  apply List.map_congr_left
  intro entry _
  by_cases hkey : entry.1 = key
  · simp [stamped, hkey, hclock]
  · simp [stamped, hkey]

theorem Refines.store (hrefines : Refines build st caches)
    (hwrap : st.clock.toNat + 1 < 2 ^ 64) (hfind : st.find key = none) :
    Refines build (st.store key (build key.1 key.2)) (caches.touch key) := by
  have hclock : (st.clock + 1).toNat = caches.clock + 1 :=
    (toNat_succ_clock hwrap).trans (congrArg (· + 1) hrefines.clock_eq)
  have hother := ne_of_find_eq_none hfind
  have hmiss : ¬ caches.resident key = true := by
    rw [← hrefines.find_isSome, hfind]
    exact Bool.false_ne_true
  -- with the new slot the map is still the cache of recent keys with the new slot
  obtain ⟨entries, hentries⟩ : ∃ entries,
      entries = put key ⟨build key.1 key.2, st.clock + 1⟩ st.byKey := ⟨_, rfl⟩
  have hput : entries.Perm ((key, ⟨build key.1 key.2, st.clock + 1⟩) :: st.byKey) :=
    hentries ▸ put_perm hother
  have hextended : (entries.map stamped).Perm (caches.extended key) := by
    refine (hput.map stamped).trans ?_
    rw [List.map_cons, LruCache.extended, stamped, hclock]
    exact (hrefines.slots_perm.cons _).trans (List.perm_append_singleton _ _).symm
  have hbuilt := hrefines.built.store hother
  have hlength : entries.length = (caches.extended key).length := by
    rw [← hextended.length_eq, List.length_map]
  have hstate : (st.store key (build key.1 key.2)).byKey =
      evict (st.byKey.length + 1) entries := by
    rw [hentries]
    rfl
  rcases LruCache.perm_slotsAfter_of_miss hmiss with
    ⟨hkept, hroom⟩ | ⟨oldest, holdest, hfull, hperm⟩
  · have hslots : (caches.touch key).slots = caches.extended key := hkept
    rw [evict_of_length_le (hlength ▸ hroom)] at hstate
    exact ⟨hclock, hslots ▸ hstate ▸ hextended, hbuilt⟩
  · have hnodup : (entries.map Prod.fst).Nodup := by
      have hkeys := hextended.map Prod.fst
      rw [List.map_map] at hkeys
      exact hkeys.nodup_iff.mpr (LruCache.extended_keys_nodup hmiss)
    obtain ⟨victim, hvictim, hleast⟩ :=
      evict_of_length_eq st.byKey.length (hlength.trans hfull) hnodup
    rw [← hstate] at hvictim
    have hmapped := (hvictim.map stamped).symm.trans (hextended.trans hperm)
    -- the stamps differ, so the slot erased from the map is the oldest one
    have hsame : stamped victim = oldest := by
      have hmem : stamped victim ∈ caches.extended key :=
        hextended.mem_iff.mp (List.mem_map_of_mem (hvictim.mem_iff.mpr List.mem_cons_self))
      have hmem' : oldest ∈ caches.extended key := hperm.mem_iff.mpr List.mem_cons_self
      obtain ⟨entry, hentry, rfl⟩ := List.mem_map.mp (hextended.mem_iff.mpr hmem')
      apply List.inj_on_of_nodup_map LruCache.extended_stamps_nodup hmem hmem'
      exact le_antisymm (hleast entry hentry) (holdest _ hmem)
    rw [List.map_cons, hsame] at hmapped
    exact ⟨hclock, hmapped.cons_inv, hbuilt⟩

/-- **One call.** While the clock does not wrap, the map stays the cache of recent keys. -/
theorem Refines.getCache (hrefines : Refines build st caches)
    (hwrap : st.clock.toNat + 1 < 2 ^ 64) (epoch cacheSize : ℕ) :
    Refines build (st.getCache build epoch cacheSize).state (caches.touch (epoch, cacheSize)) := by
  rw [CacheState.getCache]
  cases hfind : st.find (epoch, cacheSize) with
  | some slot =>
    have hhit : caches.resident (epoch, cacheSize) = true := by
      rw [← hrefines.find_isSome, hfind]
      rfl
    exact hrefines.restamp hwrap hhit
  | none => exact hrefines.store hwrap hfind

theorem refines_empty : Refines build empty LruCache.empty := ⟨rfl, List.Perm.nil, built_empty⟩

theorem run_concat (calls : List CacheCall) (call : CacheCall) :
    st.run build (calls ++ [call]) = call.after build (st.run build calls) := by
  rw [run, List.foldl_append, List.foldl_cons, List.foldl_nil, run]

end CacheState

section Requests

variable {calls : List CacheCall}

theorem requests_getCache {epoch cacheSize : ℕ} :
    requests (calls ++ [.getCache epoch cacheSize]) = requests calls ++ [(epoch, cacheSize)] := by
  rw [requests, List.filterMap_append]
  rfl

theorem requests_cacheResident {nTime : UInt32} {params : Params} :
    requests (calls ++ [.cacheResident nTime params]) = requests calls := by
  rw [requests, List.filterMap_append]
  exact List.append_nil _

end Requests

namespace CacheState

variable {build : ℕ → ℕ → β}

/-- **Every sequence of calls.** The map stays the cache of recent keys of the requests. -/
theorem refines_run (calls : List CacheCall) (hcount : (requests calls).length < 2 ^ 64) :
    Refines build (empty.run build calls) (LruCache.empty.touchAll (requests calls)) := by
  induction calls using List.reverseRecOn with
  | nil => exact refines_empty
  | append_singleton calls call ih =>
    rw [run_concat]
    cases call with
    | getCache epoch cacheSize =>
      rw [requests_getCache, List.length_append, List.length_singleton] at hcount
      have hrefines := ih (by omega)
      have hclock := hrefines.clock_eq
      rw [LruCache.clock_touchAll] at hclock
      rw [requests_getCache, LruCache.touchAll_concat]
      apply hrefines.getCache
      rw [hclock]
      change 0 + _ + 1 < _
      omega
    | cacheResident nTime params =>
      rw [requests_cacheResident] at hcount ⊢
      exact ih hcount

end CacheState

/-- The most recently used keys of the requests, as many as the map has room for. -/
def recentKeys (calls : List CacheCall) : List (ℕ × ℕ) :=
  (LruCache.recency (requests calls)).take metaldagCacheEntries

section Recent

variable (keccak256 : Bytes → Bytes) (keccak512 : Bytes → Item)

/-- The state after calls that start with an empty map. -/
def cachesAfter (calls : List CacheCall) : CacheState (List Item) :=
  CacheState.empty.run (builtCache keccak256 keccak512) calls

/-- **Least recently used.** After every sequence of calls with fewer than `2 ^ 64` requests
the resident keys are the most recently used ones.  A further request builds a cache
exactly if its key is not one of them and in any case returns what `mkcache` computes for
it, and `CacheResident` answers for these keys and changes nothing. -/
theorem cachesAfter_recent (calls : List CacheCall) (hcount : (requests calls).length < 2 ^ 64) :
    ((cachesAfter keccak256 keccak512 calls).byKey.map Prod.fst).Perm (recentKeys calls) ∧
    (∀ epoch cacheSize : ℕ,
      ((cachesAfter keccak256 keccak512 calls).getCache (builtCache keccak256 keccak512)
        epoch cacheSize).cache = mkcache keccak512 cacheSize (seedForEpoch keccak256 epoch) ∧
      (((cachesAfter keccak256 keccak512 calls).getCache (builtCache keccak256 keccak512)
        epoch cacheSize).built = true ↔ (epoch, cacheSize) ∉ recentKeys calls)) ∧
    ∀ (nTime : UInt32) (params : Params),
      ((cachesAfter keccak256 keccak512 calls).cacheResident nTime params = true ↔
        cacheKey params nTime ∈ recentKeys calls) ∧
      (CacheCall.cacheResident nTime params).after (builtCache keccak256 keccak512)
        (cachesAfter keccak256 keccak512 calls) = cachesAfter keccak256 keccak512 calls := by
  have hrefines : CacheState.Refines (builtCache keccak256 keccak512)
      (cachesAfter keccak256 keccak512 calls) (LruCache.empty.touchAll (requests calls)) :=
    CacheState.refines_run calls hcount
  have horder : (LruCache.empty.touchAll (requests calls) : Caches).InOrder (recentKeys calls) :=
    LruCache.inOrder_touchAll (requests calls)
  refine ⟨?_, ?_, ?_⟩
  · obtain ⟨ordered, hperm, -, hkeys⟩ := horder
    have hmapped := (hrefines.slots_perm.trans hperm).map Prod.fst
    rw [List.map_map, hkeys] at hmapped
    exact hmapped
  · intro epoch cacheSize
    refine ⟨(hrefines.built.getCache epoch cacheSize).1, ?_⟩
    rw [hrefines.getCache_built, Bool.not_eq_true', ← horder.resident_iff, Bool.not_eq_true]
  · intro nTime params
    refine ⟨?_, rfl⟩
    rw [CacheState.cacheResident, hrefines.find_isSome, horder.resident_iff]

/-- Two keys used in turn. -/
theorem twoEpochs_recent :
    ((cachesAfter (fun _ => []) (fun _ => 0)
        [.getCache 0 128, .getCache 1 128, .getCache 0 128]).byKey.map Prod.fst).Perm
      [(0, 128), (1, 128)] :=
  (cachesAfter_recent (fun _ => []) (fun _ => 0)
    [.getCache 0 128, .getCache 1 128, .getCache 0 128] (by decide)).1

end Recent

/-! ## After the clock has wrapped -/

section Wrapped

/-- As many requests as the map has room for. -/
def sixRequests : List CacheCall :=
  [.getCache 1 128, .getCache 2 128, .getCache 3 128, .getCache 4 128, .getCache 5 128,
    .getCache 6 128]

/-- Another request repeated so often that the clock holds its largest value, and then
six other ones. -/
def wrappingCalls : List CacheCall :=
  List.replicate (2 ^ 64 - 2 + 1) (.getCache 0 128) ++ sixRequests

theorem run_replicate (n : ℕ) :
    CacheState.empty.run build (List.replicate (n + 1) (.getCache 0 128)) =
      ⟨[((0, 128), ⟨build 0 128, UInt64.ofNat (n + 1)⟩)], UInt64.ofNat (n + 1)⟩ := by
  induction n with
  | zero => rfl
  | succ n ih =>
    rw [List.replicate_succ', CacheState.run_concat, ih]
    rw [UInt64.ofNat_add (n + 1) 1]
    rfl

theorem run_replicate_append (n : ℕ) (more : List CacheCall) :
    CacheState.empty.run build (List.replicate (n + 1) (.getCache 0 128) ++ more) =
      CacheState.run build more
        ⟨[((0, 128), ⟨build 0 128, UInt64.ofNat (n + 1)⟩)], UInt64.ofNat (n + 1)⟩ := by
  rw [← run_replicate, CacheState.run, List.foldl_append]
  rfl

theorem requests_replicate_append (n : ℕ) (more : List CacheCall) :
    requests (List.replicate n (.getCache 0 128) ++ more) =
      List.replicate n (0, 128) ++ requests more := by
  induction n with
  | zero => rfl
  | succ n ih =>
    rw [List.replicate_succ, List.replicate_succ, List.cons_append, List.cons_append, ← ih]
    rfl

/-- The key of the first requests is not a recent one, but it is resident, and the key of
the request right after the wrap is a recent one and not resident. -/
theorem resident_after_wrap :
    (0, 128) ∉ recentKeys wrappingCalls ∧ (1, 128) ∈ recentKeys wrappingCalls ∧
      ((cachesAfter (fun _ => []) (fun _ => 0) wrappingCalls).find (0, 128)).isSome = true ∧
      ((cachesAfter (fun _ => []) (fun _ => 0) wrappingCalls).find (1, 128)).isSome = false := by
  have hrecent : recentKeys wrappingCalls =
      [(6, 128), (5, 128), (4, 128), (3, 128), (2, 128), (1, 128)] := by
    rw [recentKeys, wrappingCalls, requests_replicate_append, LruCache.recency_append,
      LruCache.recency_replicate]
    decide
  rw [hrecent, cachesAfter, wrappingCalls, run_replicate_append]
  decide +kernel

end Wrapped

end XCoin.MetalDag
