import XCoin.MetalDag.PrimeSizes
import XCoin.MetalDag.VerificationCache

/-!
# The proof-of-work hash and its reference

`hashimoto_light` of the node and of `metaldag-ref.cpp` mix 64 pages of the dataset, whose
items `calc_dataset_item` derives from the cache.  They differ in one type: the node
computes the index of an item with 64 bits, the reference with 32.  The low word of the
index enters the mixing on both sides, so only the item of the cache that the derivation
starts with can differ, and it does once a dataset has more than `2 ^ 32` items.  On mainnet
that is epoch 2017, which 32-bit times still reach.
-/

namespace XCoin.MetalDag

open Consensus

/-- The words of an item have numbers. -/
local instance neZero_itemWords : NeZero 16 := ⟨by decide⟩

/-- `DATASET_PARENTS`. -/
def datasetParents : ℕ := 256
/-- `ACCESSES`. -/
def accesses : ℕ := 64
/-- Items per mix. -/
def mixhashes : ℕ := mixBytes / hashBytes

/-- `fnv`, on 32-bit words. -/
def fnv (a b : UInt32) : UInt32 := a * 0x01000193 ^^^ b

/-- A word, little-endian. -/
def wordBytes (word : UInt32) : Bytes := Bytes.ofNatLE 4 word.toNat

section Hash

variable (keccak256 : Bytes → Bytes) (keccak512 : Bytes → Item)

/-- One round of the loop over the parents. -/
def mixParent (cache : List Item) (i32 : UInt32) (mix : Item) (j : ℕ) : Item :=
  let cacheIndex := fnv (i32 ^^^ UInt32.ofNat j) (mix (Fin.ofNat 16 j))
  fun k => fnv (mix k) (cache.getD (cacheIndex.toNat % cache.length) 0 k)

/-- The body of `calc_dataset_item`, from the item it starts with and the low word of the
index. -/
def datasetItem (cache : List Item) (start : ℕ) (i32 : UInt32) : Item :=
  let first := cache.getD start 0
  let mix := keccak512 (itemBytes (Function.update first 0 (first 0 ^^^ i32)))
  keccak512 (itemBytes ((List.range datasetParents).foldl (mixParent cache i32) mix))

/-- `calc_dataset_item` of the node. -/
def calcDatasetItem (cache : List Item) (i : ℕ) : Item :=
  datasetItem keccak512 cache (i % cache.length) (UInt32.ofNat i)

/-- `calc_dataset_item` of the reference. -/
def referenceDatasetItem (cache : List Item) (i : UInt32) : Item :=
  datasetItem keccak512 cache (i.toNat % cache.length) i

/-- One access: the hashes of the page replace `newdata`. -/
def mixPage (pageItem : UInt32 → Fin 2 → Item) (sw0 : UInt32) (mix : Fin 32 → UInt32) (i : ℕ) :
    Fin 32 → UInt32 :=
  let page := fnv (UInt32.ofNat i ^^^ sw0) (mix (Fin.ofNat 32 i))
  fun k => fnv (mix k) (pageItem page (Fin.ofNat 2 (k / 16)) (Fin.ofNat 16 k))

/-- The word `i` of `cmix`. -/
def compress (mix : Fin 32 → UInt32) (i : Fin 8) : UInt32 :=
  let word (k : ℕ) := mix (Fin.ofNat 32 (4 * i + k))
  fnv (fnv (fnv (word 0) (word 1)) (word 2)) (word 3)

/-- `HashimotoOut`. -/
structure HashimotoOut where
  mix : Bytes
  result : Bytes

/-- What both programs do with the items of a page. -/
def hashimoto (pageItem : UInt32 → Fin 2 → Item) (header : Bytes) (nonce : ℕ) : HashimotoOut :=
  let s := keccak512 (header ++ Bytes.ofNatLE 8 nonce)
  let mix := (List.range accesses).foldl (mixPage pageItem (s 0)) fun k => s (Fin.ofNat 16 k)
  let cmix := (List.ofFn (compress mix)).flatMap wordBytes
  ⟨cmix, keccak256 (itemBytes s ++ cmix)⟩

/-- The index `p + j` of the node. -/
def pageIndex (pages : ℕ) (value : UInt32) (j : Fin 2) : ℕ := value.toNat % pages * mixhashes + j

/-- `hashimoto_light` of the node, which keeps `cmix` to itself. -/
def hashimotoLight (fullSize : ℕ) (cache : List Item) : Bytes → ℕ → HashimotoOut :=
  let n := fullSize / hashBytes
  hashimoto keccak256 keccak512 fun value j =>
    calcDatasetItem keccak512 cache (pageIndex (n / mixhashes) value j)

/-- `hashimoto_light` of the reference. -/
def referenceHashimotoLight (fullSize : ℕ) (cache : List Item) : Bytes → ℕ → HashimotoOut :=
  let n := fullSize / hashBytes
  hashimoto keccak256 keccak512 fun value j =>
    referenceDatasetItem keccak512 cache
      (value % UInt32.ofNat (n / mixhashes) * UInt32.ofNat mixhashes + UInt32.ofNat j)

end Hash

/-! ## Where they agree -/

/-- The index of the reference is the low word of that of the node. -/
theorem reference_index (value : UInt32) {pages : ℕ} (hpages : pages < 2 ^ 32) (j : Fin 2) :
    value % UInt32.ofNat pages * UInt32.ofNat mixhashes + UInt32.ofNat j =
      UInt32.ofNat (pageIndex pages value j) := by
  have hvalue : value % UInt32.ofNat pages = UInt32.ofNat (value.toNat % pages) := by
    apply UInt32.toNat_inj.mp
    rw [UInt32.toNat_mod, UInt32.toNat_ofNat_of_lt' hpages, UInt32.toNat_ofNat_of_lt']
    exact (Nat.mod_le _ _).trans_lt value.toNat_lt
  rw [hvalue, pageIndex, UInt32.ofNat_add, UInt32.ofNat_mul]

/-- The pages of a dataset are the greatest prime number that its raw size allows. -/
theorem pages_fullSizeOf (params : Params) (epoch : ℕ) :
    IsGreatest (primesUpTo (max (rawFull params epoch) (mixBytes * 2) / mixBytes))
      (fullSizeOf params epoch / hashBytes / mixhashes) := by
  rw [Nat.div_div_eq_div_mul]
  exact (largestPrimeSized_spec (by decide) (le_max_right _ _)).2

/-- **Refinement.**  For every time before epoch 2017, the node hashes as the reference. -/
theorem hashimotoLight_eq_reference (keccak256 : Bytes → Bytes) (keccak512 : Bytes → Item)
    (nTime : UInt32) (cache : List Item) (header : Bytes) (nonce : ℕ)
    (htime : nTime < 4230144000) :
    hashimotoLight keccak256 keccak512 (getEpochSizing nTime mainParams).fullSize cache header
        nonce =
      referenceHashimotoLight keccak256 keccak512 (getEpochSizing nTime mainParams).fullSize
        cache header nonce := by
  have hepoch : epochOf mainParams nTime ≤ 2016 := by
    have hnat : nTime.toNat < 4230144000 := UInt32.lt_iff_toNat_lt.mp htime
    change (nTime.toNat - 1790380800) / 1209600 ≤ 2016
    omega
  have hraw : rawFull mainParams (epochOf mainParams nTime) ≤ 2 ^ 38 := by
    change (4294967296 + 134217728 * epochOf mainParams nTime) % 2 ^ 64 ≤ 2 ^ 38
    omega
  obtain ⟨⟨hprime, hle⟩, -⟩ := pages_fullSizeOf mainParams (epochOf mainParams nTime)
  set pages := fullSizeOf mainParams (epochOf mainParams nTime) / hashBytes / mixhashes
  have hbound : pages ≤ 2 ^ 31 := hle.trans
    ((Nat.div_le_div_right (max_le hraw (by decide))).trans_eq (by decide))
  have hitem : ∀ (value : UInt32) (j : Fin 2),
      calcDatasetItem keccak512 cache (pageIndex pages value j) =
        referenceDatasetItem keccak512 cache
          (value % UInt32.ofNat pages * UInt32.ofNat mixhashes + UInt32.ofNat j) := by
    intro value j
    have hmod := Nat.mod_lt value.toNat hprime.pos
    have hindex : pageIndex pages value j < 2 ^ 32 := by
      change value.toNat % pages * 2 + j < 2 ^ 32
      omega
    rw [reference_index value (by omega), calcDatasetItem, referenceDatasetItem,
      UInt32.toNat_ofNat_of_lt' hindex]
  change hashimoto _ _ (fun value j => calcDatasetItem keccak512 cache (pageIndex pages value j))
    header nonce = _
  simp only [hitem]
  rfl

/-! ## The hash of a header -/

/-- `PoWHash` and the caches after it. -/
def powHash (keccak256 : Bytes → Bytes) (keccak512 : Bytes → Item) (params : Params)
    (st : CacheState (List Item)) (header : BlockHeader) : Bytes × CacheState (List Item) :=
  let e := getEpochSizing header.nTime params
  if metaldagMaxCacheBytes < e.cacheSize then (List.replicate 32 0xff, st)
  else
    let cache := st.getCache (builtCache keccak256 keccak512) e.epoch e.cacheSize
    let hh := keccak256 ((serializeHeader header).take 76)
    ((hashimotoLight keccak256 keccak512 e.fullSize cache.cache hh header.nNonce.toNat).result,
      cache.state)

/-- **No history.**  Whatever the caches were used for before, the hash of a header is the one a
node with no cache computes. -/
theorem powHash_cachesAfter (keccak256 : Bytes → Bytes) (keccak512 : Bytes → Item)
    (calls : List CacheCall) (params : Params) (header : BlockHeader) :
    (powHash keccak256 keccak512 params (cachesAfter keccak256 keccak512 calls) header).1 =
      (powHash keccak256 keccak512 params .empty header).1 := by
  have hempty := @CacheState.built_empty _ (builtCache keccak256 keccak512)
  have hcache := fun epoch size => ((hempty.run calls).getCache epoch size).1.trans
    (hempty.getCache epoch size).1.symm
  simp only [powHash, cachesAfter]
  split_ifs
  · rfl
  · rw [hcache]

/-! ## Where they differ

From epoch 2017 on a dataset has more than `2 ^ 31 + 5` pages.  Keccak-512 and the cache are
chosen so that a dataset item is zero unless its derivation starts from item 10 of the cache
and the low word of its index is 10, and so that the last access is to page `2 ^ 31 + 5`: the
index `2 ^ 32 + 10` in the node, 10 in the reference. -/

section Differ

/-- Word 1 tells the two hashes of an item apart: the first one moves word 2 to word 3, where
no parent changes it, if word 0 is 10; the second one keeps word 3. -/
def markItem (item : Item) : Item := fun k =>
  if item 1 = 0 then
    if k = 1 then 0x80000000 else if k = 3 ∧ item 0 = 10 then item 2 else 0
  else if k = 3 then item 3 else 0

/-- A stand-in hash that marks the 40-byte seed input. -/
def markKeccak512 (bytes : Bytes) : Item :=
  if bytes.length = 40 then fun k => if k = 15 then 2887737336 else 0
  else markItem fun k => UInt32.ofNat (Bytes.toNatLE ((bytes.drop (4 * k)).take 4))

theorem markKeccak512_itemBytes (item : Item) : markKeccak512 (itemBytes item) = markItem item := by
  have hword : ∀ k : Fin 16, ((itemBytes item).drop (4 * k)).take 4 = wordBytes (item k) := by
    intro k
    fin_cases k <;> rfl
  have hread : ∀ word, UInt32.ofNat (Bytes.toNatLE (wordBytes word)) = word := by
    intro word
    rw [wordBytes, Bytes.toNatLE_ofNatLE word.toNat_lt, UInt32.ofNat_toNat]
  have hlength : (itemBytes item).length ≠ 40 := show 64 ≠ 40 by decide
  simp only [markKeccak512, hlength, if_false, hword, hread]

/-- The mark of the item 10. -/
def mark (start : ℕ) : UInt32 := if start = 10 then 0x80000000 else 0

/-- A cache of `n` items with the marks in word 2. -/
def markedCache (n : ℕ) : List Item :=
  (List.range n).map fun i k => if k = 2 then mark i else 0

variable {n : ℕ} (hn : 10 < n)

include hn

theorem markedCache_getD (i : ℕ) (k : Fin 16) :
    (markedCache n).getD i 0 k = if k = 2 then mark i else 0 := by
  rw [markedCache, List.getD_eq_getElem?_getD, List.getElem?_map]
  rcases Nat.lt_or_ge i n with hlt | hge
  · simp [hlt]
  · have hmark : mark i = 0 := if_neg (by omega)
    simp [Nat.not_lt.mpr hge, hmark]

theorem foldl_mixParent (i32 : UInt32) {k : Fin 16} (hk : k ≠ 2) (rounds : List ℕ) (mix : Item)
    (hword : fnv (mix k) 0 = mix k) :
    rounds.foldl (mixParent (markedCache n) i32) mix k = mix k := by
  induction rounds generalizing mix with
  | nil => rfl
  | cons j rounds ih =>
    have hnext : mixParent (markedCache n) i32 mix j k = mix k := by
      simp only [mixParent, markedCache_getD hn, if_neg hk, hword]
    rw [List.foldl_cons, ih _ (by rw [hnext, hword]), hnext]

theorem datasetItem_marked (start : ℕ) (i32 : UInt32) :
    datasetItem markKeccak512 (markedCache n) start i32 = fun k =>
      if k = 3 then if i32 = 10 then mark start else 0 else 0 := by
  set first := markItem (Function.update ((markedCache n).getD start 0) 0
    ((markedCache n).getD start 0 0 ^^^ i32)) with hfirst
  have hone : first 1 = 0x80000000 := by
    simp [hfirst, markItem, markedCache_getD hn, -List.getD_eq_getElem?_getD]
  have hthree : first 3 = if i32 = 10 then mark start else 0 := by
    simp [hfirst, markItem, markedCache_getD hn, -List.getD_eq_getElem?_getD]
  have hmark : fnv (first 3) 0 = first 3 := by
    rw [hthree]
    unfold mark
    split_ifs <;> decide
  have hkept : ∀ k, k ≠ 2 → fnv (first k) 0 = first k →
      (List.range datasetParents).foldl (mixParent (markedCache n) i32) first k = first k :=
    fun k hk => foldl_mixParent hn i32 hk _ first
  rw [datasetItem, markKeccak512_itemBytes, markKeccak512_itemBytes, ← hfirst]
  funext k
  rw [markItem, hkept 1 (by decide) (by rw [hone]; decide), hkept 3 (by decide) hmark, hone,
    hthree]
  rfl

omit hn

/-- The start of the mixing. -/
def seed : Item := markKeccak512 (List.replicate 32 0 ++ Bytes.ofNatLE 8 0)

/-- The value that chooses the page of an access, when all items before it are zero. -/
def pageValue (i : ℕ) : UInt32 := fnv (UInt32.ofNat i) (seed (Fin.ofNat 16 i) * 0x01000193 ^ i)

/-- Accesses to items that are zero only multiply the words. -/
theorem foldl_mixPage {pageItem : UInt32 → Fin 2 → Item} (count : ℕ)
    (hzero : ∀ i < count, ∀ j, pageItem (pageValue i) j = 0) :
    (List.range count).foldl (mixPage pageItem 0) (fun k : Fin 32 => seed (Fin.ofNat 16 k)) =
      fun k : Fin 32 => seed (Fin.ofNat 16 k) * 0x01000193 ^ count := by
  induction count with
  | zero => simp
  | succ count ih =>
    have hword : Fin.ofNat 16 (Fin.ofNat 32 count) = Fin.ofNat 16 count := by
      apply Fin.ext
      change count % 32 % 16 = count % 16
      omega
    have hvalue := hzero count (by omega)
    rw [pageValue] at hvalue
    rw [List.range_succ, List.foldl_append, ih fun i hi => hzero i (by omega)]
    funext k
    simp only [List.foldl_cons, List.foldl_nil, mixPage, UInt32.xor_zero, hword, hvalue]
    simp [fnv, pow_succ, mul_assoc]

/-- As many pages as the epochs from 2017 on have. -/
structure ManyPages (pages : ℕ) : Prop where
  ge : 2148532223 ≤ pages
  le : pages ≤ 2204106752

/-- Only the last access is to an index whose low word is 10. -/
theorem ManyPages.low_word_ne {pages : ℕ} (hpages : ManyPages pages) {i : ℕ} (hi : i < 63)
    (j : Fin 2) : UInt32.ofNat (pageIndex pages (pageValue i) j) ≠ 10 := by
  obtain ⟨hge, hle⟩ := hpages
  -- what is not below the number of pages is above them by more than 5
  have hvalue : ∀ i < 63, (pageValue i).toNat ≠ 5 ∧
      ((pageValue i).toNat < 2147483648 ∨ 2204106757 < (pageValue i).toNat) := by decide
  obtain ⟨hfive, hrange⟩ := hvalue i hi
  have hlt := (pageValue i).toNat_lt
  have hsplit : (pageValue i).toNat < pages ∨
      (pageValue i).toNat % pages = (pageValue i).toNat - pages := by
    rcases Nat.lt_or_ge (pageValue i).toNat pages with hsmall | hlarge
    · exact Or.inl hsmall
    · refine Or.inr ?_
      rw [Nat.mod_eq_sub_mod hlarge, Nat.mod_eq_of_lt (by omega)]
  intro hten
  have hindex : pageIndex pages (pageValue i) j % 2 ^ 32 = 10 := by
    rw [← UInt32.toNat_ofNat', hten]
    rfl
  change ((pageValue i).toNat % pages * 2 + j) % 2 ^ 32 = 10 at hindex
  rcases hsplit with hsmall | hlarge
  · rw [Nat.mod_eq_of_lt hsmall] at hindex
    omega
  · rw [hlarge] at hindex
    omega

/-- The first word of the digest is the mark of the item the last access starts from. -/
theorem hashimoto_marked {pages : ℕ} (hn : 10 < n) (hpages : ManyPages pages) (start : ℕ → ℕ) :
    (hashimoto (List.drop 64) markKeccak512 (fun value j =>
      datasetItem markKeccak512 (markedCache n) (start (pageIndex pages value j))
        (UInt32.ofNat (pageIndex pages value j))) (List.replicate 32 0) 0).result.take 4
      = wordBytes (mark (start (2 ^ 32 + 10))) := by
  simp only [datasetItem_marked hn]
  set pageItem : UInt32 → Fin 2 → Item := fun value j k =>
    if k = 3 then if UInt32.ofNat (pageIndex pages value j) = 10 then
      mark (start (pageIndex pages value j)) else 0 else 0 with hpageItem
  have hzero : ∀ i < 63, ∀ j, pageItem (pageValue i) j = 0 := by
    intro i hi j
    funext k
    simp only [hpageItem, if_neg (hpages.low_word_ne hi j), ite_self]
    rfl
  have hlast : pageIndex pages (pageValue 63) 0 = 2 ^ 32 + 10 := by
    have hge := hpages.ge
    rw [pageIndex, show (pageValue 63).toNat = 2147483653 by decide +kernel,
      Nat.mod_eq_of_lt (by omega)]
    rfl
  set mix := (List.range accesses).foldl (mixPage pageItem (seed 0)) fun k =>
    seed (Fin.ofNat 16 k) with hmix
  have hword : ∀ k : Fin 4, mix (Fin.ofNat 32 k) =
      if Fin.ofNat 16 k = 3 then mark (start (2 ^ 32 + 10)) else 0 := by
    intro k
    have hempty : ∀ k : Fin 4, seed (Fin.ofNat 16 (Fin.ofNat 32 k)) = 0 := by decide
    have hhalf : Fin.ofNat 2 ((Fin.ofNat 32 k : ℕ) / 16) = 0 := by
      revert k
      decide
    have hitem : pageItem (pageValue 63) 0 = fun k =>
        if k = 3 then mark (start (2 ^ 32 + 10)) else 0 := by
      simp only [hpageItem, hlast]
      rfl
    rw [hmix, show List.range accesses = List.range 63 ++ [63] from rfl, List.foldl_append,
      show seed 0 = 0 by decide, foldl_mixPage 63 hzero]
    change fnv (seed (Fin.ofNat 16 (Fin.ofNat 32 k)) * _)
      (pageItem (pageValue 63) (Fin.ofNat 2 ((Fin.ofNat 32 k : ℕ) / 16)) _) = _
    rw [hempty, zero_mul, hhalf, hitem]
    fin_cases k <;> exact UInt32.zero_xor
  have hdigest : compress mix 0 = mark (start (2 ^ 32 + 10)) := by
    change fnv (fnv (fnv (mix 0) (mix 1)) (mix 2)) (mix 3) = _
    rw [show mix 0 = 0 from hword 0, show mix 1 = 0 from hword 1, show mix 2 = 0 from hword 2,
      show mix 3 = _ from hword 3]
    exact UInt32.zero_xor
  rw [← hdigest]
  rfl

theorem length_markedCache : (markedCache n).length = n := by simp [markedCache]

variable {fullSize : ℕ} (hpages : ManyPages (fullSize / hashBytes / mixhashes))

include hn hpages

/-- The node starts from another item unless `n` divides `2 ^ 32`. -/
theorem hashimotoLight_marked (hdvd : ¬ n ∣ 2 ^ 32) :
    (hashimotoLight (List.drop 64) markKeccak512 fullSize (markedCache n)
      (List.replicate 32 0) 0).result.take 4 = wordBytes 0 := by
  have hstart : mark ((2 ^ 32 + 10) % n) = 0 := by
    refine if_neg fun hten => hdvd ?_
    have hmod : 2 ^ 32 + 10 ≡ 0 + 10 [MOD n] := hten.trans (Nat.mod_eq_of_lt hn).symm
    exact Nat.modEq_zero_iff_dvd.mp (Nat.ModEq.add_right_cancel' 10 hmod)
  unfold hashimotoLight
  simp only [calcDatasetItem, length_markedCache]
  exact (hashimoto_marked hn hpages fun index => index % n).trans (congrArg wordBytes hstart)

theorem referenceHashimotoLight_marked :
    (referenceHashimotoLight (List.drop 64) markKeccak512 fullSize (markedCache n)
      (List.replicate 32 0) 0).result.take 4 = wordBytes 0x80000000 := by
  have hindex := fun value => reference_index value (hpages.le.trans_lt (by decide))
  unfold referenceHashimotoLight
  simp only [referenceDatasetItem, hindex, length_markedCache]
  refine (hashimoto_marked hn hpages fun index => (UInt32.ofNat index).toNat % n).trans ?_
  exact congrArg wordBytes (if_pos (Nat.mod_eq_of_lt hn))

end Differ

/-- The pages from epoch 2017 to the last one of a 32-bit time. -/
theorem manyPages_fullSizeOf {epoch : ℕ} (hge : 2017 ≤ epoch) (hle : epoch ≤ 2070) :
    ManyPages (fullSizeOf mainParams epoch / hashBytes / mixhashes) := by
  have hbound : max (rawFull mainParams epoch) (mixBytes * 2) / mixBytes =
      33554432 + 1048576 * epoch := by
    change max ((4294967296 + 134217728 * epoch) % 2 ^ 64) 256 / 128 = _
    omega
  obtain ⟨hmem, hgreatest⟩ := pages_fullSizeOf mainParams epoch
  obtain ⟨⟨hprime, -⟩, -⟩ := pages_fullSizeOf mainParams 2017
  rw [show fullSizeOf mainParams 2017 / hashBytes / mixhashes = 2148532223 by decide +kernel]
    at hprime
  rw [hbound] at hmem hgreatest
  exact ⟨hgreatest ⟨hprime, by omega⟩, hmem.2.trans (by omega)⟩

theorem items_cacheSizeOf {epoch : ℕ} (hle : epoch ≤ 2070) :
    ∃ n, n * hashBytes = cacheSizeOf mainParams epoch ∧ 10 < n ∧ ¬ n ∣ 2 ^ 32 := by
  have hbound : 11 ≤ max (rawCache mainParams epoch) (hashBytes * 2) / hashBytes := by
    change 11 ≤ max ((4294967296 + 134217728 * epoch) % 2 ^ 64 / 128) 128 / 64
    omega
  obtain ⟨hdvd, ⟨hprime, -⟩, hgreatest⟩ := @largestPrimeSized_spec
    (max (rawCache mainParams epoch) (hashBytes * 2)) hashBytes (by decide) (le_max_right _ _)
  have heleven := hgreatest ⟨by norm_num, hbound⟩
  refine ⟨_, Nat.div_mul_cancel hdvd, heleven, fun hpow => ?_⟩
  exact absurd (Nat.le_of_dvd (by decide) (hprime.dvd_of_dvd_pow hpow)) (by omega)

/-- From epoch 2017 on there are Keccak functions and a cache for which the results differ. -/
theorem exists_ne_reference {nTime : UInt32} (htime : 4230144000 ≤ nTime) :
    ∃ (keccak256 : Bytes → Bytes) (keccak512 : Bytes → Item) (cache : List Item) (header : Bytes),
    cache.length * hashBytes = (getEpochSizing nTime mainParams).cacheSize ∧
    header.length = 32 ∧
    (hashimotoLight keccak256 keccak512 (getEpochSizing nTime mainParams).fullSize cache
        header 0).result ≠
      (referenceHashimotoLight keccak256 keccak512
        (getEpochSizing nTime mainParams).fullSize cache header 0).result := by
  have hepoch : 2017 ≤ epochOf mainParams nTime ∧ epochOf mainParams nTime ≤ 2070 := by
    have hge : 4230144000 ≤ nTime.toNat := UInt32.le_iff_toNat_le.mp htime
    have hlt := nTime.toNat_lt
    change 2017 ≤ (nTime.toNat - 1790380800) / 1209600 ∧
      (nTime.toNat - 1790380800) / 1209600 ≤ 2070
    omega
  have hpages := manyPages_fullSizeOf hepoch.1 hepoch.2
  obtain ⟨n, hsize, hn, hdvd⟩ := items_cacheSizeOf hepoch.2
  refine ⟨List.drop 64, markKeccak512, markedCache n, List.replicate 32 0, ?_, rfl, ?_⟩
  · rw [length_markedCache, hsize, getEpochSizing_cacheSize]
  · intro hsame
    have hnode := hashimotoLight_marked hn hpages hdvd
    rw [show fullSizeOf mainParams _ = (getEpochSizing nTime mainParams).fullSize from rfl,
      hsame] at hnode
    have hreference := referenceHashimotoLight_marked hn hpages
    exact absurd (hnode.symm.trans hreference) (by decide)

/-- **Refinement.** The node hashes as the reference exactly for the times before epoch 2017. -/
theorem hashimotoLight_eq_reference_iff (nTime : UInt32) :
    (∀ (keccak256 : Bytes → Bytes) (keccak512 : Bytes → Item) (cache : List Item)
      (header : Bytes) (nonce : ℕ),
      cache.length * hashBytes = (getEpochSizing nTime mainParams).cacheSize →
      header.length = 32 →
      hashimotoLight keccak256 keccak512 (getEpochSizing nTime mainParams).fullSize cache header
          nonce =
        referenceHashimotoLight keccak256 keccak512 (getEpochSizing nTime mainParams).fullSize
          cache header nonce) ↔ nTime < 4230144000 := by
  constructor
  · intro hsame
    by_contra hlate
    obtain ⟨keccak256, keccak512, cache, header, hsize, hlength, hne⟩ :=
      exists_ne_reference (UInt32.not_lt.mp hlate)
    have heq := hsame keccak256 keccak512 cache header 0 hsize hlength
    exact hne (congrArg HashimotoOut.result heq)
  · intro htime keccak256 keccak512 cache header nonce _ _
    exact hashimotoLight_eq_reference keccak256 keccak512 nTime cache header nonce htime

/-- The first time of epoch 2017, with a cache of the size of that epoch. -/
theorem hashimotoLight_ne_reference : ∃ (keccak256 : Bytes → Bytes) (keccak512 : Bytes → Item)
    (cache : List Item) (header : Bytes),
    cache.length * hashBytes = (getEpochSizing 4230144000 mainParams).cacheSize ∧
    header.length = 32 ∧
    (hashimotoLight keccak256 keccak512 (getEpochSizing 4230144000 mainParams).fullSize cache
        header 0).result ≠
      (referenceHashimotoLight keccak256 keccak512
        (getEpochSizing 4230144000 mainParams).fullSize cache header 0).result :=
  exists_ne_reference (UInt32.le_refl _)

end XCoin.MetalDag
