import Mathlib

/-!
# A cache that evicts the least recently used key

The keys of a bounded map, each with the value a clock had when the key was last
used.  A use of a resident key moves its stamp to the present.  A use of another
key is a miss: the key enters, and the slot with the oldest stamp leaves if the map
has become too large.

What is proved here is the order of use.  From the empty cache on, the resident keys are
the most recently used ones of the whole history, as many of them as there is room for.
-/

/-- The slots of the cache.  The order in which the map keeps them decides nothing,
because no two stamps are equal. -/
structure LruCache (κ : Type*) (capacity : ℕ) where
  slots : List (κ × ℕ)
  clock : ℕ
  keys_nodup : (slots.map Prod.fst).Nodup
  stamps_nodup : (slots.map Prod.snd).Nodup
  stamp_le_clock : ∀ slot ∈ slots, slot.2 ≤ clock
  length_le : slots.length ≤ capacity

namespace LruCache

variable {κ : Type*}

/-! ## The oldest slot -/

/-- The scan for the slot of the oldest stamp, `oldest` being the best so far. -/
def victim (oldest : κ × ℕ) : List (κ × ℕ) → κ × ℕ
  | [] => oldest
  | slot :: slots => victim (if slot.2 < oldest.2 then slot else oldest) slots

theorem victim_mem : ∀ (slots : List (κ × ℕ)) (oldest : κ × ℕ),
    victim oldest slots ∈ oldest :: slots := by
  intro slots
  induction slots with
  | nil => exact fun oldest => List.mem_singleton.mpr rfl
  | cons slot slots ih =>
    intro oldest
    rcases List.mem_cons.mp (ih (if slot.2 < oldest.2 then slot else oldest)) with hhead | htail
    · rw [victim, hhead]
      split <;> simp
    · exact List.mem_cons_of_mem _ (List.mem_cons_of_mem _ htail)

theorem victim_le : ∀ (slots : List (κ × ℕ)) (oldest : κ × ℕ), ∀ slot ∈ oldest :: slots,
    (victim oldest slots).2 ≤ slot.2 := by
  intro slots
  induction slots with
  | nil =>
    intro oldest slot hslot
    rw [List.mem_singleton.mp hslot, victim]
  | cons first slots ih =>
    intro oldest slot hslot
    -- the scan goes on from the older one of `oldest` and `first`
    have hstart := ih (if first.2 < oldest.2 then first else oldest) _ List.mem_cons_self
    have hbest : (if first.2 < oldest.2 then first else oldest).2 ≤ oldest.2 ∧
        (if first.2 < oldest.2 then first else oldest).2 ≤ first.2 := by
      split <;> omega
    rw [victim]
    rcases List.mem_cons.mp hslot with rfl | hrest
    · exact hstart.trans hbest.1
    rcases List.mem_cons.mp hrest with rfl | htail
    · exact hstart.trans hbest.2
    · exact ih _ slot (List.mem_cons_of_mem _ htail)

variable [DecidableEq κ]

/-- The loop that erases the oldest slot while there are too many. -/
def evict (capacity : ℕ) : ℕ → List (κ × ℕ) → List (κ × ℕ)
  | 0, slots => slots
  | _ + 1, [] => []
  | fuel + 1, slot :: slots =>
    if capacity < (slot :: slots).length then
      evict capacity fuel ((slot :: slots).erase (victim slot slots))
    else slot :: slots

theorem evict_of_length_le {capacity fuel : ℕ} {slots : List (κ × ℕ)}
    (hlength : slots.length ≤ capacity) : evict capacity fuel slots = slots := by
  cases fuel with
  | zero => rfl
  | succ fuel =>
    cases slots with
    | nil => rfl
    | cons slot slots => rw [evict, if_neg (Nat.not_lt.mpr hlength)]

/-- One slot too many: the loop takes out one slot, and its stamp is the oldest. -/
theorem evict_of_length_eq {capacity fuel : ℕ} {slots : List (κ × ℕ)}
    (hlength : slots.length = capacity + 1) :
    ∃ oldest ∈ slots, (∀ slot ∈ slots, oldest.2 ≤ slot.2) ∧
      evict capacity (fuel + 1) slots = slots.erase oldest := by
  cases slots with
  | nil => cases hlength
  | cons slot slots =>
    refine ⟨victim slot slots, victim_mem slots slot, victim_le slots slot, ?_⟩
    rw [evict, if_pos (by omega), evict_of_length_le]
    rw [List.length_erase_of_mem (victim_mem slots slot)]
    omega

/-! ## Using a key -/

section Use

variable {capacity : ℕ} (cache : LruCache κ capacity) (key : κ) {slot : κ × ℕ}

/-- Whether a key is resident. -/
def resident : Bool := cache.slots.any fun slot => decide (slot.1 = key)

variable {cache key}

theorem resident_iff : cache.resident key = true ↔ ∃ stamp, (key, stamp) ∈ cache.slots := by
  rw [resident, List.any_eq_true]
  constructor
  · rintro ⟨⟨other, stamp⟩, hmem, hkey⟩
    exact ⟨stamp, of_decide_eq_true hkey ▸ hmem⟩
  · rintro ⟨stamp, hmem⟩
    exact ⟨_, hmem, decide_eq_true rfl⟩

theorem not_resident_iff :
    ¬ cache.resident key = true ↔ ∀ slot ∈ cache.slots, slot.1 ≠ key := by
  rw [resident_iff]
  constructor
  · rintro habsent ⟨other, stamp⟩ hmem rfl
    exact habsent ⟨stamp, hmem⟩
  · rintro hother ⟨stamp, hmem⟩
    exact hother _ hmem rfl

variable (cache key)

/-- The slots after the use of a resident key. -/
def restamped : List (κ × ℕ) :=
  cache.slots.map fun slot => if slot.1 = key then (key, cache.clock + 1) else slot

/-- The slots after a miss, before one is evicted. -/
def extended : List (κ × ℕ) := cache.slots ++ [(key, cache.clock + 1)]

/-- The slots after the use of a key. -/
def slotsAfter : List (κ × ℕ) :=
  if cache.resident key then cache.restamped key
  else evict capacity (cache.extended key).length (cache.extended key)

variable {cache key}

theorem mem_restamped_iff : slot ∈ cache.restamped key ↔
    (slot ∈ cache.slots ∧ slot.1 ≠ key) ∨
      (slot = (key, cache.clock + 1) ∧ cache.resident key = true) := by
  rw [restamped, List.mem_map]
  constructor
  · rintro ⟨old, hmem, rfl⟩
    by_cases hkey : old.1 = key
    · rw [if_pos hkey]
      exact Or.inr ⟨rfl, resident_iff.mpr ⟨old.2, hkey ▸ hmem⟩⟩
    · rw [if_neg hkey]
      exact Or.inl ⟨hmem, hkey⟩
  · rintro (⟨hmem, hkey⟩ | ⟨rfl, hresident⟩)
    · exact ⟨slot, hmem, if_neg hkey⟩
    · obtain ⟨stamp, hmem⟩ := resident_iff.mp hresident
      exact ⟨_, hmem, if_pos rfl⟩

omit [DecidableEq κ] in
theorem mem_extended_iff :
    slot ∈ cache.extended key ↔ slot ∈ cache.slots ∨ slot = (key, cache.clock + 1) := by
  rw [extended, List.mem_append, List.mem_singleton]

theorem restamped_keys : (cache.restamped key).map Prod.fst = cache.slots.map Prod.fst := by
  rw [restamped, List.map_map]
  apply List.map_congr_left
  intro slot _
  by_cases hkey : slot.1 = key
  · simp [hkey]
  · simp [hkey]

omit [DecidableEq κ] in
theorem slot_eq_of_key {slot other : κ × ℕ} (hslot : slot ∈ cache.slots)
    (hother : other ∈ cache.slots) (hkey : slot.1 = other.1) : slot = other :=
  List.inj_on_of_nodup_map cache.keys_nodup hslot hother hkey

theorem restamped_stamps_nodup : ((cache.restamped key).map Prod.snd).Nodup := by
  -- slots with equal new stamps are one slot: the stamp of the present is only the key's
  rw [restamped, List.map_map]
  apply List.Nodup.map_on
  · intro slot hslot other hother hstamp
    have hle := cache.stamp_le_clock slot hslot
    have hle' := cache.stamp_le_clock other hother
    by_cases hkey : slot.1 = key <;> by_cases hkey' : other.1 = key
    · exact slot_eq_of_key hslot hother (hkey.trans hkey'.symm)
    · simp only [Function.comp_apply, if_pos hkey, if_neg hkey'] at hstamp
      omega
    · simp only [Function.comp_apply, if_neg hkey, if_pos hkey'] at hstamp
      omega
    · simp only [Function.comp_apply, if_neg hkey, if_neg hkey'] at hstamp
      exact List.inj_on_of_nodup_map cache.stamps_nodup hslot hother hstamp
  · exact cache.keys_nodup.of_map

theorem extended_keys_nodup (hmiss : ¬ cache.resident key = true) :
    ((cache.extended key).map Prod.fst).Nodup := by
  rw [extended, List.map_append, List.nodup_append]
  refine ⟨cache.keys_nodup, List.nodup_singleton _, ?_⟩
  intro old hold new hnew heq
  obtain ⟨slot, hslot, rfl⟩ := List.mem_map.mp hold
  rw [List.map_singleton, List.mem_singleton] at hnew
  exact not_resident_iff.mp hmiss slot hslot (heq.trans hnew)

omit [DecidableEq κ] in
theorem extended_stamps_nodup : ((cache.extended key).map Prod.snd).Nodup := by
  rw [extended, List.map_append, List.nodup_append]
  refine ⟨cache.stamps_nodup, List.nodup_singleton _, ?_⟩
  intro old hold new hnew heq
  obtain ⟨slot, hslot, rfl⟩ := List.mem_map.mp hold
  have hle := cache.stamp_le_clock slot hslot
  rw [List.map_singleton, List.mem_singleton] at hnew
  omega

omit [DecidableEq κ] in
theorem length_extended : (cache.extended key).length = cache.slots.length + 1 := by
  rw [extended, List.length_append, List.length_singleton]

/-- A miss either keeps all slots or takes out one of the oldest stamp. -/
theorem slotsAfter_of_miss (hmiss : ¬ cache.resident key = true) :
    (cache.slotsAfter key = cache.extended key ∧ (cache.extended key).length ≤ capacity) ∨
      ∃ oldest ∈ cache.extended key, (∀ slot ∈ cache.extended key, oldest.2 ≤ slot.2) ∧
        (cache.extended key).length = capacity + 1 ∧
        cache.slotsAfter key = (cache.extended key).erase oldest := by
  have hlength := cache.length_le
  rw [slotsAfter, if_neg hmiss, length_extended]
  rcases Nat.lt_or_ge cache.slots.length capacity with hroom | hfull
  · exact Or.inl ⟨evict_of_length_le (by rw [length_extended]; omega), hroom⟩
  · obtain ⟨oldest, hmem, holdest, herase⟩ :=
      @evict_of_length_eq κ _ capacity cache.slots.length (cache.extended key)
        (by rw [length_extended]; omega)
    exact Or.inr ⟨oldest, hmem, holdest, by omega, herase⟩

theorem perm_slotsAfter_of_miss (hmiss : ¬ cache.resident key = true) :
    (cache.slotsAfter key = cache.extended key ∧ (cache.extended key).length ≤ capacity) ∨
      ∃ oldest, (∀ slot ∈ cache.extended key, oldest.2 ≤ slot.2) ∧
        (cache.extended key).length = capacity + 1 ∧
        (cache.extended key).Perm (oldest :: cache.slotsAfter key) := by
  rcases slotsAfter_of_miss hmiss with hkept | ⟨oldest, hmem, holdest, hfull, herase⟩
  · exact Or.inl hkept
  · exact Or.inr ⟨oldest, holdest, hfull, herase ▸ List.perm_cons_erase hmem⟩

theorem mem_extended_of_slotsAfter (hmiss : ¬ cache.resident key = true)
    (hslot : slot ∈ cache.slotsAfter key) : slot ∈ cache.extended key := by
  rcases slotsAfter_of_miss hmiss with ⟨hkept, -⟩ | ⟨oldest, -, -, -, herase⟩
  · exact hkept ▸ hslot
  · exact List.mem_of_mem_erase (herase ▸ hslot)

theorem slotsAfter_keys_nodup : ((cache.slotsAfter key).map Prod.fst).Nodup := by
  by_cases hhit : cache.resident key = true
  · rw [slotsAfter, if_pos hhit, restamped_keys]
    exact cache.keys_nodup
  · rcases slotsAfter_of_miss hhit with ⟨hkept, -⟩ | ⟨oldest, -, -, -, herase⟩
    · exact hkept ▸ extended_keys_nodup hhit
    · rw [herase]
      exact (List.erase_sublist.map _).nodup (extended_keys_nodup hhit)

theorem slotsAfter_stamps_nodup : ((cache.slotsAfter key).map Prod.snd).Nodup := by
  by_cases hhit : cache.resident key = true
  · rw [slotsAfter, if_pos hhit]
    exact restamped_stamps_nodup
  · rcases slotsAfter_of_miss hhit with ⟨hkept, -⟩ | ⟨oldest, -, -, -, herase⟩
    · exact hkept ▸ extended_stamps_nodup
    · rw [herase]
      exact (List.erase_sublist.map _).nodup extended_stamps_nodup

theorem slotsAfter_stamp_le (hslot : slot ∈ cache.slotsAfter key) : slot.2 ≤ cache.clock + 1 := by
  by_cases hhit : cache.resident key = true
  · rw [slotsAfter, if_pos hhit] at hslot
    rcases mem_restamped_iff.mp hslot with ⟨hold, -⟩ | ⟨rfl, -⟩
    · exact (cache.stamp_le_clock slot hold).trans (Nat.le_succ _)
    · exact le_rfl
  · rcases mem_extended_iff.mp (mem_extended_of_slotsAfter hhit hslot) with hold | rfl
    · exact (cache.stamp_le_clock slot hold).trans (Nat.le_succ _)
    · exact le_rfl

theorem length_slotsAfter_le : (cache.slotsAfter key).length ≤ capacity := by
  by_cases hhit : cache.resident key = true
  · rw [slotsAfter, if_pos hhit, restamped, List.length_map]
    exact cache.length_le
  · rcases slotsAfter_of_miss hhit with ⟨hkept, hlength⟩ | ⟨oldest, hmem, -, hlength, herase⟩
    · exact hkept ▸ hlength
    · rw [herase, List.length_erase_of_mem hmem]
      omega

variable (cache key)

/-- The cache after the use of a key. -/
def touch : LruCache κ capacity where
  slots := cache.slotsAfter key
  clock := cache.clock + 1
  keys_nodup := slotsAfter_keys_nodup
  stamps_nodup := slotsAfter_stamps_nodup
  stamp_le_clock _ hslot := slotsAfter_stamp_le hslot
  length_le := length_slotsAfter_le

/-- Nothing is resident. -/
def empty : LruCache κ capacity where
  slots := []
  clock := 0
  keys_nodup := List.nodup_nil
  stamps_nodup := List.nodup_nil
  stamp_le_clock _ hslot := absurd hslot List.not_mem_nil
  length_le := Nat.zero_le _

variable {cache key}

end Use

/-! ## Runs -/

section Runs

variable {capacity : ℕ} {cache : LruCache κ capacity} {key other : κ}

/-- The cache after a run. -/
def touchAll (cache : LruCache κ capacity) (keys : List κ) : LruCache κ capacity :=
  keys.foldl touch cache

theorem touchAll_concat {keys : List κ} :
    cache.touchAll (keys ++ [key]) = (cache.touchAll keys).touch key := by
  rw [touchAll, List.foldl_append, List.foldl_cons, List.foldl_nil, touchAll]

theorem clock_touchAll (keys : List κ) :
    (cache.touchAll keys).clock = cache.clock + keys.length := by
  induction keys using List.reverseRecOn with
  | nil => rfl
  | append_singleton keys key ih =>
    rw [touchAll_concat, List.length_append, List.length_singleton, ← Nat.add_assoc, ← ih]
    rfl

end Runs

/-! ## The order of use -/

section Recency

variable (history : List κ)

/-- The distinct keys of a history, the most recently used one first. -/
def recency (history : List κ) : List κ := history.dedup.reverse

theorem nodup_recency : (recency history).Nodup :=
  List.nodup_reverse.mpr (List.nodup_dedup history)

/-- `dedup` keeps the last of equal keys, so a use moves the key to the end. -/
theorem dedup_concat (key : κ) :
    (history ++ [key]).dedup =
      history.dedup.filter (fun other => decide (other ≠ key)) ++ [key] := by
  induction history with
  | nil => rfl
  | cons first rest ih =>
    rw [List.cons_append]
    by_cases hrest : first ∈ rest
    · rw [List.dedup_cons_of_mem (List.mem_append_left _ hrest), ih,
        List.dedup_cons_of_mem hrest]
    · rw [List.dedup_cons_of_notMem hrest]
      by_cases hkey : first = key
      · subst hkey
        rw [List.dedup_cons_of_mem (List.mem_append_right _ List.mem_cons_self), ih,
          List.filter_cons_of_neg (by simp)]
      · rw [List.dedup_cons_of_notMem (by simp [hrest, hkey]), ih,
          List.filter_cons_of_pos (by simp [hkey]), List.cons_append]

theorem recency_concat (key : κ) :
    recency (history ++ [key]) =
      key :: (recency history).filter (fun other => decide (other ≠ key)) := by
  rw [recency, dedup_concat, List.reverse_append, List.reverse_singleton, List.singleton_append,
    ← List.filter_reverse, recency]

theorem recency_replicate (key : κ) (n : ℕ) : recency (List.replicate (n + 1) key) = [key] := by
  rw [recency, List.replicate_dedup (Nat.succ_ne_zero n), List.reverse_singleton]

theorem recency_append (history keys : List κ) :
    recency (history ++ keys) =
      keys.foldl (fun order key => key :: order.filter fun other => decide (other ≠ key))
        (recency history) := by
  induction keys using List.reverseRecOn with
  | nil => rw [List.append_nil, List.foldl_nil]
  | append_singleton keys key ih =>
    rw [← List.append_assoc, recency_concat, ih, List.foldl_append, List.foldl_cons,
      List.foldl_nil]

theorem take_filter_of_mem {key : κ} : ∀ {keys : List κ} (n : ℕ), keys.Nodup →
    key ∈ keys.take (n + 1) →
      (keys.filter fun other => decide (other ≠ key)).take n =
        (keys.take (n + 1)).filter fun other => decide (other ≠ key) := by
  intro keys
  induction keys with
  | nil => intro n _ hmem; cases hmem
  | cons first rest ih =>
    intro n hnodup hmem
    obtain ⟨hfirst, hrest⟩ := List.nodup_cons.mp hnodup
    by_cases hkey : first = key
    · subst hkey
      have hother : ∀ other ∈ rest, decide (other ≠ first) = true := by
        intro other hother
        exact decide_eq_true fun heq => hfirst (heq ▸ hother)
      rw [List.filter_cons_of_neg (by simp), List.filter_eq_self.mpr hother, List.take_succ_cons,
        List.filter_cons_of_neg (by simp), List.filter_eq_self.mpr]
      exact fun other hmem => hother other (List.mem_of_mem_take hmem)
    · rw [List.take_succ_cons] at hmem ⊢
      rcases List.mem_cons.mp hmem with heq | hmem
      · exact absurd heq.symm hkey
      cases n with
      | zero => cases hmem
      | succ n =>
        rw [List.filter_cons_of_pos (by simp [hkey]), List.filter_cons_of_pos (by simp [hkey]),
          List.take_succ_cons, ih n hrest hmem]

theorem take_filter_of_notMem {key : κ} : ∀ {keys : List κ} (n : ℕ), key ∉ keys.take n →
    (keys.filter fun other => decide (other ≠ key)).take n = keys.take n := by
  intro keys
  induction keys with
  | nil => exact fun n _ => rfl
  | cons first rest ih =>
    intro n habsent
    cases n with
    | zero => rfl
    | succ n =>
      rw [List.take_succ_cons, List.mem_cons, not_or] at habsent
      have hkey : first ≠ key := fun h => habsent.1 h.symm
      rw [List.filter_cons_of_pos (by simp [hkey]), List.take_succ_cons, List.take_succ_cons,
        ih n habsent.2]

variable {capacity : ℕ} {cache : LruCache κ capacity} {keys : List κ} {key : κ}

/-- The resident keys are the given ones, from the youngest stamp to the oldest. -/
def InOrder (cache : LruCache κ capacity) (keys : List κ) : Prop :=
  ∃ ordered : List (κ × ℕ), cache.slots.Perm ordered ∧
    ordered.Pairwise (fun young old => old.2 < young.2) ∧ ordered.map Prod.fst = keys

theorem InOrder.resident_iff (horder : cache.InOrder keys) :
    cache.resident key = true ↔ key ∈ keys := by
  obtain ⟨ordered, hperm, -, rfl⟩ := horder
  rw [LruCache.resident_iff, List.mem_map]
  constructor
  · rintro ⟨stamp, hmem⟩
    exact ⟨_, hperm.mem_iff.mp hmem, rfl⟩
  · rintro ⟨⟨other, stamp⟩, hmem, rfl⟩
    exact ⟨stamp, hperm.mem_iff.mpr hmem⟩

omit [DecidableEq κ] in
theorem InOrder.length_eq (horder : cache.InOrder keys) : cache.slots.length = keys.length := by
  obtain ⟨ordered, hperm, -, rfl⟩ := horder
  rw [hperm.length_eq, List.length_map]

omit [DecidableEq κ] in
theorem inOrder_empty : (empty : LruCache κ capacity).InOrder [] :=
  ⟨[], List.Perm.nil, List.Pairwise.nil, rfl⟩

omit [DecidableEq κ] in
theorem pairwise_present {cache : LruCache κ capacity} {ordered : List (κ × ℕ)}
    (hslots : ∀ slot ∈ ordered, slot ∈ cache.slots)
    (hsorted : ordered.Pairwise fun young old => old.2 < young.2) :
    ((key, cache.clock + 1) :: ordered).Pairwise fun young old => old.2 < young.2 := by
  refine List.pairwise_cons.mpr ⟨?_, hsorted⟩
  intro slot hslot
  exact Nat.lt_succ_of_le (cache.stamp_le_clock slot (hslots slot hslot))

theorem perm_map_restamp {slots : List (κ × ℕ)} (hnodup : (slots.map Prod.fst).Nodup)
    {now : ℕ} (hmem : key ∈ slots.map Prod.fst) :
    (slots.map fun slot => if slot.1 = key then (key, now) else slot).Perm
      ((key, now) :: slots.filter fun slot => decide (slot.1 ≠ key)) := by
  induction slots with
  | nil => cases hmem
  | cons first rest ih =>
    rw [List.map_cons, List.nodup_cons] at hnodup
    by_cases hkey : first.1 = key
    · have hother : ∀ slot ∈ rest, slot.1 ≠ key := by
        intro slot hslot heq
        exact hnodup.1 (List.mem_map.mpr ⟨slot, hslot, heq.trans hkey.symm⟩)
      rw [List.map_cons, if_pos hkey, List.filter_cons_of_neg (by simp [hkey]),
        List.filter_eq_self.mpr (fun slot hslot => decide_eq_true (hother slot hslot))]
      apply List.Perm.cons
      rw [List.map_congr_left (fun slot hslot => if_neg (hother slot hslot)), List.map_id']
    · rw [List.map_cons, if_neg hkey, List.filter_cons_of_pos (by simp [hkey])]
      have hrest : key ∈ rest.map Prod.fst := by
        rcases List.mem_cons.mp hmem with heq | hrest
        · exact absurd heq.symm hkey
        · exact hrest
      exact ((ih hnodup.2 hrest).cons first).trans (List.Perm.swap _ _ _)

theorem map_fst_filter (slots : List (κ × ℕ)) :
    (slots.filter fun slot => decide (slot.1 ≠ key)).map Prod.fst =
      (slots.map Prod.fst).filter fun other => decide (other ≠ key) := by
  rw [List.filter_map]
  rfl

theorem erase_oldest {front : List (κ × ℕ)} {last oldest : κ × ℕ}
    (hsorted : (front ++ [last]).Pairwise fun young old => old.2 < young.2)
    (hmem : oldest ∈ front ++ [last]) (holdest : oldest.2 ≤ last.2) :
    (front ++ [last]).erase oldest = front := by
  have hyounger : ∀ slot ∈ front, last.2 < slot.2 := by
    intro slot hslot
    exact (List.pairwise_append.mp hsorted).2.2 slot hslot last List.mem_cons_self
  have hlast : oldest = last := by
    rcases List.mem_append.mp hmem with hfront | hlast
    · exact absurd (hyounger oldest hfront) (Nat.not_lt.mpr holdest)
    · exact List.mem_singleton.mp hlast
  have hnot : last ∉ front := fun h => lt_irrefl _ (hyounger last h)
  rw [hlast, List.erase_append_right _ hnot, List.erase_cons_head, List.append_nil]

theorem InOrder.touch_of_hit (horder : cache.InOrder keys) (hhit : cache.resident key = true) :
    (cache.touch key).InOrder (key :: keys.filter fun other => decide (other ≠ key)) := by
  obtain ⟨ordered, hperm, hsorted, rfl⟩ := horder
  obtain ⟨stamp, hslot⟩ := LruCache.resident_iff.mp hhit
  refine ⟨(key, cache.clock + 1) :: ordered.filter fun slot => decide (slot.1 ≠ key), ?_, ?_, ?_⟩
  · change (cache.slotsAfter key).Perm _
    rw [slotsAfter, if_pos hhit]
    exact (perm_map_restamp cache.keys_nodup (List.mem_map.mpr ⟨_, hslot, rfl⟩)).trans
      ((hperm.filter _).cons _)
  · exact pairwise_present
      (fun slot h => hperm.mem_iff.mpr (List.mem_of_mem_filter h)) (hsorted.filter _)
  · rw [List.map_cons, map_fst_filter]

theorem InOrder.touch_of_miss {capacity : ℕ} {cache : LruCache κ (capacity + 1)}
    (horder : cache.InOrder keys) (hmiss : ¬ cache.resident key = true) :
    (cache.touch key).InOrder (key :: keys.take capacity) := by
  have hlength := horder.length_eq
  obtain ⟨ordered, hperm, hsorted, rfl⟩ := horder
  have hmem : ∀ slot ∈ ordered, slot ∈ cache.slots := fun slot h => hperm.mem_iff.mpr h
  have hperm' : (cache.extended key).Perm ((key, cache.clock + 1) :: ordered) :=
    List.perm_append_comm.trans (hperm.cons _)
  have hsorted' : ((key, cache.clock + 1) :: ordered).Pairwise fun young old => old.2 < young.2 :=
    pairwise_present hmem hsorted
  rw [List.length_map] at hlength
  rcases slotsAfter_of_miss hmiss with ⟨hkept, hroom⟩ | ⟨oldest, hold, holdest, hfull, herase⟩
  · have hslots : (cache.touch key).slots = cache.extended key := hkept
    refine ⟨_, hslots ▸ hperm', hsorted', ?_⟩
    rw [length_extended] at hroom
    rw [List.map_cons, List.take_of_length_le (by rw [List.length_map]; omega)]
  · have hslots : (cache.touch key).slots = (cache.extended key).erase oldest := herase
    rw [length_extended, hlength] at hfull
    obtain ⟨front, last, rfl⟩ : ∃ front last, ordered = front ++ [last] := by
      refine ⟨ordered.dropLast, ordered.getLast ?_, (List.dropLast_append_getLast _).symm⟩
      rintro rfl
      cases hfull
    have herased : (((key, cache.clock + 1) :: front) ++ [last]).erase oldest =
        (key, cache.clock + 1) :: front :=
      erase_oldest hsorted' (hperm'.mem_iff.mp hold) (holdest last (hperm'.mem_iff.mpr (by simp)))
    refine ⟨(key, cache.clock + 1) :: front, ?_, ?_, ?_⟩
    · rw [hslots, ← herased]
      exact hperm'.erase oldest
    · exact List.Pairwise.sublist (List.sublist_append_left _ [last]) hsorted'
    · rw [List.length_append, List.length_singleton] at hfull
      rw [List.map_cons, List.map_append, List.take_append_of_le_length
        (by rw [List.length_map]; omega), List.take_of_length_le (by rw [List.length_map]; omega)]

/-- **Order of use.** A use moves the key to the front of the order, and of the order the
cache holds as much as it has room for. -/
theorem InOrder.touch {cache : LruCache κ (capacity + 1)} (hnodup : keys.Nodup)
    (horder : cache.InOrder (keys.take (capacity + 1))) (key : κ) :
    (cache.touch key).InOrder
      ((key :: keys.filter fun other => decide (other ≠ key)).take (capacity + 1)) := by
  have hresident : cache.resident key = true ↔ key ∈ keys.take (capacity + 1) :=
    horder.resident_iff
  rw [List.take_succ_cons]
  by_cases hhit : cache.resident key = true
  · rw [take_filter_of_mem capacity hnodup (hresident.mp hhit)]
    exact horder.touch_of_hit hhit
  · have hout : key ∉ keys.take capacity := fun h =>
      hhit (hresident.mpr (List.take_subset_take_left _ (Nat.le_succ capacity) h))
    rw [take_filter_of_notMem capacity hout]
    have hkeys := horder.touch_of_miss hhit
    rwa [List.take_take, min_eq_left (Nat.le_succ capacity)] at hkeys

/-- **Order of use, whole run.** What is resident after a history are the most recently
used of its keys. -/
theorem inOrder_touchAll :
    ((empty : LruCache κ (capacity + 1)).touchAll history).InOrder
      ((recency history).take (capacity + 1)) := by
  induction history using List.reverseRecOn with
  | nil => exact inOrder_empty
  | append_singleton history key ih =>
    rw [recency_concat, touchAll_concat]
    exact ih.touch (nodup_recency history) key

end Recency

end LruCache
