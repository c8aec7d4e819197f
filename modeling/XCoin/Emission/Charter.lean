import XCoin.Emission.Subsidy

/-!
# The emission the charter defines

Section 4 of the charter states the reward of every block in words.  Here those
words are a predicate on reward functions, `CharterSchedule`, with one field for
each of its sentences; "not yet scheduled" is literally the cap less the rewards
of all earlier blocks.  The predicate determines the reward of every height
(`CharterSchedule.ext`), because each clause only looks at earlier blocks.

The mainnet table satisfies it.  The argument runs step by step: `CharterStep`
carries the base and the unscheduled amount from one step of 110,000 blocks to
the next, `walkAgrees` checks that every step up to the closing one lies inside
one row of the table that pays the step's reward, and
`walk_tracks` shows that the amount carried is the one the
charter speaks of.
-/

namespace XCoin.Charter

open XCoin.Consensus

variable {step : CharterStep} {h : ℤ}

/-! ## Section 4 as a predicate -/

/-- The blocks of one step. -/
def stepBlocks : ℤ := 110000

/-- 0.1 XID. -/
def tenthXid : ℤ := 10000000

/-- The next base, both in hundredths of an XID. -/
def nextBase (n : ℕ) : ℕ := max (n - n / 10) 150

/-- The base of step `s` in hundredths of an XID; 50 XID before step 2. -/
def base : ℕ → ℕ
  | 0 => 5000
  | 1 => 5000
  | s + 2 => nextBase (base (s + 1))

/-- What is not yet scheduled after block `n`: the cap less the rewards assigned
to blocks `1` to `n`. -/
noncomputable def unscheduled (reward : ℤ → ℤ) (n : ℤ) : ℤ :=
  10 ^ 16 - ∑ h ∈ Finset.Icc 1 n, reward h

/-- What every block of step `s` is paid: its base, or one 1,100,000th of what is
not yet scheduled at the start of the step, rounded down, whichever is less. -/
noncomputable def stepReward (reward : ℤ → ℤ) (s : ℕ) : ℤ :=
  min (base s * 1000000) (unscheduled reward (stepBlocks * s) / 1100000)

/-- Section 4 of the charter. -/
structure CharterSchedule (reward : ℤ → ℤ) : Prop where
  none_before : ∀ h, h ≤ 0 → reward h = 0
  ramp_first : ∀ h, 1 ≤ h → h ≤ 20000 → reward h = 625000000
  ramp_second : ∀ h, 20001 ≤ h → h ≤ 40000 → reward h = 1250000000
  ramp_third : ∀ h, 40001 ≤ h → h ≤ 60000 → reward h = 2500000000
  plateau : ∀ h, 60001 ≤ h → h ≤ 220000 → reward h = 5000000000
  /-- Steps before the closing one pay the step reward. -/
  step : ∀ s, 2 ≤ s → (∀ r, 2 ≤ r → r ≤ s → tenthXid ≤ stepReward reward r) →
    ∀ h, stepBlocks * s + 1 ≤ h → h ≤ stepBlocks * (s + 1) → reward h = stepReward reward s
  /-- From the first step that would pay less than 0.1 XID on, every block pays
  0.1 XID while that much is unscheduled; the block that leaves less than 0.1 XID
  also mints what is left. -/
  closing : ∀ s, 2 ≤ s → (∀ r, 2 ≤ r → r < s → tenthXid ≤ stepReward reward r) →
    stepReward reward s < tenthXid → ∀ h, stepBlocks * s + 1 ≤ h →
      reward h =
        if unscheduled reward (h - 1) < tenthXid then 0
        else if unscheduled reward (h - 1) - tenthXid < tenthXid then unscheduled reward (h - 1)
        else tenthXid

/-! ## The predicate determines the rewards -/

theorem unscheduled_congr {reward other : ℤ → ℤ} {n : ℤ} (h : ∀ m, m ≤ n → reward m = other m) :
    unscheduled reward n = unscheduled other n := by
  unfold unscheduled
  rw [Finset.sum_congr rfl fun m hm => h m (Finset.mem_Icc.mp hm).2]

theorem stepReward_congr {reward other : ℤ → ℤ} {s : ℕ}
    (h : ∀ m, m ≤ stepBlocks * s → reward m = other m) :
    stepReward reward s = stepReward other s := by
  unfold stepReward
  rw [unscheduled_congr h]

theorem CharterSchedule.agree_at {reward other : ℤ → ℤ} (hr : CharterSchedule reward)
    (ho : CharterSchedule other) (hbefore : ∀ m, m < h → reward m = other m) :
    reward h = other h := by
  rcases le_or_gt h 0 with h0 | h0
  · rw [hr.none_before h h0, ho.none_before h h0]
  rcases le_or_gt h 20000 with h1 | h1
  · rw [hr.ramp_first h h0 h1, ho.ramp_first h h0 h1]
  rcases le_or_gt h 40000 with h2 | h2
  · rw [hr.ramp_second h h1 h2, ho.ramp_second h h1 h2]
  rcases le_or_gt h 60000 with h3 | h3
  · rw [hr.ramp_third h h2 h3, ho.ramp_third h h2 h3]
  rcases le_or_gt h 220000 with h4 | h4
  · rw [hr.plateau h h3 h4, ho.plateau h h3 h4]
  -- The step `s` of block `h`; everything the clauses look at lies before `h`.
  obtain ⟨s, hs⟩ := Int.eq_ofNat_of_zero_le (show 0 ≤ (h - 1) / stepBlocks by
    unfold stepBlocks; omega)
  have hstep : 2 ≤ s ∧ stepBlocks * s + 1 ≤ h ∧ h ≤ stepBlocks * (s + 1) := by
    unfold stepBlocks at hs ⊢
    omega
  have hrewards : ∀ r : ℕ, r ≤ s → stepReward reward r = stepReward other r := by
    intro r hrs
    refine stepReward_congr fun m hm => hbefore m ?_
    have : stepBlocks * r ≤ stepBlocks * s := by
      unfold stepBlocks
      omega
    omega
  by_cases hopen : ∀ r, 2 ≤ r → r ≤ s → tenthXid ≤ stepReward reward r
  · have hopen' : ∀ r, 2 ≤ r → r ≤ s → tenthXid ≤ stepReward other r := fun r h2 hrs => by
      rw [← hrewards r hrs]
      exact hopen r h2 hrs
    rw [hr.step s hstep.1 hopen h hstep.2.1 hstep.2.2,
      ho.step s hstep.1 hopen' h hstep.2.1 hstep.2.2, hrewards s le_rfl]
  · have hexists : ∃ r, 2 ≤ r ∧ r ≤ s ∧ stepReward reward r < tenthXid := by
      simpa only [not_forall, not_le, exists_prop] using hopen
    let c := Nat.find hexists
    obtain ⟨hc2, hcs, hclose⟩ := Nat.find_spec hexists
    have hfirst : ∀ r, 2 ≤ r → r < c → tenthXid ≤ stepReward reward r := by
      intro r h2 hlt
      by_contra hlow
      exact Nat.find_min hexists hlt ⟨h2, (hlt.trans_le hcs).le, not_le.mp hlow⟩
    have hfirst' : ∀ r, 2 ≤ r → r < c → tenthXid ≤ stepReward other r := fun r h2 hlt => by
      rw [← hrewards r (hlt.trans_le hcs).le]
      exact hfirst r h2 hlt
    have hstart : stepBlocks * (c : ℤ) + 1 ≤ h := by
      have : (c : ℤ) ≤ s := by exact_mod_cast hcs
      have hmul : stepBlocks * (c : ℤ) ≤ stepBlocks * s := by
        unfold stepBlocks
        omega
      omega
    have hbeforeEq := unscheduled_congr (n := h - 1) fun m hm => hbefore m (by omega)
    rw [hr.closing c hc2 hfirst hclose h hstart,
      ho.closing c hc2 hfirst' (by rw [← hrewards c hcs]; exact hclose) h hstart, hbeforeEq]

/-- The charter's words define one reward for every height. -/
theorem CharterSchedule.ext {reward other : ℤ → ℤ} (hr : CharterSchedule reward)
    (ho : CharterSchedule other) : reward = other := by
  have hupto : ∀ n : ℕ, ∀ h : ℤ, h ≤ n → reward h = other h := by
    intro n
    induction n with
    | zero =>
      intro h hh
      rw [hr.none_before h (by simpa using hh), ho.none_before h (by simpa using hh)]
    | succ n ih =>
      intro h hh
      exact hr.agree_at ho fun m hm => ih m (by push_cast at hh; omega)
  funext h
  exact hupto h.toNat h (Int.self_le_toNat h)

/-! ## Walking the steps -/

theorem unscheduled_of_constant {reward : ℤ → ℤ} {m n c : ℤ} (hm : 0 ≤ m) (hmn : m ≤ n)
    (hconstant : ∀ h, m + 1 ≤ h → h ≤ n → reward h = c) :
    unscheduled reward n = unscheduled reward m - c * (n - m) := by
  have hsplit : Finset.Icc 1 n = Finset.Icc 1 m ∪ Finset.Icc (m + 1) n := by
    ext h
    simp only [Finset.mem_union, Finset.mem_Icc]
    omega
  have hdisjoint : Disjoint (Finset.Icc 1 m) (Finset.Icc (m + 1) n) := by
    rw [Finset.disjoint_left]
    intro h hleft hright
    rw [Finset.mem_Icc] at hleft hright
    omega
  have hsum : ∑ h ∈ Finset.Icc (m + 1) n, reward h = c * (n - m) := by
    rw [Finset.sum_congr rfl fun h hh => hconstant h (Finset.mem_Icc.mp hh).1
      (Finset.mem_Icc.mp hh).2, Finset.sum_const, Int.card_Icc, nsmul_eq_mul,
      Int.toNat_of_nonneg (by omega)]
    ring
  unfold unscheduled
  rw [hsplit, Finset.sum_union hdisjoint, hsum]
  ring

/-- What the charter carries from one step to the next: the step's number, its
base and what is unscheduled when it starts. -/
structure CharterStep where
  index : ℕ
  base : ℕ
  left : ℤ
deriving DecidableEq

namespace CharterStep

/-- The subsidy per block of the step. -/
def reward (step : CharterStep) : ℤ := min (step.base * 1000000) (step.left / 1100000)

/-- The step after this one. -/
def next (step : CharterStep) : CharterStep :=
  ⟨step.index + 1, nextBase step.base, step.left - step.reward * stepBlocks⟩

/-- Step 2, after the ramp and the 50 XID blocks. -/
def second : CharterStep :=
  ⟨2, nextBase 5000,
    10 ^ 16 - 20000 * (625000000 + 1250000000 + 2500000000) - 160000 * 5000000000⟩

/-- The step record holds what the charter's words give for `rewards`. -/
structure Tracks (rewards : ℤ → ℤ) (step : CharterStep) : Prop where
  index_ge : 2 ≤ step.index
  base_eq : step.base = Charter.base step.index
  left_eq : step.left = unscheduled rewards (stepBlocks * step.index)

theorem Tracks.stepReward_eq {rewards : ℤ → ℤ} (htracks : Tracks rewards step) :
    stepReward rewards step.index = step.reward := by
  rw [stepReward, reward, htracks.base_eq, htracks.left_eq]

theorem Tracks.next {rewards : ℤ → ℤ} (htracks : Tracks rewards step)
    (hpaid : ∀ h, stepBlocks * step.index + 1 ≤ h → h ≤ stepBlocks * (step.index + 1) →
      rewards h = step.reward) :
    Tracks rewards step.next where
  index_ge := htracks.index_ge.trans (Nat.le_succ _)
  base_eq := by
    obtain ⟨s, hs⟩ := Nat.exists_eq_add_of_le' htracks.index_ge
    simp only [CharterStep.next, htracks.base_eq, hs]
    rfl
  left_eq := by
    have hblocks : (0 : ℤ) ≤ stepBlocks * step.index := by
      unfold stepBlocks
      omega
    have hrun := unscheduled_of_constant hblocks
      (n := stepBlocks * (step.index + 1)) (by unfold stepBlocks; omega) hpaid
    simp only [CharterStep.next, Nat.cast_succ]
    rw [hrun, ← htracks.left_eq]
    ring

end CharterStep

/-- Whether a row contains the whole step and pays its reward, which is not yet
the closing one. -/
def stepInTable (table : List EmissionEra) (step : CharterStep) : Bool :=
  decide (tenthXid ≤ step.reward) &&
    table.any fun era =>
      decide (era.startHeight ≤ stepBlocks * step.index + 1 ∧
        stepBlocks * (step.index + 1) ≤ era.endHeight ∧ era.baseSubsidy = step.reward)

/-- `stepInTable` for the next `n` steps. -/
def walkAgrees (table : List EmissionEra) : ℕ → CharterStep → Bool
  | 0, _ => true
  | n + 1, step => stepInTable table step && walkAgrees table n step.next

theorem stepInTable_of_subset {rows table : List EmissionEra} (hrows : rows ⊆ table)
    (hstep : stepInTable rows step = true) : stepInTable table step = true := by
  simp only [stepInTable, Bool.and_eq_true, List.any_eq_true] at hstep ⊢
  obtain ⟨hopen, era, hera, hpays⟩ := hstep
  exact ⟨hopen, era, hrows hera, hpays⟩

/-- `walkAgrees` for a table in order of height: the rows that end before a step are
dropped, and only the first one left is looked at. -/
def walkForward : List EmissionEra → ℕ → CharterStep → Bool
  | _, 0, _ => true
  | table, n + 1, step =>
    let rows := table.dropWhile fun era =>
      decide (era.endHeight < stepBlocks * (step.index + 1))
    stepInTable (rows.take 1) step && walkForward rows n step.next

theorem walkAgrees_of_walkForward {table : List EmissionEra} {n : ℕ} :
    ∀ {rows : List EmissionEra} {step : CharterStep}, rows ⊆ table →
      walkForward rows n step = true → walkAgrees table n step = true := by
  induction n with
  | zero => exact fun _ _ => rfl
  | succ n ih =>
    intro rows step hrows hwalk
    simp only [walkForward, Bool.and_eq_true] at hwalk
    simp only [walkAgrees, Bool.and_eq_true]
    have hleft := List.Subset.trans (List.dropWhile_sublist
      fun era => decide (era.endHeight < stepBlocks * (step.index + 1))).subset hrows
    exact ⟨stepInTable_of_subset (List.Subset.trans (List.take_subset 1 _) hleft) hwalk.1,
      ih hleft hwalk.2⟩

/-- The row that `stepInTable` finds pays the step's reward on every block of a
step that ends before the last subsidy block. -/
theorem paid_of_stepInTable {params : Params} (ok : EmissionScheduleOk params)
    (hend : stepBlocks * (step.index + 1) < params.emissionEndHeight)
    (hstep : stepInTable params.emissionTable step = true) :
    tenthXid ≤ step.reward ∧
      ∀ h, stepBlocks * step.index + 1 ≤ h → h ≤ stepBlocks * (step.index + 1) →
        getBlockSubsidy h params = step.reward := by
  simp only [stepInTable, Bool.and_eq_true, decide_eq_true_eq, List.any_eq_true] at hstep
  obtain ⟨hopen, era, hera, hlower, hupper, hpays⟩ := hstep
  refine ⟨hopen, fun h hfrom hto => ?_⟩
  rw [getBlockSubsidy_of_mem ok.wellFormed hera (hlower.trans hfrom) (hto.trans hupper),
    closingDustAt, if_neg (by omega), add_zero, hpays]

/-- **The walk.**  From a record that tracks the schedule, each of the next `n`
steps is open, pays its reward on all its blocks, and leads to a record that
tracks again. -/
theorem walk_tracks {params : Params} (ok : EmissionScheduleOk params) {n : ℕ}
    (hend : stepBlocks * (step.index + n) < params.emissionEndHeight)
    (htracks : CharterStep.Tracks (getBlockSubsidy · params) step)
    (hwalk : walkAgrees params.emissionTable n step = true) :
    (∀ s, step.index ≤ s → s < step.index + n →
        tenthXid ≤ stepReward (getBlockSubsidy · params) s ∧
          ∀ h, stepBlocks * s + 1 ≤ h → h ≤ stepBlocks * (s + 1) →
            getBlockSubsidy h params = stepReward (getBlockSubsidy · params) s) ∧
      CharterStep.Tracks (getBlockSubsidy · params) (CharterStep.next^[n] step) := by
  induction n generalizing step with
  | zero => exact ⟨fun s hge hlt => absurd hlt (by omega), htracks⟩
  | succ n ih =>
    simp only [walkAgrees, Bool.and_eq_true] at hwalk
    have hstepEnd : stepBlocks * ((step.index : ℤ) + 1) < params.emissionEndHeight := by
      unfold stepBlocks at hend ⊢
      push_cast at hend
      omega
    obtain ⟨hopen, hpaid⟩ := paid_of_stepInTable ok hstepEnd hwalk.1
    have hindex : step.next.index = step.index + 1 := rfl
    obtain ⟨hlater, hlast⟩ := @ih step.next
      (by rw [hindex]; push_cast at hend ⊢; rwa [add_right_comm, add_assoc])
      (htracks.next hpaid) hwalk.2
    refine ⟨fun s hge hlt => ?_, by rwa [Function.iterate_succ_apply]⟩
    rcases hge.eq_or_lt with rfl | hgt
    · rw [htracks.stepReward_eq]
      exact ⟨hopen, hpaid⟩
    · exact hlater s (by rw [hindex]; omega) (by rw [hindex]; omega)

/-! ## Mainnet -/

/-- The mainnet rewards. -/
def mainnetReward (h : ℤ) : ℤ := getBlockSubsidy h mainParams

/-- The last row of the table. -/
def closingEra : EmissionEra := ⟨34320001, 35375353, 10000000⟩

theorem closingEra_last : mainParams.emissionTable.getLast? = some closingEra := rfl

theorem closingEra_mem : closingEra ∈ mainParams.emissionTable :=
  List.mem_of_getLast? closingEra_last

theorem mainnet_emissionEndHeight : mainParams.emissionEndHeight = 35375353 := by
  rw [Params.emissionEndHeight, closingEra_last]
  rfl

theorem mainnetReward_of_mem (era : EmissionEra) (hrow : era ∈ mainParams.emissionTable)
    (hfrom : era.startHeight ≤ h) (hto : h ≤ era.endHeight) (hend : h < 35375353) :
    mainnetReward h = era.baseSubsidy := by
  rw [mainnetReward, getBlockSubsidy_of_mem mainParams_emissionScheduleOk.wellFormed hrow hfrom hto,
    closingDustAt, mainnet_emissionEndHeight, if_neg (by omega), add_zero]

theorem mainnet_unscheduled_row (era : EmissionEra) (hrow : era ∈ mainParams.emissionTable) {n : ℤ}
    (hpositive : 1 ≤ era.startHeight) (hfrom : era.startHeight - 1 ≤ n) (hto : n ≤ era.endHeight)
    (hend : n < 35375353) :
    unscheduled mainnetReward n = unscheduled mainnetReward (era.startHeight - 1) -
      era.baseSubsidy * (n - (era.startHeight - 1)) :=
  unscheduled_of_constant (by omega) hfrom fun h hlower hupper =>
    mainnetReward_of_mem era hrow (by omega) (by omega) (by omega)

theorem mainnetReward_last : mainnetReward 35375353 = tenthXid + 1660000 := by
  rw [mainnetReward, getBlockSubsidy_of_mem mainParams_emissionScheduleOk.wellFormed closingEra_mem
    (by decide) (by decide), closingDustAt, mainnet_emissionEndHeight, if_pos rfl]
  rfl

theorem mainnetReward_of_last_lt (hend : 35375353 < h) : mainnetReward h = 0 :=
  mainParams_emissionScheduleOk.getBlockSubsidy_of_end_lt (by rwa [mainnet_emissionEndHeight])

theorem mainnet_second_tracks : CharterStep.Tracks mainnetReward CharterStep.second where
  index_ge := le_rfl
  base_eq := rfl
  left_eq := by
    have h0 : unscheduled mainnetReward 0 = 10 ^ 16 := by simp [unscheduled]
    have h1 := mainnet_unscheduled_row ⟨1, 20000, 625000000⟩ (n := 20000) (by decide)
      (by decide) (by decide) (by decide) (by decide)
    have h2 := mainnet_unscheduled_row ⟨20001, 40000, 1250000000⟩ (n := 40000) (by decide)
      (by decide) (by decide) (by decide) (by decide)
    have h3 := mainnet_unscheduled_row ⟨40001, 60000, 2500000000⟩ (n := 60000) (by decide)
      (by decide) (by decide) (by decide) (by decide)
    have h4 := mainnet_unscheduled_row ⟨60001, 220000, 5000000000⟩ (n := 220000)
      (by decide) (by decide) (by decide) (by decide) (by decide)
    norm_num at h1 h2 h3 h4
    have hsecond : stepBlocks * (CharterStep.second.index : ℤ) = 220000 := by decide
    rw [hsecond, h4, h3, h2, h1, h0]
    decide

/-- The closing step and what is unscheduled when it starts. -/
def closingStep : CharterStep := ⟨312, 150, 10553531660000⟩

theorem iterate_second : CharterStep.next^[310] CharterStep.second = closingStep := by
  decide +kernel

theorem mainnet_walk :
    (∀ s, 2 ≤ s → s < 312 →
        tenthXid ≤ stepReward mainnetReward s ∧
          ∀ h, stepBlocks * s + 1 ≤ h → h ≤ stepBlocks * (s + 1) →
            mainnetReward h = stepReward mainnetReward s) ∧
      CharterStep.Tracks mainnetReward closingStep := by
  have hforward : walkForward mainParams.emissionTable 310 CharterStep.second = true := by
    decide +kernel
  have hwalk := walk_tracks mainParams_emissionScheduleOk (n := 310)
    (by rw [mainnet_emissionEndHeight]; decide) mainnet_second_tracks
    (walkAgrees_of_walkForward (List.Subset.refl _) hforward)
  rw [iterate_second] at hwalk
  exact hwalk

theorem closingStep_low : stepReward mainnetReward 312 < tenthXid := by
  have hreward : stepReward mainnetReward closingStep.index = closingStep.reward :=
    mainnet_walk.2.stepReward_eq
  rw [show 312 = closingStep.index from rfl, hreward]
  decide

theorem unscheduled_mainnetReward {n : ℤ} (hstart : 34320000 ≤ n) :
    unscheduled mainnetReward n =
      if n < 35375353 then 10553531660000 - 10000000 * (n - 34320000) else 0 := by
  have hclosing : unscheduled mainnetReward 34320000 = 10553531660000 :=
    mainnet_walk.2.left_eq.symm
  have htail : ∀ m, 34320000 ≤ m → m < 35375353 → unscheduled mainnetReward m =
      10553531660000 - 10000000 * (m - 34320000) := by
    intro m hfrom hto
    rw [← hclosing]
    exact mainnet_unscheduled_row closingEra closingEra_mem (by decide) hfrom hto.le hto
  split
  next hlt => exact htail n hstart hlt
  next hge =>
    have hlast : unscheduled mainnetReward 35375353 =
        unscheduled mainnetReward 35375352 - (tenthXid + 1660000) * (35375353 - 35375352) :=
      unscheduled_of_constant (by norm_num) (by norm_num) fun h hlower hupper => by
        rw [show h = 35375353 by omega, mainnetReward_last]
    have hafter : unscheduled mainnetReward n =
        unscheduled mainnetReward 35375353 - 0 * (n - 35375353) :=
      unscheduled_of_constant (by norm_num) (by omega) fun h hlower hupper =>
        mainnetReward_of_last_lt (by omega)
    rw [hafter, hlast, htail 35375352 (by norm_num) (by norm_num), tenthXid]
    norm_num

theorem mainnet_closing (hfrom : 34320001 ≤ h) :
    mainnetReward h =
      if unscheduled mainnetReward (h - 1) < tenthXid then 0
      else if unscheduled mainnetReward (h - 1) - tenthXid < tenthXid then
        unscheduled mainnetReward (h - 1)
      else tenthXid := by
  rw [unscheduled_mainnetReward (by omega), tenthXid]
  rcases lt_trichotomy h 35375353 with hlt | rfl | hgt
  · rw [mainnetReward_of_mem closingEra closingEra_mem hfrom hlt.le hlt]
    have hpays : closingEra.baseSubsidy = 10000000 := rfl
    split_ifs <;> omega
  · rw [mainnetReward_last]
    decide
  · rw [mainnetReward_of_last_lt hgt]
    split_ifs <;> omega

/-- The mainnet table pays what section 4 of the charter says. -/
theorem mainnet_charterSchedule : CharterSchedule mainnetReward where
  none_before h hh := getBlockSubsidy_of_lt_start (by unfold emissionStartHeight; omega)
  ramp_first h hfrom hto :=
    mainnetReward_of_mem ⟨1, 20000, 625000000⟩ (by decide) hfrom hto (by omega)
  ramp_second h hfrom hto :=
    mainnetReward_of_mem ⟨20001, 40000, 1250000000⟩ (by decide) hfrom hto (by omega)
  ramp_third h hfrom hto :=
    mainnetReward_of_mem ⟨40001, 60000, 2500000000⟩ (by decide) hfrom hto (by omega)
  plateau h hfrom hto :=
    mainnetReward_of_mem ⟨60001, 220000, 5000000000⟩ (by decide) hfrom hto (by omega)
  step s hs hopen := by
    have hlt : s < 312 := by
      by_contra hge
      exact absurd (hopen 312 (by norm_num) (by omega)) (not_le.mpr closingStep_low)
    exact (mainnet_walk.1 s hs hlt).2
  closing s hs hopen hlow h hfrom := by
    have hclosing : s = 312 := by
      rcases lt_trichotomy s 312 with hlt | heq | hgt
      · exact absurd (mainnet_walk.1 s hs hlt).1 (not_le.mpr hlow)
      · exact heq
      · exact absurd (hopen 312 (by norm_num) hgt) (not_le.mpr closingStep_low)
    subst hclosing
    exact mainnet_closing hfrom

/-- **The emission is the charter's.**  The mainnet subsidy is the one reward
function that satisfies section 4, and the rewards of all heights sum to exactly
the cap. -/
theorem getBlockSubsidy_eq_charter :
    (∀ reward : ℤ → ℤ,
        CharterSchedule reward ↔ ∀ h, getBlockSubsidy h mainParams = reward h) ∧
      ∑ᶠ h : ℤ, getBlockSubsidy h mainParams = 10 ^ 16 := by
  refine ⟨fun reward => ⟨fun hreward h => ?_, fun heq => ?_⟩, ?_⟩
  · exact congrFun (mainnet_charterSchedule.ext hreward) h
  · have hfun : mainnetReward = reward := funext heq
    exact hfun ▸ mainnet_charterSchedule
  · have hsupport : (Function.support fun h : ℤ => getBlockSubsidy h mainParams) ⊆
        Finset.Icc emissionStartHeight mainParams.emissionEndHeight := by
      intro h hne
      rw [Function.mem_support] at hne
      rw [Finset.coe_Icc, Set.mem_Icc]
      constructor
      · exact not_lt.mp fun hlt => hne (getBlockSubsidy_of_lt_start hlt)
      · exact not_lt.mp fun hlt =>
          hne (mainParams_emissionScheduleOk.getBlockSubsidy_of_end_lt hlt)
    rw [finsum_eq_sum_of_support_subset _ hsupport,
      mainParams_emissionScheduleOk.sum_getBlockSubsidy, mainParams_totalEmission, maxMoney_eq]

end XCoin.Charter
