import XCoin.Emission.Subsidy

/-!
# What a schedule has paid up to a height

`GetBlockSubsidy` looks a single height up.  For rows that are laid back to back, here
called `BackToBack`, the rewards of all blocks up to a height are what the rows pay up to
it, and the closing dust from the last block on (`sum_getBlockSubsidy_eq`).  The amount
that `EmissionTableWellFormed` allows a row to pay plays no part in this.
-/

namespace XCoin.Consensus

variable {params : Params} {start stop n : ℤ} {era : EmissionEra} {eras : List EmissionEra}

/-! ## Rows back to back -/

/-- Rows laid back to back from `start`, none of them empty and each paying something;
`stop` is the height after the last one. -/
def BackToBack : ℤ → List EmissionEra → ℤ → Prop
  | start, [], stop => start = stop
  | start, era :: eras, stop =>
    era.startHeight = start ∧ era.startHeight ≤ era.endHeight ∧ 0 < era.baseSubsidy ∧
      BackToBack (era.endHeight + 1) eras stop

theorem backToBack_singleton :
    BackToBack start [era] stop ↔ era.startHeight = start ∧ era.startHeight ≤ era.endHeight ∧
      0 < era.baseSubsidy ∧ era.endHeight + 1 = stop := Iff.rfl

theorem backToBack_append {others : List EmissionEra} :
    BackToBack start (eras ++ others) stop ↔
      ∃ middle, BackToBack start eras middle ∧ BackToBack middle others stop := by
  induction eras generalizing start with
  | nil => simp [BackToBack]
  | cons era eras ih => simp only [List.cons_append, BackToBack, ih]; tauto

theorem BackToBack.concat {middle : ℤ} (hrows : BackToBack start eras middle)
    (hera : BackToBack middle [era] stop) : BackToBack start (eras ++ [era]) stop :=
  backToBack_append.mpr ⟨middle, hrows, hera⟩

theorem BackToBack.stop_unique {stop' : ℤ} (hrows : BackToBack start eras stop)
    (hrows' : BackToBack start eras stop') : stop = stop' := by
  induction eras generalizing start with
  | nil => exact hrows.symm.trans hrows'
  | cons era eras ih => exact ih hrows.2.2.2 hrows'.2.2.2

theorem BackToBack.start_le (hrows : BackToBack start eras stop) : start ≤ stop := by
  induction eras generalizing start with
  | nil => exact le_of_eq hrows
  | cons era eras ih =>
    obtain ⟨hstart, hnonempty, -, hrest⟩ := hrows
    have := ih hrest
    omega

theorem BackToBack.start_le_of_mem (hrows : BackToBack start eras stop) (hera : era ∈ eras) :
    start ≤ era.startHeight := by
  induction eras generalizing start with
  | nil => cases hera
  | cons first eras ih =>
    obtain ⟨hstart, hnonempty, -, hrest⟩ := hrows
    rcases List.mem_cons.mp hera with rfl | hmem
    · exact hstart.ge
    · have := ih hrest hmem
      omega

theorem BackToBack.emissionEndHeight_eq (hrows : BackToBack start params.emissionTable stop)
    (hnonempty : params.emissionTable ≠ []) : params.emissionEndHeight = stop - 1 := by
  obtain ⟨before, last, htable⟩ := (List.eq_nil_or_concat' _).resolve_left hnonempty
  rw [htable] at hrows
  obtain ⟨middle, -, -, -, -, hstop⟩ := backToBack_append.mp hrows
  rw [Params.emissionEndHeight, htable, List.getLast?_concat]
  have : last.endHeight + 1 = stop := hstop
  dsimp only
  omega

/-- Back to back is all that `EmissionTableWellFormed` asks for, but for the largest subsidy. -/
theorem BackToBack.emissionTableWellFormed_iff (hrows : BackToBack start eras stop)
    (hnonempty : eras ≠ []) :
    emissionTableWellFormed eras start = true ↔ ∀ era ∈ eras, era.baseSubsidy ≤ maxSupplySat := by
  have hloop : ∀ {eras : List EmissionEra} {start : ℤ}, BackToBack start eras stop →
      (emissionRowsWellFormed eras start = true ↔
        ∀ era ∈ eras, era.baseSubsidy ≤ maxSupplySat) := by
    intro eras
    induction eras with
    | nil => simp [emissionRowsWellFormed]
    | cons era eras ih =>
      intro start hrows
      obtain ⟨hstart, hle, hpositive, hrest⟩ := hrows
      rw [emissionRowsWellFormed_cons, ih hrest, List.forall_mem_cons]
      tauto
  rw [emissionTableWellFormed, Bool.and_eq_true, hloop hrows]
  simp [hnonempty]

theorem BackToBack.total_nonneg (hrows : BackToBack start eras stop) :
    0 ≤ emissionTableTotalSat eras := by
  induction eras generalizing start with
  | nil => exact le_rfl
  | cons first eras ih =>
    obtain ⟨-, hle, hpositive, hrest⟩ := hrows
    exact add_nonneg (mul_nonneg hpositive.le (by omega)) (ih hrest)

/-! ## What has been paid -/

/-- What a row pays on its blocks up to height `n`. -/
def EmissionEra.paidUpTo (era : EmissionEra) (n : ℤ) : ℤ :=
  era.baseSubsidy * max 0 (min n era.endHeight - era.startHeight + 1)

/-- What rows pay on their blocks up to height `n`. -/
def paidUpTo (eras : List EmissionEra) (n : ℤ) : ℤ := (eras.map (·.paidUpTo n)).sum

@[simp] theorem paidUpTo_nil : paidUpTo [] n = 0 := rfl

@[simp] theorem paidUpTo_cons : paidUpTo (era :: eras) n = era.paidUpTo n + paidUpTo eras n := rfl

@[simp] theorem paidUpTo_append (others : List EmissionEra) :
    paidUpTo (eras ++ others) n = paidUpTo eras n + paidUpTo others n := by
  rw [paidUpTo, List.map_append, List.sum_append]
  rfl

theorem EmissionEra.paidUpTo_of_lt (h : n < era.startHeight) : era.paidUpTo n = 0 := by
  rw [EmissionEra.paidUpTo, max_eq_left (by omega), mul_zero]

theorem EmissionEra.paidUpTo_of_le (hnonempty : era.startHeight ≤ era.endHeight)
    (h : era.endHeight ≤ n) :
    era.paidUpTo n = era.baseSubsidy * (era.endHeight - era.startHeight + 1) := by
  rw [EmissionEra.paidUpTo, min_eq_right h, max_eq_right (by omega)]

/-- Nothing is paid before the first row, and everything from the last block on; before that
block something is still to be paid. -/
theorem BackToBack.paidUpTo_spec (hrows : BackToBack start eras stop) (n : ℤ) :
    (n < start → paidUpTo eras n = 0) ∧
      (stop ≤ n + 1 → paidUpTo eras n = emissionTableTotalSat eras) ∧
      (eras ≠ [] → n + 1 < stop → paidUpTo eras n < emissionTableTotalSat eras) := by
  induction eras generalizing start with
  | nil => exact ⟨fun _ => rfl, fun _ => rfl, fun h => absurd rfl h⟩
  | cons era eras ih =>
    obtain ⟨hstart, hle, hpositive, hrest⟩ := hrows
    obtain ⟨hbefore, hafter, hstrict⟩ := ih hrest
    have hstop := hrest.start_le
    have htotal : emissionTableTotalSat (era :: eras) =
        era.baseSubsidy * (era.endHeight - era.startHeight + 1) + emissionTableTotalSat eras := rfl
    refine ⟨fun h => ?_, fun h => ?_, fun _ h => ?_⟩
    · rw [paidUpTo_cons, EmissionEra.paidUpTo_of_lt (by omega), hbefore (by omega), add_zero]
    · rw [paidUpTo_cons, EmissionEra.paidUpTo_of_le hle (by omega), hafter h, htotal]
    · rw [paidUpTo_cons, htotal]
      rcases le_or_gt era.endHeight n with hn | hn
      · -- the row is paid in full, so a later one is not
        rw [EmissionEra.paidUpTo_of_le hle hn]
        have hmore : eras ≠ [] := by
          rintro rfl
          have : era.endHeight + 1 = stop := hrest
          omega
        have := hstrict hmore h
        omega
      · have hpart : era.paidUpTo n <
            era.baseSubsidy * (era.endHeight - era.startHeight + 1) := by
          rw [EmissionEra.paidUpTo]
          exact mul_lt_mul_of_pos_left (by omega) hpositive
        have hlater := hrest.total_nonneg
        rw [hbefore (by omega)]
        omega

theorem BackToBack.baseSubsidy_le_total (hrows : BackToBack start eras stop) (hera : era ∈ eras) :
    era.baseSubsidy ≤ emissionTableTotalSat eras := by
  induction eras generalizing start with
  | nil => cases hera
  | cons first eras ih =>
    obtain ⟨-, hle, hpositive, hrest⟩ := hrows
    have htotal : emissionTableTotalSat (first :: eras) =
        first.baseSubsidy * (first.endHeight - first.startHeight + 1) +
          emissionTableTotalSat eras := rfl
    have hfirst : first.baseSubsidy ≤
        first.baseSubsidy * (first.endHeight - first.startHeight + 1) :=
      le_mul_of_one_le_right hpositive.le (by omega)
    have hlater : 0 ≤ emissionTableTotalSat eras := hrest.total_nonneg
    rw [htotal]
    rcases List.mem_cons.mp hera with rfl | hmem
    · omega
    · have := ih hrest hmem
      omega

/-! ## The sum of the subsidies -/

/-- What a row contributes to one height. -/
def EmissionEra.paidAt (era : EmissionEra) (h : ℤ) : ℤ :=
  if era.startHeight ≤ h ∧ h ≤ era.endHeight then era.baseSubsidy else 0

theorem EmissionEra.paidAt_of_mem {h : ℤ} (hfrom : era.startHeight ≤ h) (hto : h ≤ era.endHeight) :
    era.paidAt h = era.baseSubsidy := if_pos ⟨hfrom, hto⟩

theorem EmissionEra.paidAt_of_end_lt {h : ℤ} (hafter : era.endHeight < h) : era.paidAt h = 0 :=
  if_neg (by omega)

theorem BackToBack.sum_paidAt_of_lt (hrows : BackToBack start eras stop) {h : ℤ} (hlt : h < start) :
    (eras.map (·.paidAt h)).sum = 0 := by
  apply List.sum_eq_zero
  intro amount hamount
  obtain ⟨era, hera, rfl⟩ := List.mem_map.mp hamount
  have := hrows.start_le_of_mem hera
  exact if_neg (by omega)

theorem BackToBack.getBlockSubsidyLoop_eq (hrows : BackToBack start eras stop) (h : ℤ) :
    getBlockSubsidyLoop params h eras =
      (eras.map (·.paidAt h)).sum + if start ≤ h ∧ h < stop then closingDustAt params h else 0 := by
  induction eras generalizing start with
  | nil =>
    have : start = stop := hrows
    simp [getBlockSubsidyLoop, show ¬ (start ≤ h ∧ h < stop) by omega]
  | cons era eras ih =>
    obtain ⟨hstart, hle, -, hrest⟩ := id hrows
    have hstop := hrest.start_le
    rcases lt_or_ge era.endHeight h with hafter | hupto
    · rw [getBlockSubsidyLoop, if_pos hafter, ih hrest, List.map_cons, List.sum_cons,
        EmissionEra.paidAt_of_end_lt hafter, zero_add]
      congr 1
      exact if_congr (by omega) rfl rfl
    · rw [getBlockSubsidyLoop, if_neg (by omega)]
      rcases lt_or_ge h era.startHeight with hbefore | hfrom
      · rw [if_pos hbefore, hrows.sum_paidAt_of_lt (by omega), if_neg (by omega), add_zero]
      · have hinside : start ≤ h ∧ h < stop := by omega
        rw [if_neg (Int.not_lt.mpr hfrom), List.map_cons, List.sum_cons,
          hrest.sum_paidAt_of_lt (by omega), EmissionEra.paidAt_of_mem hfrom hupto,
          if_pos hinside, closingDustAt]
        split_ifs <;> ring

theorem EmissionEra.sum_paidAt (hfirst : 1 ≤ era.startHeight)
    (hnonempty : era.startHeight ≤ era.endHeight) (n : ℤ) :
    ∑ h ∈ Finset.Icc 1 n, era.paidAt h = era.paidUpTo n := by
  have hblocks : (Finset.Icc 1 n).filter (fun h => era.startHeight ≤ h ∧ h ≤ era.endHeight) =
      Finset.Icc era.startHeight (min n era.endHeight) := by
    ext h
    simp only [Finset.mem_filter, Finset.mem_Icc]
    omega
  unfold EmissionEra.paidAt
  rw [← Finset.sum_filter, hblocks, Finset.sum_const, Int.card_Icc, nsmul_eq_mul, mul_comm,
    EmissionEra.paidUpTo, Int.toNat_eq_max]
  congr 1
  omega

theorem BackToBack.sum_paidAt (hrows : BackToBack start eras stop) (hstart : 1 ≤ start) (n : ℤ) :
    ∑ h ∈ Finset.Icc 1 n, (eras.map (·.paidAt h)).sum = paidUpTo eras n := by
  induction eras generalizing start with
  | nil => simp
  | cons era eras ih =>
    obtain ⟨hfirst, hle, -, hrest⟩ := hrows
    simp only [List.map_cons, List.sum_cons]
    rw [Finset.sum_add_distrib, EmissionEra.sum_paidAt (by omega) hle, ih hrest (by omega),
      paidUpTo_cons]

/-- **Paid up to a height.**  The rewards of blocks 1 to `n` are what the rows pay on them, and
from the last subsidy block on also the closing dust. -/
theorem BackToBack.sum_getBlockSubsidy_eq (hrows : BackToBack 1 params.emissionTable stop)
    (hnonempty : params.emissionTable ≠ []) (n : ℤ) :
    ∑ h ∈ Finset.Icc 1 n, getBlockSubsidy h params =
      paidUpTo params.emissionTable n +
        if params.emissionEndHeight ≤ n then params.emissionClosingDustSat else 0 := by
  have hend := hrows.emissionEndHeight_eq hnonempty
  have hfirst : 1 ≤ params.emissionEndHeight := by
    cases htable : params.emissionTable with
    | nil => exact absurd htable hnonempty
    | cons era eras =>
      rw [htable] at hrows
      obtain ⟨hstart, hle, -, hrest⟩ := hrows
      have := hrest.start_le
      omega
  have hblock : ∀ h ∈ Finset.Icc 1 n, getBlockSubsidy h params =
      (params.emissionTable.map (·.paidAt h)).sum +
        if h = params.emissionEndHeight then params.emissionClosingDustSat else 0 := by
    intro h hh
    rw [Finset.mem_Icc] at hh
    rw [getBlockSubsidy, if_neg (by unfold emissionStartHeight; omega),
      hrows.getBlockSubsidyLoop_eq, closingDustAt]
    congr 1
    split_ifs <;> first | rfl | omega
  rw [Finset.sum_congr rfl hblock, Finset.sum_add_distrib, hrows.sum_paidAt le_rfl,
    Finset.sum_ite_eq']
  congr 1
  exact if_congr (by rw [Finset.mem_Icc]; omega) rfl rfl

end XCoin.Consensus
