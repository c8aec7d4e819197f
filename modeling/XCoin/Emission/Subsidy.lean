import XCoin.Consensus.Params

/-!
# The block subsidy

`GetBlockSubsidy` walks the emission table and returns the subsidy of the first
row whose last block is not before the height, plus the closing dust on the very
last block.  For a table that `EmissionTableWellFormed` accepts, the rows are
back to back, so the row found is the one that contains the height
(`getBlockSubsidy_of_mem`), and the rewards of all heights add up to the table's
total plus the dust (`sum_getBlockSubsidy`).  Both are proved for an arbitrary
well-formed table; mainnet is one instance.
-/

namespace XCoin.Consensus

/-! ## The lookup -/

/-- The loop of `GetBlockSubsidy` over the rows of the table. -/
def getBlockSubsidyLoop (params : Params) (nHeight : ℤ) : List EmissionEra → ℤ
  | [] => 0
  | era :: eras =>
    if nHeight > era.endHeight then getBlockSubsidyLoop params nHeight eras
    else if nHeight < era.startHeight then 0
    else if nHeight = params.emissionEndHeight then
      era.baseSubsidy + params.emissionClosingDustSat
    else era.baseSubsidy

/-- `GetBlockSubsidy`. -/
def getBlockSubsidy (nHeight : ℤ) (params : Params) : ℤ :=
  if nHeight < emissionStartHeight then 0
  else getBlockSubsidyLoop params nHeight params.emissionTable

variable {params : Params} {era : EmissionEra} {start : ℤ} {nHeight : ℤ}

theorem getBlockSubsidy_of_lt_start (h : nHeight < emissionStartHeight) :
    getBlockSubsidy nHeight params = 0 := by
  rw [getBlockSubsidy, if_pos h]

/-! ## Well-formed rows -/

theorem emissionRowsWellFormed_cons {eras : List EmissionEra} :
    emissionRowsWellFormed (era :: eras) start = true ↔
      era.startHeight = start ∧ era.startHeight ≤ era.endHeight ∧
        (0 < era.baseSubsidy ∧ era.baseSubsidy ≤ maxSupplySat) ∧
        emissionRowsWellFormed eras (era.endHeight + 1) = true := by
  simp [emissionRowsWellFormed, and_assoc]

theorem start_le_of_mem_rows {rows : List EmissionEra}
    (hrows : emissionRowsWellFormed rows start = true) (hera : era ∈ rows) :
    start ≤ era.startHeight := by
  induction rows generalizing start with
  | nil => cases hera
  | cons first rest ih =>
    obtain ⟨hstart, hnonempty, -, hrest⟩ := emissionRowsWellFormed_cons.mp hrows
    rcases List.mem_cons.mp hera with rfl | hmem
    · exact hstart.ge
    · have := ih hrest hmem
      omega

/-- The closing dust as the loop adds it. -/
def closingDustAt (params : Params) (nHeight : ℤ) : ℤ :=
  if nHeight = params.emissionEndHeight then params.emissionClosingDustSat else 0

theorem getBlockSubsidyLoop_of_mem {rows : List EmissionEra} {start nHeight : ℤ}
    (hrows : emissionRowsWellFormed rows start = true) (hera : era ∈ rows)
    (hlower : era.startHeight ≤ nHeight) (hupper : nHeight ≤ era.endHeight) :
    getBlockSubsidyLoop params nHeight rows = era.baseSubsidy + closingDustAt params nHeight := by
  induction rows generalizing start with
  | nil => cases hera
  | cons first rest ih =>
    obtain ⟨-, -, -, hrest⟩ := emissionRowsWellFormed_cons.mp hrows
    rcases List.mem_cons.mp hera with rfl | hmem
    · rw [getBlockSubsidyLoop, if_neg (by omega), if_neg (by omega), closingDustAt]
      split <;> simp
    · have hafter := start_le_of_mem_rows hrest hmem
      rw [getBlockSubsidyLoop, if_pos (by omega)]
      exact ih hrest hmem

/-- **Row lookup.**  In a well-formed table the subsidy of a height is the one of
the row that contains it, plus the closing dust on the last subsidy block. -/
theorem getBlockSubsidy_of_mem
    (hwf : emissionTableWellFormed params.emissionTable emissionStartHeight = true)
    (hera : era ∈ params.emissionTable) (hlower : era.startHeight ≤ nHeight)
    (hupper : nHeight ≤ era.endHeight) :
    getBlockSubsidy nHeight params = era.baseSubsidy + closingDustAt params nHeight := by
  have hrows : emissionRowsWellFormed params.emissionTable emissionStartHeight = true := by
    simp only [emissionTableWellFormed, Bool.and_eq_true] at hwf
    exact hwf.2
  have hstart := start_le_of_mem_rows hrows hera
  rw [getBlockSubsidy, if_neg (by omega)]
  exact getBlockSubsidyLoop_of_mem hrows hera hlower hupper

/-- The height right after the last block of the rows. -/
def rowsStop : List EmissionEra → ℤ → ℤ
  | [], start => start
  | era :: eras, _ => rowsStop eras (era.endHeight + 1)

theorem rowsStop_eq_getLast {rows : List EmissionEra} (start : ℤ) {last : EmissionEra}
    (hlast : rows.getLast? = some last) : rowsStop rows start = last.endHeight + 1 := by
  induction rows generalizing start with
  | nil => simp at hlast
  | cons first rest ih =>
    cases rest with
    | nil => simp_all [rowsStop]
    | cons second rest => exact ih (first.endHeight + 1) (by simpa using hlast)

theorem start_le_rowsStop {rows : List EmissionEra}
    (hrows : emissionRowsWellFormed rows start = true) : start ≤ rowsStop rows start := by
  induction rows generalizing start with
  | nil => exact le_rfl
  | cons first rest ih =>
    obtain ⟨hstart, hnonempty, -, hrest⟩ := emissionRowsWellFormed_cons.mp hrows
    have := ih hrest
    simp only [rowsStop]
    omega

theorem getBlockSubsidyLoop_of_stop_le {rows : List EmissionEra} {start nHeight : ℤ}
    (hrows : emissionRowsWellFormed rows start = true) (hstop : rowsStop rows start ≤ nHeight) :
    getBlockSubsidyLoop params nHeight rows = 0 := by
  induction rows generalizing start with
  | nil => rfl
  | cons first rest ih =>
    obtain ⟨-, -, -, hrest⟩ := emissionRowsWellFormed_cons.mp hrows
    have hnext := start_le_rowsStop hrest
    simp only [rowsStop] at hstop
    rw [getBlockSubsidyLoop, if_pos (by omega)]
    exact ih hrest hstop

/-! ## The total -/

/-- Over the heights the rows cover, the loop pays the rows' total and the dust. -/
theorem sum_getBlockSubsidyLoop {rows : List EmissionEra}
    (hrows : emissionRowsWellFormed rows start = true) :
    ∑ h ∈ Finset.Ico start (rowsStop rows start), getBlockSubsidyLoop params h rows =
      emissionTableTotalSat rows +
        ∑ h ∈ Finset.Ico start (rowsStop rows start), closingDustAt params h := by
  induction rows generalizing start with
  | nil => simp [rowsStop, emissionTableTotalSat]
  | cons era eras ih =>
    obtain ⟨hstart, hnonempty, -, hrest⟩ := emissionRowsWellFormed_cons.mp hrows
    have hstop := start_le_rowsStop hrest
    have hsplit : ∀ f : ℤ → ℤ,
        ∑ h ∈ Finset.Ico start (rowsStop eras (era.endHeight + 1)), f h =
          ∑ h ∈ Finset.Ico start (era.endHeight + 1), f h +
            ∑ h ∈ Finset.Ico (era.endHeight + 1) (rowsStop eras (era.endHeight + 1)), f h := by
      intro f
      rw [← Finset.sum_union (Finset.Ico_disjoint_Ico_consecutive _ _ _),
        Finset.Ico_union_Ico_eq_Ico (by omega) hstop]
    have hfirst : ∑ h ∈ Finset.Ico start (era.endHeight + 1),
        getBlockSubsidyLoop params h (era :: eras) =
          era.baseSubsidy * (era.endHeight - era.startHeight + 1) +
            ∑ h ∈ Finset.Ico start (era.endHeight + 1), closingDustAt params h := by
      have hrow : ∀ h ∈ Finset.Ico start (era.endHeight + 1),
          getBlockSubsidyLoop params h (era :: eras) =
            era.baseSubsidy + closingDustAt params h := by
        intro h hh
        rw [Finset.mem_Ico] at hh
        exact getBlockSubsidyLoop_of_mem hrows List.mem_cons_self (by omega) (by omega)
      rw [Finset.sum_congr rfl hrow, Finset.sum_add_distrib, Finset.sum_const,
        Int.card_Ico, nsmul_eq_mul, Int.toNat_of_nonneg (by omega), hstart]
      ring
    have hlater : ∑ h ∈ Finset.Ico (era.endHeight + 1) (rowsStop eras (era.endHeight + 1)),
        getBlockSubsidyLoop params h (era :: eras) =
          ∑ h ∈ Finset.Ico (era.endHeight + 1) (rowsStop eras (era.endHeight + 1)),
            getBlockSubsidyLoop params h eras := by
      refine Finset.sum_congr rfl fun h hh => ?_
      rw [Finset.mem_Ico] at hh
      rw [getBlockSubsidyLoop, if_pos (by omega)]
    simp only [rowsStop]
    rw [hsplit, hsplit, hfirst, hlater, ih hrest]
    simp only [emissionTableTotalSat, List.map_cons, List.sum_cons]
    ring

/-- What a schedule pays in all: the rows and the closing dust. -/
def Params.totalEmission (params : Params) : ℤ :=
  emissionTableTotalSat params.emissionTable + params.emissionClosingDustSat

/-- A table as the `static_assert`s of `consensus/params.h` require it, with a
closing dust that is not negative. -/
structure EmissionScheduleOk (params : Params) : Prop where
  wellFormed : emissionTableWellFormed params.emissionTable emissionStartHeight = true
  dust_nonneg : 0 ≤ params.emissionClosingDustSat

namespace EmissionScheduleOk

variable (ok : EmissionScheduleOk params)
include ok

theorem rows : emissionRowsWellFormed params.emissionTable emissionStartHeight = true := by
  have hwf := ok.wellFormed
  simp only [emissionTableWellFormed, Bool.and_eq_true] at hwf
  exact hwf.2

theorem rowsStop_eq :
    rowsStop params.emissionTable emissionStartHeight = params.emissionEndHeight + 1 := by
  have hwf := ok.wellFormed
  unfold Params.emissionEndHeight
  cases hlast : params.emissionTable.getLast? with
  | none =>
    rw [List.getLast?_eq_none_iff] at hlast
    simp [emissionTableWellFormed, hlast] at hwf
  | some last => exact rowsStop_eq_getLast _ hlast

theorem getBlockSubsidy_of_end_lt (h : params.emissionEndHeight < nHeight) :
    getBlockSubsidy nHeight params = 0 := by
  unfold getBlockSubsidy
  split
  · rfl
  · exact getBlockSubsidyLoop_of_stop_le ok.rows (by rw [ok.rowsStop_eq]; omega)

/-- **The total of a schedule.**  The rewards of its blocks add up to the rows'
total and the closing dust. -/
theorem sum_getBlockSubsidy :
    ∑ h ∈ Finset.Icc emissionStartHeight params.emissionEndHeight, getBlockSubsidy h params =
      params.totalEmission := by
  have hstop := ok.rowsStop_eq
  have hnonempty : emissionStartHeight ≤ params.emissionEndHeight := by
    have hwf := ok.wellFormed
    cases htable : params.emissionTable with
    | nil => simp [emissionTableWellFormed, htable] at hwf
    | cons first rest =>
      have hrows := ok.rows
      rw [htable] at hrows hstop
      obtain ⟨hstart, hlen, -, hrest⟩ := emissionRowsWellFormed_cons.mp hrows
      have := start_le_rowsStop hrest
      simp only [rowsStop] at hstop
      omega
  have hIcc : Finset.Icc emissionStartHeight params.emissionEndHeight =
      Finset.Ico emissionStartHeight (rowsStop params.emissionTable emissionStartHeight) := by
    ext h
    simp only [Finset.mem_Icc, Finset.mem_Ico]
    omega
  have hloop : ∀ h ∈ Finset.Icc emissionStartHeight params.emissionEndHeight,
      getBlockSubsidy h params = getBlockSubsidyLoop params h params.emissionTable := by
    intro h hh
    rw [Finset.mem_Icc] at hh
    rw [getBlockSubsidy, if_neg (by omega)]
  rw [Finset.sum_congr rfl hloop, hIcc, sum_getBlockSubsidyLoop ok.rows, ← hIcc]
  unfold closingDustAt Params.totalEmission
  rw [Finset.sum_ite_eq' , if_pos (Finset.right_mem_Icc.mpr hnonempty)]

theorem getBlockSubsidyLoop_nonneg {rows : List EmissionEra}
    (hrows : emissionRowsWellFormed rows start = true) (nHeight : ℤ) :
    0 ≤ getBlockSubsidyLoop params nHeight rows := by
  have hdust := ok.dust_nonneg
  induction rows generalizing start with
  | nil => exact le_rfl
  | cons era eras ih =>
    obtain ⟨-, -, ⟨hpositive, -⟩, hrest⟩ := emissionRowsWellFormed_cons.mp hrows
    have := ih hrest
    unfold getBlockSubsidyLoop
    split_ifs <;> omega

theorem getBlockSubsidy_nonneg (nHeight : ℤ) : 0 ≤ getBlockSubsidy nHeight params := by
  unfold getBlockSubsidy
  split
  · exact le_rfl
  · exact ok.getBlockSubsidyLoop_nonneg ok.rows nHeight

/-- The rewards of any set of heights stay within the total. -/
theorem sum_getBlockSubsidy_le (heights : Finset ℤ) :
    ∑ h ∈ heights, getBlockSubsidy h params ≤ params.totalEmission := by
  rw [← ok.sum_getBlockSubsidy]
  have hpaid : ∀ h ∈ heights, h ∉ Finset.Icc emissionStartHeight params.emissionEndHeight →
      getBlockSubsidy h params = 0 := by
    intro h _ hout
    rcases lt_or_ge h emissionStartHeight with hlt | hge
    · exact getBlockSubsidy_of_lt_start hlt
    · refine ok.getBlockSubsidy_of_end_lt ?_
      simp only [Finset.mem_Icc, not_and, not_le] at hout
      exact hout hge
  calc ∑ h ∈ heights, getBlockSubsidy h params
      = ∑ h ∈ heights ∩ Finset.Icc emissionStartHeight params.emissionEndHeight,
          getBlockSubsidy h params := by
        refine (Finset.sum_subset Finset.inter_subset_left fun h hh hout => ?_).symm
        exact hpaid h hh fun hin => hout (Finset.mem_inter.mpr ⟨hh, hin⟩)
    _ ≤ _ := Finset.sum_le_sum_of_subset_of_nonneg Finset.inter_subset_right
        fun h _ _ => ok.getBlockSubsidy_nonneg h

end EmissionScheduleOk

/-! ## Mainnet -/

theorem mainParams_emissionScheduleOk : EmissionScheduleOk mainParams where
  wellFormed := by decide +kernel
  dust_nonneg := by decide

theorem mainParams_totalEmission : mainParams.totalEmission = maxMoney := by decide +kernel

end XCoin.Consensus
