import XCoin.Emission.Schedule

/-!
# The generator of the emission table

`contrib/regenesis/emission.py` turns a policy into the rows of `consensus/params.h`.
`build_segments` lays the eras of the policy one after the other, spreads the first blocks
over a slow start, stops where the cap is reached, and brings the total up to the cap
otherwise; `to_rows` makes rows of the segments and checks them.  This file has both for
the policies that list their eras.  The generator counts in satoshis: the cap, the floor of
the tail and the rewards are the policy's numbers after `int(round(x * unit))`.

A negative floor is the one setting with which `build_segments` does not lay its segments
back to back: the block of the remainder then starts too early.  The checks of `to_rows`
refuse the rows in that case.

What `to_rows` does not check is the largest subsidy `EmissionTableWellFormed` allows, so a
policy whose cap is above `MAX_SUPPLY_SAT` can have rows that the node's own check refuses.
-/

namespace XCoin.Emission

open Consensus

/-! ## The policy -/

/-- What becomes of the amount that the eras leave below the cap.  Every other text counts as
`final_block`. -/
inductive Completion where
  | finalBlock
  | extendFloor
  | extendLast
deriving DecidableEq, Repr

/-- A policy whose curve has the type `eras`. -/
structure Policy where
  decimals : ℕ
  blockSeconds : ℕ
  /-- the cap in satoshis; `none` for an uncapped policy -/
  cap : Option ℤ
  /-- length in blocks and reward in satoshis -/
  eras : List (ℤ × ℤ)
  slowStartBlocks : ℤ
  /-- `per_block` of a tail of the type `floor`, in satoshis; 0 for other tails -/
  floor : ℤ
  /-- `none` if the policy does not say -/
  completion : Option Completion
  /-- whether a parameter is to be solved for -/
  calibrate : Bool
deriving DecidableEq, Repr

/-- Every era lasts for a while and pays something. -/
def Policy.PositiveEras (p : Policy) : Prop := ∀ era ∈ p.eras, 0 < era.1 ∧ 0 < era.2

/-- `calibrate`.  An `eras` curve does not read the solved parameter; what stays is the default of
`completion`. -/
def calibrate (p : Policy) : Policy :=
  if p.calibrate then
    { p with completion := some (p.completion.getD .extendLast), calibrate := false }
  else p

/-! ## `build_segments` -/

/-- The variables `segs` and `total`, and the mark `_final_block_remainder`. -/
structure Built where
  segs : List EmissionEra
  total : ℤ
  finalBlockRemainder : Option ℤ
deriving DecidableEq, Repr

/-- One more segment. -/
def Built.append (a b r : ℤ) (built : Built) : Built :=
  { built with segs := built.segs ++ [⟨a, b, r⟩], total := built.total + (b - a + 1) * r }

/-- `add`, with what it returns. -/
def add (cap a b r : ℤ) (built : Built) : Bool × Built :=
  if b < a ∨ r ≤ 0 then (true, built)
  else if cap < built.total + (b - a + 1) * r then
    let n := (cap - built.total).fdiv r
    let trimmed := if 0 < n then built.append a (a + n - 1) r else built
    let rem := cap - trimmed.total
    (false, if 0 < rem then trimmed.append (a + n) (a + n) rem else trimmed)
  else (true, built.append a b r)

/-- A reward that the tail's floor holds up, if there is one. -/
def withFloor (floor r : ℤ) : ℤ := if floor ≠ 0 then max r floor else r

/-- The loop over the blocks of the slow start: whether `add` went on, where the loop stopped, and
the segments.  The fuel is the number of blocks. -/
def slowStartLoop (cap ss floor b r : ℤ) : ℕ → ℤ → Built → Bool × ℤ × Built
  | 0, x, built => (true, x, built)
  | fuel + 1, x, built =>
    if x ≤ min b ss then
      let y := min (min (x + max 1 (ss.fdiv 100) - 1) b) ss
      match add cap x y (withFloor floor (max 1 ((r * y).fdiv ss))) built with
      | (false, built) => (false, x, built)
      | (true, built) => slowStartLoop cap ss floor b r fuel (y + 1) built
    else (true, x, built)

/-- The variables of the loop over the pieces of the curve. -/
structure EraState where
  h : ℤ
  lastEnd : ℤ
  lastR : ℤ
  built : Built
deriving DecidableEq, Repr

/-- The blocks of a piece that are left after the slow start. -/
def addEra (cap floor a b r : ℤ) (built : Built) : Except Built EraState :=
  let rr := withFloor floor r
  match add cap a b rr built with
  | (false, built) => .error built
  | (true, built) => .ok ⟨b + 1, b, rr, built⟩

/-- One piece of the curve; an error is the early return of `build_segments`. -/
def addPiece (cap ss floor : ℤ) (state : EraState) (era : ℤ × ℤ) : Except Built EraState :=
  let a := state.h
  let b := state.h + era.1 - 1
  if ss ≠ 0 ∧ a ≤ ss then
    match slowStartLoop cap ss floor b era.2 (min b ss + 1 - a).toNat a state.built with
    | (false, _, built) => .error built
    | (true, x, built) =>
      if b < x then .ok ⟨b + 1, b, era.2, built⟩ else addEra cap floor x b era.2 built
  else addEra cap floor a b era.2 state.built

/-- Blocks of `r` satoshis from `h` on, as many as fit, and one more for the rest. -/
def extend (cap h r rem : ℤ) (built : Built) : Built :=
  let n := rem.fdiv r
  let longer := (add cap h (h + n - 1) r built).2
  if 0 < cap - longer.total then (add cap (h + n) (h + n) (cap - longer.total) longer).2 else longer

/-- What follows the loop over the pieces. -/
def complete (p : Policy) (cap : ℤ) (state : EraState) : Built :=
  let comp := p.completion.getD .finalBlock
  let rem := cap - state.built.total
  if state.built.total < cap then
    if p.floor ≠ 0 ∨ comp = .extendFloor then
      extend cap (state.lastEnd + 1) (if p.floor ≠ 0 then p.floor else 1) rem state.built
    else if comp = .extendLast ∧ 0 < state.lastR then
      extend cap (state.lastEnd + 1) state.lastR rem state.built
    else
      { state.built.append (state.lastEnd + 1) (state.lastEnd + 1) rem with
        finalBlockRemainder := some rem }
  else state.built

/-- `build_segments` of a policy with the cap `cap`. -/
def buildSegments (p : Policy) (cap : ℤ) : Built :=
  match p.eras.foldlM (addPiece cap p.slowStartBlocks p.floor) ⟨1, 0, 0, ⟨[], 0, none⟩⟩ with
  | .error built => built
  | .ok state => complete p cap state

/-! ## `to_rows` -/

/-- The refusals of `to_rows`, with the values their messages show. -/
inductive PolicyError where
  | decimals (decimals : ℕ)
  | blockSeconds (seconds : ℕ)
  | noCap
  | total (total cap : ℤ)
  | assertion
  | start
  | emptyRow (i : ℕ) (row : EmissionEra)
  | notFollowing (i : ℕ)
  | pastHeightRange (i : ℕ)
  | remainder (dust : ℤ)
  | internal
deriving DecidableEq, Repr

/-- A segment that goes on where the last row ends, at the same reward, is added to that row. -/
def appendRow (rows : List EmissionEra) (seg : EmissionEra) : List EmissionEra :=
  match rows.getLast? with
  | none => rows ++ [seg]
  | some last =>
    if last.baseSubsidy = seg.baseSubsidy ∧ last.endHeight + 1 = seg.startHeight then
      rows.dropLast ++ [⟨last.startHeight, seg.endHeight, seg.baseSubsidy⟩]
    else rows ++ [seg]

/-- The structural checks of the rows; `next` is the height after the row before, if any. -/
def checkRows : ℕ → Option ℤ → List EmissionEra → Except PolicyError Unit
  | _, _, [] => .ok ()
  | i, next, row :: rows =>
    if row.endHeight < row.startHeight ∨ row.baseSubsidy ≤ 0 then .error (.emptyRow i row)
    else if next ≠ none ∧ next ≠ some row.startHeight then .error (.notFollowing i)
    else if 2 ^ 31 - 1 < row.endHeight then .error (.pastHeightRange i)
    else checkRows (i + 1) (some (row.endHeight + 1)) rows

/-- `to_rows` from the segments of the rows on. -/
def closeRows (p : Policy) (segs : List EmissionEra) (dust cap : ℤ) :
    Except PolicyError (Policy × List EmissionEra × ℤ × ℤ) :=
  let rows := segs.foldl appendRow []
  if rows.head?.map (·.startHeight) ≠ some emissionStartHeight then .error .start
  else
    match checkRows 0 none rows with
    | .error refusal => .error refusal
    | .ok _ =>
      if ¬ (0 ≤ dust ∧ dust < 10 ^ p.decimals) then .error (.remainder dust)
      else if emissionTableTotalSat rows + dust ≠ cap then .error .internal
      else .ok (p, rows, dust, cap)

/-- `to_rows`: the calibrated policy, the rows, the closing dust and the cap. -/
def toRows (p : Policy) : Except PolicyError (Policy × List EmissionEra × ℤ × ℤ) :=
  if p.decimals ≠ 8 then .error (.decimals p.decimals)
  else if p.blockSeconds ≠ 300 then .error (.blockSeconds p.blockSeconds)
  else
    match p.cap with
    | none => .error .noCap
    | some cap =>
      let p := calibrate p
      let built := buildSegments p cap
      if built.total ≠ cap then .error (.total built.total cap)
      else
        match built.finalBlockRemainder, built.segs.getLast? with
        | none, _ => closeRows p built.segs 0 cap
        | some _, none => .error .assertion
        | some rem, some last =>
          if last.startHeight = last.endHeight ∧ last.baseSubsidy = rem ∧
              2 ≤ built.segs.length then
            closeRows p built.segs.dropLast rem cap
          else .error .assertion

/-! ## The segments -/

/-- The segments so far are back to back from height 1 to `next`, and their total is kept. -/
structure Laid (next : ℤ) (built : Built) : Prop where
  rows : BackToBack 1 built.segs next
  total_eq : built.total = emissionTableTotalSat built.segs
  unmarked : built.finalBlockRemainder = none

section Segments

variable {cap a b r ss floor : ℤ} {built : Built}

theorem emissionTableTotalSat_append (eras others : List EmissionEra) :
    emissionTableTotalSat (eras ++ others) =
      emissionTableTotalSat eras + emissionTableTotalSat others := by
  simp [emissionTableTotalSat]

theorem Built.total_append (a b r : ℤ) (htotal : built.total = emissionTableTotalSat built.segs) :
    (built.append a b r).total = emissionTableTotalSat (built.append a b r).segs := by
  simp only [Built.append, emissionTableTotalSat_append, htotal]
  simp only [emissionTableTotalSat, List.map_cons, List.map_nil, List.sum_cons, List.sum_nil]
  ring

theorem Laid.append (hlaid : Laid a built) (hab : a ≤ b) (hr : 0 < r) :
    Laid (b + 1) (built.append a b r) where
  rows := hlaid.rows.concat ⟨rfl, hab, hr, rfl⟩
  total_eq := Built.total_append a b r hlaid.total_eq
  unmarked := hlaid.unmarked

theorem Laid.add (hlaid : Laid a built) (cap : ℤ) (hab : a ≤ b + 1) (hr : 0 < r) :
    ∃ next, Laid next (add cap a b r built).2 ∧
      ((add cap a b r built).1 = true → next = b + 1) := by
  unfold Emission.add
  split_ifs with hempty hover
  · exact ⟨a, hlaid, fun _ => by omega⟩
  · dsimp only
    have hn : 0 < cap - built.total → 0 ≤ (cap - built.total).fdiv r :=
      fun hroom => Int.fdiv_nonneg hroom.le hr.le
    generalize (cap - built.total).fdiv r = n at hn ⊢
    refine Exists.imp (fun next h => ⟨h, False.elim⟩) ?_
    split_ifs with hwhole hrest hrest
    · have htrimmed := hlaid.append (show a ≤ a + n - 1 by omega) hr
      rw [show a + n - 1 + 1 = a + n by ring] at htrimmed
      exact ⟨_, htrimmed.append le_rfl hrest⟩
    · exact ⟨_, hlaid.append (by omega) hr⟩
    · -- nothing of the segment fits whole, so its only block pays the rest
      have hzero : n = 0 := by
        have := hn hrest
        omega
      rw [hzero, add_zero]
      exact ⟨_, hlaid.append le_rfl hrest⟩
    · exact ⟨a, hlaid⟩
  · exact ⟨b + 1, hlaid.append (by omega) hr, fun _ => rfl⟩

theorem withFloor_pos (floor : ℤ) (hr : 0 < r) : 0 < withFloor floor r := by
  unfold withFloor
  split_ifs <;> omega

theorem Laid.slowStartLoop (cap ss floor b r : ℤ) (fuel : ℕ) :
    ∀ {x : ℤ} {built : Built}, Laid x built → x ≤ b + 1 →
      ∃ next, Laid next (slowStartLoop cap ss floor b r fuel x built).2.2 ∧
        ((slowStartLoop cap ss floor b r fuel x built).1 = true →
          next = (slowStartLoop cap ss floor b r fuel x built).2.1 ∧ next ≤ b + 1) := by
  induction fuel with
  | zero =>
    intro x built hlaid hx
    exact ⟨x, hlaid, fun _ => ⟨rfl, hx⟩⟩
  | succ fuel ih =>
    intro x built hlaid hx
    rw [Emission.slowStartLoop]
    by_cases hmore : x ≤ min b ss
    · rw [if_pos hmore]
      dsimp only
      set y := min (min (x + max 1 (ss.fdiv 100) - 1) b) ss with hy
      set reward := withFloor floor (max 1 ((r * y).fdiv ss)) with hreward
      have hpositive : 0 < reward := withFloor_pos floor (by omega)
      obtain ⟨next, hadded, hnext⟩ := hlaid.add cap (show x ≤ y + 1 by omega) hpositive
      rcases hadd : Emission.add cap x y reward built with ⟨going, built'⟩
      rw [hadd] at hadded hnext
      cases going with
      | false => exact ⟨next, hadded, fun hfalse => absurd hfalse Bool.false_ne_true⟩
      | true =>
        obtain rfl := hnext rfl
        exact ih hadded (by omega)
    · rw [if_neg hmore]
      exact ⟨x, hlaid, fun _ => ⟨rfl, hx⟩⟩

/-- The loop over the eras has laid everything up to the end of the last one. -/
structure EraState.Laid (state : EraState) : Prop where
  laid : Emission.Laid state.h state.built
  lastEnd_eq : state.lastEnd + 1 = state.h

theorem addEra_laid (hlaid : Laid a built) (hab : a ≤ b + 1) (hr : 0 < r) :
    match addEra cap floor a b r built with
    | .error built => ∃ next, Laid next built
    | .ok state => state.Laid := by
  have hpositive := withFloor_pos floor hr
  obtain ⟨next, hadded, hnext⟩ := hlaid.add cap hab hpositive
  rw [addEra]
  rcases hadd : Emission.add cap a b (withFloor floor r) built with ⟨going, built'⟩
  rw [hadd] at hadded hnext
  cases going with
  | false => exact ⟨next, hadded⟩
  | true =>
    obtain rfl := hnext rfl
    exact ⟨hadded, rfl⟩

theorem addPiece_laid (cap ss floor : ℤ) {state : EraState} (hstate : state.Laid) {era : ℤ × ℤ} (hlength : 0 < era.1)
    (hreward : 0 < era.2) :
    match addPiece cap ss floor state era with
    | .error built => ∃ next, Laid next built
    | .ok state => state.Laid := by
  rw [addPiece]
  split_ifs with hslow
  · set fuel := (min (state.h + era.1 - 1) ss + 1 - state.h).toNat
    obtain ⟨next, hlaid, hnext⟩ := Laid.slowStartLoop cap ss floor (state.h + era.1 - 1) era.2
      fuel hstate.laid (by omega)
    rcases hloop : Emission.slowStartLoop cap ss floor (state.h + era.1 - 1) era.2 fuel state.h
      state.built with ⟨going, x, built'⟩
    rw [hloop] at hlaid hnext
    cases going with
    | false => exact ⟨next, hlaid⟩
    | true =>
      obtain ⟨rfl, hle⟩ := hnext rfl
      dsimp only
      by_cases hdone : state.h + era.1 - 1 < next
      · rw [if_pos hdone]
        have hend : state.h + era.1 - 1 + 1 = next := le_antisymm (by omega) hle
        exact ⟨hend ▸ hlaid, rfl⟩
      · rw [if_neg hdone]
        exact addEra_laid hlaid hle hreward
  · exact addEra_laid hstate.laid (by omega) hreward

theorem foldlM_addPiece_laid (cap ss floor : ℤ) {eras : List (ℤ × ℤ)}
    (heras : ∀ era ∈ eras, 0 < era.1 ∧ 0 < era.2) :
    ∀ {state : EraState}, state.Laid →
      match eras.foldlM (addPiece cap ss floor) state with
      | .error built => ∃ next, Laid next built
      | .ok state => state.Laid := by
  induction eras with
  | nil => exact fun hstate => hstate
  | cons era eras ih =>
    intro state hstate
    have hpiece := addPiece_laid cap ss floor hstate
      (heras era List.mem_cons_self).1 (heras era List.mem_cons_self).2
    rw [List.foldlM_cons]
    cases hadd : addPiece cap ss floor state era with
    | error built =>
      rw [hadd] at hpiece
      exact hpiece
    | ok state' =>
      rw [hadd] at hpiece
      exact ih (fun e he => heras e (List.mem_cons_of_mem _ he)) hpiece

/-- Extending by blocks that pay something brings the total up to the cap. -/
theorem Laid.extend (hlaid : Laid a built) (hroom : built.total < cap) (hr : 0 < r) :
    ∃ next, Laid next (extend cap a r (cap - built.total) built) := by
  unfold Emission.extend
  dsimp only
  have hn : 0 ≤ (cap - built.total).fdiv r := Int.fdiv_nonneg (by omega) hr.le
  have hfits : (cap - built.total).fdiv r * r ≤ cap - built.total := by
    rw [Int.fdiv_eq_ediv_of_nonneg _ hr.le]
    exact Int.ediv_mul_le _ hr.ne'
  generalize (cap - built.total).fdiv r = n at hn hfits ⊢
  have hwhole : (Emission.add cap a (a + n - 1) r built).1 = true := by
    unfold Emission.add
    split_ifs with hempty hover
    · rfl
    · rw [show a + n - 1 - a + 1 = n by ring] at hover
      omega
    · rfl
  obtain ⟨next, hlonger, hnext⟩ := hlaid.add cap (show a ≤ a + n - 1 + 1 by omega) hr
  obtain rfl : next = a + n := by rw [hnext hwhole]; ring
  split_ifs with hrest
  · obtain ⟨next, hclosed, -⟩ := hlonger.add cap (show a + n ≤ a + n + 1 by omega) hrest
    exact ⟨next, hclosed⟩
  · exact ⟨_, hlonger⟩

/-- With a negative reward the block of the remainder starts too early. -/
theorem extend_of_neg (hroom : built.total < cap) (hr : r < 0) :
    ∃ h < a, extend cap a r (cap - built.total) built = built.append h h (cap - built.total) := by
  unfold Emission.extend
  dsimp only
  have hn : (cap - built.total).fdiv r < 0 := by
    rw [← Int.neg_fdiv_neg]
    exact Int.fdiv_neg_of_neg_of_pos (by omega) (by omega)
  generalize (cap - built.total).fdiv r = n at hn ⊢
  have hnothing : Emission.add cap a (a + n - 1) r built = (true, built) :=
    if_pos (Or.inr hr.le)
  refine ⟨a + n, by omega, ?_⟩
  rw [hnothing]
  dsimp only
  rw [if_pos (by omega), Emission.add, if_neg (by omega), if_neg (by ring_nf; omega)]

end Segments

/-- What `build_segments` returns: segments back to back; the same with the marked remainder in a
block after them; or, for a negative floor, with a block that starts too early. -/
inductive Returns (built : Built) : Prop
  | laid (next : ℤ) (hlaid : Laid next built)
  | marked (next rem : ℤ) (before : Built) (hlaid : Laid next before) (hrem : 0 < rem)
      (heq : built = { before.append next next rem with finalBlockRemainder := some rem })
  | early (next h rem : ℤ) (before : Built) (hlaid : Laid next before) (hearly : h < next)
      (heq : built = before.append h h rem)

theorem complete_returns (p : Policy) (cap : ℤ) {state : EraState} (hstate : state.Laid) :
    Returns (complete p cap state) := by
  have hlaid := hstate.laid
  rw [← hstate.lastEnd_eq] at hlaid
  unfold complete
  dsimp only
  split_ifs with hroom hfloor hnonzero hlast
  · rcases lt_or_gt_of_ne hnonzero with hneg | hpos
    · obtain ⟨h, hearly, heq⟩ := extend_of_neg (a := state.lastEnd + 1) hroom hneg
      exact .early _ h _ state.built hlaid hearly heq
    · obtain ⟨next, hextended⟩ := hlaid.extend hroom hpos
      exact .laid next hextended
  · obtain ⟨next, hextended⟩ := hlaid.extend hroom one_pos
    exact .laid next hextended
  · obtain ⟨next, hextended⟩ := hlaid.extend hroom hlast.2
    exact .laid next hextended
  · exact .marked _ _ state.built hlaid (by omega) rfl
  · exact .laid _ hlaid

theorem buildSegments_returns {p : Policy} (hpositive : p.PositiveEras) (cap : ℤ) :
    Returns (buildSegments p cap) := by
  have hstart : EraState.Laid ⟨1, 0, 0, ⟨[], 0, none⟩⟩ := ⟨⟨rfl, rfl, rfl⟩, rfl⟩
  have hloop := foldlM_addPiece_laid cap p.slowStartBlocks p.floor hpositive hstart
  unfold buildSegments
  cases hfold : p.eras.foldlM (addPiece cap p.slowStartBlocks p.floor)
      ⟨1, 0, 0, ⟨[], 0, none⟩⟩ with
  | error built =>
    rw [hfold] at hloop
    obtain ⟨next, hlaid⟩ := hloop
    exact .laid next hlaid
  | ok state =>
    rw [hfold] at hloop
    exact complete_returns p cap hloop

/-! ## The rows -/

section Rows

variable {start next stop dust cap : ℤ} {rows segs : List EmissionEra} {seg : EmissionEra}

theorem appendRow_concat (rows : List EmissionEra) (last seg : EmissionEra) :
    appendRow (rows ++ [last]) seg =
      if last.baseSubsidy = seg.baseSubsidy ∧ last.endHeight + 1 = seg.startHeight then
        rows ++ [⟨last.startHeight, seg.endHeight, seg.baseSubsidy⟩]
      else rows ++ [last] ++ [seg] := by
  rw [appendRow, List.getLast?_concat, List.dropLast_concat]

theorem paidUpTo_longer {last : EmissionEra} (hlast : last.startHeight ≤ last.endHeight)
    (hnext : last.endHeight + 1 = seg.startHeight) (hseg : seg.startHeight ≤ seg.endHeight)
    (hreward : last.baseSubsidy = seg.baseSubsidy) (n : ℤ) :
    EmissionEra.paidUpTo ⟨last.startHeight, seg.endHeight, seg.baseSubsidy⟩ n =
      last.paidUpTo n + seg.paidUpTo n := by
  simp only [EmissionEra.paidUpTo, hreward]
  rw [← mul_add]
  congr 1
  omega

theorem appendRow_spec (hrows : BackToBack start rows next) (hseg : BackToBack next [seg] stop) :
    BackToBack start (appendRow rows seg) stop ∧
      ∀ n, paidUpTo (appendRow rows seg) n = paidUpTo rows n + seg.paidUpTo n := by
  rcases List.eq_nil_or_concat' rows with rfl | ⟨before, last, rfl⟩
  · exact ⟨hrows.concat hseg, fun n => by simp [appendRow]⟩
  · obtain ⟨middle, hbefore, hstart, hle, hpositive, hend⟩ := backToBack_append.mp hrows
    obtain ⟨hsegStart, hsegLe, hsegPositive, hsegEnd⟩ := hseg
    rw [appendRow_concat]
    split_ifs with hsame
    · refine ⟨hbefore.concat ⟨hstart, ?_, hsegPositive, hsegEnd⟩, fun n => ?_⟩
      · have : last.endHeight + 1 = next := hend
        dsimp only
        omega
      · rw [paidUpTo_append, paidUpTo_append, paidUpTo_cons, paidUpTo_cons, paidUpTo_nil,
          paidUpTo_longer hle hsame.2 hsegLe hsame.1]
        ring
    · refine ⟨hrows.concat ⟨hsegStart, hsegLe, hsegPositive, hsegEnd⟩, fun n => ?_⟩
      rw [paidUpTo_append, paidUpTo_cons, paidUpTo_nil, add_zero]

/-- **Merging.**  The rows made of segments that are back to back are back to back themselves and
have paid the same at every height. -/
theorem foldl_appendRow_spec :
    ∀ {rows : List EmissionEra} {next : ℤ}, BackToBack start rows next →
      BackToBack next segs stop →
        BackToBack start (segs.foldl appendRow rows) stop ∧
          ∀ n, paidUpTo (segs.foldl appendRow rows) n = paidUpTo rows n + paidUpTo segs n := by
  induction segs with
  | nil =>
    intro rows next hrows hsegs
    exact ⟨hsegs ▸ hrows, fun n => by simp⟩
  | cons seg segs ih =>
    intro rows next hrows hsegs
    obtain ⟨hstart, hle, hpositive, hrest⟩ := hsegs
    obtain ⟨hlonger, hpaid⟩ := appendRow_spec hrows
      (backToBack_singleton.mpr ⟨hstart, hle, hpositive, rfl⟩)
    obtain ⟨hall, hpaidAll⟩ := ih hlonger hrest
    refine ⟨hall, fun n => ?_⟩
    rw [List.foldl_cons, hpaidAll, hpaid, paidUpTo_cons]
    ring

/-- A block that starts too early becomes a row of its own, and the rows are not back to back. -/
theorem not_backToBack_early {h rem : ℤ} (hsegs : BackToBack 1 segs next) (hearly : h < next) :
    ¬ BackToBack 1 ((segs ++ [EmissionEra.mk h h rem]).foldl appendRow []) stop := by
  intro hrows
  obtain ⟨hmerged, -⟩ := foldl_appendRow_spec (show BackToBack 1 [] 1 from rfl) hsegs
  rw [List.foldl_append, List.foldl_cons, List.foldl_nil] at hrows
  have hown : appendRow (segs.foldl appendRow []) ⟨h, h, rem⟩ =
      segs.foldl appendRow [] ++ [⟨h, h, rem⟩] := by
    rcases List.eq_nil_or_concat' (segs.foldl appendRow []) with hnil | ⟨before, last, hlast⟩
    · rw [hnil]
      rfl
    · rw [hlast] at hmerged ⊢
      obtain ⟨middle, -, -, -, -, hend⟩ := backToBack_append.mp hmerged
      have : last.endHeight + 1 = next := hend
      rw [appendRow_concat, if_neg (by dsimp only; omega)]
  rw [hown] at hrows
  obtain ⟨middle, hbefore, hstart, -⟩ := backToBack_append.mp hrows
  have hmiddle := hbefore.stop_unique hmerged
  have : h = middle := hstart
  omega

theorem backToBack_of_checkRows :
    ∀ {rows : List EmissionEra} {i : ℕ}, checkRows i (some next) rows = .ok () →
      ∃ stop, BackToBack next rows stop := by
  intro rows
  induction rows generalizing next with
  | nil => exact fun _ => ⟨next, rfl⟩
  | cons row rows ih =>
    intro i hcheck
    rw [checkRows] at hcheck
    split_ifs at hcheck with hempty hfollows hrange
    obtain ⟨stop, hrest⟩ := ih hcheck
    simp only [not_or, Int.not_lt, Int.not_le] at hempty
    have hstart : row.startHeight = next := by simpa [eq_comm] using hfollows
    exact ⟨stop, hstart, hempty.1, hempty.2, hrest⟩

theorem backToBack_of_checkRows_start {i : ℕ}
    (hstart : rows.head?.map (·.startHeight) = some start) (hcheck : checkRows i none rows = .ok ()) :
    rows ≠ [] ∧ ∃ stop, BackToBack start rows stop := by
  cases rows with
  | nil => simp at hstart
  | cons row rows =>
    rw [checkRows] at hcheck
    split_ifs at hcheck with hempty hfollows hrange
    obtain ⟨stop, hrest⟩ := backToBack_of_checkRows hcheck
    simp only [not_or, Int.not_lt, Int.not_le] at hempty
    exact ⟨List.cons_ne_nil _ _, stop, by simpa using hstart, hempty.1, hempty.2, hrest⟩

/-- What a returning `to_rows` has checked. -/
structure Checked (segs rows : List EmissionEra) (dust cap : ℤ) : Prop where
  rows_eq : rows = segs.foldl appendRow []
  ne_nil : rows ≠ []
  backToBack : ∃ stop, BackToBack 1 rows stop
  dust_nonneg : 0 ≤ dust
  total_eq : emissionTableTotalSat rows + dust = cap

theorem checked_of_closeRows {p p' : Policy} {dust' cap' : ℤ}
    (hclose : closeRows p segs dust cap = .ok (p', rows, dust', cap')) :
    p' = p ∧ dust' = dust ∧ cap' = cap ∧ Checked segs rows dust cap := by
  rw [closeRows] at hclose
  by_cases hstart : (segs.foldl appendRow []).head?.map (·.startHeight) = some emissionStartHeight
  swap
  · simp [hstart] at hclose
  rw [if_neg (not_not.mpr hstart)] at hclose
  cases hcheck : checkRows 0 none (segs.foldl appendRow []) with
  | error refusal => simp [hcheck] at hclose
  | ok _ =>
    simp only [hcheck] at hclose
    split_ifs at hclose with hdust htotal
    simp only [Except.ok.injEq, Prod.mk.injEq] at hclose
    obtain ⟨rfl, rfl, rfl, rfl⟩ := hclose
    obtain ⟨hne, hrows⟩ := backToBack_of_checkRows_start hstart hcheck
    exact ⟨rfl, rfl, rfl, rfl, hne, hrows, hdust.1, not_not.mp htotal⟩

end Rows

/-! ## The schedule -/

/-- What `to_rows` returns is made of segments that are back to back from height 1, and of them it
leaves out at most the last one, which pays the closing dust. -/
theorem checked_of_toRows {p p' : Policy} (hpositive : p.PositiveEras) {rows : List EmissionEra}
    {dust cap : ℤ} (hrows : toRows p = .ok (p', rows, dust, cap)) :
    (buildSegments p' cap).total = cap ∧
      (buildSegments p' cap).total = emissionTableTotalSat (buildSegments p' cap).segs ∧
      ∃ segs next stop, BackToBack 1 segs next ∧ Checked segs rows dust cap ∧
        BackToBack 1 (buildSegments p' cap).segs stop ∧
        ∀ n < next, paidUpTo (buildSegments p' cap).segs n = paidUpTo segs n := by
  rw [toRows] at hrows
  split_ifs at hrows with hdecimals hseconds
  cases hcap : p.cap with
  | none => simp [hcap] at hrows
  | some cap' =>
    simp only [hcap] at hrows
    have hcalibrated : (calibrate p).PositiveEras := by
      unfold calibrate
      split_ifs <;> exact hpositive
    have hreturns := buildSegments_returns hcalibrated cap'
    generalize hbuilt : buildSegments (calibrate p) cap' = built at hrows hreturns
    by_cases htotal : built.total = cap'
    swap
    · simp [htotal] at hrows
    rw [if_neg (not_not.mpr htotal)] at hrows
    cases hreturns with
    | laid next hlaid =>
      rw [hlaid.unmarked] at hrows
      obtain ⟨rfl, rfl, rfl, hchecked⟩ := checked_of_closeRows hrows
      rw [hbuilt]
      exact ⟨htotal, hlaid.total_eq, built.segs, next, next, hlaid.rows, hchecked, hlaid.rows,
        fun _ _ => rfl⟩
    | marked next rem before hlaid hrem heq =>
      subst heq
      simp only [Built.append, List.getLast?_concat, List.dropLast_concat] at hrows
      split_ifs at hrows with hassert
      obtain ⟨rfl, rfl, rfl, hchecked⟩ := checked_of_closeRows hrows
      rw [hbuilt]
      refine ⟨htotal, Built.total_append next next _ hlaid.total_eq, before.segs, next, next + 1,
        hlaid.rows, hchecked, hlaid.rows.concat ⟨rfl, le_rfl, hrem, rfl⟩, fun n hn => ?_⟩
      simp only [Built.append, paidUpTo_append, paidUpTo_cons, paidUpTo_nil]
      rw [EmissionEra.paidUpTo_of_lt hn]
      ring
    | early next h rem before hlaid hearly heq =>
      subst heq
      have hmark : (before.append h h rem).finalBlockRemainder = none := hlaid.unmarked
      rw [hmark] at hrows
      obtain ⟨-, -, -, hchecked⟩ := checked_of_closeRows hrows
      obtain ⟨stop, hbackToBack⟩ := hchecked.backToBack
      rw [hchecked.rows_eq] at hbackToBack
      exact absurd hbackToBack (not_backToBack_early hlaid.rows hearly)

theorem Checked.paid_spec {segs rows : List EmissionEra} {next dust cap : ℤ}
    (hchecked : Checked segs rows dust cap) (hsegs : BackToBack 1 segs next) (params : Params)
    (htable : params.emissionTable = rows) (hdust : params.emissionClosingDustSat = dust) (n : ℤ) :
    params.emissionEndHeight = next - 1 ∧
      ∑ h ∈ Finset.Icc 1 n, getBlockSubsidy h params ≤ cap ∧
      (n < params.emissionEndHeight →
        ∑ h ∈ Finset.Icc 1 n, getBlockSubsidy h params = paidUpTo segs n) ∧
      (∑ h ∈ Finset.Icc 1 n, getBlockSubsidy h params = cap ↔ params.emissionEndHeight ≤ n) := by
  obtain ⟨hmerged, hpaid⟩ := foldl_appendRow_spec (show BackToBack 1 [] 1 from rfl) hsegs
  rw [← hchecked.rows_eq, ← htable] at hmerged
  have hne : params.emissionTable ≠ [] := htable ▸ hchecked.ne_nil
  have hend := hmerged.emissionEndHeight_eq hne
  have hsame : paidUpTo params.emissionTable n = paidUpTo segs n := by
    rw [htable, hchecked.rows_eq, hpaid, paidUpTo_nil, zero_add]
  have hcap : emissionTableTotalSat params.emissionTable + dust = cap :=
    htable ▸ hchecked.total_eq
  have hnonneg := hchecked.dust_nonneg
  obtain ⟨-, hfull, hpart⟩ := hmerged.paidUpTo_spec n
  rw [hmerged.sum_getBlockSubsidy_eq hne n, hdust, hsame]
  rw [hsame] at hfull hpart
  by_cases hn : params.emissionEndHeight ≤ n
  · have hall := hfull (by omega)
    rw [if_pos hn]
    exact ⟨hend, by omega, fun hlt => absurd hn (by omega), iff_of_true (by omega) hn⟩
  · have hless := hpart hne (by omega)
    rw [if_neg hn]
    exact ⟨hend, by omega, fun _ => by ring, iff_of_false (by omega) hn⟩

/-- **The generated schedule.**  When `to_rows` returns, the segments are back to back from height
1, each paying something, and total the cap; the rows are well-formed exactly if none pays more
than the node's largest supply; and the node pays what the segments pay until the last subsidy
block, never more than the cap, and exactly the cap from that block on. -/
theorem toRows_schedule {p p' : Policy} (hpositive : p.PositiveEras) {rows : List EmissionEra}
    {dust cap : ℤ} (hrows : toRows p = .ok (p', rows, dust, cap)) :
    (∃ stop, BackToBack 1 (buildSegments p' cap).segs stop) ∧
      emissionTableTotalSat (buildSegments p' cap).segs = cap ∧
      (emissionTableWellFormed rows emissionStartHeight = true ↔
        ∀ row ∈ rows, row.baseSubsidy ≤ maxSupplySat) ∧
      (cap ≤ maxSupplySat → emissionTableWellFormed rows emissionStartHeight = true) ∧
      ∀ params : Params, params.emissionTable = rows → params.emissionClosingDustSat = dust →
        ∀ n, ∑ h ∈ Finset.Icc 1 n, getBlockSubsidy h params ≤ cap ∧
          (n < params.emissionEndHeight → ∑ h ∈ Finset.Icc 1 n, getBlockSubsidy h params =
            paidUpTo (buildSegments p' cap).segs n) ∧
          (∑ h ∈ Finset.Icc 1 n, getBlockSubsidy h params = cap ↔
            params.emissionEndHeight ≤ n) := by
  obtain ⟨htotal, hsum, segs, next, stop, hsegs, hchecked, hall, hpaid⟩ :=
    checked_of_toRows hpositive hrows
  obtain ⟨rowsStop, hbackToBack⟩ := hchecked.backToBack
  have hwellFormed := hbackToBack.emissionTableWellFormed_iff hchecked.ne_nil
  refine ⟨⟨stop, hall⟩, hsum.symm.trans htotal, hwellFormed, fun hcap => ?_, ?_⟩
  · refine hwellFormed.mpr fun row hrow => ?_
    have hle := hbackToBack.baseSubsidy_le_total hrow
    have := hchecked.total_eq
    have := hchecked.dust_nonneg
    omega
  · intro params htable hdust n
    obtain ⟨hend, hle, hagree, hfull⟩ := hchecked.paid_spec hsegs params htable hdust n
    refine ⟨hle, fun hn => ?_, hfull⟩
    rw [hpaid n (by omega)]
    exact hagree hn

/-- Mainnet's policy, `emission-policy.json`. -/
def shippedPolicy : Policy where
  decimals := 8
  blockSeconds := 300
  cap := some 10000000000000000
  eras := [
    (20000, 625000000), (20000, 1250000000), (20000, 2500000000), (160000, 5000000000),
    (110000, 4500000000), (110000, 4050000000), (110000, 3645000000), (110000, 3281000000),
    (110000, 2953000000), (110000, 2658000000), (110000, 2393000000), (110000, 2154000000),
    (110000, 1939000000), (110000, 1746000000), (110000, 1572000000), (110000, 1415000000),
    (110000, 1274000000), (110000, 1147000000), (110000, 1033000000), (110000, 930000000),
    (110000, 837000000), (110000, 754000000), (110000, 679000000), (110000, 612000000),
    (110000, 551000000), (110000, 496000000), (110000, 447000000), (110000, 403000000),
    (110000, 363000000), (110000, 327000000), (110000, 295000000), (110000, 266000000),
    (110000, 240000000), (110000, 216000000), (110000, 195000000), (110000, 176000000),
    (110000, 159000000), (27610000, 150000000), (110000, 148490909), (110000, 133641818),
    (110000, 120277636), (110000, 108249872), (110000, 97424885), (110000, 87682397),
    (110000, 78914157), (110000, 71022741), (110000, 63920467), (110000, 57528420),
    (110000, 51775578), (110000, 46598021), (110000, 41938218), (110000, 37744397),
    (110000, 33969957), (110000, 30572961), (110000, 27515665), (110000, 24764099),
    (110000, 22287689), (110000, 20058920), (110000, 18053028), (110000, 16247725),
    (110000, 14622953), (110000, 13160657), (110000, 11844592), (110000, 10660132),
    (1055353, 10000000)]
  slowStartBlocks := 0
  floor := 0
  completion := some .finalBlock
  calibrate := false

/-- The table in `consensus/params.h` is the one the policy generates. -/
theorem toRows_shippedPolicy : toRows shippedPolicy =
    .ok (shippedPolicy, mainnetEmissionTable, mainnetClosingDustSat, 10000000000000000) := by
  decide +kernel

theorem shippedPolicy_schedule :
    emissionTableWellFormed mainnetEmissionTable emissionStartHeight = true ∧
      ∀ n, ∑ h ∈ Finset.Icc 1 n, getBlockSubsidy h mainParams ≤ 10000000000000000 := by
  have hpositive : shippedPolicy.PositiveEras := by
    intro era hera
    have hall : shippedPolicy.eras.all (fun era => decide (0 < era.1 ∧ 0 < era.2)) = true := by
      decide
    exact of_decide_eq_true (List.all_eq_true.mp hall era hera)
  obtain ⟨-, -, -, hwellFormed, hpaid⟩ := toRows_schedule hpositive toRows_shippedPolicy
  exact ⟨hwellFormed (by decide), fun n => (hpaid mainParams rfl rfl n).1⟩

/-- With a cap above the node's largest supply, a row can pay more than the node accepts. -/
theorem largeCap_not_wellFormed :
    ∃ p : Policy, p.PositiveEras ∧
      toRows p = .ok (p, [⟨1, 1, 20000000000000000⟩], 0, 20000000000000000) ∧
      emissionTableWellFormed [⟨1, 1, 20000000000000000⟩] emissionStartHeight = false := by
  refine ⟨⟨8, 300, some 20000000000000000, [(1, 20000000000000000)], 0, 0, none, false⟩, ?_, ?_, ?_⟩
  · intro era hera
    rw [List.mem_singleton.mp hera]
    decide
  · decide
  · decide

end XCoin.Emission
