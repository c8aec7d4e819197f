import XCoin.Pool.Coinbase

/-!
# Splitting a reward

`pplns_split`: the pool fee first, then the miners' part in proportion to their weights in the
window.  Weights are exact rational numbers here; the pool computes with Python floats.  The
loop drops miners whose part is below the minimum and starts over with the rest, until all
parts are large enough or one miner is left (`settle`).

What comes out is collected in `MinerPayouts`: the parts sum to exactly the miners' part of
the reward, and a part is below the minimum only if it is the only one.
-/

namespace XCoin.Pool

open Consensus Script Validation

variable (regtest : Bool) {payouts : List (Bytes × ℕ)} {rewardSats feeBp minOut maxOutputs : ℕ}
  {feeSpk : Option Bytes} {fallbackSpk : Bytes}

/-! ## The code -/

/-- The order of the ranking: larger weights first, then by script. -/
def ranksBefore (a b : ℚ × Bytes) : Prop := b.1 < a.1 ∨ (a.1 = b.1 ∧ a.2 ≤ b.2)

instance : DecidableRel ranksBefore := fun _ _ => inferInstanceAs (Decidable (_ ∨ _))

/-- The miners with a positive weight, ranked. -/
def ranking (weights : List (Bytes × ℚ)) : List (ℚ × Bytes) :=
  ((weights.filter fun entry => decide (0 < entry.2)).map Prod.swap).insertionSort ranksBefore

/-- The sum of the weights. -/
def totalWeight (ranked : List (ℚ × Bytes)) : ℚ := (ranked.map Prod.fst).sum

/-- The part of one miner, floored. -/
def part (pool : ℕ) (total weight : ℚ) : ℕ := ⌊(pool : ℚ) * weight / total⌋.toNat

/-- Each miner's part, rounded down. -/
def amounts (pool : ℕ) (ranked : List (ℚ × Bytes)) : List (Bytes × ℕ) :=
  ranked.map fun miner => (miner.2, part pool (totalWeight ranked) miner.1)

/-- The miners whose part reaches the minimum. -/
def payable (pool minOut : ℕ) (ranked : List (ℚ × Bytes)) : List (ℚ × Bytes) :=
  ranked.filter fun miner => decide (minOut ≤ part pool (totalWeight ranked) miner.1)

/-- The loop; a pass that does not end it drops a miner. -/
def settle (pool minOut : ℕ) : ℕ → List (ℚ × Bytes) → List (ℚ × Bytes)
  | 0, ranked => ranked
  | fuel + 1, ranked =>
    if ranked.length ≤ 1 ∨ payable pool minOut ranked = ranked then ranked
    else if payable pool minOut ranked = [] then settle pool minOut fuel (ranked.take 1)
    else settle pool minOut fuel (payable pool minOut ranked)

/-- The leftover satoshis go to the first miner. -/
def withDust (pool : ℕ) : List (Bytes × ℕ) → List (Bytes × ℕ)
  | [] => []
  | (spk, amount) :: rest =>
    (spk, amount + (pool - (amount + (rest.map Prod.snd).sum))) :: rest

/-- The payouts of the miners' part. -/
def minerPayouts (pool minOut maxOutputs : ℕ) (weights : List (Bytes × ℚ)) (fallbackSpk : Bytes) :
    List (Bytes × ℕ) :=
  let ranked := (ranking weights).take (max 1 maxOutputs)
  let payees := settle pool minOut ranked.length ranked
  withDust pool (if payees = [] then [(fallbackSpk, pool)] else amounts pool payees)

/-- The pool fee; without a fee address there is none.  `none` stands for every value of
`fee_spk` that Python takes for false, the empty script included. -/
def poolFee (rewardSats feeBp : ℕ) (feeSpk : Option Bytes) : ℕ :=
  if feeSpk.isSome then rewardSats * feeBp / 10000 else 0

/-- The payouts with a positive amount, their scripts checked. -/
def checkPayouts (regtest : Bool) : List (Bytes × ℕ) → Except PoolError (List (Bytes × ℕ))
  | [] => .ok []
  | (spk, amount) :: rest =>
    if amount = 0 then checkPayouts regtest rest
    else do
      let spk ← checkPayoutSpk regtest spk
      let outs ← checkPayouts regtest rest
      return (spk, amount) :: outs

/-- The output of the pool fee. -/
def feePayout (regtest : Bool) (fee : ℕ) (feeSpk : Option Bytes) :
    Except PoolError (List (Bytes × ℕ)) :=
  match feeSpk with
  | none => .ok []
  | some spk => checkPayouts regtest [(spk, fee)]

/-- `pplns_split`. -/
def pplnsSplit (regtest : Bool) (rewardSats : ℕ) (weights : List (Bytes × ℚ)) (feeBp : ℕ)
    (feeSpk : Option Bytes) (minOut maxOutputs : ℕ) (fallbackSpk : Bytes) :
    Except PoolError (List (Bytes × ℕ)) :=
  if 10000 ≤ feeBp then .error .poolFee
  else do
    let fee := poolFee rewardSats feeBp feeSpk
    let pool := rewardSats - fee
    let miners ← checkPayouts regtest (minerPayouts pool minOut maxOutputs weights fallbackSpk)
    let feeOut ← feePayout regtest fee feeSpk
    let outs := miners ++ feeOut
    if (outs.map Prod.snd).sum ≠ rewardSats then .error .assertSum else return outs

/-! ## The loop -/

section Loop

variable {pool minOut : ℕ} {ranked : List (ℚ × Bytes)}

theorem payable_sublist : (payable pool minOut ranked).Sublist ranked := List.filter_sublist

theorem length_payable_lt (hdrop : payable pool minOut ranked ≠ ranked) :
    (payable pool minOut ranked).length < ranked.length := by
  refine lt_of_le_of_ne payable_sublist.length_le fun hsame => ?_
  exact hdrop (payable_sublist.eq_of_length hsame)

/-- The loop keeps some of the miners, in their order, and at least one if there is one. -/
theorem settle_sublist :
    ∀ (fuel : ℕ) (ranked : List (ℚ × Bytes)),
      (settle pool minOut fuel ranked).Sublist ranked ∧
        (ranked ≠ [] → settle pool minOut fuel ranked ≠ []) := by
  intro fuel
  induction fuel with
  | zero =>
    intro ranked
    exact ⟨List.Sublist.refl _, id⟩
  | succ fuel ih =>
    intro ranked
    rw [settle]
    split_ifs with hdone hempty
    · exact ⟨List.Sublist.refl _, id⟩
    · obtain ⟨hsublist, hne⟩ := ih (ranked.take 1)
      refine ⟨hsublist.trans (List.take_sublist 1 ranked), fun hranked => hne ?_⟩
      simpa using hranked
    · obtain ⟨hsublist, hne⟩ := ih (payable pool minOut ranked)
      exact ⟨hsublist.trans payable_sublist, fun _ => hne hempty⟩

/-- With one pass per miner the loop has ended: one miner is left, or every part is large
enough. -/
theorem settle_done :
    ∀ (fuel : ℕ) (ranked : List (ℚ × Bytes)), ranked.length ≤ fuel + 1 →
      (settle pool minOut fuel ranked).length ≤ 1 ∨
        payable pool minOut (settle pool minOut fuel ranked) = settle pool minOut fuel ranked := by
  intro fuel
  induction fuel with
  | zero =>
    intro ranked hlength
    exact .inl hlength
  | succ fuel ih =>
    intro ranked hlength
    rw [settle]
    split_ifs with hdone hempty
    · exact hdone
    · exact ih _ (by rw [List.length_take]; omega)
    · have hshorter := length_payable_lt fun hsame => hdone (.inr hsame)
      exact ih _ (by omega)

end Loop

/-! ## Amounts -/

section Amounts

variable {pool minOut : ℕ} {ranked : List (ℚ × Bytes)}

theorem map_snd_amounts :
    (amounts pool ranked).map Prod.snd =
      ranked.map fun miner => part pool (totalWeight ranked) miner.1 := by
  rw [amounts, List.map_map]
  rfl

theorem part_le (pool : ℕ) (total : ℚ) {weight : ℚ} (hweight : 0 ≤ weight) (htotal : 0 < total) :
    (part pool total weight : ℚ) ≤ pool * weight / total := by
  have hnonneg : 0 ≤ (pool : ℚ) * weight / total := by positivity
  have hfloor : ((part pool total weight : ℕ) : ℤ) = ⌊(pool : ℚ) * weight / total⌋ :=
    Int.toNat_of_nonneg (Int.floor_nonneg.mpr hnonneg)
  calc (part pool total weight : ℚ) = ((part pool total weight : ℕ) : ℤ) := by norm_cast
    _ = (⌊(pool : ℚ) * weight / total⌋ : ℚ) := by rw [hfloor]
    _ ≤ pool * weight / total := Int.floor_le _

theorem sum_part_le (pool : ℕ) {total : ℚ} (htotal : 0 < total) (weights : List ℚ) :
    (∀ weight ∈ weights, 0 < weight) →
      (((weights.map (part pool total)).sum : ℕ) : ℚ) ≤ pool * weights.sum / total := by
  induction weights with
  | nil =>
    intro _
    simp
  | cons weight rest ih =>
    intro hpos
    have hfirst := part_le pool total (hpos weight List.mem_cons_self).le htotal
    have hrest := ih fun other hother => hpos other (List.mem_cons_of_mem _ hother)
    calc ((((weight :: rest).map (part pool total)).sum : ℕ) : ℚ)
        = part pool total weight + ((rest.map (part pool total)).sum : ℕ) := by
          rw [List.map_cons, List.sum_cons]
          push_cast
          rfl
      _ ≤ pool * weight / total + pool * rest.sum / total := add_le_add hfirst hrest
      _ = pool * (weight :: rest).sum / total := by
          rw [List.sum_cons]
          ring

theorem totalWeight_pos (hne : ranked ≠ []) (hpos : ∀ miner ∈ ranked, 0 < miner.1) :
    0 < totalWeight ranked := by
  apply List.sum_pos
  · intro weight hweight
    obtain ⟨miner, hminer, rfl⟩ := List.mem_map.mp hweight
    exact hpos miner hminer
  · simpa using hne

theorem sum_amounts_le (hne : ranked ≠ []) (hpos : ∀ miner ∈ ranked, 0 < miner.1) :
    ((amounts pool ranked).map Prod.snd).sum ≤ pool := by
  have htotal := totalWeight_pos hne hpos
  have hsum := sum_part_le pool htotal (ranked.map Prod.fst) (by
    intro weight hweight
    obtain ⟨miner, hminer, rfl⟩ := List.mem_map.mp hweight
    exact hpos miner hminer)
  rw [List.map_map] at hsum
  have hwhole : (pool : ℚ) * (ranked.map Prod.fst).sum / totalWeight ranked = pool := by
    rw [← totalWeight, mul_div_assoc, div_self htotal.ne', mul_one]
  rw [hwhole] at hsum
  rw [map_snd_amounts]
  exact_mod_cast hsum

theorem sum_withDust (hne : payouts ≠ []) (hsum : (payouts.map Prod.snd).sum ≤ pool) :
    ((withDust pool payouts).map Prod.snd).sum = pool := by
  cases payouts with
  | nil => exact absurd rfl hne
  | cons payout rest =>
    rw [List.map_cons, List.sum_cons] at hsum
    rw [withDust, List.map_cons, List.sum_cons]
    dsimp only
    omega

end Amounts

/-! ## What is paid -/

/-- The payouts of the miners' part: they sum to it, there are not too many of them, and one
below the minimum is alone. -/
structure MinerPayouts (pool minOut maxOutputs : ℕ) (payouts : List (Bytes × ℕ)) : Prop where
  ne_nil : payouts ≠ []
  sum_eq : (payouts.map Prod.snd).sum = pool
  length_le : payouts.length ≤ max 1 maxOutputs
  alone_or_large : payouts.length = 1 ∨ ∀ payout ∈ payouts, minOut ≤ payout.2

section Payouts

variable {pool minOut maxOutputs : ℕ} {weights : List (Bytes × ℚ)} {fallbackSpk : Bytes}

theorem mem_ranking {miner : ℚ × Bytes} :
    miner ∈ ranking weights ↔ (miner.2, miner.1) ∈ weights ∧ 0 < miner.1 := by
  rw [ranking, List.mem_insertionSort, List.mem_map]
  constructor
  · rintro ⟨entry, hentry, rfl⟩
    simpa using hentry
  · rintro ⟨hmem, hpos⟩
    exact ⟨(miner.2, miner.1), by simpa using ⟨hmem, hpos⟩, rfl⟩

/-- The miners that are paid, none if the window has no weight. -/
def payees (pool minOut maxOutputs : ℕ) (weights : List (Bytes × ℚ)) : List (ℚ × Bytes) :=
  settle pool minOut ((ranking weights).take (max 1 maxOutputs)).length
    ((ranking weights).take (max 1 maxOutputs))

theorem payees_sublist :
    (payees pool minOut maxOutputs weights).Sublist
      ((ranking weights).take (max 1 maxOutputs)) :=
  (settle_sublist _ _).1

theorem mem_weights_of_mem_payees {miner : ℚ × Bytes}
    (hminer : miner ∈ payees pool minOut maxOutputs weights) :
    (miner.2, miner.1) ∈ weights ∧ 0 < miner.1 :=
  mem_ranking.mp (List.mem_of_mem_take (payees_sublist.subset hminer))

theorem length_payees_le : (payees pool minOut maxOutputs weights).length ≤ max 1 maxOutputs :=
  payees_sublist.length_le.trans (List.length_take_le _ _)

theorem payees_done :
    (payees pool minOut maxOutputs weights).length ≤ 1 ∨
      payable pool minOut (payees pool minOut maxOutputs weights) =
        payees pool minOut maxOutputs weights :=
  settle_done _ _ (Nat.le_succ _)

theorem le_of_mem_withDust (hlarge : ∀ payout ∈ payouts, minOut ≤ payout.2) :
    ∀ payout ∈ withDust pool payouts, minOut ≤ payout.2 := by
  cases payouts with
  | nil =>
    intro payout hpayout
    cases hpayout
  | cons first rest =>
    intro payout hpayout
    rcases List.mem_cons.mp hpayout with rfl | hrest
    · exact (hlarge first List.mem_cons_self).trans (Nat.le_add_right _ _)
    · exact hlarge payout (List.mem_cons_of_mem _ hrest)

theorem map_fst_withDust (payouts : List (Bytes × ℕ)) :
    (withDust pool payouts).map Prod.fst = payouts.map Prod.fst := by
  cases payouts with
  | nil => rfl
  | cons first rest => rfl

theorem length_withDust (payouts : List (Bytes × ℕ)) :
    (withDust pool payouts).length = payouts.length := by
  rw [← List.length_map Prod.fst, map_fst_withDust, List.length_map]

/-- What is paid before the dust. -/
def flooredPayouts (pool minOut maxOutputs : ℕ) (weights : List (Bytes × ℚ))
    (fallbackSpk : Bytes) : List (Bytes × ℕ) :=
  if payees pool minOut maxOutputs weights = [] then [(fallbackSpk, pool)]
  else amounts pool (payees pool minOut maxOutputs weights)

theorem minerPayouts_eq :
    minerPayouts pool minOut maxOutputs weights fallbackSpk =
      withDust pool (flooredPayouts pool minOut maxOutputs weights fallbackSpk) := rfl

theorem length_flooredPayouts :
    (flooredPayouts pool minOut maxOutputs weights fallbackSpk).length =
      max 1 (payees pool minOut maxOutputs weights).length := by
  unfold flooredPayouts
  split_ifs with hempty
  · rw [hempty]
    rfl
  · have hpos := List.length_pos_of_ne_nil hempty
    rw [amounts, List.length_map]
    omega

theorem sum_flooredPayouts_le :
    ((flooredPayouts pool minOut maxOutputs weights fallbackSpk).map Prod.snd).sum ≤ pool := by
  unfold flooredPayouts
  split_ifs with hempty
  · exact le_of_eq (by simp)
  · exact sum_amounts_le hempty fun miner hminer => (mem_weights_of_mem_payees hminer).2

theorem flooredPayouts_alone_or_large :
    (flooredPayouts pool minOut maxOutputs weights fallbackSpk).length = 1 ∨
      ∀ payout ∈ flooredPayouts pool minOut maxOutputs weights fallbackSpk, minOut ≤ payout.2 := by
  rw [length_flooredPayouts]
  have hdone : (payees pool minOut maxOutputs weights).length ≤ 1 ∨ _ := payees_done
  rcases hdone with halone | hpayable
  · exact .inl (max_eq_left halone)
  by_cases hempty : payees pool minOut maxOutputs weights = []
  · exact .inl (by rw [hempty]; rfl)
  refine .inr fun payout hpayout => ?_
  rw [flooredPayouts, if_neg hempty, amounts, List.mem_map] at hpayout
  obtain ⟨miner, hminer, rfl⟩ := hpayout
  exact of_decide_eq_true (List.filter_eq_self.mp hpayable miner hminer)

/-- **The miners' part.**  The payouts meet `MinerPayouts`, whatever the weights. -/
theorem minerPayouts_spec :
    MinerPayouts pool minOut maxOutputs
      (minerPayouts pool minOut maxOutputs weights fallbackSpk) := by
  have hlength : (minerPayouts pool minOut maxOutputs weights fallbackSpk).length =
      max 1 (payees pool minOut maxOutputs weights).length := by
    rw [minerPayouts_eq, length_withDust, length_flooredPayouts]
  have hne : flooredPayouts pool minOut maxOutputs weights fallbackSpk ≠ [] := by
    rw [← List.length_pos_iff, length_flooredPayouts]
    exact lt_max_of_lt_left one_pos
  refine ⟨?_, sum_withDust hne sum_flooredPayouts_le, ?_, ?_⟩
  · rw [← List.length_pos_iff, hlength]
    exact lt_max_of_lt_left one_pos
  · rw [hlength]
    exact max_le (le_max_left _ _) length_payees_le
  · rw [minerPayouts_eq, length_withDust]
    exact flooredPayouts_alone_or_large.imp_right le_of_mem_withDust

theorem minerPayouts_scripts {p : Bytes → Prop} (hfallback : p fallbackSpk)
    (hweights : ∀ entry ∈ weights, p entry.1) :
    ∀ payout ∈ minerPayouts pool minOut maxOutputs weights fallbackSpk, p payout.1 := by
  intro payout hpayout
  have hscript : payout.1 ∈
      (flooredPayouts pool minOut maxOutputs weights fallbackSpk).map Prod.fst := by
    rw [← map_fst_withDust]
    exact List.mem_map_of_mem hpayout
  obtain ⟨floored, hfloored, hsame⟩ := List.mem_map.mp hscript
  rw [← hsame]
  unfold flooredPayouts at hfloored
  split_ifs at hfloored with hempty
  · rw [List.mem_singleton.mp hfloored]
    exact hfallback
  · obtain ⟨miner, hminer, rfl⟩ := List.mem_map.mp hfloored
    exact hweights _ (mem_weights_of_mem_payees hminer).1

end Payouts

/-! ## The split -/

theorem checkPayoutSpk_of_isV3Output {spk : Bytes} (h : IsV3Output spk) :
    checkPayoutSpk regtest spk = .ok spk := by
  obtain ⟨root, hroot, rfl⟩ := h
  have hlength : (v3Output root).length = 34 := by
    rw [v3Output, List.length_cons, List.length_cons, hroot]
  have hshape : ¬((v3Output root).length ≠ 34 ∨ byteAt (v3Output root) 1 ≠ 0x20) := by
    rw [hlength]
    rintro (hsize | hbyte)
    · exact hsize rfl
    · exact hbyte rfl
  have hversion : byteAt (v3Output root) 0 = 0x50 + 3 := rfl
  rw [checkPayoutSpk, if_neg hshape, if_pos hversion]

/-- `check_payout_spk` accepts the script. -/
def AcceptedSpk (regtest : Bool) (spk : Bytes) : Prop := checkPayoutSpk regtest spk = .ok spk

theorem checkPayouts_of_accepted :
    (∀ payout ∈ payouts, AcceptedSpk regtest payout.1) → (∀ payout ∈ payouts, 0 < payout.2) →
      checkPayouts regtest payouts = .ok payouts := by
  induction payouts with
  | nil =>
    intro _ _
    rfl
  | cons payout rest ih =>
    intro hscripts hpos
    have hfirst : payout.2 ≠ 0 := (hpos payout List.mem_cons_self).ne'
    have hrest := ih (fun other hother => hscripts other (List.mem_cons_of_mem _ hother))
      fun other hother => hpos other (List.mem_cons_of_mem _ hother)
    have hspk : checkPayoutSpk regtest payout.1 = .ok payout.1 :=
      hscripts payout List.mem_cons_self
    rw [checkPayouts, if_neg hfirst, hspk, hrest]
    rfl

/-- The output of the fee, if there is a fee. -/
def feeOutputs (fee : ℕ) (feeSpk : Option Bytes) : List (Bytes × ℕ) :=
  match feeSpk with
  | none => []
  | some spk => if fee = 0 then [] else [(spk, fee)]

theorem feePayout_eq (fee : ℕ) (hscript : ∀ spk ∈ feeSpk, AcceptedSpk regtest spk) :
    feePayout regtest fee feeSpk = .ok (feeOutputs fee feeSpk) := by
  cases feeSpk with
  | none => rfl
  | some spk =>
    by_cases hfee : fee = 0
    · simp [feePayout, feeOutputs, checkPayouts, hfee]
    · rw [feePayout, feeOutputs, if_neg hfee]
      apply checkPayouts_of_accepted
      · intro payout hpayout
        rw [List.mem_singleton.mp hpayout]
        exact hscript spk rfl
      · intro payout hpayout
        rw [List.mem_singleton.mp hpayout]
        exact Nat.pos_of_ne_zero hfee

theorem sum_feeOutputs (rewardSats feeBp : ℕ) (feeSpk : Option Bytes) :
    ((feeOutputs (poolFee rewardSats feeBp feeSpk) feeSpk).map Prod.snd).sum =
      poolFee rewardSats feeBp feeSpk := by
  cases feeSpk with
  | none => rfl
  | some spk =>
    rw [feeOutputs]
    split_ifs with hfee
    · exact hfee.symm
    · simp

theorem poolFee_lt {rewardSats feeBp : ℕ} (feeSpk : Option Bytes) (hreward : 0 < rewardSats)
    (hfee : feeBp < 10000) : poolFee rewardSats feeBp feeSpk < rewardSats := by
  unfold poolFee
  split_ifs
  · rw [Nat.div_lt_iff_lt_mul (by decide)]
    exact Nat.mul_lt_mul_of_pos_left hfee hreward
  · exact hreward

theorem MinerPayouts.pos {pool minOut maxOutputs : ℕ} {payouts : List (Bytes × ℕ)}
    (h : MinerPayouts pool minOut maxOutputs payouts) (hpool : 0 < pool) (hmin : 0 < minOut) :
    ∀ payout ∈ payouts, 0 < payout.2 := by
  intro payout hpayout
  rcases h.alone_or_large with halone | hlarge
  · -- a single payout is the whole part
    obtain ⟨only, rfl⟩ := List.length_eq_one_iff.mp halone
    have hwhole : only.2 = pool := by simpa using h.sum_eq
    rw [List.mem_singleton.mp hpayout, hwhole]
    exact hpool
  · exact hmin.trans_le (hlarge payout hpayout)

/-- **The split.**  With accepted scripts it never fails: it pays the miners' part, then the
fee. -/
theorem pplnsSplit_eq {weights : List (Bytes × ℚ)} (hreward : 0 < rewardSats) (hfee : feeBp < 10000)
    (hmin : 0 < minOut)
    (hscripts : ∀ payout ∈ minerPayouts (rewardSats - poolFee rewardSats feeBp feeSpk) minOut
      maxOutputs weights fallbackSpk, AcceptedSpk regtest payout.1)
    (hfeeSpk : ∀ spk ∈ feeSpk, AcceptedSpk regtest spk) :
    pplnsSplit regtest rewardSats weights feeBp feeSpk minOut maxOutputs fallbackSpk =
      .ok (minerPayouts (rewardSats - poolFee rewardSats feeBp feeSpk) minOut maxOutputs weights
          fallbackSpk ++ feeOutputs (poolFee rewardSats feeBp feeSpk) feeSpk) := by
  have hpool := poolFee_lt feeSpk hreward hfee
  have hspec : MinerPayouts (rewardSats - poolFee rewardSats feeBp feeSpk) minOut maxOutputs
      (minerPayouts (rewardSats - poolFee rewardSats feeBp feeSpk) minOut maxOutputs weights
        fallbackSpk) := minerPayouts_spec
  have hminers := checkPayouts_of_accepted regtest hscripts (hspec.pos (by omega) hmin)
  have hsum := hspec.sum_eq
  have hfeeSum := sum_feeOutputs rewardSats feeBp feeSpk
  rw [pplnsSplit, if_neg (by omega)]
  dsimp only
  rw [hminers, Except.ok_bind, feePayout_eq regtest _ hfeeSpk, Except.ok_bind, if_neg]
  · rfl
  · rw [not_not, List.map_append, List.sum_append]
    omega

theorem pplnsSplit_eq_of_isV3Output {weights : List (Bytes × ℚ)} (hreward : 0 < rewardSats)
    (hfee : feeBp < 10000) (hmin : 0 < minOut) (hweights : ∀ entry ∈ weights, IsV3Output entry.1)
    (hfeeSpk : ∀ spk ∈ feeSpk, IsV3Output spk) (hfallback : IsV3Output fallbackSpk) :
    pplnsSplit regtest rewardSats weights feeBp feeSpk minOut maxOutputs fallbackSpk =
      .ok (minerPayouts (rewardSats - poolFee rewardSats feeBp feeSpk) minOut maxOutputs weights
          fallbackSpk ++ feeOutputs (poolFee rewardSats feeBp feeSpk) feeSpk) := by
  apply pplnsSplit_eq regtest hreward hfee hmin
  · intro payout hpayout
    exact checkPayoutSpk_of_isV3Output regtest
      (minerPayouts_scripts hfallback hweights payout hpayout)
  · exact fun spk hspk => checkPayoutSpk_of_isV3Output regtest (hfeeSpk spk hspk)

theorem mem_feeOutputs {amount : ℕ} {payout : Bytes × ℕ} (h : payout ∈ feeOutputs amount feeSpk) :
    payout.1 ∈ feeSpk ∧ payout.2 = amount ∧ amount ≠ 0 := by
  cases feeSpk with
  | none => cases h
  | some spk =>
    rw [feeOutputs] at h
    split_ifs at h with hzero
    · cases h
    · rw [List.mem_singleton.mp h]
      exact ⟨rfl, rfl, hzero⟩

/-- What comes out of the split is what `build_coinbase` asks for. -/
structure SplitPayouts (rewardSats : ℕ) (payouts : List (Bytes × ℕ)) : Prop where
  sum_eq : (payouts.map Prod.snd).sum = rewardSats
  pos : ∀ payout ∈ payouts, 0 < payout.2
  scripts : ∀ payout ∈ payouts, IsV3Output payout.1

theorem pplnsSplit_isOk {weights : List (Bytes × ℚ)} (hreward : 0 < rewardSats)
    (hfee : feeBp < 10000) (hmin : 0 < minOut) (hweights : ∀ entry ∈ weights, IsV3Output entry.1)
    (hfeeSpk : ∀ spk ∈ feeSpk, IsV3Output spk) (hfallback : IsV3Output fallbackSpk) :
    ∃ payouts, pplnsSplit regtest rewardSats weights feeBp feeSpk minOut maxOutputs fallbackSpk =
      .ok payouts ∧ SplitPayouts rewardSats payouts := by
  have hpool := poolFee_lt feeSpk hreward hfee
  have hspec : MinerPayouts (rewardSats - poolFee rewardSats feeBp feeSpk) minOut maxOutputs
      (minerPayouts (rewardSats - poolFee rewardSats feeBp feeSpk) minOut maxOutputs weights
        fallbackSpk) := minerPayouts_spec
  refine ⟨_, pplnsSplit_eq_of_isV3Output regtest hreward hfee hmin hweights hfeeSpk hfallback,
    ?_, ?_, ?_⟩
  · have hsum := hspec.sum_eq
    have hfeeSum := sum_feeOutputs rewardSats feeBp feeSpk
    rw [List.map_append, List.sum_append]
    omega
  · intro payout hpayout
    rcases List.mem_append.mp hpayout with hminer | hfeeOut
    · exact hspec.pos (by omega) hmin payout hminer
    · obtain ⟨-, hamount, hne⟩ := mem_feeOutputs hfeeOut
      rw [hamount]
      exact Nat.pos_of_ne_zero hne
  · intro payout hpayout
    rcases List.mem_append.mp hpayout with hminer | hfeeOut
    · exact minerPayouts_scripts hfallback hweights payout hminer
    · exact hfeeSpk _ (mem_feeOutputs hfeeOut).1

/-! ## Building always succeeds -/

theorem writePayouts_isOk :
    (∀ payout ∈ payouts, IsV3Output payout.1) →
      ∃ outs, writePayouts regtest payouts = .ok outs := by
  induction payouts with
  | nil =>
    intro _
    exact ⟨[], rfl⟩
  | cons payout rest ih =>
    intro hscripts
    obtain ⟨outs, houts⟩ := ih fun other hother => hscripts other (List.mem_cons_of_mem _ hother)
    have hspk := checkPayoutSpk_of_isV3Output regtest (hscripts payout List.mem_cons_self)
    refine ⟨writeOutput payout.1 payout.2 ++ outs, ?_⟩
    rw [writePayouts, hspk, houts]
    rfl

theorem two_le_length_scriptSigStart_add (height enSize : ℕ) :
    2 ≤ (scriptSigStart height).length + enSize := by
  have htag : (push (Bytes.ofAscii "/xcoin/")).length = 8 := by decide
  rw [scriptSigStart, List.length_append, htag]
  omega

/-- `build_coinbase` does not raise on positive payouts to witness v3 scripts that sum to the
reward, if the extranonces and the commitment are short enough. -/
theorem buildCoinbase_isOk {height rewardSats enSize : ℕ} {wc : Bytes} {payouts : List (Bytes × ℕ)}
    (hshort : (scriptSigStart height).length + enSize ≤ maxCoinbaseScriptSig)
    (hsum : (payouts.map Prod.snd).sum = rewardSats) (hpos : ∀ payout ∈ payouts, 0 < payout.2)
    (hscripts : ∀ payout ∈ payouts, IsV3Output payout.1) (hwc : wc.length ≤ maxOpReturnRelay) :
    ∃ part1 part2,
      buildCoinbase regtest height rewardSats enSize wc payouts = .ok (part1, part2) := by
  obtain ⟨outs, houts⟩ := writePayouts_isOk regtest hscripts
  have hcommitment : ∃ commitment, writeCommitment wc = .ok commitment := by
    unfold writeCommitment
    split_ifs with hempty hlong
    · exact ⟨_, rfl⟩
    · exact absurd hlong (not_lt.mpr hwc)
    · exact ⟨_, rfl⟩
  obtain ⟨commitment, hcommitment⟩ := hcommitment
  have hnonzero : ¬(payouts.any fun payout => payout.2 == 0) = true := by
    rw [List.any_eq_true]
    rintro ⟨payout, hpayout, hzero⟩
    exact (hpos payout hpayout).ne' (by simpa using hzero)
  rw [buildCoinbase]
  dsimp only
  rw [if_neg (not_not.mpr ⟨two_le_length_scriptSigStart_add height enSize, hshort⟩),
    if_neg (by tauto), houts, Except.ok_bind, hcommitment, Except.ok_bind]
  exact ⟨_, _, rfl⟩

/-! ## The window -/

/-- `PplnsWindow`: the last shares, as payout script and credited difficulty. -/
structure PplnsWindow where
  factor : ℚ
  shares : List (Bytes × ℚ) := []
deriving DecidableEq, Repr

namespace PplnsWindow

/-- The loop of `add`: the oldest shares are dropped while the rest still reaches the limit, and
one share always stays. -/
def dropOldest (limit : ℚ) : List (Bytes × ℚ) → List (Bytes × ℚ)
  | first :: second :: rest =>
    if limit ≤ ((second :: rest).map Prod.snd).sum then dropOldest limit (second :: rest)
    else first :: second :: rest
  | shares => shares

/-- `add`; `none` is an infinite network difficulty, for which nothing is dropped. -/
def add (window : PplnsWindow) (spk : Bytes) (diff : ℚ) (netDiff : Option ℚ) : PplnsWindow :=
  let shares := window.shares ++ [(spk, diff)]
  match netDiff with
  | none => { window with shares }
  | some net =>
    { window with shares := dropOldest (window.factor * max net (1 / 10 ^ 12)) shares }

/-- One share added to the sums; a new script goes to the end, as in a Python dict. -/
def addWeight (spk : Bytes) (diff : ℚ) : List (Bytes × ℚ) → List (Bytes × ℚ)
  | [] => [(spk, diff)]
  | entry :: rest =>
    if entry.1 = spk then (spk, entry.2 + diff) :: rest else entry :: addWeight spk diff rest

/-- `weights`: the window summed by script. -/
def weights (window : PplnsWindow) : List (Bytes × ℚ) :=
  window.shares.foldl (fun sums share => addWeight share.1 share.2 sums) []

theorem mem_addWeight {spk : Bytes} {diff : ℚ} {entry : Bytes × ℚ} :
    ∀ {sums : List (Bytes × ℚ)}, entry ∈ addWeight spk diff sums →
      entry.1 = spk ∨ ∃ other ∈ sums, other.1 = entry.1 := by
  intro sums
  induction sums with
  | nil =>
    intro h
    rw [List.mem_singleton.mp h]
    exact .inl rfl
  | cons first rest ih =>
    intro h
    rw [addWeight] at h
    split_ifs at h with hsame
    · rcases List.mem_cons.mp h with rfl | hrest
      · exact .inl rfl
      · exact .inr ⟨entry, List.mem_cons_of_mem _ hrest, rfl⟩
    · rcases List.mem_cons.mp h with rfl | hrest
      · exact .inr ⟨entry, List.mem_cons_self, rfl⟩
      · rcases ih hrest with hspk | ⟨other, hother, hkey⟩
        · exact .inl hspk
        · exact .inr ⟨other, List.mem_cons_of_mem _ hother, hkey⟩

theorem scripts_weights {p : Bytes → Prop} {window : PplnsWindow}
    (hshares : ∀ share ∈ window.shares, p share.1) : ∀ entry ∈ window.weights, p entry.1 := by
  have hfold : ∀ (shares sums : List (Bytes × ℚ)), (∀ share ∈ shares, p share.1) →
      (∀ entry ∈ sums, p entry.1) →
      ∀ entry ∈ shares.foldl (fun sums share => addWeight share.1 share.2 sums) sums,
        p entry.1 := by
    intro shares
    induction shares with
    | nil =>
      intro sums _ hsums
      exact hsums
    | cons share rest ih =>
      intro sums hshares hsums
      apply ih _ (fun other hother => hshares other (List.mem_cons_of_mem _ hother))
      intro entry hentry
      rcases mem_addWeight hentry with hspk | ⟨other, hother, hkey⟩
      · rw [hspk]
        exact hshares share List.mem_cons_self
      · rw [← hkey]
        exact hsums other hother
  exact hfold window.shares [] hshares fun entry hentry => by cases hentry

end PplnsWindow

end XCoin.Pool
