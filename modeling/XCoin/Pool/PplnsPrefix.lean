import XCoin.Pool.Pplns

/-!
# Who is paid, and how much

The miners are ranked by weight, and each pass of the loop of `pplns_split` drops those
whose part is below the minimum.  A part grows with the weight, so what is dropped is the
end of the ranking, and the miners that are paid are the first ones of it.  The dust of
the floors goes to the first of them, so the amounts stay in the order of the weights.

The loop ends because a pass that does not end it drops a miner: with as many passes as
there are miners it has ended, and more passes change nothing (`settle_fuel`).
-/

namespace XCoin.Pool

open Consensus Script Validation

/-! ## The ranking -/

section Ranking

variable {weights : List (Bytes × ℚ)}

/-- Weights that do not grow along the list. -/
def DecreasingWeights (ranked : List (ℚ × Bytes)) : Prop :=
  ranked.Pairwise fun miner other => other.1 ≤ miner.1

theorem weight_le_of_ranksBefore {miner other : ℚ × Bytes} (hranks : ranksBefore miner other) :
    other.1 ≤ miner.1 := by
  rcases hranks with hlt | ⟨heq, -⟩
  · exact hlt.le
  · exact heq.ge

theorem weight_le_of_not_ranksBefore {miner other : ℚ × Bytes}
    (hranks : ¬ ranksBefore miner other) : miner.1 ≤ other.1 := by
  by_contra hlt
  exact hranks (Or.inl (lt_of_not_ge hlt))

theorem DecreasingWeights.orderedInsert {miner : ℚ × Bytes} : ∀ {ranked : List (ℚ × Bytes)},
    DecreasingWeights ranked → DecreasingWeights (ranked.orderedInsert ranksBefore miner) := by
  intro ranked
  induction ranked with
  | nil => exact fun _ => List.pairwise_singleton _ _
  | cons first rest ih =>
    intro hranked
    obtain ⟨hfirst, hrest⟩ := List.pairwise_cons.mp hranked
    rw [List.orderedInsert]
    split_ifs with hranks
    · have hle := weight_le_of_ranksBefore hranks
      refine List.pairwise_cons.mpr ⟨?_, hranked⟩
      intro other hother
      rcases List.mem_cons.mp hother with rfl | hother
      · exact hle
      · exact (hfirst other hother).trans hle
    · refine List.pairwise_cons.mpr ⟨?_, ih hrest⟩
      intro other hother
      rcases List.mem_cons.mp ((List.perm_orderedInsert _ _ _).mem_iff.mp hother) with rfl | hother
      · exact weight_le_of_not_ranksBefore hranks
      · exact hfirst other hother

theorem decreasingWeights_insertionSort (miners : List (ℚ × Bytes)) :
    DecreasingWeights (miners.insertionSort ranksBefore) := by
  induction miners with
  | nil => exact List.Pairwise.nil
  | cons miner rest ih => exact ih.orderedInsert

theorem decreasingWeights_ranking (weights : List (Bytes × ℚ)) :
    DecreasingWeights (ranking weights) :=
  decreasingWeights_insertionSort _

theorem ranking_perm (weights : List (Bytes × ℚ)) :
    (ranking weights).Perm
      ((weights.filter fun entry => decide (0 < entry.2)).map Prod.swap) :=
  List.perm_insertionSort _ _

theorem ranking_ne_nil (hsum : 0 < (weights.map Prod.snd).sum) : ranking weights ≠ [] := by
  intro hempty
  have hnone : ∀ weight ∈ weights.map Prod.snd, weight ≤ 0 := by
    intro weight hweight
    obtain ⟨entry, hentry, rfl⟩ := List.mem_map.mp hweight
    by_contra hpos
    have hmem : (entry.2, entry.1) ∈ ranking weights :=
      mem_ranking.mpr ⟨hentry, lt_of_not_ge hpos⟩
    rw [hempty] at hmem
    cases hmem
  have hle := List.sum_le_card_nsmul _ 0 hnone
  rw [smul_zero] at hle
  exact absurd hle (not_le.mpr hsum)

end Ranking

/-! ## The loop keeps the front of the ranking -/

section Prefix

variable {pool minOut : ℕ} {ranked : List (ℚ × Bytes)}

/-- A filter that passes everything before what it passes keeps a front of the list. -/
theorem filter_isPrefix {α : Type*} {p : α → Bool} : ∀ {list : List α},
    list.Pairwise (fun first later => p later = true → p first = true) →
      list.filter p <+: list := by
  intro list
  induction list with
  | nil => exact fun _ => List.prefix_refl _
  | cons first rest ih =>
    intro hpairwise
    obtain ⟨hfirst, hrest⟩ := List.pairwise_cons.mp hpairwise
    by_cases hpass : p first = true
    · rw [List.filter_cons_of_pos hpass]
      exact (List.prefix_cons_inj first).mpr (ih hrest)
    · have hnone : rest.filter p = [] := by
        rw [List.filter_eq_nil_iff]
        exact fun later hlater hpassLater => hpass (hfirst later hlater hpassLater)
      rw [List.filter_cons_of_neg hpass, hnone]
      exact List.nil_prefix

theorem part_mono (pool : ℕ) {total weight larger : ℚ} (htotal : 0 ≤ total)
    (hle : weight ≤ larger) : part pool total weight ≤ part pool total larger := by
  apply Int.toNat_le_toNat
  apply Int.floor_le_floor
  gcongr

theorem totalWeight_nonneg (hpos : ∀ miner ∈ ranked, 0 < miner.1) : 0 ≤ totalWeight ranked := by
  apply List.sum_nonneg
  intro weight hweight
  obtain ⟨miner, hminer, rfl⟩ := List.mem_map.mp hweight
  exact (hpos miner hminer).le

theorem payable_isPrefix (hpos : ∀ miner ∈ ranked, 0 < miner.1)
    (hranked : DecreasingWeights ranked) : payable pool minOut ranked <+: ranked := by
  apply filter_isPrefix
  apply hranked.imp
  intro first later hle hlarge
  rw [decide_eq_true_iff] at hlarge ⊢
  exact hlarge.trans (part_mono pool (totalWeight_nonneg hpos) hle)

theorem settle_isPrefix : ∀ (fuel : ℕ) (ranked : List (ℚ × Bytes)),
    (∀ miner ∈ ranked, 0 < miner.1) → DecreasingWeights ranked →
      settle pool minOut fuel ranked <+: ranked := by
  intro fuel
  induction fuel with
  | zero => exact fun ranked _ _ => List.prefix_refl _
  | succ fuel ih =>
    intro ranked hpos hranked
    -- a front of the ranking is ranked and positive again
    have hfront : ∀ front, front <+: ranked → settle pool minOut fuel front <+: ranked := by
      intro front hfront
      refine (ih front (fun miner h => hpos miner (hfront.subset h)) ?_).trans hfront
      exact List.Pairwise.sublist hfront.sublist hranked
    rw [settle]
    split_ifs with hdone hempty
    · exact List.prefix_refl _
    · exact hfront _ (List.take_prefix 1 ranked)
    · exact hfront _ (payable_isPrefix hpos hranked)

/-- One more pass than there are miners changes nothing: the loop has ended. -/
theorem settle_succ : ∀ (fuel : ℕ) (ranked : List (ℚ × Bytes)), ranked.length ≤ fuel + 1 →
    settle pool minOut (fuel + 1) ranked = settle pool minOut fuel ranked := by
  intro fuel
  induction fuel with
  | zero =>
    intro ranked hlength
    exact if_pos (Or.inl hlength)
  | succ fuel ih =>
    intro ranked hlength
    rw [settle]
    nth_rewrite 3 [settle]
    split_ifs with hdone hempty
    · rfl
    · exact ih _ (by rw [List.length_take]; omega)
    · have hshorter := length_payable_lt fun hsame => hdone (.inr hsame)
      exact ih _ (by omega)

theorem settle_fuel {fuel : ℕ} (hfuel : ranked.length ≤ fuel) :
    settle pool minOut fuel ranked = settle pool minOut ranked.length ranked := by
  induction fuel, hfuel using Nat.le_induction with
  | base => rfl
  | succ fuel hfuel ih => rw [settle_succ fuel ranked (by omega), ih]

end Prefix

/-! ## The amounts -/

section Amounts

variable {pool minOut maxOutputs : ℕ} {weights : List (Bytes × ℚ)} {fallbackSpk : Bytes}

/-- Amounts that do not grow along the list. -/
def Decreasing (payouts : List (Bytes × ℕ)) : Prop :=
  payouts.Pairwise fun payout other => other.2 ≤ payout.2

theorem decreasing_amounts {ranked : List (ℚ × Bytes)} (hpos : ∀ miner ∈ ranked, 0 < miner.1)
    (hranked : DecreasingWeights ranked) : Decreasing (amounts pool ranked) := by
  rw [Decreasing, amounts, List.pairwise_map]
  exact hranked.imp fun hle => part_mono pool (totalWeight_nonneg hpos) hle

theorem Decreasing.withDust {payouts : List (Bytes × ℕ)} (hpayouts : Decreasing payouts) :
    Decreasing (withDust pool payouts) := by
  cases payouts with
  | nil => exact hpayouts
  | cons first rest =>
    obtain ⟨hfirst, hrest⟩ := List.pairwise_cons.mp hpayouts
    refine List.pairwise_cons.mpr ⟨?_, hrest⟩
    intro other hother
    exact (hfirst other hother).trans (Nat.le_add_right _ _)

theorem tail_withDust (payouts : List (Bytes × ℕ)) :
    (withDust pool payouts).tail = payouts.tail := by
  cases payouts with
  | nil => rfl
  | cons first rest => rfl

/-- What is paid to whom: the first miners of the ranking, not too many and none below the
minimum unless it is alone, in decreasing order of weights and amounts, each but the first
with the floor of its part. -/
structure PaysFirstMiners (pool minOut maxOutputs : ℕ) (weights : List (Bytes × ℚ))
    (paid : List (ℚ × Bytes)) (miners : List (Bytes × ℕ)) : Prop where
  sum_eq : (miners.map Prod.snd).sum = pool
  length_le : miners.length ≤ maxOutputs
  alone_or_large : miners.length = 1 ∨ ∀ payout ∈ miners, minOut ≤ payout.2
  ne_nil : paid ≠ []
  first : paid <+: ranking weights
  ranked : DecreasingWeights (ranking weights)
  ranking_perm : (ranking weights).Perm
    ((weights.filter fun entry => decide (0 < entry.2)).map Prod.swap)
  scripts : miners.map Prod.fst = paid.map Prod.snd
  decreasing : Decreasing miners
  floors : miners.tail = paid.tail.map fun miner =>
    (miner.2, ⌊(pool : ℚ) * miner.1 / (paid.map Prod.fst).sum⌋.toNat)

theorem payees_isPrefix : payees pool minOut maxOutputs weights <+: ranking weights := by
  refine (settle_isPrefix _ _ ?_ ?_).trans (List.take_prefix _ _)
  · exact fun miner hminer => (mem_ranking.mp (List.mem_of_mem_take hminer)).2
  · exact List.Pairwise.sublist (List.take_sublist _ _) (decreasingWeights_ranking weights)

theorem payees_ne_nil (hsum : 0 < (weights.map Prod.snd).sum) :
    payees pool minOut maxOutputs weights ≠ [] := by
  apply (settle_sublist _ _).2
  have hne := ranking_ne_nil hsum
  cases hranking : ranking weights with
  | nil => exact absurd hranking hne
  | cons first rest =>
    obtain ⟨n, hn⟩ : ∃ n, max 1 maxOutputs = n + 1 := ⟨max 1 maxOutputs - 1, by omega⟩
    rw [hn, List.take_succ_cons]
    exact List.cons_ne_nil _ _

theorem minerPayouts_eq_amounts (hsum : 0 < (weights.map Prod.snd).sum) :
    minerPayouts pool minOut maxOutputs weights fallbackSpk =
      withDust pool (amounts pool (payees pool minOut maxOutputs weights)) := by
  rw [minerPayouts_eq, flooredPayouts, if_neg (payees_ne_nil hsum)]

theorem minerPayouts_paysFirstMiners (hmax : 1 ≤ maxOutputs)
    (hsum : 0 < (weights.map Prod.snd).sum) :
    PaysFirstMiners pool minOut maxOutputs weights (payees pool minOut maxOutputs weights)
      (minerPayouts pool minOut maxOutputs weights fallbackSpk) := by
  have hspec : MinerPayouts pool minOut maxOutputs
      (minerPayouts pool minOut maxOutputs weights fallbackSpk) := minerPayouts_spec
  have hpos : ∀ miner ∈ payees pool minOut maxOutputs weights, 0 < miner.1 :=
    fun miner hminer => (mem_weights_of_mem_payees hminer).2
  have hranked : DecreasingWeights (payees pool minOut maxOutputs weights) :=
    List.Pairwise.sublist payees_isPrefix.sublist (decreasingWeights_ranking weights)
  refine ⟨hspec.sum_eq, hspec.length_le.trans (max_le hmax le_rfl), hspec.alone_or_large,
    payees_ne_nil hsum, payees_isPrefix, decreasingWeights_ranking weights, ranking_perm weights,
    ?_, ?_, ?_⟩
  · rw [minerPayouts_eq_amounts hsum, map_fst_withDust, amounts, List.map_map]
    rfl
  · rw [minerPayouts_eq_amounts hsum]
    exact (decreasing_amounts hpos hranked).withDust
  · rw [minerPayouts_eq_amounts hsum, tail_withDust, amounts, List.map_tail]
    rfl

end Amounts

/-! ## The split -/

/-- **The split.** For a reward of at least one satoshi, a fee below the whole, accepted
scripts and some weight in the window, the split succeeds and its loop ends.  It pays the
first miners of the ranking, and what they get and the fee are the reward. -/
theorem pplnsSplit_paysFirstMiners (regtest : Bool) (rewardSats feeBp minOut maxOutputs : ℕ)
    (weights : List (Bytes × ℚ)) (feeSpk : Option Bytes) (fallbackSpk : Bytes)
    (hreward : 1 ≤ rewardSats) (hfee : feeBp ≤ 9999) (hmin : 1 ≤ minOut) (hmax : 1 ≤ maxOutputs)
    (hsum : 0 < (weights.map Prod.snd).sum)
    (hscripts : ∀ entry ∈ weights, AcceptedSpk regtest entry.1)
    (hfeeSpk : ∀ spk ∈ feeSpk, AcceptedSpk regtest spk) :
    ∃ (miners : List (Bytes × ℕ)) (paid : List (ℚ × Bytes)) (fee : ℕ),
      pplnsSplit regtest rewardSats weights feeBp feeSpk minOut maxOutputs fallbackSpk =
        .ok (miners ++ feeOutputs fee feeSpk) ∧
      fee = poolFee rewardSats feeBp feeSpk ∧
      (miners.map Prod.snd).sum + fee = rewardSats ∧
      (∀ fuel, ((ranking weights).take maxOutputs).length ≤ fuel →
        settle (rewardSats - fee) minOut fuel ((ranking weights).take maxOutputs) = paid) ∧
      PaysFirstMiners (rewardSats - fee) minOut maxOutputs weights paid miners := by
  have hpool := poolFee_lt feeSpk hreward (Nat.lt_succ_of_le hfee)
  have hpays : PaysFirstMiners (rewardSats - poolFee rewardSats feeBp feeSpk) minOut maxOutputs
      weights (payees (rewardSats - poolFee rewardSats feeBp feeSpk) minOut maxOutputs weights)
      (minerPayouts (rewardSats - poolFee rewardSats feeBp feeSpk) minOut maxOutputs weights
        fallbackSpk) := minerPayouts_paysFirstMiners hmax hsum
  have haccepted : ∀ payout ∈ minerPayouts (rewardSats - poolFee rewardSats feeBp feeSpk) minOut
      maxOutputs weights fallbackSpk, AcceptedSpk regtest payout.1 := by
    intro payout hpayout
    have hscript := List.mem_map_of_mem (f := Prod.fst) hpayout
    rw [hpays.scripts, List.mem_map] at hscript
    obtain ⟨miner, hminer, hsame⟩ := hscript
    rw [← hsame]
    exact hscripts _ (mem_weights_of_mem_payees hminer).1
  refine ⟨_, _, _, pplnsSplit_eq regtest hreward (Nat.lt_succ_of_le hfee) hmin haccepted hfeeSpk,
    rfl, ?_, ?_, hpays⟩
  · rw [hpays.sum_eq]
    omega
  · intro fuel hfuel
    rw [settle_fuel hfuel, payees, max_eq_right hmax]

/-- A reward of 100 satoshis for three miners, one of them too small to be paid. -/
theorem threeMiners_paid :
    ∃ (miners : List (Bytes × ℕ)) (paid : List (ℚ × Bytes)) (fee : ℕ),
      pplnsSplit false 100
          [(v3Output (List.replicate 32 1), 1), (v3Output (List.replicate 32 2), 60),
            (v3Output (List.replicate 32 3), 39)]
          100 (some (v3Output (List.replicate 32 4))) 10 5 [] =
        .ok (miners ++ feeOutputs fee (some (v3Output (List.replicate 32 4)))) ∧
      PaysFirstMiners (100 - fee) 10 5
        [(v3Output (List.replicate 32 1), 1), (v3Output (List.replicate 32 2), 60),
          (v3Output (List.replicate 32 3), 39)] paid miners := by
  obtain ⟨miners, paid, fee, hsplit, -, -, -, hpays⟩ := pplnsSplit_paysFirstMiners false 100 100 10
    5 [(v3Output (List.replicate 32 1), 1), (v3Output (List.replicate 32 2), 60),
      (v3Output (List.replicate 32 3), 39)] (some (v3Output (List.replicate 32 4))) []
    (by decide) (by decide) (by decide) (by decide) (by norm_num)
    (by
      intro entry hentry
      fin_cases hentry <;> rfl)
    (by
      intro spk hspk
      rw [← Option.mem_some_iff.mp hspk]
      rfl)
  exact ⟨miners, paid, fee, hsplit, hpays⟩

end XCoin.Pool
