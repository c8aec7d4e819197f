import XCoin.Pool.Pplns

/-!
# The pool's coinbase under the node's rules

`pplns_split` followed by `build_coinbase`, and the node that reads the bytes and checks the
transaction.  Values, scripts, the height and the sum are always right.  Two rules can fail:
the output floor, when the fee or the miners' part beside a fee is below it, and the size limit,
when the pool pays very many miners.  `coinbase_accepted_iff` says for which inputs and windows the
node accepts the coinbase, and for which inputs it does so for every window.
-/

namespace XCoin.Pool

open Consensus Script Validation

variable (inputs : CoinbaseInputs)

/-! ## Inputs and verdict -/

/-- What the two functions are called with, the weights apart. -/
structure CoinbaseInputs where
  height : ℕ
  rewardSats : ℕ
  enSize : ℕ
  wc : Bytes
  feeBp : ℕ
  feeSpk : Option Bytes
  minOut : ℕ
  maxOutputs : ℕ
  fallbackSpk : Bytes

namespace CoinbaseInputs

/-- The ranges of the inputs.  The node's heights are 32-bit integers. -/
structure Valid (inputs : CoinbaseInputs) : Prop where
  height_pos : 1 ≤ inputs.height
  height_lt : inputs.height < 2 ^ 31
  reward_pos : 1 ≤ inputs.rewardSats
  reward_le : (inputs.rewardSats : ℤ) ≤ maxMoney
  feeBp_lt : inputs.feeBp < 10000
  minOut_ge : 10000 ≤ inputs.minOut
  maxOutputs_pos : 1 ≤ inputs.maxOutputs
  feeSpk : ∀ spk ∈ inputs.feeSpk, IsV3Output spk
  fallbackSpk : IsV3Output inputs.fallbackSpk
  wc : inputs.wc = [] ∨ (solver inputs.wc = .nullData ∧ inputs.wc.length ≤ maxOpReturnRelay)

/-- The pool's fee. -/
def fee : ℕ := poolFee inputs.rewardSats inputs.feeBp inputs.feeSpk

/-- The miners' part. -/
def pool : ℕ := inputs.rewardSats - inputs.fee

/-- Bytes of the coinbase's `scriptSig`. -/
def scriptSigLength : ℕ :=
  (scriptSigStart inputs.height).length + inputs.enSize

/-- The coinbase of a window. -/
def coinbase (weights : List (Bytes × ℚ)) : Except PoolError (Bytes × Bytes) := do
  let payouts ← pplnsSplit false inputs.rewardSats weights inputs.feeBp inputs.feeSpk inputs.minOut
    inputs.maxOutputs inputs.fallbackSpk
  buildCoinbase false inputs.height inputs.rewardSats inputs.enSize inputs.wc payouts

/-- The node reads these bytes as a transaction that passes the mainnet checks, starts with the
height and pays out the reward. -/
def NodeAccepts (bytes : Bytes) : Prop :=
  ∃ tx, (readTransaction true).run bytes = some (tx, []) ∧
    checkTransaction tx mainParams.permitV2Outputs mainParams.minOutputValueSat = .ok () ∧
    startsWithHeight inputs.height tx = true ∧ outputValue tx.vout = inputs.rewardSats

/-- The coinbase of a window is accepted with any extranonces.  An extranonce slot for which
the script signature would be too long is refused by the pool itself. -/
def CoinbaseOk (weights : List (Bytes × ℚ)) : Prop :=
  (maxCoinbaseScriptSig < inputs.scriptSigLength ∧
    inputs.coinbase weights = .error .scriptSigLength) ∨
  ∃ part1 part2, inputs.coinbase weights = .ok (part1, part2) ∧
    ∀ extranonces : Bytes, extranonces.length = inputs.enSize →
      inputs.NodeAccepts (part1 ++ extranonces ++ part2)

/-- No fee output, or both the fee and the miners' part reach the floor. -/
def FeeOk : Prop :=
  inputs.feeSpk = none ∨ inputs.rewardSats * inputs.feeBp < 10000 ∨
    (10000 ≤ inputs.rewardSats * inputs.feeBp / 10000 ∧
      10000 ≤ inputs.rewardSats - inputs.rewardSats * inputs.feeBp / 10000)

/-- The most miners that one coinbase can pay. -/
def mostMiners : ℕ :=
  max 1 (min inputs.maxOutputs (inputs.pool / inputs.minOut))

/-- The stripped size of a coinbase that pays this many miners. -/
def coinbaseSize (miners : ℕ) : ℕ :=
  let payouts := miners + if inputs.fee = 0 then 0 else 1
  50 + inputs.scriptSigLength +
    (writeCompactSize (payouts + if inputs.wc = [] then 0 else 1)).length + 43 * payouts +
    if inputs.wc = [] then 0 else 9 + inputs.wc.length

/-- The largest coinbase is within the size limit. -/
def SizeOk : Prop :=
  inputs.coinbaseSize inputs.mostMiners * witnessScaleFactor ≤ maxBlockWeight

end CoinbaseInputs

/-- A window: a map from witness v3 scripts to weights that are not negative. -/
structure Window (weights : List (Bytes × ℚ)) : Prop where
  nodup : (weights.map Prod.fst).Nodup
  scripts : ∀ entry ∈ weights, IsV3Output entry.1
  nonneg : ∀ entry ∈ weights, 0 ≤ entry.2

/-! ## Sizes -/

theorem CoinbaseInputs.coinbaseSize_mono {m n : ℕ} (hle : m ≤ n) :
    inputs.coinbaseSize m ≤ inputs.coinbaseSize n := by
  have hcount := length_writeCompactSize_mono (Nat.add_le_add_right (Nat.add_le_add_right hle
    (if inputs.fee = 0 then 0 else 1)) (if inputs.wc = [] then 0 else 1))
  unfold CoinbaseInputs.coinbaseSize
  dsimp only
  omega

theorem length_serializeTxOut {txout : TxOut} (hshort : txout.scriptPubKey.length < 253) :
    (serializeTxOut txout).length = 9 + txout.scriptPubKey.length := by
  rw [serializeTxOut, serializeInt64, serializeBytes, List.length_append, List.length_append,
    Bytes.length_ofNatLE, length_writeCompactSize_of_lt hshort]
  omega

theorem length_of_isV3Output {script : Bytes} (h : IsV3Output script) : script.length = 34 := by
  obtain ⟨root, hroot, rfl⟩ := h
  rw [v3Output, List.length_cons, List.length_cons, hroot]

theorem length_serializePayouts {payouts : List (Bytes × ℕ)} :
    (∀ payout ∈ payouts, IsV3Output payout.1) →
      (payouts.flatMap fun payout => serializeTxOut ⟨payout.2, payout.1⟩).length =
        43 * payouts.length := by
  induction payouts with
  | nil =>
    intro _
    rfl
  | cons payout rest ih =>
    intro hscripts
    have hscript := length_of_isV3Output (hscripts payout List.mem_cons_self)
    have hfirst : (serializeTxOut ⟨payout.2, payout.1⟩).length = 9 + payout.1.length :=
      length_serializeTxOut (by dsimp only; omega)
    have hrest := ih fun other hother => hscripts other (List.mem_cons_of_mem _ hother)
    rw [List.flatMap_cons, List.length_append, hfirst, hrest, List.length_cons]
    omega

/-! ## The check of one coinbase -/

section OneCoinbase

variable {height : ℕ} {payouts : List (Bytes × ℕ)} {wc extranonces : Bytes}

theorem length_serialize_coinbaseTransaction
    (hscripts : ∀ payout ∈ payouts, IsV3Output payout.1) (hwc : wc.length < 253)
    (hsig : (scriptSigStart height ++ extranonces).length < 253) :
    (serializeTransaction false (coinbaseTransaction height payouts wc extranonces)).length =
      50 + (scriptSigStart height ++ extranonces).length +
        (writeCompactSize (payouts.length + if wc = [] then 0 else 1)).length +
        43 * payouts.length + if wc = [] then 0 else 9 + wc.length := by
  have houts : ((coinbaseOutputs payouts wc).flatMap serializeTxOut).length =
      43 * payouts.length + if wc = [] then 0 else 9 + wc.length := by
    rw [coinbaseOutputs, List.flatMap_append, List.flatMap_map, List.length_append,
      length_serializePayouts hscripts]
    split_ifs
    · rfl
    · rw [List.flatMap_singleton, length_serializeTxOut hwc]
  have hsigSize := length_writeCompactSize_of_lt hsig
  have hone : (writeCompactSize 1).length = 1 := rfl
  simp only [serializeTransaction, coinbaseTransaction, serializeVector, serializeTxIn,
    serializeOutPoint, serializeBytes, serializeUint32, serializeUint256, length_coinbaseOutputs,
    List.length_append, List.length_singleton, List.flatMap_singleton, Bytes.length_ofNatLE,
    Bool.false_and, Bool.false_eq_true, if_false, List.length_nil, houts, hone] at hsigSize ⊢
  omega

theorem spendableOutputs_coinbaseOutputs (hscripts : ∀ payout ∈ payouts, IsV3Output payout.1)
    (hwc : wc = [] ∨ solver wc = .nullData) :
    spendableOutputs (coinbaseOutputs payouts wc) =
      payouts.map fun payout => (⟨payout.2, payout.1⟩ : TxOut) := by
  rw [coinbaseOutputs, spendableOutputs, List.filter_append, List.filter_eq_self.mpr]
  · split_ifs with hempty
    · exact List.append_nil _
    · have hnull : solver wc = .nullData := hwc.resolve_left hempty
      simp [hnull]
  · intro txout htxout
    obtain ⟨payout, hpayout, rfl⟩ := List.mem_map.mp htxout
    have hsolver := solver_eq_witnessV3Pq_iff.mpr (hscripts payout hpayout)
    simp [hsolver]

theorem outputValue_coinbaseOutputs :
    outputValue (coinbaseOutputs payouts wc) = ((payouts.map Prod.snd).sum : ℕ) := by
  have hcommitment : outputValue (if wc = [] then [] else [(⟨0, wc⟩ : TxOut)]) = 0 := by
    split_ifs <;> rfl
  rw [coinbaseOutputs, outputValue, List.map_append, List.sum_append, ← outputValue, ← outputValue,
    hcommitment, add_zero, outputValue, List.map_map]
  induction payouts with
  | nil => rfl
  | cons payout rest ih =>
    rw [List.map_cons, List.sum_cons, ih, List.map_cons, List.sum_cons]
    push_cast
    rfl

theorem allowedOutput_coinbaseOutputs (hscripts : ∀ payout ∈ payouts, IsV3Output payout.1)
    (hwc : wc = [] ∨ solver wc = .nullData) :
    ∀ txout ∈ coinbaseOutputs payouts wc,
      allowedOutput false (solver txout.scriptPubKey) = true := by
  intro txout htxout
  rcases List.mem_append.mp htxout with hpayout | hcommitment
  · obtain ⟨payout, hmem, rfl⟩ := List.mem_map.mp hpayout
    rw [solver_eq_witnessV3Pq_iff.mpr (hscripts payout hmem)]
    rfl
  · split_ifs at hcommitment with hempty
    · cases hcommitment
    · rw [List.mem_singleton.mp hcommitment, hwc.resolve_left hempty]
      rfl

theorem checkInputs_coinbaseTransaction
    (hlow : 2 ≤ (scriptSigStart height ++ extranonces).length)
    (hhigh : (scriptSigStart height ++ extranonces).length ≤ 100) :
    checkInputs (coinbaseTransaction height payouts wc extranonces) = .ok () := by
  have hnodup : ((coinbaseTransaction height payouts wc extranonces).vin.map
      TxIn.prevout).Nodup := List.nodup_singleton _
  have hcoinbase : (coinbaseTransaction height payouts wc extranonces).isCoinBase = true := rfl
  have hlength : ¬((scriptSigStart height ++ extranonces).length < 2 ∨
      (scriptSigStart height ++ extranonces).length > 100) := by omega
  rw [checkInputs, if_neg (not_not.mpr hnodup), if_pos hcoinbase]
  exact if_neg hlength

/-- **One coinbase.**  Of all the checks only the size and the floor depend on the payouts. -/
theorem checkTransaction_coinbase_iff (hne : payouts ≠ [])
    (hscripts : ∀ payout ∈ payouts, IsV3Output payout.1)
    (hsum : (((payouts.map Prod.snd).sum : ℕ) : ℤ) ≤ maxMoney)
    (hwc : wc = [] ∨ solver wc = .nullData)
    (hlow : 2 ≤ (scriptSigStart height ++ extranonces).length)
    (hhigh : (scriptSigStart height ++ extranonces).length ≤ 100) :
    checkTransaction (coinbaseTransaction height payouts wc extranonces) false 10000 = .ok () ↔
      (serializeTransaction false
          (coinbaseTransaction height payouts wc extranonces)).length * witnessScaleFactor ≤
        maxBlockWeight ∧
      ((∀ payout ∈ payouts, 10000 ≤ payout.2) ∨ ∃ payout, payouts = [payout] ∧ 1 ≤ payout.2) := by
  have hvout : (coinbaseTransaction height payouts wc extranonces).vout =
      coinbaseOutputs payouts wc := rfl
  have hspendable := spendableOutputs_coinbaseOutputs hscripts hwc
  have hrange : OutputsInRange (coinbaseOutputs payouts wc) := by
    refine ⟨fun txout htxout => ?_, by rw [outputValue_coinbaseOutputs]; exact hsum⟩
    rcases List.mem_append.mp htxout with hpayout | hcommitment
    · obtain ⟨payout, -, rfl⟩ := List.mem_map.mp hpayout
      exact Int.natCast_nonneg _
    · split_ifs at hcommitment
      · cases hcommitment
      · rw [List.mem_singleton.mp hcommitment]
  have hinputs : checkInputs (coinbaseTransaction height payouts wc extranonces) = .ok () :=
    checkInputs_coinbaseTransaction hlow hhigh
  have hsingle : (∃ txout : TxOut, payouts.map (fun payout => (⟨payout.2, payout.1⟩ : TxOut)) =
      [txout] ∧ 1 ≤ txout.nValue) ↔ ∃ payout, payouts = [payout] ∧ 1 ≤ payout.2 := by
    constructor
    · rintro ⟨txout, hmap, hvalue⟩
      obtain ⟨payout, hpayouts, rfl⟩ := List.map_eq_singleton_iff.mp hmap
      exact ⟨payout, hpayouts, Int.ofNat_le.mp hvalue⟩
    · rintro ⟨payout, rfl, hvalue⟩
      exact ⟨_, rfl, Int.ofNat_le.mpr hvalue⟩
  rw [checkTransaction_eq_ok_iff]
  constructor
  · rintro ⟨-, -, hsize, -, hrules, -⟩
    refine ⟨hsize, ?_⟩
    have hfloor := hrules.floor (by decide)
    rw [hvout, hspendable, hsingle] at hfloor
    refine hfloor.imp (fun hall payout hpayout => ?_) And.right
    exact Int.ofNat_le.mp (hall _ (List.mem_map_of_mem hpayout))
  · rintro ⟨hsize, hfloor⟩
    refine ⟨List.cons_ne_nil _ _, ?_, hsize, hrange, ⟨?_, fun _ => ?_⟩, hinputs⟩
    · rw [hvout, coinbaseOutputs]
      simp [hne]
    · exact allowedOutput_coinbaseOutputs hscripts hwc
    · rw [hvout, hspendable, hsingle]
      refine hfloor.imp (fun hall txout htxout => ?_) fun halone => ⟨rfl, halone⟩
      obtain ⟨payout, hpayout, rfl⟩ := List.mem_map.mp htxout
      exact Int.ofNat_le.mpr (hall payout hpayout)

end OneCoinbase

/-! ## The payouts of a window -/

theorem length_feeOutputs (rewardSats feeBp : ℕ) (feeSpk : Option Bytes) :
    (feeOutputs (poolFee rewardSats feeBp feeSpk) feeSpk).length =
      if poolFee rewardSats feeBp feeSpk = 0 then 0 else 1 := by
  cases feeSpk with
  | none => rfl
  | some spk =>
    rw [feeOutputs]
    split_ifs <;> rfl

theorem MinerPayouts.floor_iff {pool minOut maxOutputs : ℕ} {payouts : List (Bytes × ℕ)}
    (h : MinerPayouts pool minOut maxOutputs payouts) (hmin : 10000 ≤ minOut) :
    (∀ payout ∈ payouts, 10000 ≤ payout.2) ↔ 10000 ≤ pool := by
  constructor
  · intro hall
    obtain ⟨payout, hpayout⟩ := List.exists_mem_of_ne_nil payouts h.ne_nil
    calc 10000 ≤ payout.2 := hall payout hpayout
      _ ≤ (payouts.map Prod.snd).sum :=
        List.single_le_sum (fun _ _ => Nat.zero_le _) _ (List.mem_map_of_mem hpayout)
      _ = pool := h.sum_eq
  · intro hpool payout hpayout
    rcases h.alone_or_large with halone | hlarge
    · obtain ⟨only, rfl⟩ := List.length_eq_one_iff.mp halone
      have hwhole : only.2 = pool := by simpa using h.sum_eq
      rw [List.mem_singleton.mp hpayout, hwhole]
      exact hpool
    · exact hmin.trans (hlarge payout hpayout)

theorem MinerPayouts.length_le_most {pool minOut maxOutputs : ℕ} {payouts : List (Bytes × ℕ)}
    (h : MinerPayouts pool minOut maxOutputs payouts) (hmin : 0 < minOut) (hmax : 1 ≤ maxOutputs) :
    payouts.length ≤ max 1 (min maxOutputs (pool / minOut)) := by
  rcases h.alone_or_large with halone | hlarge
  · rw [halone]
    exact le_max_left _ _
  · have hcount : payouts.length * minOut ≤ pool := by
      rw [← h.sum_eq, ← List.length_map Prod.snd, ← smul_eq_mul]
      apply List.card_nsmul_le_sum
      intro amount hamount
      obtain ⟨payout, hpayout, rfl⟩ := List.mem_map.mp hamount
      exact hlarge payout hpayout
    have hquotient : payouts.length ≤ pool / minOut := (Nat.le_div_iff_mul_le hmin).mpr hcount
    have hlength := h.length_le
    rw [max_eq_right hmax] at hlength
    exact le_max_of_le_right (le_min hlength hquotient)

namespace CoinbaseInputs

variable {inputs : CoinbaseInputs} {weights : List (Bytes × ℚ)} {extranonces : Bytes}

/-- What the miners get. -/
def miners (inputs : CoinbaseInputs) (weights : List (Bytes × ℚ)) : List (Bytes × ℕ) :=
  minerPayouts inputs.pool inputs.minOut inputs.maxOutputs weights inputs.fallbackSpk

/-- The outputs: the miners, then the fee. -/
def payouts (inputs : CoinbaseInputs) (weights : List (Bytes × ℚ)) : List (Bytes × ℕ) :=
  inputs.miners weights ++ feeOutputs inputs.fee inputs.feeSpk

theorem miners_spec :
    MinerPayouts inputs.pool inputs.minOut inputs.maxOutputs (inputs.miners weights) :=
  minerPayouts_spec

theorem Valid.fee_lt (hvalid : inputs.Valid) : inputs.fee < inputs.rewardSats :=
  poolFee_lt inputs.feeSpk hvalid.reward_pos hvalid.feeBp_lt

theorem Valid.pool_pos (hvalid : inputs.Valid) : 0 < inputs.pool :=
  Nat.sub_pos_of_lt hvalid.fee_lt

theorem length_payouts :
    (inputs.payouts weights).length =
      (inputs.miners weights).length + if inputs.fee = 0 then 0 else 1 := by
  rw [payouts, List.length_append, fee, length_feeOutputs]

theorem payouts_ne_nil : inputs.payouts weights ≠ [] :=
  List.append_ne_nil_of_left_ne_nil miners_spec.ne_nil _

theorem sum_payouts (hvalid : inputs.Valid) :
    ((inputs.payouts weights).map Prod.snd).sum = inputs.rewardSats := by
  have hminers : ((inputs.miners weights).map Prod.snd).sum = inputs.pool := miners_spec.sum_eq
  have hfee := hvalid.fee_lt
  rw [payouts, List.map_append, List.sum_append, hminers, fee, sum_feeOutputs, pool, fee]
  exact Nat.sub_add_cancel hfee.le

theorem payouts_scripts (hvalid : inputs.Valid) (hwindow : Window weights) :
    ∀ payout ∈ inputs.payouts weights, IsV3Output payout.1 := by
  intro payout hpayout
  rcases List.mem_append.mp hpayout with hminer | hfee
  · exact minerPayouts_scripts hvalid.fallbackSpk hwindow.scripts payout hminer
  · exact hvalid.feeSpk _ (mem_feeOutputs hfee).1

theorem payouts_pos (hvalid : inputs.Valid) : ∀ payout ∈ inputs.payouts weights, 0 < payout.2 := by
  intro payout hpayout
  rcases List.mem_append.mp hpayout with hminer | hfee
  · have hmin := hvalid.minOut_ge
    exact miners_spec.pos hvalid.pool_pos (by omega) payout hminer
  · obtain ⟨-, hamount, hne⟩ := mem_feeOutputs hfee
    rw [hamount]
    exact Nat.pos_of_ne_zero hne

/-- Every payout is at least 1 sat. -/
theorem length_payouts_le_reward (hvalid : inputs.Valid) :
    (inputs.payouts weights).length ≤ inputs.rewardSats := by
  have hsum : ((inputs.payouts weights).map Prod.snd).sum = inputs.rewardSats := sum_payouts hvalid
  rw [← hsum, ← List.length_map Prod.snd]
  apply List.length_le_sum_of_one_le
  intro amount hamount
  obtain ⟨payout, hpayout, rfl⟩ := List.mem_map.mp hamount
  exact payouts_pos hvalid payout hpayout

theorem fee_eq_zero_iff :
    inputs.fee = 0 ↔ inputs.feeSpk = none ∨ inputs.rewardSats * inputs.feeBp < 10000 := by
  unfold fee poolFee
  cases inputs.feeSpk with
  | none => simp
  | some spk => simp [Nat.div_eq_zero_iff]

/-- **The floor.**  It holds of all payouts, or there is one, exactly under `FeeOk`; the weights
do not matter. -/
theorem floor_iff_feeOk (hvalid : inputs.Valid) :
    ((∀ payout ∈ inputs.payouts weights, 10000 ≤ payout.2) ∨
        ∃ payout, inputs.payouts weights = [payout] ∧ 1 ≤ payout.2) ↔ inputs.FeeOk := by
  have hspec : MinerPayouts inputs.pool inputs.minOut inputs.maxOutputs (inputs.miners weights) :=
    miners_spec
  have hfloor := hspec.floor_iff hvalid.minOut_ge
  by_cases hfee : inputs.fee = 0
  · -- without a fee output one miner is exempt, and several are large
    have hok : inputs.FeeOk := by
      rcases fee_eq_zero_iff.mp hfee with hnone | hsmall
      · exact .inl hnone
      · exact .inr (.inl hsmall)
    have hnofee : feeOutputs inputs.fee inputs.feeSpk = [] := by
      apply List.eq_nil_of_length_eq_zero
      rw [fee, length_feeOutputs, ← fee, if_pos hfee]
    have hpos : ∀ payout ∈ inputs.payouts weights, 0 < payout.2 := payouts_pos hvalid
    have hmin := hvalid.minOut_ge
    refine iff_of_true ?_ hok
    rw [payouts, hnofee, List.append_nil] at hpos ⊢
    rcases hspec.alone_or_large with halone | hlarge
    · obtain ⟨only, hsingle⟩ := List.length_eq_one_iff.mp halone
      refine .inr ⟨only, hsingle, hpos only ?_⟩
      rw [hsingle]
      exact List.mem_singleton_self only
    · exact .inl fun payout hpayout => hmin.trans (hlarge payout hpayout)
  · -- beside a fee output no payout is exempt
    obtain ⟨spk, hspk⟩ : ∃ spk, inputs.feeSpk = some spk :=
      Option.ne_none_iff_exists'.mp fun hnone => hfee (fee_eq_zero_iff.mpr (.inl hnone))
    have hamount : inputs.fee = inputs.rewardSats * inputs.feeBp / 10000 := by
      rw [fee, poolFee, hspk]
      rfl
    have hpayouts : inputs.payouts weights = inputs.miners weights ++ [(spk, inputs.fee)] := by
      rw [payouts, hspk, feeOutputs, if_neg hfee]
    have hseveral : ¬∃ payout, inputs.payouts weights = [payout] ∧ 1 ≤ payout.2 := by
      rintro ⟨payout, hsingle, -⟩
      have hlength := congrArg List.length hsingle
      have hsome := List.length_pos_of_ne_nil hspec.ne_nil
      rw [hpayouts, List.length_append, List.length_singleton, List.length_singleton] at hlength
      omega
    have hok : inputs.FeeOk ↔ 10000 ≤ inputs.pool ∧ 10000 ≤ inputs.fee := by
      have hnotzero : ¬(inputs.feeSpk = none ∨ inputs.rewardSats * inputs.feeBp < 10000) :=
        fun h => hfee (fee_eq_zero_iff.mpr h)
      rw [FeeOk, ← or_assoc, or_iff_right hnotzero, pool, ← hamount, and_comm]
    rw [or_iff_left hseveral, hok, ← hfloor, hpayouts, List.forall_mem_append]
    exact and_congr_right fun _ => List.forall_mem_singleton

/-! ## What the node reads -/

theorem two_le_scriptSigLength : 2 ≤ inputs.scriptSigLength := two_le_length_scriptSigStart_add _ _

theorem Valid.wc_cases (hvalid : inputs.Valid) : inputs.wc = [] ∨ solver inputs.wc = .nullData :=
  hvalid.wc.imp_right And.left

theorem Valid.length_wc_le (hvalid : inputs.Valid) : inputs.wc.length ≤ maxOpReturnRelay := by
  rcases hvalid.wc with hempty | ⟨-, hlength⟩
  · rw [hempty]
    exact Nat.zero_le _
  · exact hlength

theorem coinbase_eq (hvalid : inputs.Valid) (hwindow : Window weights) :
    inputs.coinbase weights =
      buildCoinbase false inputs.height inputs.rewardSats inputs.enSize inputs.wc
        (inputs.payouts weights) := by
  have hmin := hvalid.minOut_ge
  rw [coinbase, pplnsSplit_eq_of_isV3Output false hvalid.reward_pos hvalid.feeBp_lt (by omega)
    hwindow.scripts hvalid.feeSpk hvalid.fallbackSpk]
  rfl

theorem coinbase_eq_error (hvalid : inputs.Valid) (hwindow : Window weights)
    (hlong : maxCoinbaseScriptSig < inputs.scriptSigLength) :
    inputs.coinbase weights = .error .scriptSigLength := by
  rw [coinbase_eq hvalid hwindow, buildCoinbase]
  exact if_pos fun hbounds => absurd hbounds.2 (not_le.mpr hlong)

/-- The coinbase of a window with extranonces, as the node sees it. -/
abbrev transaction (inputs : CoinbaseInputs) (weights : List (Bytes × ℚ)) (extranonces : Bytes) :
    Transaction :=
  coinbaseTransaction inputs.height (inputs.payouts weights) inputs.wc extranonces

theorem startsWithHeight_coinbase (hvalid : inputs.Valid) (payouts : List (Bytes × ℕ))
    (wc extranonces : Bytes) :
    startsWithHeight inputs.height
      (coinbaseTransaction inputs.height payouts wc extranonces) = true := by
  change (pushInt64 inputs.height).isPrefixOf (scriptSigStart inputs.height ++ extranonces) = true
  rw [← heightPush_eq_pushInt64 hvalid.height_lt, scriptSigStart, List.append_assoc,
    List.isPrefixOf_iff_prefix]
  exact List.prefix_append _ _

theorem length_payouts_le_coinbaseSize :
    43 * (inputs.payouts weights).length ≤ inputs.coinbaseSize (inputs.miners weights).length := by
  rw [length_payouts, coinbaseSize]
  omega

section Short

variable (hvalid : inputs.Valid) (hwindow : Window weights)
  (hshort : inputs.scriptSigLength ≤ maxCoinbaseScriptSig)

include hvalid hshort

/-- It does not read more outputs than it can count. -/
theorem not_nodeAccepts_of_many
    (hmany : maxSize < (coinbaseOutputs (inputs.payouts weights) inputs.wc).length)
    (hsize : extranonces.length = inputs.enSize) :
    ¬inputs.NodeAccepts
      (serializeTransaction false (inputs.transaction weights extranonces)) := by
  have hreward := hvalid.reward_le
  rw [maxMoney_eq] at hreward
  have hcount : (coinbaseOutputs (inputs.payouts weights) inputs.wc).length < 2 ^ 64 := by
    have hpayouts : (inputs.payouts weights).length ≤ _ := length_payouts_le_reward hvalid
    rw [length_coinbaseOutputs]
    split_ifs <;> omega
  -- the input is that of a coinbase without outputs
  have hbuilt : BuiltCoinbase false inputs.height 0 inputs.enSize [] [] :=
    ⟨two_le_scriptSigLength, hshort, rfl, List.forall_mem_nil _, Nat.zero_le _⟩
  have hvin := readsAs_vin (hbuilt.fits (by decide) (Nat.zero_le _) hsize)
  have hrefuses : (readTransaction true).Refuses
      (serializeTransaction false (inputs.transaction weights extranonces)) :=
    refuses_transaction hvin (List.cons_ne_nil _ _) hmany hcount
  rintro ⟨tx, hread, -⟩
  have hnone := hrefuses []
  rw [List.append_nil, hread] at hnone
  cases hnone

include hwindow

theorem coinbase_isOk :
    ∃ part1 part2, inputs.coinbase weights = .ok (part1, part2) := by
  rw [coinbase_eq hvalid hwindow]
  exact buildCoinbase_isOk false hshort (sum_payouts hvalid) (payouts_pos hvalid)
    (payouts_scripts hvalid hwindow) hvalid.length_wc_le

theorem fits_coinbaseTransaction
    (hfew : (coinbaseOutputs (inputs.payouts weights) inputs.wc).length ≤ maxSize)
    (hsize : extranonces.length = inputs.enSize) :
    (inputs.transaction weights extranonces).Fits := by
  obtain ⟨part1, part2, hbuilt⟩ := coinbase_isOk hvalid hwindow hshort
  rw [coinbase_eq hvalid hwindow] at hbuilt
  have hreward := hvalid.reward_le
  rw [maxMoney_eq] at hreward
  exact (builtCoinbase_of_ok hbuilt).fits (by omega) hfew hsize

theorem nodeAccepts_iff_of_few
    (hfew : (coinbaseOutputs (inputs.payouts weights) inputs.wc).length ≤ maxSize)
    (hsize : extranonces.length = inputs.enSize) :
    inputs.NodeAccepts (serializeTransaction false (inputs.transaction weights extranonces)) ↔
      inputs.coinbaseSize (inputs.miners weights).length * witnessScaleFactor ≤ maxBlockWeight ∧
        inputs.FeeOk := by
  have hsig : (scriptSigStart inputs.height ++ extranonces).length = inputs.scriptSigLength := by
    rw [List.length_append, hsize, scriptSigLength]
  have hlow : 2 ≤ inputs.scriptSigLength := two_le_scriptSigLength
  have hhigh : inputs.scriptSigLength ≤ 100 := hshort
  have hwc : inputs.wc.length ≤ 80 := hvalid.length_wc_le
  have hscripts := payouts_scripts hvalid hwindow
  have hsum : ((inputs.payouts weights).map Prod.snd).sum = inputs.rewardSats := sum_payouts hvalid
  -- there are no witnesses, so both formats are the same bytes
  have hread : (readTransaction true).run
      (serializeTransaction false (inputs.transaction weights extranonces)) =
      some (inputs.transaction weights extranonces, []) :=
    (readsAs_transaction (fits_coinbaseTransaction hvalid hwindow hshort hfew hsize)).run
  have hlength := length_serialize_coinbaseTransaction hscripts (by omega : inputs.wc.length < 253)
    (by omega : (scriptSigStart inputs.height ++ extranonces).length < 253)
  have hcheck := checkTransaction_coinbase_iff payouts_ne_nil hscripts
    (by rw [hsum]; exact hvalid.reward_le) hvalid.wc_cases (by rw [hsig]; exact hlow)
    (by rw [hsig]; exact hhigh)
  rw [floor_iff_feeOk hvalid, hlength, hsig, length_payouts] at hcheck
  refine Iff.trans ?_ hcheck
  constructor
  · rintro ⟨tx, htx, hok, -, -⟩
    rw [hread] at htx
    obtain ⟨rfl, -⟩ := Prod.mk.inj (Option.some.inj htx)
    exact hok
  · intro hok
    refine ⟨_, hread, hok, startsWithHeight_coinbase hvalid _ _ _, ?_⟩
    change outputValue (coinbaseOutputs (inputs.payouts weights) inputs.wc) = _
    rw [outputValue_coinbaseOutputs, hsum]

/-- **The node's verdict on one coinbase.** -/
theorem nodeAccepts_iff (hsize : extranonces.length = inputs.enSize) :
    inputs.NodeAccepts (serializeTransaction false (inputs.transaction weights extranonces)) ↔
      inputs.coinbaseSize (inputs.miners weights).length * witnessScaleFactor ≤ maxBlockWeight ∧
        inputs.FeeOk := by
  rcases le_or_gt (coinbaseOutputs (inputs.payouts weights) inputs.wc).length maxSize with
    hfew | hmany
  · exact nodeAccepts_iff_of_few hvalid hwindow hshort hfew hsize
  · refine iff_of_false (not_nodeAccepts_of_many hvalid hshort hmany hsize) ?_
    rintro ⟨hsmall, -⟩
    have hlarge : 43 * (inputs.payouts weights).length ≤ _ := length_payouts_le_coinbaseSize
    rw [length_coinbaseOutputs] at hmany
    unfold maxBlockWeight witnessScaleFactor at hsmall
    unfold maxSize at hmany
    split_ifs at hmany <;> omega

end Short

end CoinbaseInputs

/-! ## The worst window -/

theorem window_nil : Window [] := ⟨List.nodup_nil, nofun, nofun⟩

/-- A window of this many miners with the same weight. -/
def equalWindow (n : ℕ) : List (Bytes × ℚ) :=
  (List.range n).map fun i => (v3Output (Bytes.ofNatLE 32 i), 1)

theorem window_equalWindow {n : ℕ} (hn : n ≤ 256 ^ 32) : Window (equalWindow n) := by
  refine ⟨?_, ?_, ?_⟩
  · rw [equalWindow, List.map_map]
    refine List.Nodup.map_on ?_ List.nodup_range
    intro i hi j hj hsame
    have hroot : Bytes.ofNatLE 32 i = Bytes.ofNatLE 32 j := by
      simpa [v3Output] using hsame
    have hi : i < 256 ^ 32 := (List.mem_range.mp hi).trans_le hn
    have hj : j < 256 ^ 32 := (List.mem_range.mp hj).trans_le hn
    rw [← Bytes.toNatLE_ofNatLE hi, hroot, Bytes.toNatLE_ofNatLE hj]
  · intro entry hentry
    obtain ⟨i, -, rfl⟩ := List.mem_map.mp hentry
    exact ⟨_, Bytes.length_ofNatLE 32 i, rfl⟩
  · intro entry hentry
    obtain ⟨i, -, rfl⟩ := List.mem_map.mp hentry
    exact zero_le_one

theorem length_ranking_equalWindow (n : ℕ) : (ranking (equalWindow n)).length = n := by
  have hall : (equalWindow n).filter (fun entry => decide (0 < entry.2)) = equalWindow n := by
    apply List.filter_eq_self.mpr
    intro entry hentry
    obtain ⟨i, -, rfl⟩ := List.mem_map.mp hentry
    exact decide_eq_true one_pos
  rw [ranking, List.length_insertionSort, hall, List.length_map, equalWindow, List.length_map,
    List.length_range]

theorem weight_of_mem_ranking_equalWindow {n : ℕ} {miner : ℚ × Bytes}
    (h : miner ∈ ranking (equalWindow n)) : miner.1 = 1 := by
  obtain ⟨i, -, hentry⟩ := List.mem_map.mp (mem_ranking.mp h).1
  exact (congrArg Prod.snd hentry).symm

theorem payees_equalWindow {pool minOut maxOutputs n : ℕ} (hn : n ≤ maxOutputs)
    (hpart : n ≤ 1 ∨ n * minOut ≤ pool) :
    payees pool minOut maxOutputs (equalWindow n) = ranking (equalWindow n) := by
  have hlength := length_ranking_equalWindow n
  have htake : (ranking (equalWindow n)).take (max 1 maxOutputs) = ranking (equalWindow n) := by
    apply List.take_of_length_le
    rw [hlength]
    exact hn.trans (le_max_right _ _)
  rw [payees, htake, hlength]
  cases n with
  | zero => rfl
  | succ n =>
    rw [settle, if_pos]
    rw [hlength]
    refine hpart.imp_right fun hlarge => List.filter_eq_self.mpr fun miner hminer => ?_
    have htotal : totalWeight (ranking (equalWindow (n + 1))) = ((n + 1 : ℕ) : ℚ) := by
      have hones : (ranking (equalWindow (n + 1))).map Prod.fst = List.replicate (n + 1) 1 := by
        rw [List.eq_replicate_iff, List.length_map, hlength]
        refine ⟨rfl, fun weight hweight => ?_⟩
        obtain ⟨other, hother, rfl⟩ := List.mem_map.mp hweight
        exact weight_of_mem_ranking_equalWindow hother
      rw [totalWeight, hones, List.sum_replicate, nsmul_eq_mul, mul_one]
    apply decide_eq_true
    rw [part, htotal, weight_of_mem_ranking_equalWindow hminer, mul_one]
    have hfloor : (minOut : ℤ) ≤ ⌊(pool : ℚ) / ((n + 1 : ℕ) : ℚ)⌋ := by
      rw [Int.le_floor, le_div_iff₀ (by positivity)]
      have hcast : ((((n + 1) * minOut : ℕ)) : ℚ) ≤ pool := by exact_mod_cast hlarge
      calc ((minOut : ℤ) : ℚ) * ((n + 1 : ℕ) : ℚ) = (((n + 1) * minOut : ℕ) : ℚ) := by
            push_cast
            ring
        _ ≤ pool := hcast
    omega

section Verdict

variable {inputs : CoinbaseInputs} {weights : List (Bytes × ℚ)}

theorem length_miners_equalWindow {n : ℕ} (hpos : 1 ≤ n) (hn : n ≤ inputs.maxOutputs)
    (hpart : n ≤ 1 ∨ n * inputs.minOut ≤ inputs.pool) :
    (inputs.miners (equalWindow n)).length = n := by
  rw [CoinbaseInputs.miners, minerPayouts_eq, length_withDust, length_flooredPayouts,
    payees_equalWindow hn hpart, length_ranking_equalWindow]
  exact max_eq_right hpos

theorem coinbaseOk_iff_of_short (hvalid : inputs.Valid) (hwindow : Window weights)
    (hshort : inputs.scriptSigLength ≤ maxCoinbaseScriptSig) :
    inputs.CoinbaseOk weights ↔
      inputs.coinbaseSize (inputs.miners weights).length * witnessScaleFactor ≤ maxBlockWeight ∧
        inputs.FeeOk := by
  obtain ⟨part1, part2, hparts⟩ := CoinbaseInputs.coinbase_isOk hvalid hwindow hshort
  have hbuilt := hparts
  rw [CoinbaseInputs.coinbase_eq hvalid hwindow] at hbuilt
  constructor
  · rintro (⟨hlong, -⟩ | ⟨first, second, hok, haccepts⟩)
    · exact absurd hshort (not_le.mpr hlong)
    · rw [hparts] at hok
      obtain ⟨rfl, rfl⟩ := Prod.mk.inj (Except.ok.inj hok)
      have hzeros : (List.replicate inputs.enSize (0 : UInt8)).length = inputs.enSize :=
        List.length_replicate
      have hnode := haccepts _ hzeros
      rw [buildCoinbase_eq_serialize hbuilt hzeros] at hnode
      exact (CoinbaseInputs.nodeAccepts_iff hvalid hwindow hshort hzeros).mp hnode
  · intro hrules
    refine .inr ⟨part1, part2, hparts, fun extranonces hsize => ?_⟩
    rw [buildCoinbase_eq_serialize hbuilt hsize]
    exact (CoinbaseInputs.nodeAccepts_iff hvalid hwindow hshort hsize).mpr hrules

theorem coinbaseOk_iff (hvalid : inputs.Valid) (hwindow : Window weights) :
    inputs.CoinbaseOk weights ↔ maxCoinbaseScriptSig < inputs.scriptSigLength ∨
      (inputs.FeeOk ∧ inputs.coinbaseSize (inputs.miners weights).length * witnessScaleFactor ≤
        maxBlockWeight) := by
  rcases lt_or_ge maxCoinbaseScriptSig inputs.scriptSigLength with hlong | hshort
  · exact iff_of_true (.inl ⟨hlong, CoinbaseInputs.coinbase_eq_error hvalid hwindow hlong⟩)
      (.inl hlong)
  · rw [coinbaseOk_iff_of_short hvalid hwindow hshort, or_iff_right (not_lt.mpr hshort), and_comm]

theorem mostMiners_le (hvalid : inputs.Valid) : inputs.mostMiners ≤ inputs.rewardSats :=
  max_le hvalid.reward_pos
    ((min_le_right _ _).trans ((Nat.div_le_self _ _).trans (Nat.sub_le _ _)))

/-- The worst window pays the most miners. -/
theorem exists_mostMiners (hvalid : inputs.Valid) :
    ∃ weights, Window weights ∧ (inputs.miners weights).length = inputs.mostMiners := by
  have hmin := hvalid.minOut_ge
  have hreward := hvalid.reward_le
  have hmost := mostMiners_le hvalid
  rw [maxMoney_eq] at hreward
  refine ⟨_, window_equalWindow (n := inputs.mostMiners) (by omega),
    length_miners_equalWindow (le_max_left _ _) ?_ ?_⟩
  · exact max_le hvalid.maxOutputs_pos (min_le_left _ _)
  · rcases le_max_iff.mp (le_refl inputs.mostMiners) with hone | hmany
    · exact .inl hone
    · exact .inr ((Nat.le_div_iff_mul_le (by omega)).mp (hmany.trans (min_le_right _ _)))

/-- **The pool's coinbase.**  The node accepts the coinbase of a window exactly if the fee and the
miners' part beside it reach the output floor and the coinbase is within the size limit, or
the pool builds none; and that of every window exactly if the largest one is within the limit. -/
theorem coinbase_accepted_iff (inputs : CoinbaseInputs) (hvalid : inputs.Valid) :
    (∀ weights, Window weights → (inputs.CoinbaseOk weights ↔
      maxCoinbaseScriptSig < inputs.scriptSigLength ∨
        (inputs.FeeOk ∧ inputs.coinbaseSize (inputs.miners weights).length * witnessScaleFactor ≤
          maxBlockWeight))) ∧
    ((∀ weights, Window weights → inputs.CoinbaseOk weights) ↔
      maxCoinbaseScriptSig < inputs.scriptSigLength ∨ (inputs.FeeOk ∧ inputs.SizeOk)) := by
  refine ⟨fun weights hwindow => coinbaseOk_iff hvalid hwindow, ?_, ?_⟩
  · intro hall
    obtain ⟨weights, hwindow, hmost⟩ := exists_mostMiners hvalid
    rw [CoinbaseInputs.SizeOk, ← hmost]
    exact (coinbaseOk_iff hvalid hwindow).mp (hall weights hwindow)
  · intro hok weights hwindow
    rw [coinbaseOk_iff hvalid hwindow]
    refine hok.imp_right (And.imp_right fun hsize => ?_)
    have hmin := hvalid.minOut_ge
    have hmost : (inputs.miners weights).length ≤ inputs.mostMiners :=
      CoinbaseInputs.miners_spec.length_le_most (by omega) hvalid.maxOutputs_pos
    exact (Nat.mul_le_mul_right _ (inputs.coinbaseSize_mono hmost)).trans hsize

end Verdict

/-! ## A fee below the floor -/

/-- A fee of 5 basis points on 0.1 coin, which is 5,000 sat. -/
def smallFeeInputs : CoinbaseInputs where
  height := 1
  rewardSats := 10000000
  enSize := 8
  wc := []
  feeBp := 5
  feeSpk := some (v3Output (List.replicate 32 2))
  minOut := 10000
  maxOutputs := 100
  fallbackSpk := v3Output (List.replicate 32 1)

theorem smallFeeInputs_valid : smallFeeInputs.Valid where
  height_pos := by decide
  height_lt := by decide
  reward_pos := by decide
  reward_le := by decide
  feeBp_lt := by decide
  minOut_ge := by decide
  maxOutputs_pos := by decide
  feeSpk := by
    intro spk hspk
    obtain rfl := Option.some.inj hspk
    exact ⟨_, rfl, rfl⟩
  fallbackSpk := ⟨_, rfl, rfl⟩
  wc := .inl rfl

/-- The pool builds a coinbase that the node rejects for its fee output. -/
theorem smallFee_coinbase_rejected :
    smallFeeInputs.Valid ∧ Window [] ∧ ∃ part1 part2 tx,
      smallFeeInputs.coinbase [] = .ok (part1, part2) ∧
      (readTransaction true).run (part1 ++ List.replicate 8 0 ++ part2) = some (tx, []) ∧
      checkTransaction tx mainParams.permitV2Outputs mainParams.minOutputValueSat =
        .error (.invalid .txConsensus .badTxoutBelowMin) := by
  refine ⟨smallFeeInputs_valid, window_nil, ?_⟩
  obtain ⟨part1, part2, hparts⟩ := CoinbaseInputs.coinbase_isOk smallFeeInputs_valid
    window_nil (by decide)
  have hbuilt := hparts
  rw [CoinbaseInputs.coinbase_eq smallFeeInputs_valid window_nil] at hbuilt
  refine ⟨part1, part2, coinbaseTransaction smallFeeInputs.height (smallFeeInputs.payouts [])
    smallFeeInputs.wc (List.replicate 8 0), hparts, ?_, ?_⟩
  · rw [buildCoinbase_eq_serialize hbuilt (by decide)]
    exact (readsAs_transaction (CoinbaseInputs.fits_coinbaseTransaction smallFeeInputs_valid
      window_nil (by decide) (by decide) (by decide))).run
  · decide +kernel

/-- Without a fee address the coinbase of every window is accepted. -/
def noFeeInputs : CoinbaseInputs := { smallFeeInputs with feeSpk := none }

theorem noFee_coinbase_accepted :
    noFeeInputs.Valid ∧ ∀ weights, Window weights → noFeeInputs.CoinbaseOk weights := by
  have hvalid : noFeeInputs.Valid := { smallFeeInputs_valid with feeSpk := nofun }
  refine ⟨hvalid, (coinbase_accepted_iff noFeeInputs hvalid).2.mpr (.inr ⟨.inl rfl, ?_⟩)⟩
  change noFeeInputs.coinbaseSize 100 * witnessScaleFactor ≤ maxBlockWeight
  decide

end XCoin.Pool
