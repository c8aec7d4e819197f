import Mathlib

/-!
# Amounts and consensus parameters

The constants of `consensus/amount.h` and the parts of `Consensus::Params` that
the modelled functions read, with the values `CMainParams` gives them.  Heights
and amounts (`CAmount`) are C++ `int` and `int64_t` values; they are modelled as
unbounded integers, and the places where a sum of amounts is formed say separately that
it stays inside the signed 64-bit range (`Int64Range`).

The emission table is copied row by row from the generated block of
`consensus/params.h`; the two `constexpr` checks that guard it there,
`EmissionTableWellFormed` and `EmissionTableTotalSat`, are modelled here because
the subsidy lookup is only correct for a table that passes them.
-/

namespace XCoin.Consensus

/-- A 256-bit value such as a block hash or a proof-of-work limit. -/
abbrev Uint256 := BitVec 256

/-! ## Amounts -/

/-- The number of satoshis in one XID. -/
def coin : ℤ := 100000000

/-- No larger amount is valid. -/
def maxMoney : ℤ := 100000000 * coin

/-- `MoneyRange`. -/
def moneyRange (value : ℤ) : Bool :=
  decide (0 ≤ value ∧ value ≤ maxMoney)

@[simp] theorem moneyRange_iff {value : ℤ} :
    moneyRange value = true ↔ 0 ≤ value ∧ value ≤ maxMoney := by
  simp [moneyRange]

/-- The values an `int64_t` can hold. -/
def Int64Range (value : ℤ) : Prop := -2 ^ 63 ≤ value ∧ value < 2 ^ 63

instance (value : ℤ) : Decidable (Int64Range value) :=
  inferInstanceAs (Decidable (_ ∧ _))

theorem maxMoney_eq : maxMoney = 10 ^ 16 := rfl

/-- A fee per so many units of size, `FeeFrac`.  A `CFeeRate` holds one for virtual bytes. -/
structure FeeRate where
  fee : ℤ
  size : ℕ
deriving DecidableEq, Repr

/-- `CFeeRate::GetFee`, rounded up. -/
def FeeRate.getFee (rate : FeeRate) (virtualBytes : ℕ) : ℤ :=
  if rate.size = 0 then 0
  else if -(-(rate.fee * virtualBytes) / rate.size) = 0 ∧ virtualBytes ≠ 0 ∧ rate.fee < 0 then -1
  else -(-(rate.fee * virtualBytes) / rate.size)

/-- Whether the rate is lower than another, by cross multiplication. -/
def FeeRate.lower (rate other : FeeRate) : Bool :=
  decide (rate.fee * other.size < other.fee * rate.size)

/-! ## The emission table -/

/-- A contiguous range of blocks that all pay the same subsidy. -/
structure EmissionEra where
  startHeight : ℤ
  endHeight : ℤ
  baseSubsidy : ℤ
deriving DecidableEq, Repr

/-- The first block that pays a subsidy. -/
def emissionStartHeight : ℤ := 1

/-- `MAX_SUPPLY_SAT`. -/
def maxSupplySat : ℤ := 10000000000000000

/-- The sum of a table's per-block subsidies, without the closing dust. -/
def emissionTableTotalSat (table : List EmissionEra) : ℤ :=
  (table.map fun era => era.baseSubsidy * (era.endHeight - era.startHeight + 1)).sum

/-- The loop of `EmissionTableWellFormed`: the first row must start at `start`
and every later row right after the row before it. -/
def emissionRowsWellFormed : List EmissionEra → ℤ → Bool
  | [], _ => true
  | era :: eras, start =>
    decide (era.startHeight = start) && decide (era.startHeight ≤ era.endHeight) &&
      decide (0 < era.baseSubsidy ∧ era.baseSubsidy ≤ maxSupplySat) &&
      emissionRowsWellFormed eras (era.endHeight + 1)

/-- Whether a table is non-empty rows laid back to back from `start`, each
paying a positive subsidy no larger than the cap. -/
def emissionTableWellFormed (table : List EmissionEra) (start : ℤ) : Bool :=
  !table.isEmpty && emissionRowsWellFormed table start

/-- The mainnet schedule, `EMISSION_TABLE`. -/
def mainnetEmissionTable : List EmissionEra := [
    ⟨1, 20000, 625000000⟩,
    ⟨20001, 40000, 1250000000⟩,
    ⟨40001, 60000, 2500000000⟩,
    ⟨60001, 220000, 5000000000⟩,
    ⟨220001, 330000, 4500000000⟩,
    ⟨330001, 440000, 4050000000⟩,
    ⟨440001, 550000, 3645000000⟩,
    ⟨550001, 660000, 3281000000⟩,
    ⟨660001, 770000, 2953000000⟩,
    ⟨770001, 880000, 2658000000⟩,
    ⟨880001, 990000, 2393000000⟩,
    ⟨990001, 1100000, 2154000000⟩,
    ⟨1100001, 1210000, 1939000000⟩,
    ⟨1210001, 1320000, 1746000000⟩,
    ⟨1320001, 1430000, 1572000000⟩,
    ⟨1430001, 1540000, 1415000000⟩,
    ⟨1540001, 1650000, 1274000000⟩,
    ⟨1650001, 1760000, 1147000000⟩,
    ⟨1760001, 1870000, 1033000000⟩,
    ⟨1870001, 1980000, 930000000⟩,
    ⟨1980001, 2090000, 837000000⟩,
    ⟨2090001, 2200000, 754000000⟩,
    ⟨2200001, 2310000, 679000000⟩,
    ⟨2310001, 2420000, 612000000⟩,
    ⟨2420001, 2530000, 551000000⟩,
    ⟨2530001, 2640000, 496000000⟩,
    ⟨2640001, 2750000, 447000000⟩,
    ⟨2750001, 2860000, 403000000⟩,
    ⟨2860001, 2970000, 363000000⟩,
    ⟨2970001, 3080000, 327000000⟩,
    ⟨3080001, 3190000, 295000000⟩,
    ⟨3190001, 3300000, 266000000⟩,
    ⟨3300001, 3410000, 240000000⟩,
    ⟨3410001, 3520000, 216000000⟩,
    ⟨3520001, 3630000, 195000000⟩,
    ⟨3630001, 3740000, 176000000⟩,
    ⟨3740001, 3850000, 159000000⟩,
    ⟨3850001, 31460000, 150000000⟩,
    ⟨31460001, 31570000, 148490909⟩,
    ⟨31570001, 31680000, 133641818⟩,
    ⟨31680001, 31790000, 120277636⟩,
    ⟨31790001, 31900000, 108249872⟩,
    ⟨31900001, 32010000, 97424885⟩,
    ⟨32010001, 32120000, 87682397⟩,
    ⟨32120001, 32230000, 78914157⟩,
    ⟨32230001, 32340000, 71022741⟩,
    ⟨32340001, 32450000, 63920467⟩,
    ⟨32450001, 32560000, 57528420⟩,
    ⟨32560001, 32670000, 51775578⟩,
    ⟨32670001, 32780000, 46598021⟩,
    ⟨32780001, 32890000, 41938218⟩,
    ⟨32890001, 33000000, 37744397⟩,
    ⟨33000001, 33110000, 33969957⟩,
    ⟨33110001, 33220000, 30572961⟩,
    ⟨33220001, 33330000, 27515665⟩,
    ⟨33330001, 33440000, 24764099⟩,
    ⟨33440001, 33550000, 22287689⟩,
    ⟨33550001, 33660000, 20058920⟩,
    ⟨33660001, 33770000, 18053028⟩,
    ⟨33770001, 33880000, 16247725⟩,
    ⟨33880001, 33990000, 14622953⟩,
    ⟨33990001, 34100000, 13160657⟩,
    ⟨34100001, 34210000, 11844592⟩,
    ⟨34210001, 34320000, 10660132⟩,
    ⟨34320001, 35375353, 10000000⟩]

/-- `EMISSION_CLOSING_DUST_SAT`. -/
def mainnetClosingDustSat : ℤ := 1660000

/-! ## Parameters -/

/-- One row of the settlement-levy schedule. -/
structure SettlementLevyRule where
  startHeight : ℤ
  bp : ℤ
  capSat : ℤ
deriving DecidableEq, Repr

/-- The fields of `Consensus::Params` that the modelled functions read. -/
structure Params where
  hashGenesisBlock : Uint256
  bip34Height : ℤ
  bip34Hash : Uint256
  bip65Height : ℤ
  bip66Height : ℤ
  csvHeight : ℤ
  powLimit : Uint256
  fPowAllowMinDifficultyBlocks : Bool
  enforceBIP94 : Bool
  fPowNoRetargeting : Bool
  nPowTargetSpacing : ℤ
  nPowTargetTimespan : ℤ
  nASERTActivationHeight : ℤ
  nASERTHalfLife : ℤ
  metaldagBaseTime : ℤ
  metaldagEpochSeconds : ℤ
  metaldagDagInitBytes : ℤ
  metaldagDagGrowthBytes : ℤ
  metaldagCacheDivisor : ℤ
  emissionTable : List EmissionEra
  emissionClosingDustSat : ℤ
  permitV2Outputs : Bool
  settlementLevySchedule : List SettlementLevyRule
  minOutputValueSat : ℤ
  coinbaseMaturity : ℤ
  /-- `release_checkpoints`: at most one block hash per height -/
  releaseCheckpoints : List (ℤ × Uint256)
  multiAlgoActivationHeight : ℤ

/-- The last block with a subsidy. -/
def Params.emissionEndHeight (params : Params) : ℤ :=
  match params.emissionTable.getLast? with
  | none => emissionStartHeight - 1
  | some era => era.endHeight

/-- The loop of `SettlementLevyAt`. -/
def settlementLevyAtLoop (height : ℤ) :
    List SettlementLevyRule → SettlementLevyRule → SettlementLevyRule
  | [], rule => rule
  | r :: rules, rule =>
    if r.startHeight > height then rule else settlementLevyAtLoop height rules r

/-- The levy rule in force for a block at this height. -/
def Params.settlementLevyAt (params : Params) (height : ℤ) : SettlementLevyRule :=
  settlementLevyAtLoop height params.settlementLevySchedule ⟨0, 0, 0⟩

/-- Only a checkpoint at exactly this height can forbid a block. -/
def Params.releaseCheckpointAllows (params : Params) (height : ℤ) (hash : Uint256) : Bool :=
  match params.releaseCheckpoints.lookup height with
  | none => true
  | some checkpoint => checkpoint == hash

/-- `MultiAlgoActiveAt`: the two-lane rules apply from the activation height. -/
def Params.multiAlgoActiveAt (params : Params) (height : ℤ) : Bool :=
  decide (0 < params.multiAlgoActivationHeight ∧ params.multiAlgoActivationHeight ≤ height)

/-- `DifficultyAdjustmentInterval`. -/
def Params.difficultyAdjustmentInterval (params : Params) : ℤ :=
  params.nPowTargetTimespan.tdiv params.nPowTargetSpacing

/-- `CMainParams`, with the final genesis. -/
def mainParams : Params where
  hashGenesisBlock := 0x3bc1a36df7d786a5c4584e21d248e0a3785a96aaa60a5b3959dfad50283379f2#256
  bip34Height := 1
  bip34Hash := 0#256
  bip65Height := 0
  bip66Height := 0
  csvHeight := 0
  powLimit := 0x00000fffffffffffffffffffffffffffffffffffffffffffffffffffffffffff#256
  fPowAllowMinDifficultyBlocks := false
  enforceBIP94 := false
  fPowNoRetargeting := false
  nPowTargetSpacing := 300
  nPowTargetTimespan := 300 * 50
  nASERTActivationHeight := 1
  nASERTHalfLife := 2 * 60 * 60
  metaldagBaseTime := 1790380800
  metaldagEpochSeconds := 14 * 24 * 3600
  metaldagDagInitBytes := 4 * 1024 * 1024 * 1024
  metaldagDagGrowthBytes := 128 * 1024 * 1024
  metaldagCacheDivisor := 128
  emissionTable := mainnetEmissionTable
  emissionClosingDustSat := mainnetClosingDustSat
  permitV2Outputs := false
  settlementLevySchedule := [⟨0, 0, 0⟩]
  minOutputValueSat := 10000
  coinbaseMaturity := 1000
  releaseCheckpoints := []
  multiAlgoActivationHeight := 0

end XCoin.Consensus
