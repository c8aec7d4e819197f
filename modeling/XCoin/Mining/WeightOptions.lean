import XCoin.Lib.ExceptRun
import XCoin.Mining.BlockAssembler

/-!
# The weight options of the miner

Three places look at the reserved weight and the largest weight of a block template.
Startup refuses bad values of `-blockmaxweight` and `-blockreservedweight`, the mining
interface refuses a request that reserves too little, and `ClampOptions` clamps what is
left.  They do not have the same bounds:

| place            | reserved weight                  | largest weight                      |
| ---------------- | -------------------------------- | ----------------------------------- |
| startup          | from the minimum to              | up to `MAX_RELAYABLE_BLOCK_WEIGHT`, |
|                  | `MAX_BLOCK_WEIGHT`               | negative values included            |
| mining interface | from the minimum on              |                                     |
| `ClampOptions`   | clamped to `MAX_BLOCK_WEIGHT`    | clamped between the reserved weight |
|                  |                                  | and `MAX_RELAYABLE_BLOCK_WEIGHT`    |

A reserved weight between the relayable and the consensus maximum passes all of them and
turns the bounds of the last clamp the wrong way round.
-/

namespace XCoin.Mining

open Consensus Validation

/-! ## The code -/

/-- `DEFAULT_BLOCK_MAX_WEIGHT`. -/
def defaultBlockMaxWeight : ℕ := 4000000

/-- The arguments that are read, `none` where one is not given.  The integers are the values
of `GetIntArg`, and the fee is the amount `ParseMoney` makes of its argument. -/
structure MiningArgs where
  blockMaxWeight : Option ℤ
  blockReservedWeight : Option ℤ
  blockMinTxFee : Option ℤ
deriving DecidableEq, Repr

/-- An `int64_t` as a `size_t`. -/
def toSizeT (value : ℤ) : ℕ := (value % 2 ^ 64).toNat

/-- The checks of `AppInitParameterInteraction` on `-blockmaxweight`. -/
def checkBlockMaxWeight (args : MiningArgs) : Except String Unit :=
  let value := args.blockMaxWeight.getD defaultBlockMaxWeight
  if (maxBlockWeight : ℤ) < value then
    .error (s!"Specified -blockmaxweight ({value}) exceeds consensus maximum block weight " ++
      s!"({maxBlockWeight})")
  else if (maxRelayableBlockWeight : ℤ) < value then
    .error (s!"Specified -blockmaxweight ({value}) exceeds the largest block the peer-to-peer " ++
      s!"transport can carry ({maxRelayableBlockWeight}); such a block would be valid and " ++
      "undeliverable")
  else .ok ()

/-- The checks of `AppInitParameterInteraction` on `-blockreservedweight`. -/
def checkBlockReservedWeight (args : MiningArgs) : Except String Unit :=
  let value := args.blockReservedWeight.getD defaultBlockReservedWeight
  if (maxBlockWeight : ℤ) < value then
    .error (s!"Specified -blockreservedweight ({value}) exceeds consensus maximum block weight " ++
      s!"({maxBlockWeight})")
  else if value < (minimumBlockReservedWeight : ℤ) then
    .error (s!"Specified -blockreservedweight ({value}) is lower than minimum safety value of " ++
      s!"({minimumBlockReservedWeight})")
  else .ok ()

/-- The block weight options at startup. -/
def appInitBlockWeights (args : MiningArgs) : Except String Unit := do
  checkBlockMaxWeight args
  checkBlockReservedWeight args

/-- `ApplyArgsManOptions`: what the arguments give; a reserved weight of the request stays. -/
def applyArgsManOptions (args : MiningArgs) (options : Options) : Options :=
  { options with
    nBlockMaxWeight := (args.blockMaxWeight.map toSizeT).getD options.nBlockMaxWeight
    blockMinFeeRate := (args.blockMinTxFee.map fun fee => ⟨fee, 1000⟩).getD options.blockMinFeeRate
    blockReservedWeight :=
      match options.blockReservedWeight with
      | some weight => some weight
      | none => args.blockReservedWeight.map toSizeT }

/-- What `createNewBlock` of the mining interface hands to the assembler.  The largest weight
is not part of the request. -/
def createNewBlockOptions (args : MiningArgs) (request : Options) : Except String Options :=
  match request.blockReservedWeight with
  | some weight =>
    if weight < minimumBlockReservedWeight then
      .error (s!"block_reserved_weight ({weight}) must be at least " ++
        s!"{minimumBlockReservedWeight} weight units")
    else .ok (applyArgsManOptions args { request with nBlockMaxWeight := defaultBlockMaxWeight })
  | none => .ok (applyArgsManOptions args { request with nBlockMaxWeight := defaultBlockMaxWeight })

/-! ## The reserved weight that is asked for -/

/-- The weight of the request, else that of the argument, else the default. -/
def askedReservedWeight (args : MiningArgs) (request : Options) : ℤ :=
  match request.blockReservedWeight with
  | some weight => weight
  | none => args.blockReservedWeight.getD defaultBlockReservedWeight

section Accepted

variable {args : MiningArgs} {request options : Options}

theorem reserved_bounds_of_appInit (hstart : appInitBlockWeights args = .ok ()) :
    minimumBlockReservedWeight ≤ args.blockReservedWeight.getD defaultBlockReservedWeight ∧
      args.blockReservedWeight.getD defaultBlockReservedWeight ≤ (maxBlockWeight : ℤ) := by
  obtain ⟨-, -, hreserved⟩ := Except.bind_eq_ok_iff.mp hstart
  rw [checkBlockReservedWeight] at hreserved
  split_ifs at hreserved with hhigh hlow
  exact ⟨not_lt.mp hlow, not_lt.mp hhigh⟩

theorem toSizeT_of_bounds {value : ℤ} (hlow : 0 ≤ value) (hhigh : value ≤ (maxBlockWeight : ℤ)) :
    (toSizeT value : ℤ) = value := by
  have hmax : (maxBlockWeight : ℤ) < 2 ^ 64 := by decide
  rw [toSizeT, Int.emod_eq_of_lt hlow (hhigh.trans_lt hmax), Int.toNat_of_nonneg hlow]

theorem asked_of_accepted (hstart : appInitBlockWeights args = .ok ())
    (hcreate : createNewBlockOptions args request = .ok options) :
    ((options.blockReservedWeight.getD defaultBlockReservedWeight : ℕ) : ℤ) =
        askedReservedWeight args request ∧
      minimumBlockReservedWeight ≤ options.blockReservedWeight.getD defaultBlockReservedWeight := by
  obtain ⟨hlow, hhigh⟩ := reserved_bounds_of_appInit hstart
  rw [createNewBlockOptions] at hcreate
  rw [askedReservedWeight]
  cases hrequest : request.blockReservedWeight with
  | some weight =>
    simp only [hrequest] at hcreate
    split_ifs at hcreate with hsmall
    rw [← Except.ok.inj hcreate]
    simp only [applyArgsManOptions, Option.getD_some]
    exact ⟨trivial, not_lt.mp hsmall⟩
  | none =>
    simp only [hrequest] at hcreate
    rw [← Except.ok.inj hcreate]
    simp only [applyArgsManOptions]
    cases hargs : args.blockReservedWeight with
    | none => exact ⟨rfl, by decide⟩
    | some value =>
      rw [hargs, Option.getD_some] at hlow hhigh
      have hpos : 0 ≤ value := (Int.natCast_nonneg _).trans hlow
      have hsize := toSizeT_of_bounds hpos hhigh
      simp only [Option.map_some, Option.getD_some, hsize, true_and]
      exact_mod_cast hsize ▸ hlow

end Accepted

/-! ## The clamp -/

/-- The bounds of the clamp of the largest weight are the right way round, and the clamped
weight lies between them. -/
structure ClampsWeight (options : Options) : Prop where
  bounds : options.reservedWeight ≤ maxRelayableBlockWeight
  reserved_le : options.reservedWeight ≤ (clampOptions options).nBlockMaxWeight
  relayable : (clampOptions options).nBlockMaxWeight ≤ maxRelayableBlockWeight

theorem clampsWeight_of_bounds {options : Options}
    (hbounds : options.reservedWeight ≤ maxRelayableBlockWeight) : ClampsWeight options :=
  ⟨hbounds, le_min (le_max_right _ _) hbounds, min_le_right _ _⟩

/-- **The weight options.** After accepted arguments and an accepted request the clamp has a
valid range exactly if the reserved weight that was asked for is relayable itself. -/
theorem clampsWeight_iff (args : MiningArgs) (request options : Options)
    (hstart : appInitBlockWeights args = .ok ())
    (hcreate : createNewBlockOptions args request = .ok options) :
    ClampsWeight options ↔ askedReservedWeight args request ≤ (maxRelayableBlockWeight : ℤ) := by
  obtain ⟨hasked, hminimum⟩ := asked_of_accepted hstart hcreate
  have hsmaller : maxRelayableBlockWeight < maxBlockWeight := by decide
  have hreserved : options.reservedWeight =
      min (options.blockReservedWeight.getD defaultBlockReservedWeight) maxBlockWeight := by
    rw [Options.reservedWeight, clamp, max_eq_left hminimum]
  rw [← hasked, Nat.cast_le]
  constructor
  · intro hclamps
    have hbounds := hclamps.bounds
    rw [hreserved] at hbounds
    omega
  · intro hrelayable
    apply clampsWeight_of_bounds
    rw [hreserved]
    exact (min_le_left _ _).trans hrelayable

/-- A request without a reserved weight of its own. -/
def plainRequest : Options where
  blockReservedWeight := none
  coinbaseOutputMaxAdditionalSigops := 400
  nBlockMaxWeight := defaultBlockMaxWeight
  blockMinFeeRate := ⟨1000, 1000⟩
  useMempool := true
  coinbaseOutputScript := []
  includeDummyExtranonce := true
  testBlockValidity := true

/-- `-blockmaxweight=11000000`, `-blockreservedweight=12000000` and `-blockmintxfee`: the reserved
weight is relayable, and the largest weight is raised to it. -/
theorem plainRequest_clampsWeight :
    ∃ options, createNewBlockOptions ⟨some 11000000, some 12000000, some 2000⟩ plainRequest =
        .ok options ∧
      (clampOptions options).nBlockMaxWeight = 12000000 ∧ ClampsWeight options :=
  ⟨_, rfl, by decide, (clampsWeight_iff ⟨some 11000000, some 12000000, some 2000⟩ plainRequest _
    rfl rfl).mpr (by decide)⟩

/-- `-blockreservedweight=20000000` is accepted at startup and a plain request after it too,
and the clamp gets a lower bound of 20000000 and an upper one of 16000000. -/
theorem reserved_above_relayable :
    appInitBlockWeights ⟨none, some 20000000, none⟩ = .ok () ∧
      ∃ options, createNewBlockOptions ⟨none, some 20000000, none⟩ plainRequest = .ok options ∧
        options.reservedWeight = 20000000 ∧ maxRelayableBlockWeight = 16000000 ∧
        (clampOptions options).nBlockMaxWeight < options.reservedWeight :=
  ⟨rfl, _, rfl, by decide, rfl, by decide⟩

end XCoin.Mining
