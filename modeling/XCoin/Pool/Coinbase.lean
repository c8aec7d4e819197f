import XCoin.Primitives.Deserialize
import XCoin.Script.VerifyScript
import XCoin.Validation.OutputRules

/-!
# The pool's coinbase

`build_coinbase` of the mining pool writes the two halves of the coinbase around the slot of
the extranonces, byte by byte.  With any extranonces of the announced size in the slot the
bytes are the serialization of one transaction (`buildCoinbase_eq_serialize`), whose script
signature starts with the height as the node writes it (`heightPush_eq_pushInt64`).

Amounts are Python integers; the pool only handles non-negative ones.
-/

namespace XCoin.Pool

open Consensus Script Validation

/-! ## The code -/

/-- What the pool raises. -/
inductive PoolError where
  /-- `coinbase scriptSig would be %d bytes` -/
  | scriptSigLength
  /-- `coinbase payouts must be positive and sum to coinbasevalue` -/
  | payoutSum
  /-- `payout scriptPubKey must be 34 bytes of OP_<n> <32-byte program>` -/
  | payoutShape
  /-- `payout scriptPubKey is witness v%d` -/
  | payoutVersion
  /-- `default_witness_commitment is %d bytes, over MAX_OP_RETURN_RELAY` -/
  | witnessCommitment
  /-- `pool fee must be 0..9999 basis points` -/
  | poolFee
  /-- the assertion at the end of `pplns_split` -/
  | assertSum
deriving DecidableEq, Repr

/-- `MIN_COINBASE_SCRIPTSIG`. -/
def minCoinbaseScriptSig : ℕ := 2

/-- `MAX_COINBASE_SCRIPTSIG`. -/
def maxCoinbaseScriptSig : ℕ := 100

/-- `MAX_OP_RETURN_RELAY`. -/
def maxOpReturnRelay : ℕ := 80

/-- `varint`. -/
def varint (n : ℕ) : Bytes :=
  if n < 0xfd then [UInt8.ofNat n]
  else if n ≤ 0xffff then 0xfd :: Bytes.ofNatLE 2 n
  else if n ≤ 0xffffffff then 0xfe :: Bytes.ofNatLE 4 n
  else 0xff :: Bytes.ofNatLE 8 n

/-- `push`. -/
def push (data : Bytes) : Bytes :=
  if data.length < 0x4c then UInt8.ofNat data.length :: data
  else if data.length ≤ 0xff then 0x4c :: UInt8.ofNat data.length :: data
  else if data.length ≤ 0xffff then 0x4d :: Bytes.ofNatLE 2 data.length ++ data
  else 0x4e :: Bytes.ofNatLE 4 data.length ++ data

/-- `int.bit_length`. -/
def bitLength (n : ℕ) : ℕ := if n = 0 then 0 else Nat.log2 n + 1

/-- The little-endian bytes of a height above 16, with a zero byte on top if the sign bit is set. -/
def heightBytes (height : ℕ) : Bytes :=
  let hb := Bytes.ofNatLE (max 1 ((bitLength height + 7) / 8)) height
  if 0x80 ≤ byteAt hb (hb.length - 1) then hb ++ [0] else hb

/-- `height_push`. -/
def heightPush (height : ℕ) : Bytes :=
  if height ≤ 16 then if height = 0 then [0x00] else [UInt8.ofNat (0x50 + height)]
  else push (heightBytes height)

/-- The script signature up to the extranonces. -/
def scriptSigStart (height : ℕ) : Bytes := heightPush height ++ push (Bytes.ofAscii "/xcoin/")

/-- `check_payout_spk`; witness v2 is legal on regtest only. -/
def checkPayoutSpk (regtest : Bool) (spk : Bytes) : Except PoolError Bytes :=
  if spk.length ≠ 34 ∨ byteAt spk 1 ≠ 0x20 then .error .payoutShape
  else if byteAt spk 0 = 0x50 + 3 then .ok spk
  else if byteAt spk 0 = 0x50 + 2 ∧ regtest = true then .ok spk
  else .error .payoutVersion

/-- An output of the coinbase. -/
def writeOutput (spk : Bytes) (amount : ℕ) : Bytes :=
  Bytes.ofNatLE 8 amount ++ varint spk.length ++ spk

/-- The outputs of the payouts, each with its script checked. -/
def writePayouts (regtest : Bool) : List (Bytes × ℕ) → Except PoolError Bytes
  | [] => .ok []
  | (spk, amount) :: rest => do
    let spk ← checkPayoutSpk regtest spk
    let outs ← writePayouts regtest rest
    return writeOutput spk amount ++ outs

/-- The output of the witness commitment, if the template has one. -/
def writeCommitment (wc : Bytes) : Except PoolError Bytes :=
  if wc = [] then .ok []
  else if maxOpReturnRelay < wc.length then .error .witnessCommitment
  else .ok (writeOutput wc 0)

/-- `build_coinbase` for a list of payouts: the parts before and after the extranonces. -/
def buildCoinbase (regtest : Bool) (height rewardSats enSize : ℕ) (wc : Bytes)
    (payouts : List (Bytes × ℕ)) : Except PoolError (Bytes × Bytes) :=
  let ssLen := (scriptSigStart height).length + enSize
  if ¬(minCoinbaseScriptSig ≤ ssLen ∧ ssLen ≤ maxCoinbaseScriptSig) then .error .scriptSigLength
  else if (payouts.map Prod.snd).sum ≠ rewardSats ∨ (payouts.any fun payout => payout.2 == 0) then
    .error .payoutSum
  else do
    let outs ← writePayouts regtest payouts
    let commitment ← writeCommitment wc
    let nout := payouts.length + if wc = [] then 0 else 1
    return (Bytes.ofNatLE 4 1 ++ varint 1 ++ List.replicate 32 0 ++ List.replicate 4 0xff ++
        varint ssLen ++ scriptSigStart height,
      List.replicate 4 0xff ++ varint nout ++ (outs ++ commitment) ++ Bytes.ofNatLE 4 0)

/-! ## The node's rule for the height -/

/-- `ContextualCheckBlock`: the script signature of a coinbase starts with the height. -/
def startsWithHeight (nHeight : ℤ) (tx : Transaction) : Bool :=
  match tx.vin with
  | txin :: _ => (pushInt64 nHeight).isPrefixOf txin.scriptSig
  | [] => false

theorem push_eq_pushData (data : Bytes) : push data = pushData data := rfl

theorem varint_eq_writeCompactSize (n : ℕ) : varint n = writeCompactSize n := rfl

/-- The bytes that `CScriptNum::serialize` collects are the fewest that hold the number. -/
theorem magnitudeBytes_eq {width : ℕ} :
    ∀ {fuel n : ℕ}, width ≤ fuel → 256 ^ width ≤ 256 * n → n < 256 ^ width →
      magnitudeBytes fuel n = Bytes.ofNatLE width n := by
  induction width with
  | zero =>
    intro fuel n _ _ hhigh
    have hzero : n = 0 := by simpa using hhigh
    cases fuel with
    | zero => rfl
    | succ fuel => simp [magnitudeBytes, hzero, Bytes.ofNatLE]
  | succ width ih =>
    intro fuel n hfuel hlow hhigh
    obtain ⟨fuel, rfl⟩ : ∃ previous, fuel = previous + 1 := ⟨fuel - 1, by omega⟩
    have hpos : 0 < 256 ^ width := by positivity
    rw [pow_succ] at hlow hhigh
    have hne : n ≠ 0 := by omega
    rw [magnitudeBytes, if_neg hne, Bytes.ofNatLE]
    congr 1
    cases width with
    | zero =>
      have hsmall : n / 256 = 0 := by omega
      rw [hsmall]
      cases fuel with
      | zero => rfl
      | succ fuel => rfl
    | succ width =>
      apply ih (by omega)
      · have hwhole : 256 ^ width * 256 ≤ n := by
          rw [Nat.mul_comm 256 n, ← pow_succ] at hlow
          exact Nat.le_of_mul_le_mul_right hlow (by decide)
        calc 256 ^ (width + 1) = 256 * 256 ^ width := pow_succ' 256 width
          _ ≤ 256 * (n / 256) :=
            Nat.mul_le_mul_left 256 ((Nat.le_div_iff_mul_le (by decide)).mpr hwhole)
      · exact Nat.div_lt_of_lt_mul (by rwa [Nat.mul_comm])

/-- The number of bytes that Python gives `to_bytes` is the number that are needed. -/
theorem bitLength_bounds {n : ℕ} (hn : 0 < n) :
    256 ^ ((bitLength n + 7) / 8) ≤ 256 * n ∧ n < 256 ^ ((bitLength n + 7) / 8) := by
  have hlog : bitLength n = Nat.log2 n + 1 := if_neg (by omega)
  have hlow : 2 ^ Nat.log2 n ≤ n := Nat.log2_self_le (by omega)
  have hhigh : n < 2 ^ (Nat.log2 n + 1) := Nat.lt_log2_self
  have hbytes (width : ℕ) : 256 ^ width = 2 ^ (8 * width) := by
    rw [pow_mul]
    norm_num
  rw [hlog, hbytes]
  constructor
  · calc 2 ^ (8 * ((Nat.log2 n + 1 + 7) / 8)) ≤ 2 ^ (8 + Nat.log2 n) :=
          Nat.pow_le_pow_right (by decide) (by omega)
      _ = 256 * 2 ^ Nat.log2 n := by rw [pow_add]; norm_num
      _ ≤ 256 * n := Nat.mul_le_mul_left 256 hlow
  · exact lt_of_lt_of_le hhigh (Nat.pow_le_pow_right (by decide) (by omega))

theorem and_signBit_ne_zero_iff (byte : UInt8) : byte &&& 0x80 ≠ 0 ↔ 0x80 ≤ byte.toNat := by
  have hlt := byte.toNat_lt
  have hand : (byte &&& 0x80).toNat = (byte.toNat.testBit 7).toNat * 2 ^ 7 := by
    rw [UInt8.toNat_and]
    exact Nat.and_two_pow byte.toNat 7
  have hbit : byte.toNat.testBit 7 = decide (0x80 ≤ byte.toNat) := by
    rw [Nat.testBit_eq_decide_div_mod_eq, decide_eq_decide]
    omega
  rw [ne_eq, ← UInt8.toNat_inj, hand, hbit]
  by_cases hsign : 0x80 ≤ byte.toNat
  · simp [hsign]
  · simp [hsign]

theorem getLast?_eq_byteAt {bytes : Bytes} (hne : bytes ≠ []) :
    ∃ last, bytes.getLast? = some last ∧ last.toNat = byteAt bytes (bytes.length - 1) := by
  refine ⟨bytes.getLast hne, List.getLast?_eq_some_getLast hne, ?_⟩
  have hlt : bytes.length - 1 < bytes.length := by
    have := List.length_pos_of_ne_nil hne
    omega
  rw [byteAt, List.getElem?_eq_getElem hlt, Option.getD_some, List.getLast_eq_getElem]

theorem heightBytes_eq {height : ℕ} (hpos : 0 < height) (hint : height < 2 ^ 31) :
    heightBytes height = scriptNumSerialize height := by
  obtain ⟨hlow, hhigh⟩ := bitLength_bounds hpos
  have hbits : Nat.log2 height < 31 := (Nat.log2_lt (by omega)).mpr hint
  have hlog : bitLength height = Nat.log2 height + 1 := if_neg (by omega)
  have hwidth : max 1 ((bitLength height + 7) / 8) = (bitLength height + 7) / 8 :=
    max_eq_right (by omega)
  have hresult : magnitudeBytes 8 (height : ℤ).natAbs =
      Bytes.ofNatLE ((bitLength height + 7) / 8) height :=
    magnitudeBytes_eq (by omega) hlow hhigh
  have hnonempty : Bytes.ofNatLE ((bitLength height + 7) / 8) height ≠ [] := by
    rw [← List.length_pos_iff, Bytes.length_ofNatLE]
    omega
  obtain ⟨last, hlast, hbyte⟩ := getLast?_eq_byteAt hnonempty
  have hsign : ¬(height : ℤ) < 0 := by omega
  unfold heightBytes scriptNumSerialize
  simp only [hwidth, hresult, hlast, and_signBit_ne_zero_iff, hbyte, if_neg hsign]

/-- **The height.**  The pool and the node write a height in the same bytes. -/
theorem heightPush_eq_pushInt64 {height : ℕ} (hint : height < 2 ^ 31) :
    heightPush height = pushInt64 height := by
  unfold heightPush pushInt64
  by_cases hsmall : height ≤ 16
  · rw [if_pos hsmall]
    interval_cases height <;> rfl
  · rw [if_neg hsmall, if_neg (by omega), if_neg (by omega), push_eq_pushData,
      heightBytes_eq (by omega) hint]

/-! ## The transaction -/

/-- The outputs of the coinbase: the payouts, and the witness commitment if there is one. -/
def coinbaseOutputs (payouts : List (Bytes × ℕ)) (wc : Bytes) : List TxOut :=
  payouts.map (fun payout => ⟨payout.2, payout.1⟩) ++ if wc = [] then [] else [⟨0, wc⟩]

theorem length_coinbaseOutputs (payouts : List (Bytes × ℕ)) (wc : Bytes) :
    (coinbaseOutputs payouts wc).length = payouts.length + if wc = [] then 0 else 1 := by
  rw [coinbaseOutputs, List.length_append, List.length_map]
  split_ifs
  · rfl
  · rfl

/-- The transaction that the two halves make around the extranonces. -/
def coinbaseTransaction (height : ℕ) (payouts : List (Bytes × ℕ)) (wc extranonces : Bytes) :
    Transaction where
  version := 1
  vin := [⟨⟨0#256, OutPoint.nullIndex⟩, scriptSigStart height ++ extranonces, 0xffffffff, []⟩]
  vout := coinbaseOutputs payouts wc
  nLockTime := 0

section Build

variable {regtest : Bool} {height rewardSats enSize : ℕ} {wc : Bytes} {payouts : List (Bytes × ℕ)}

theorem checkPayoutSpk_eq_ok {spk checked : Bytes} (h : checkPayoutSpk regtest spk = .ok checked) :
    checked = spk := by
  unfold checkPayoutSpk at h
  split_ifs at h
  · exact (Except.ok.inj h).symm
  · exact (Except.ok.inj h).symm

theorem writeOutput_eq (spk : Bytes) (amount : ℕ) :
    writeOutput spk amount = serializeTxOut ⟨amount, spk⟩ := by
  have hamount : ((amount : ℤ) % 2 ^ 64).toNat = amount % 256 ^ 8 := by
    have hcast : ((amount : ℤ) % 2 ^ 64) = ((amount % 2 ^ 64 : ℕ) : ℤ) := by norm_cast
    rw [hcast, Int.toNat_natCast]
    rfl
  rw [writeOutput, serializeTxOut, serializeInt64, serializeBytes, hamount, Bytes.ofNatLE_mod,
    varint_eq_writeCompactSize, List.append_assoc]

theorem writePayouts_eq :
    ∀ {payouts : List (Bytes × ℕ)} {outs : Bytes}, writePayouts regtest payouts = .ok outs →
      outs = payouts.flatMap fun payout => serializeTxOut ⟨payout.2, payout.1⟩ := by
  intro payouts
  induction payouts with
  | nil =>
    intro outs h
    exact (Except.ok.inj h).symm
  | cons payout rest ih =>
    intro outs h
    obtain ⟨spk, hspk, h⟩ := Except.bind_eq_ok_iff.mp h
    obtain ⟨more, hmore, h⟩ := Except.bind_eq_ok_iff.mp h
    rw [← Except.ok.inj h, checkPayoutSpk_eq_ok hspk, ih hmore, writeOutput_eq,
      List.flatMap_cons]

theorem writeCommitment_eq {commitment : Bytes} (h : writeCommitment wc = .ok commitment) :
    commitment = (if wc = [] then [] else [(⟨0, wc⟩ : TxOut)]).flatMap serializeTxOut := by
  unfold writeCommitment at h
  split_ifs at h with hempty hlong
  · rw [if_pos hempty]
    exact (Except.ok.inj h).symm
  · rw [if_neg hempty, ← Except.ok.inj h, writeOutput_eq]
    simp

/-- **The halves of the coinbase.**  Around any extranonces of the announced size they are the
serialization of one transaction. -/
theorem buildCoinbase_eq_serialize {part1 part2 extranonces : Bytes}
    (h : buildCoinbase regtest height rewardSats enSize wc payouts = .ok (part1, part2))
    (hsize : extranonces.length = enSize) :
    part1 ++ extranonces ++ part2 =
      serializeTransaction false (coinbaseTransaction height payouts wc extranonces) := by
  unfold buildCoinbase at h
  dsimp only at h
  split at h
  · cases h
  split at h
  · cases h
  obtain ⟨outs, houts, h⟩ := Except.bind_eq_ok_iff.mp h
  obtain ⟨commitment, hcommitment, h⟩ := Except.bind_eq_ok_iff.mp h
  obtain ⟨rfl, rfl⟩ := Prod.mk.inj (Except.ok.inj h)
  have hbytes : outs ++ commitment = (coinbaseOutputs payouts wc).flatMap serializeTxOut := by
    rw [writePayouts_eq houts, writeCommitment_eq hcommitment, coinbaseOutputs,
      List.flatMap_append, List.flatMap_map]
  have hscript : (scriptSigStart height ++ extranonces).length =
      (scriptSigStart height).length + enSize := by
    rw [List.length_append, hsize]
  have hnull : serializeOutPoint ⟨0#256, OutPoint.nullIndex⟩ =
      List.replicate 32 0 ++ List.replicate 4 0xff := by decide
  have hsequence : serializeUint32 0xffffffff = List.replicate 4 0xff := by decide
  have hversion : serializeUint32 1 = Bytes.ofNatLE 4 1 := by decide
  have hlocktime : serializeUint32 0 = Bytes.ofNatLE 4 0 := by decide
  simp only [serializeTransaction, coinbaseTransaction, serializeVector, serializeTxIn,
    serializeBytes, hnull, hsequence, hversion, hlocktime, hscript, length_coinbaseOutputs,
    ← hbytes, varint_eq_writeCompactSize, List.length_singleton, List.flatMap_singleton,
    Bool.false_and, Bool.false_eq_true, if_false, List.append_assoc, List.nil_append]

/-- What `build_coinbase` has checked when it returns. -/
structure BuiltCoinbase (regtest : Bool) (height rewardSats enSize : ℕ) (wc : Bytes)
    (payouts : List (Bytes × ℕ)) : Prop where
  sig_ge : minCoinbaseScriptSig ≤ (scriptSigStart height).length + enSize
  sig_le : (scriptSigStart height).length + enSize ≤ maxCoinbaseScriptSig
  sum_eq : (payouts.map Prod.snd).sum = rewardSats
  scripts : ∀ payout ∈ payouts, payout.1.length = 34
  wc_le : wc.length ≤ maxOpReturnRelay

theorem length_of_checkPayoutSpk {spk checked : Bytes}
    (h : checkPayoutSpk regtest spk = .ok checked) : spk.length = 34 := by
  unfold checkPayoutSpk at h
  split at h
  · cases h
  · rename_i hshape
    exact not_not.mp fun hlength => hshape (.inl hlength)

theorem scripts_of_writePayouts :
    ∀ {payouts : List (Bytes × ℕ)} {outs : Bytes}, writePayouts regtest payouts = .ok outs →
      ∀ payout ∈ payouts, payout.1.length = 34 := by
  intro payouts
  induction payouts with
  | nil =>
    intro outs _ payout hpayout
    cases hpayout
  | cons first rest ih =>
    intro outs h payout hpayout
    obtain ⟨spk, hspk, h⟩ := Except.bind_eq_ok_iff.mp h
    obtain ⟨more, hmore, -⟩ := Except.bind_eq_ok_iff.mp h
    rcases List.mem_cons.mp hpayout with rfl | hrest
    · exact length_of_checkPayoutSpk hspk
    · exact ih hmore payout hrest

theorem builtCoinbase_of_ok {part1 part2 : Bytes}
    (h : buildCoinbase regtest height rewardSats enSize wc payouts = .ok (part1, part2)) :
    BuiltCoinbase regtest height rewardSats enSize wc payouts := by
  unfold buildCoinbase at h
  dsimp only at h
  split at h
  · cases h
  rename_i hsig
  split at h
  · cases h
  rename_i hsum
  obtain ⟨hlow, hhigh⟩ := not_not.mp hsig
  obtain ⟨outs, houts, h⟩ := Except.bind_eq_ok_iff.mp h
  obtain ⟨commitment, hcommitment, -⟩ := Except.bind_eq_ok_iff.mp h
  refine ⟨hlow, hhigh, not_not.mp fun hne => hsum (.inl hne), scripts_of_writePayouts houts, ?_⟩
  unfold writeCommitment at hcommitment
  split_ifs at hcommitment with hempty hlong
  · rw [hempty]
    exact Nat.zero_le _
  · exact not_lt.mp hlong

/-- The format carries a coinbase that was built, if its amounts and its number of outputs fit. -/
theorem BuiltCoinbase.fits (h : BuiltCoinbase regtest height rewardSats enSize wc payouts)
    (hreward : rewardSats < 2 ^ 63) (hfew : (coinbaseOutputs payouts wc).length ≤ maxSize)
    {extranonces : Bytes} (hsize : extranonces.length = enSize) :
    (coinbaseTransaction height payouts wc extranonces).Fits := by
  have hsig := h.sig_le
  have hwc := h.wc_le
  have hmax : maxOpReturnRelay ≤ maxSize ∧ maxCoinbaseScriptSig ≤ maxSize ∧ 34 ≤ maxSize := by
    decide
  refine ⟨List.cons_ne_nil _ _, show 1 ≤ maxSize by decide, hfew, ?_, ?_⟩
  · intro txin htxin
    rw [List.mem_singleton.mp htxin]
    refine ⟨?_, Nat.zero_le _, ?_⟩
    · change (scriptSigStart height ++ extranonces).length ≤ maxSize
      rw [List.length_append, hsize]
      exact hsig.trans hmax.2.1
    · intro item hitem
      cases hitem
  · intro txout htxout
    rcases List.mem_append.mp htxout with hpayout | hcommitment
    · obtain ⟨payout, hmem, rfl⟩ := List.mem_map.mp hpayout
      have hle : payout.2 ≤ rewardSats := by
        rw [← h.sum_eq]
        exact List.single_le_sum (fun _ _ => Nat.zero_le _) _ (List.mem_map_of_mem hmem)
      refine ⟨?_, ?_, ?_⟩
      · dsimp only
        omega
      · dsimp only
        omega
      · dsimp only
        rw [h.scripts payout hmem]
        exact hmax.2.2
    · split_ifs at hcommitment
      · cases hcommitment
      · rw [List.mem_singleton.mp hcommitment]
        exact ⟨show -2 ^ 63 ≤ (0 : ℤ) by decide, show (0 : ℤ) < 2 ^ 63 by decide, hwc.trans hmax.1⟩

end Build

end XCoin.Pool
