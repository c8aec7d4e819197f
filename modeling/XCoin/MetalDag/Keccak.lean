import XCoin.Lib.Bytes
import XCoin.Lib.ByteLanes

/-!
# The two Keccak sponges

The node (`metaldag.cpp`) and the reference program (`metaldag-ref.cpp`) have a Keccak
sponge each.  The node keeps 25 lanes of 64 bits and shifts every byte into its lane; the
reference program keeps 200 bytes and hands them to the permutation as lanes, which on a
little-endian host are read with the lowest byte first.

The permutation is a parameter: any function of 25 lanes.  The two states are then two
views of one state after every byte, so the digests are equal for every input, those
that fill a block included.
-/

namespace XCoin.MetalDag

open ByteLane

variable (st : Lanes)

/-- `uint64_t st[25]`. -/
abbrev Lanes := Fin 25 → UInt64

/-- `uint8_t st8[200]`. -/
abbrev StateBytes := Fin 200 → UInt8

/-- The sizes of a sponge: a block of `rateBytes` bytes and a digest of `outlen` bytes,
both within the state. -/
structure SpongeSizes where
  rateBytes : ℕ
  outlen : ℕ
  rate_pos : 0 < rateBytes
  rate_le : rateBytes ≤ 200
  outlen_le : outlen ≤ 200

namespace SpongeSizes

/-- The sizes of `keccak256`. -/
def keccak256 : SpongeSizes := ⟨136, 32, by decide, by decide, by decide⟩

/-- The sizes of `keccak512`. -/
def keccak512 : SpongeSizes := ⟨72, 64, by decide, by decide, by decide⟩

variable (sizes : SpongeSizes)

/-- A position of the block as one of the state. -/
def position (pt : Fin sizes.rateBytes) : Fin 200 := pt.castLE sizes.rate_le

/-- The last position of the block, `rate_bytes-1`. -/
def last : Fin 200 := ⟨sizes.rateBytes - 1, by have := sizes.rate_pos; have := sizes.rate_le; omega⟩

/-- A position of the digest as one of the state. -/
def output (i : Fin sizes.outlen) : Fin 200 := i.castLE sizes.outlen_le

/-- The step of the position behind a byte: at the end of the block the state is permuted
and the position starts again. -/
def advance {σ : Type*} (keccakf : σ → σ) (st : σ) (pt : Fin sizes.rateBytes) :
    σ × Fin sizes.rateBytes :=
  if hfull : pt.val + 1 = sizes.rateBytes then (keccakf st, ⟨0, sizes.rate_pos⟩)
  else (st, ⟨pt.val + 1, by omega⟩)

end SpongeSizes

/-! ## The node's sponge -/

section Node

/-- The lane a byte of the state is in, `pt>>3`. -/
def laneIndex (p : Fin 200) : Fin 25 := ⟨p.val >>> 3, by rw [Nat.shiftRight_eq_div_pow]; omega⟩

/-- `st[pt>>3] ^= (uint64_t)byte << (8*(pt&7))`. -/
def xorLane (st : Lanes) (p : Fin 200) (byte : UInt8) : Lanes :=
  Function.update st (laneIndex p) (st (laneIndex p) ^^^ placed byte (p.val &&& 7))

variable (sizes : SpongeSizes) (keccakf : Lanes → Lanes)

/-- The body of the node's loop over the input. -/
def absorbLane (sponge : Lanes × Fin sizes.rateBytes) (byte : UInt8) :
    Lanes × Fin sizes.rateBytes :=
  sizes.advance keccakf (xorLane sponge.1 (sizes.position sponge.2) byte) sponge.2

/-- `keccak` of the node. -/
def keccak (input : Bytes) : Bytes :=
  let absorbed := input.foldl (absorbLane sizes keccakf) (fun _ => 0, ⟨0, sizes.rate_pos⟩)
  let st := xorLane absorbed.1 (sizes.position absorbed.2) 0x01
  let st := keccakf (xorLane st sizes.last 0x80)
  List.ofFn fun i => byteAt (st (laneIndex (sizes.output i))) ((sizes.output i).val &&& 7)

end Node

/-! ## The reference program's sponge -/

section Reference

/-- The bytes as lanes, `(uint64_t*)st8` on a little-endian host. -/
def lanesOf (st8 : StateBytes) : Lanes := fun lane =>
  ofBytes fun k => st8 (Fin.ofNat 200 (8 * lane.val + k))

/-- The lanes as bytes. -/
def bytesOf (st : Lanes) : StateBytes := fun p => byteAt (st (laneIndex p)) (p.val &&& 7)

/-- `st8[pt]^=byte`. -/
def xorByte (st8 : StateBytes) (p : Fin 200) (byte : UInt8) : StateBytes :=
  Function.update st8 p (st8 p ^^^ byte)

variable (sizes : SpongeSizes) (keccakf : Lanes → Lanes)

/-- `keccakf((uint64_t*)st8)`. -/
def keccakfBytes (st8 : StateBytes) : StateBytes := bytesOf (keccakf (lanesOf st8))

/-- The body of the reference program's loop over the input. -/
def absorbByte (sponge : StateBytes × Fin sizes.rateBytes) (byte : UInt8) :
    StateBytes × Fin sizes.rateBytes :=
  sizes.advance (keccakfBytes keccakf) (xorByte sponge.1 (sizes.position sponge.2) byte) sponge.2

/-- `keccak` of the reference program. -/
def refKeccak (input : Bytes) : Bytes :=
  let absorbed := input.foldl (absorbByte sizes keccakf) (fun _ => 0, ⟨0, sizes.rate_pos⟩)
  let st8 := xorByte absorbed.1 (sizes.position absorbed.2) 0x01
  let st8 := keccakfBytes keccakf (xorByte st8 sizes.last 0x80)
  List.ofFn fun i => st8 (sizes.output i)

end Reference

/-! ## Two views of one state -/

theorem and_seven (n : ℕ) : n &&& 7 = n % 8 := Nat.and_two_pow_sub_one_eq_mod n 3

theorem val_laneIndex (p : Fin 200) : (laneIndex p).val = p.val / 8 := Nat.shiftRight_eq_div_pow _ 3

theorem eq_of_laneIndex {p q : Fin 200} (hlane : laneIndex p = laneIndex q)
    (hbyte : p.val % 8 = q.val % 8) : p = q := by
  have hlane := congrArg Fin.val hlane
  rw [val_laneIndex, val_laneIndex] at hlane
  omega

theorem bytesOf_apply (p : Fin 200) : bytesOf st p = byteAt (st (laneIndex p)) (p.val % 8) := by
  rw [bytesOf, and_seven]

theorem bytesOf_xorLane (p : Fin 200) (byte : UInt8) :
    bytesOf (xorLane st p byte) = xorByte (bytesOf st) p byte := by
  funext q
  have hp : p.val % 8 < 8 := Nat.mod_lt _ (by decide)
  have hq : q.val % 8 < 8 := Nat.mod_lt _ (by decide)
  rw [bytesOf_apply, xorLane, xorByte, and_seven]
  by_cases hlane : laneIndex q = laneIndex p
  · rw [hlane, Function.update_self, byteAt_xor_placed hp hq]
    by_cases hbyte : q.val % 8 = p.val % 8
    · rw [if_pos hbyte, eq_of_laneIndex hlane hbyte, Function.update_self, bytesOf_apply]
    · rw [if_neg hbyte, Function.update_of_ne (fun h => hbyte (by rw [h])), bytesOf_apply, hlane]
  · rw [Function.update_of_ne hlane, Function.update_of_ne (fun h => hlane (by rw [h])),
      bytesOf_apply]

theorem lanesOf_bytesOf : lanesOf (bytesOf st) = st := by
  funext lane
  apply ofBytes_byteAt
  intro k hk
  have hposition : (Fin.ofNat 200 (8 * lane.val + k)).val = 8 * lane.val + k :=
    Nat.mod_eq_of_lt (by omega)
  have hlane : laneIndex (Fin.ofNat 200 (8 * lane.val + k)) = lane := by
    apply Fin.ext
    rw [val_laneIndex, hposition]
    omega
  rw [bytesOf_apply, hlane, hposition]
  congr 1
  omega

variable (sizes : SpongeSizes) (keccakf : Lanes → Lanes)

theorem keccakfBytes_bytesOf : keccakfBytes keccakf (bytesOf st) = bytesOf (keccakf st) := by
  rw [keccakfBytes, lanesOf_bytesOf]

/-- One byte: the reference program's state stays the bytes of the node's. -/
theorem absorbByte_eq (sponge : Lanes × Fin sizes.rateBytes) (byte : UInt8) :
    absorbByte sizes keccakf (bytesOf sponge.1, sponge.2) byte =
      (bytesOf (absorbLane sizes keccakf sponge byte).1,
        (absorbLane sizes keccakf sponge byte).2) := by
  simp only [absorbByte, absorbLane, ← bytesOf_xorLane, SpongeSizes.advance]
  split_ifs
  · rw [keccakfBytes_bytesOf]
  · rfl

theorem foldl_absorbByte : ∀ (input : Bytes) (sponge : Lanes × Fin sizes.rateBytes),
    input.foldl (absorbByte sizes keccakf) (bytesOf sponge.1, sponge.2) =
      (bytesOf (input.foldl (absorbLane sizes keccakf) sponge).1,
        (input.foldl (absorbLane sizes keccakf) sponge).2) := by
  intro input
  induction input with
  | nil => exact fun sponge => rfl
  | cons byte rest ih =>
    intro sponge
    rw [List.foldl_cons, List.foldl_cons, absorbByte_eq, ih]

theorem bytesOf_zero : bytesOf (fun _ => 0) = fun _ => 0 := by
  funext p
  rw [bytesOf_apply]
  exact byteAt_foldl (fun _ => 0) (Nat.mod_lt _ (by decide)) 0 (by decide)

/-- **Equal digests.** For every permutation of the lanes, all sizes within the state, in
particular those of `keccak256` and `keccak512`, and every input the two sponges give the
same digest. -/
theorem keccak_eq_refKeccak (input : Bytes) :
    keccak sizes keccakf input = refKeccak sizes keccakf input := by
  have hinput := foldl_absorbByte sizes keccakf input (fun _ => 0, ⟨0, sizes.rate_pos⟩)
  rw [bytesOf_zero] at hinput
  rw [keccak, refKeccak, hinput]
  simp only [← bytesOf_xorLane, keccakfBytes_bytesOf]
  rfl

end XCoin.MetalDag
