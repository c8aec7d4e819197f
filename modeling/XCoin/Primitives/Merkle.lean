import XCoin.Lib.MerkleTree
import XCoin.Primitives.Transaction

/-!
# Transaction ids and the Merkle root of a block

`GetHash` of a transaction hashes its serialization without witnesses, and `BlockMerkleRoot`
reduces the ids of a block's transactions.  Double SHA-256 is a parameter: any function to
digests of 32 bytes.  The node keeps digests as 256-bit values and other programs as bytes;
`serializeUint256_hashPair` lets one reduction stand for the other.
-/

namespace XCoin

open Consensus

/-- Double SHA-256. -/
structure Dsha256 where
  hash : Bytes → Bytes
  length_hash : ∀ bytes, (hash bytes).length = 32

namespace Dsha256

variable (dsha256 : Dsha256)

/-- The digest as the node keeps it. -/
def uint256 (bytes : Bytes) : Uint256 := BitVec.ofNat 256 (Bytes.toNatLE (dsha256.hash bytes))

/-- The digest of two digests. -/
def hashPair (left right : Uint256) : Uint256 :=
  dsha256.uint256 (serializeUint256 left ++ serializeUint256 right)

/-- `CTransaction::GetHash`. -/
def txHash (tx : Transaction) : Uint256 := dsha256.uint256 (serializeTransaction false tx)

/-- `ComputeMerkleRoot`; the root of no hashes is zero. -/
def computeMerkleRoot (hashes : List Uint256) : Uint256 :=
  (MerkleTree.reduce dsha256.hashPair hashes.length hashes).head?.getD 0#256

/-- `BlockMerkleRoot`. -/
def blockMerkleRoot (block : Block) : Uint256 :=
  dsha256.computeMerkleRoot (block.vtx.map dsha256.txHash)

variable {dsha256}

theorem serializeUint256_uint256 (bytes : Bytes) :
    serializeUint256 (dsha256.uint256 bytes) = dsha256.hash bytes := by
  have hlength := dsha256.length_hash bytes
  have hlt : Bytes.toNatLE (dsha256.hash bytes) < 2 ^ 256 := by
    have hbound := Bytes.toNatLE_lt (dsha256.hash bytes)
    rw [hlength] at hbound
    exact hbound.trans_eq (by norm_num)
  calc serializeUint256 (dsha256.uint256 bytes)
      = Bytes.ofNatLE 32 (Bytes.toNatLE (dsha256.hash bytes)) := by
        rw [serializeUint256, uint256, BitVec.toNat_ofNat, Nat.mod_eq_of_lt hlt]
    _ = Bytes.ofNatLE (dsha256.hash bytes).length (Bytes.toNatLE (dsha256.hash bytes)) := by
        rw [hlength]
    _ = dsha256.hash bytes := Bytes.ofNatLE_toNatLE _

theorem serializeUint256_hashPair (left right : Uint256) :
    serializeUint256 (dsha256.hashPair left right) =
      dsha256.hash (serializeUint256 left ++ serializeUint256 right) :=
  serializeUint256_uint256 _

/-- The root over 256-bit values, written out, is the last digest of the reduction over bytes. -/
theorem serialize_computeMerkleRoot (first : Uint256) (rest : List Uint256) {root : Bytes}
    (hroot : MerkleTree.reduce (fun left right => dsha256.hash (left ++ right))
      (first :: rest).length ((first :: rest).map serializeUint256) = [root]) :
    serializeUint256 (dsha256.computeMerkleRoot (first :: rest)) = root := by
  rw [← MerkleTree.map_reduce serializeUint256_hashPair] at hroot
  obtain ⟨value, hvalue, hbytes⟩ := List.map_eq_singleton_iff.mp hroot
  rw [computeMerkleRoot, hvalue]
  exact hbytes

end Dsha256

end XCoin
