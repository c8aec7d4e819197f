import Mathlib
import XCoin.Lib.Bytes

/-!
# Seeds of derived post-quantum keys

`ShakeMaterial` of `pqhd.cpp` absorbs the private key and the chain code of the root,
the derivation path and a label of the algorithm, one after the other, and squeezes the
seed of the key.  No length is absorbed between them.

The parts can nevertheless be read back from the bytes absorbed.  Both labels end in
the version text, and the last 26 bytes are the whole label of one algorithm and the
tail of the label of the other, which already differ in their first byte.  So the label
is read from the end, the root from the front, and what is left is the path, four bytes
for each step.
-/

namespace XCoin.Wallet

/-! ## The incremental hash -/

/-- `shake256incctx` between initialisation and finalisation: the bytes absorbed. -/
structure Shake256Inc where
  absorbed : Bytes
deriving DecidableEq, Repr

namespace Shake256Inc

/-- Nothing is absorbed yet. -/
def init : Shake256Inc := ⟨[]⟩

/-- Absorbs more bytes. -/
def absorb (ctx : Shake256Inc) (bytes : Bytes) : Shake256Inc := ⟨ctx.absorbed ++ bytes⟩

@[simp] theorem absorbed_init : init.absorbed = [] := rfl

@[simp] theorem absorbed_absorb {ctx : Shake256Inc} {bytes : Bytes} :
    (ctx.absorb bytes).absorbed = ctx.absorbed ++ bytes := rfl

end Shake256Inc

/-! ## The derivations -/

/-- `XCOIN_HD_MLDSA_SEED_DOMAIN`. -/
def xcoinHdMldsaSeedDomain : Bytes := Bytes.ofAscii "xcoin/hd/ml-dsa-65/seed/v2"
/-- `XCOIN_HD_SLH_SEED_DOMAIN`. -/
def xcoinHdSlhSeedDomain : Bytes := Bytes.ofAscii "xcoin/hd/slh-dsa-sha2-128s/seed/v2"

/-- The root of the wallet: a private key and a chain code of 32 bytes each. -/
structure HdRoot where
  privkey : Bytes
  chaincode : Bytes
  length_privkey : privkey.length = 32
  length_chaincode : chaincode.length = 32

/-- The array `le` of a path step. -/
def pathStepBytes (step : UInt32) : Bytes :=
  [(step &&& 0xFF).toUInt8, ((step >>> 8) &&& 0xFF).toUInt8, ((step >>> 16) &&& 0xFF).toUInt8,
    ((step >>> 24) &&& 0xFF).toUInt8]

/-- The context that `ShakeMaterial` finalises. -/
def shakeContext (rootPrivkey32 rootChaincode32 : Bytes) (path : List UInt32) (domain : Bytes) :
    Shake256Inc :=
  let ctx := (Shake256Inc.init.absorb rootPrivkey32).absorb rootChaincode32
  (path.foldl (fun ctx step => ctx.absorb (pathStepBytes step)) ctx).absorb domain

/-- `ShakeMaterial`; `shake256` squeezes as many bytes as asked out of the bytes absorbed. -/
def shakeMaterial (shake256 : Bytes → ℕ → Bytes) (rootPrivkey32 rootChaincode32 : Bytes)
    (path : List UInt32) (domain : Bytes) (outlen : ℕ) : Bytes :=
  shake256 (shakeContext rootPrivkey32 rootChaincode32 path domain).absorbed outlen

/-- The 32-byte ML-DSA seed of a path. -/
def deriveXcoinMldsaSeed (shake256 : Bytes → ℕ → Bytes) (root : HdRoot) (path : List UInt32) :
    Bytes :=
  shakeMaterial shake256 root.privkey root.chaincode path xcoinHdMldsaSeedDomain 32

/-- The 48-byte SLH-DSA seed of a path. -/
def deriveXcoinSlhSeed (shake256 : Bytes → ℕ → Bytes) (root : HdRoot) (path : List UInt32) :
    Bytes :=
  shakeMaterial shake256 root.privkey root.chaincode path xcoinHdSlhSeedDomain 48

/-- The two functions that derive a seed. -/
inductive SeedAlgorithm where
  | mldsa
  | slh
deriving DecidableEq, Repr

namespace SeedAlgorithm

/-- The label the function absorbs last. -/
def domain : SeedAlgorithm → Bytes
  | .mldsa => xcoinHdMldsaSeedDomain
  | .slh => xcoinHdSlhSeedDomain

/-- The number of bytes the function squeezes. -/
def outlen : SeedAlgorithm → ℕ
  | .mldsa => 32
  | .slh => 48

/-- The last bytes of the label, as many as the shorter label has. -/
def ending (algorithm : SeedAlgorithm) : Bytes :=
  algorithm.domain.drop (algorithm.domain.length - xcoinHdMldsaSeedDomain.length)

/-- The endings differ in their first byte: a label begins with a letter, and the ending
of the longer one with the separator in front of the algorithm's name. -/
theorem ending_injective : Function.Injective ending := by
  intro algorithm other
  cases algorithm <;> cases other <;> decide

theorem length_ending (algorithm : SeedAlgorithm) :
    algorithm.ending.length = xcoinHdMldsaSeedDomain.length := by
  cases algorithm <;> decide

end SeedAlgorithm

/-- A call of one of the two functions. -/
structure SeedCall where
  algorithm : SeedAlgorithm
  root : HdRoot
  path : List UInt32

namespace SeedCall

/-- The seed a call returns. -/
def derive (shake256 : Bytes → ℕ → Bytes) (call : SeedCall) : Bytes :=
  match call.algorithm with
  | .mldsa => deriveXcoinMldsaSeed shake256 call.root call.path
  | .slh => deriveXcoinSlhSeed shake256 call.root call.path

/-- The bytes a call hashes. -/
def hashed (call : SeedCall) : Bytes :=
  (shakeContext call.root.privkey call.root.chaincode call.path
    call.algorithm.domain).absorbed

theorem derive_eq (shake256 : Bytes → ℕ → Bytes) (call : SeedCall) :
    call.derive shake256 = shake256 call.hashed call.algorithm.outlen := by
  rcases call with ⟨algorithm, root, path⟩
  cases algorithm <;> rfl

end SeedCall

/-! ## Reading the parts back -/

theorem pathStepBytes_eq (step : UInt32) : pathStepBytes step = Bytes.ofNatLE 4 step.toNat := by
  have hbyte : ∀ word : UInt32, (word &&& 0xFF).toUInt8 = UInt8.ofNat word.toNat := by
    intro word
    apply UInt8.toNat.inj
    rw [UInt32.toNat_toUInt8, UInt32.toNat_and, UInt8.toNat_ofNat']
    have hmask : word.toNat &&& 255 = word.toNat % 256 := Nat.and_two_pow_sub_one_eq_mod _ 8
    change (word.toNat &&& 255) % 256 = _
    rw [hmask, Nat.mod_mod]
  simp only [pathStepBytes, hbyte, Bytes.ofNatLE, UInt32.toNat_shiftRight, Nat.div_div_eq_div_mul]
  simp [Nat.shiftRight_eq_div_pow]

theorem pathStepBytes_injective : Function.Injective pathStepBytes := by
  intro step other hbytes
  rw [pathStepBytes_eq, pathStepBytes_eq] at hbytes
  have hread := congrArg Bytes.toNatLE hbytes
  rw [Bytes.toNatLE_ofNatLE step.toNat_lt, Bytes.toNatLE_ofNatLE other.toNat_lt] at hread
  exact UInt32.toNat.inj hread

/-- The bytes of a path, step after step. -/
def pathBytes (path : List UInt32) : Bytes := path.flatMap pathStepBytes

/-- Every step has four bytes, so a path is read back from its first step on. -/
theorem pathBytes_injective : Function.Injective pathBytes := by
  intro path
  induction path with
  | nil =>
    intro other hbytes
    cases other with
    | nil => rfl
    | cons step rest => cases hbytes
  | cons step rest ih =>
    intro other hbytes
    cases other with
    | nil => cases hbytes
    | cons first others =>
      obtain ⟨hstep, hrest⟩ := List.append_inj
        (show pathStepBytes step ++ pathBytes rest = pathStepBytes first ++ pathBytes others
          from hbytes) rfl
      rw [pathStepBytes_injective hstep, ih hrest]

theorem absorbed_foldl_path : ∀ (path : List UInt32) (ctx : Shake256Inc),
    (path.foldl (fun ctx step => ctx.absorb (pathStepBytes step)) ctx).absorbed =
      ctx.absorbed ++ pathBytes path := by
  intro path
  induction path with
  | nil => exact fun ctx => (List.append_nil _).symm
  | cons step rest ih =>
    intro ctx
    rw [List.foldl_cons, ih, Shake256Inc.absorbed_absorb, List.append_assoc]
    rfl

namespace SeedCall

variable {call other : SeedCall}

theorem hashed_eq (call : SeedCall) : call.hashed =
    call.root.privkey ++ (call.root.chaincode ++ (pathBytes call.path ++ call.algorithm.domain)) := by
  simp only [hashed, shakeContext, Shake256Inc.absorbed_absorb, absorbed_foldl_path,
    Shake256Inc.absorbed_init, List.nil_append, List.append_assoc]

theorem hashed_eq_append_ending (call : SeedCall) :
    ∃ front, call.hashed = front ++ call.algorithm.ending := by
  rw [hashed_eq, SeedAlgorithm.ending]
  nth_rewrite 1 [← List.take_append_drop
    (call.algorithm.domain.length - xcoinHdMldsaSeedDomain.length) call.algorithm.domain]
  simp only [← List.append_assoc]
  exact ⟨_, rfl⟩

theorem algorithm_eq_of_hashed (hhashed : call.hashed = other.hashed) :
    call.algorithm = other.algorithm := by
  obtain ⟨front, hfront⟩ := hashed_eq_append_ending call
  obtain ⟨front', hfront'⟩ := hashed_eq_append_ending other
  rw [hfront, hfront'] at hhashed
  exact SeedAlgorithm.ending_injective
    (List.append_inj_right' hhashed ((SeedAlgorithm.length_ending _).trans
      (SeedAlgorithm.length_ending _).symm))

/-- **Separation of seeds.** What a call squeezes its seed out of are the bytes it hashes,
and two calls hash the same bytes exactly if they have the same algorithm, root key,
chain code and path. -/
theorem hashed_eq_iff :
    (∀ (shake256 : Bytes → ℕ → Bytes) (call : SeedCall),
      call.derive shake256 = shake256 call.hashed call.algorithm.outlen) ∧
    ∀ call other : SeedCall, call.hashed = other.hashed ↔
      call.algorithm = other.algorithm ∧ call.root.privkey = other.root.privkey ∧
        call.root.chaincode = other.root.chaincode ∧ call.path = other.path := by
  refine ⟨derive_eq, ?_⟩
  intro call other
  constructor
  · intro hhashed
    have halgorithm := algorithm_eq_of_hashed hhashed
    rw [hashed_eq, hashed_eq] at hhashed
    -- the root is read from the front, the label is known, and what is left is the path
    obtain ⟨hprivkey, htail⟩ := List.append_inj hhashed
      (call.root.length_privkey.trans other.root.length_privkey.symm)
    obtain ⟨hchaincode, htail⟩ := List.append_inj htail
      (call.root.length_chaincode.trans other.root.length_chaincode.symm)
    rw [halgorithm] at htail
    exact ⟨halgorithm, hprivkey, hchaincode,
      pathBytes_injective (List.append_cancel_right htail)⟩
  · rintro ⟨halgorithm, hprivkey, hchaincode, hpath⟩
    rw [hashed_eq, hashed_eq, halgorithm, hprivkey, hchaincode, hpath]

end SeedCall

end XCoin.Wallet
