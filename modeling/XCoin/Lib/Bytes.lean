import Mathlib

/-!
# Byte strings and little-endian numbers

Byte strings are lists of `UInt8`.  This file has the fixed-width little-endian
encoding of natural numbers, its inverse, and the facts about lengths and ranges
that serialized sizes and parsers need.
-/

namespace XCoin

/-- A byte string. -/
abbrev Bytes := List UInt8

namespace Bytes

/-- The bytes of an ASCII text. -/
def ofAscii (text : String) : Bytes := text.toList.map fun c => UInt8.ofNat c.toNat

/-- The lowest `width` bytes of `n`, least significant first. -/
def ofNatLE : ℕ → ℕ → Bytes
  | 0, _ => []
  | width + 1, n => UInt8.ofNat n :: ofNatLE width (n / 256)

/-- The number a byte string denotes, least significant byte first. -/
def toNatLE : Bytes → ℕ
  | [] => 0
  | byte :: rest => byte.toNat + 256 * toNatLE rest

@[simp] theorem length_ofNatLE (width n : ℕ) : (ofNatLE width n).length = width := by
  induction width generalizing n with
  | zero => rfl
  | succ width ih => simp [ofNatLE, ih]

@[simp] theorem toNatLE_nil : toNatLE [] = 0 := rfl

@[simp] theorem toNatLE_cons (byte : UInt8) (rest : Bytes) :
    toNatLE (byte :: rest) = byte.toNat + 256 * toNatLE rest := rfl

theorem toNatLE_lt (bytes : Bytes) : toNatLE bytes < 256 ^ bytes.length := by
  induction bytes with
  | nil => simp
  | cons byte rest ih =>
    have hbyte := byte.toNat_lt
    simp only [toNatLE_cons, List.length_cons, pow_succ]
    omega

theorem toNatLE_ofNatLE {width n : ℕ} (hfits : n < 256 ^ width) :
    toNatLE (ofNatLE width n) = n := by
  induction width generalizing n with
  | zero =>
    rw [pow_zero] at hfits
    simp only [ofNatLE, toNatLE_nil]
    omega
  | succ width ih =>
    have hrest : n / 256 < 256 ^ width := by
      rw [pow_succ] at hfits
      omega
    simp only [ofNatLE, toNatLE_cons, ih hrest, UInt8.toNat_ofNat']
    omega

theorem ofNatLE_mod (width n : ℕ) : ofNatLE width (n % 256 ^ width) = ofNatLE width n := by
  induction width generalizing n with
  | zero => rfl
  | succ width ih =>
    have hdiv : n % 256 ^ (width + 1) / 256 = n / 256 % 256 ^ width := by
      rw [pow_succ', Nat.mod_mul_right_div_self]
    have hbyte : UInt8.ofNat (n % 256 ^ (width + 1)) = UInt8.ofNat n := by
      apply UInt8.toNat_inj.mp
      rw [UInt8.toNat_ofNat', UInt8.toNat_ofNat', pow_succ']
      exact Nat.mod_mul_right_mod n 256 (256 ^ width)
    rw [ofNatLE, ofNatLE, hdiv, ih, hbyte]

theorem ofNatLE_toNatLE (bytes : Bytes) : ofNatLE bytes.length (toNatLE bytes) = bytes := by
  induction bytes with
  | nil => rfl
  | cons byte rest ih =>
    have hbyte := byte.toNat_lt
    have hdiv : (byte.toNat + 256 * toNatLE rest) / 256 = toNatLE rest := by omega
    simp only [List.length_cons, ofNatLE, toNatLE_cons, hdiv, ih]
    congr 1
    apply UInt8.toNat_inj.mp
    rw [UInt8.toNat_ofNat']
    omega

/-- Parts of one width, written after each other, are read back by their offsets. -/
theorem map_take_drop_flatten {width : ℕ} {parts : List Bytes}
    (hwidth : ∀ part ∈ parts, part.length = width) :
    (List.range parts.length).map (fun i => (parts.flatten.drop (width * i)).take width) =
      parts := by
  induction parts with
  | nil => rfl
  | cons part rest ih =>
    have hpart : part.length = width := hwidth part List.mem_cons_self
    have hrest := ih fun next hnext => hwidth next (List.mem_cons_of_mem _ hnext)
    have hlater : ∀ i, (part :: rest).flatten.drop (width * (i + 1)) =
        rest.flatten.drop (width * i) := by
      intro i
      rw [List.flatten_cons, show width * (i + 1) = part.length + width * i by rw [hpart]; ring,
        ← List.drop_drop, List.drop_left]
    rw [List.length_cons, List.range_succ_eq_map, List.map_cons, List.map_map]
    congr 1
    · rw [Nat.mul_zero, List.drop_zero, List.flatten_cons, ← hpart, List.take_left]
    · simp only [Function.comp_def, Nat.succ_eq_add_one, hlater, hrest]

theorem length_flatten_of_width {width : ℕ} {parts : List Bytes}
    (hwidth : ∀ part ∈ parts, part.length = width) :
    parts.flatten.length = width * parts.length := by
  induction parts with
  | nil => rfl
  | cons part rest ih =>
    have hrest := ih fun next hnext => hwidth next (List.mem_cons_of_mem _ hnext)
    rw [List.flatten_cons, List.length_append, hrest, hwidth part List.mem_cons_self,
      List.length_cons]
    ring

end Bytes

end XCoin
