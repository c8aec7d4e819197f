import XCoin.Lib.BitGroups

/-!
# The pool's regrouping of bits

`_convertbits` of `xcoin-pool.py` turns the bytes of a witness program into groups of five
bits, with zeros added at the end, and the groups of an address back into bytes, where only
zeros, and fewer than five, may be left over.  Both calls are the same loop.  Its buffer
holds the bits that have been read and have not left in a group yet (`BitBuffer.Holds`).

`convertbits_pad_iff` and `convertbits_strict_iff` say what the two calls return in terms of
one string of bits; that they are inverse to each other (`convertbits_strict_iff_pad`) can
be read off the two descriptions.
-/

namespace XCoin.Pool

open BitGroups

/-! ## The loop -/

/-- The variables of the loop of `_convertbits`. -/
structure BitBuffer where
  acc : ℕ
  bits : ℕ
  ret : List ℕ
deriving DecidableEq, Repr

namespace BitBuffer

/-- The inner loop: groups of `tobits` bits leave the buffer while it holds that many. -/
def emit (tobits : ℕ) : ℕ → BitBuffer → BitBuffer
  | 0, buffer => buffer
  | fuel + 1, buffer =>
    if tobits ≤ buffer.bits then
      emit tobits fuel
        { buffer with
          bits := buffer.bits - tobits
          ret := buffer.ret ++ [(buffer.acc >>> (buffer.bits - tobits)) &&& ((1 <<< tobits) - 1)] }
    else buffer

/-- One round of the outer loop; the bits bound the rounds of the inner one. -/
def push (frombits tobits value : ℕ) (buffer : BitBuffer) : BitBuffer :=
  emit tobits (buffer.bits + frombits)
    { buffer with
      acc := ((buffer.acc <<< frombits) ||| value) &&& ((1 <<< (frombits + tobits - 1)) - 1)
      bits := buffer.bits + frombits }

/-- What follows the loop. -/
def finish (frombits tobits : ℕ) (pad : Bool) (buffer : BitBuffer) : Option (List ℕ) :=
  let rest := (buffer.acc <<< (tobits - buffer.bits)) &&& ((1 <<< tobits) - 1)
  if pad then some (if buffer.bits ≠ 0 then buffer.ret ++ [rest] else buffer.ret)
  else if frombits ≤ buffer.bits ∨ rest ≠ 0 then none
  else some buffer.ret

/-- The loop of `_convertbits`; `none` if a value does not fit `frombits` bits. -/
def pushAll (frombits tobits : ℕ) : List ℕ → BitBuffer → Option BitBuffer
  | [], buffer => some buffer
  | value :: data, buffer =>
    if value >>> frombits ≠ 0 then none
    else pushAll frombits tobits data (buffer.push frombits tobits value)

end BitBuffer

/-- `_convertbits`. -/
def convertbits (data : List ℕ) (frombits tobits : ℕ) (pad : Bool) : Option (List ℕ) :=
  (BitBuffer.pushAll frombits tobits data ⟨0, 0, []⟩).bind (BitBuffer.finish frombits tobits pad)

/-! ## What the buffer holds -/

namespace BitBuffer

/-- The groups that have left and the bits still in the buffer are the bits of the values read. -/
structure Holds (tobits : ℕ) (string : List Bool) (buffer : BitBuffer) : Prop where
  bits_eq : flat tobits buffer.ret ++ bitsOf buffer.bits buffer.acc = string
  ret_lt : ∀ group ∈ buffer.ret, group < 2 ^ tobits

variable {frombits tobits : ℕ} {string : List Bool} {buffer : BitBuffer}

theorem Holds.emit (htobits : 0 < tobits) (fuel : ℕ) :
    ∀ {buffer : BitBuffer}, Holds tobits string buffer → buffer.bits ≤ fuel →
      Holds tobits string (buffer.emit tobits fuel) ∧ (buffer.emit tobits fuel).bits < tobits := by
  induction fuel with
  | zero =>
    intro buffer hholds hfuel
    exact ⟨hholds, (Nat.le_zero.mp hfuel).symm ▸ htobits⟩
  | succ fuel ih =>
    intro buffer hholds hfuel
    rw [BitBuffer.emit]
    split_ifs with hbits
    · refine ih ⟨?_, ?_⟩ (by dsimp only; omega)
      · -- the highest `tobits` bits of the buffer are the group that leaves
        have hsplit := bitsOf_add tobits (buffer.bits - tobits) buffer.acc
        rw [Nat.add_sub_cancel' hbits] at hsplit
        rw [← hholds.bits_eq, hsplit, flat_append, flat_cons, flat_nil, bitsOf_mask le_rfl,
          List.append_nil, List.append_assoc]
      · intro group hgroup
        rcases List.mem_append.mp hgroup with hmem | hmem
        · exact hholds.ret_lt group hmem
        · rw [List.mem_singleton.mp hmem]
          exact mask_lt _ _
    · exact ⟨hholds, Nat.not_le.mp hbits⟩

theorem Holds.push (htobits : 0 < tobits) {value : ℕ} (hvalue : value < 2 ^ frombits)
    (hholds : Holds tobits string buffer) (hbits : buffer.bits < tobits) :
    Holds tobits (string ++ bitsOf frombits value) (buffer.push frombits tobits value) ∧
      (buffer.push frombits tobits value).bits < tobits := by
  refine Holds.emit htobits _ ⟨?_, hholds.ret_lt⟩ le_rfl
  dsimp only
  rw [bitsOf_mask (by omega), bitsOf_shiftLeft_or _ hvalue, ← List.append_assoc, hholds.bits_eq]

theorem Holds.pushAll (htobits : 0 < tobits) :
    ∀ {data : List ℕ} {string : List Bool} {buffer : BitBuffer},
      (∀ value ∈ data, value < 2 ^ frombits) → Holds tobits string buffer →
      buffer.bits < tobits →
        ∃ last, buffer.pushAll frombits tobits data = some last ∧
          Holds tobits (string ++ flat frombits data) last ∧ last.bits < tobits := by
  intro data
  induction data with
  | nil =>
    intro string buffer _ hholds hbits
    exact ⟨buffer, rfl, by simpa using hholds, hbits⟩
  | cons value data ih =>
    intro string buffer hfit hholds hbits
    have hvalue := hfit value List.mem_cons_self
    obtain ⟨hpushed, hpushedBits⟩ := hholds.push htobits hvalue hbits
    obtain ⟨last, hlast, hlastHolds, hlastBits⟩ :=
      ih (fun v hv => hfit v (List.mem_cons_of_mem _ hv)) hpushed hpushedBits
    refine ⟨last, ?_, ?_, hlastBits⟩
    · have hzero : value >>> frombits = 0 := Nat.shiftRight_eq_zero _ _ hvalue
      rw [BitBuffer.pushAll, if_neg (by simpa using hzero), hlast]
    · rw [flat_cons, ← List.append_assoc]
      exact hlastHolds

theorem bitsOf_rest (hbits : buffer.bits ≤ tobits) :
    bitsOf tobits ((buffer.acc <<< (tobits - buffer.bits)) &&& ((1 <<< tobits) - 1)) =
      bitsOf buffer.bits buffer.acc ++ List.replicate (tobits - buffer.bits) false := by
  have hshift := bitsOf_shiftLeft (w := tobits - buffer.bits) buffer.bits buffer.acc
  rw [Nat.add_sub_cancel' hbits] at hshift
  rw [bitsOf_mask le_rfl, hshift]

end BitBuffer

/-! ## The two calls -/

section Convertbits

variable {data groups : List ℕ} {frombits tobits : ℕ}

variable (htobits : 0 < tobits) (hdata : ∀ value ∈ data, value < 2 ^ frombits)

include htobits hdata

theorem exists_pushAll :
    ∃ last, BitBuffer.pushAll frombits tobits data ⟨0, 0, []⟩ = some last ∧
      BitBuffer.Holds tobits (flat frombits data) last ∧ last.bits < tobits :=
  BitBuffer.Holds.pushAll htobits hdata ⟨rfl, by simp⟩ htobits

theorem exists_convertbits_pad :
    ∃ groups, convertbits data frombits tobits true = some groups ∧
      (∀ group ∈ groups, group < 2 ^ tobits) ∧
        ∃ k < tobits, flat tobits groups = flat frombits data ++ List.replicate k false := by
  obtain ⟨last, hlast, hholds, hbits⟩ := exists_pushAll htobits hdata
  rw [convertbits, hlast, Option.bind_some, BitBuffer.finish]
  refine ⟨_, rfl, ?_⟩
  rw [← hholds.bits_eq]
  split_ifs with hempty
  · refine ⟨?_, tobits - last.bits, by omega, ?_⟩
    · intro group hgroup
      rcases List.mem_append.mp hgroup with hmem | hmem
      · exact hholds.ret_lt group hmem
      · rw [List.mem_singleton.mp hmem]
        exact mask_lt _ _
    · rw [flat_append, flat_cons, flat_nil, List.append_nil, BitBuffer.bitsOf_rest hbits.le,
        List.append_assoc]
  · exact ⟨hholds.ret_lt, 0, htobits, by rw [not_not.mp hempty]; simp [bitsOf]⟩

/-- With padding, the string of bits is filled up with zeros to whole groups. -/
theorem convertbits_pad_iff :
    convertbits data frombits tobits true = some groups ↔
      (∀ group ∈ groups, group < 2 ^ tobits) ∧
        ∃ k < tobits, flat tobits groups = flat frombits data ++ List.replicate k false := by
  obtain ⟨result, hconverts, hfit, k, hk, hfilled⟩ := exists_convertbits_pad htobits hdata
  rw [hconverts, Option.some.injEq]
  constructor
  · rintro rfl
    exact ⟨hfit, k, hk, hfilled⟩
  · rintro ⟨hfit', k', hk', hfilled'⟩
    exact eq_of_flat_eq_filled hfit hfit' hk hk' hfilled hfilled'

/-- Without padding, fewer bits than a value has may be left over, and only zeros. -/
theorem convertbits_strict_iff :
    convertbits data frombits tobits false = some groups ↔
      (∀ group ∈ groups, group < 2 ^ tobits) ∧
        ∃ k < frombits, k < tobits ∧
          flat frombits data = flat tobits groups ++ List.replicate k false := by
  obtain ⟨last, hlast, hholds, hbits⟩ := exists_pushAll htobits hdata
  have hrest := BitBuffer.bitsOf_rest hbits.le
  rw [convertbits, hlast, Option.bind_some, BitBuffer.finish]
  simp only [Bool.false_eq_true, if_false]
  constructor
  · intro hconverts
    split_ifs at hconverts with hleft
    obtain ⟨hfewer, hzero⟩ := not_or.mp hleft
    obtain rfl := Option.some.inj hconverts
    refine ⟨hholds.ret_lt, last.bits, Nat.not_le.mp hfewer, hbits, ?_⟩
    rw [not_not.mp hzero, bitsOf_zero] at hrest
    have hzeros := congrArg (List.take last.bits) hrest
    rw [List.take_left' (length_bitsOf _ _), List.take_replicate, Nat.min_eq_left hbits.le] at hzeros
    rw [← hholds.bits_eq, hzeros]
  · rintro ⟨hfit, k, hkfrom, hkto, hflat⟩
    rw [← hholds.bits_eq] at hflat
    obtain ⟨hgroups, hzeros⟩ := eq_of_flat_append_eq hholds.ret_lt hfit
      (by rwa [length_bitsOf]) (by rwa [List.length_replicate]) hflat
    have hk : last.bits = k := by simpa using congrArg List.length hzeros
    subst hk
    rw [hzeros, List.replicate_append_replicate, Nat.add_sub_cancel' hbits.le,
      ← bitsOf_zero] at hrest
    have hrestZero := eq_of_bitsOf_eq (mask_lt _ _) (Nat.two_pow_pos _) hrest
    rw [if_neg (not_or.mpr ⟨Nat.not_le.mpr hkfrom, not_not.mpr hrestZero⟩), hgroups]

/-- **Both directions.**  Reading back into wider groups undoes writing with padding, and only
that. -/
theorem convertbits_strict_iff_pad (hle : tobits ≤ frombits)
    (hgroups : ∀ group ∈ groups, group < 2 ^ tobits) :
    convertbits groups tobits frombits false = some data ↔
      convertbits data frombits tobits true = some groups := by
  rw [convertbits_strict_iff (htobits.trans_le hle) hgroups, convertbits_pad_iff htobits hdata]
  constructor
  · rintro ⟨_, k, hk, _, hflat⟩
    exact ⟨hgroups, k, hk, hflat⟩
  · rintro ⟨_, k, hk, hflat⟩
    exact ⟨hdata, k, hk, hk.trans_le hle, hflat⟩

end Convertbits

end XCoin.Pool
