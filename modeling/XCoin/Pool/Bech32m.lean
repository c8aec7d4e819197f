import XCoin.Lib.XorRegister
import XCoin.Pool.Coinbase
import XCoin.Pool.ConvertBits

/-!
# The pool's addresses

A worker logs in with a bech32m address, and the coinbase pays the witness program the
pool decodes from it.  This file has `_polymod`, `bech32m_encode` and `bech32m_decode` of
`xcoin-pool.py`.  Python's texts are lists of characters and its integers natural numbers.

`_polymod` is a linear register of 30 bits (`polymodAdvance_isLinear`).  The six symbols
that complete a checksum are therefore determined by the rest (`polymod_append_iff`), and
no two texts that differ in one symbol both have a right checksum.  Since the groups of
five bits are determined by the program as well, the decoder accepts exactly the texts that
the encoder writes, in lower or upper case (`bech32mDecode_eq_ok_iff`).

An address whose only letter is a data character can be written in either case of that
letter, so the change of its case is a change of one data character that is accepted.
-/

namespace XCoin.Pool

open BitGroups XorRegister

variable {hrp : List Char} {c : Char} {witver : ℕ} {program : Bytes} {groups : List ℕ}
  {data : List ℕ} {text : List Char}

/-! ## The checksum -/

/-- `_GEN`. -/
def gen : List ℕ := [0x3b6a57b2, 0x26508e6d, 0x1ea119fa, 0x3d4233dd, 0x2a1462b3]

/-- `_BECH32M_CONST`. -/
def bech32mConst : ℕ := 0x2bc830a3

/-- One round of the loop of `_polymod`. -/
def polymodStep (chk value : ℕ) : ℕ :=
  (List.range 5).foldl (fun c i => c ^^^ (if (chk >>> 25).testBit i then gen.getD i 0 else 0))
    (((chk &&& 0x1ffffff) <<< 5) ^^^ value)

/-- `_polymod`. -/
def polymod (values : List ℕ) : ℕ := values.foldl polymodStep 1

/-- `_polymod`'s round without the value. -/
def polymodAdvance (chk : ℕ) : ℕ := polymodStep chk 0

/-- What the five generators add, by the highest five bits. -/
def feedback (top : ℕ) : ℕ :=
  (List.range 5).foldl (fun c i => c ^^^ (if top.testBit i then gen.getD i 0 else 0)) 0

theorem foldl_xor (f : ℕ → ℕ) (indices : List ℕ) (a b : ℕ) :
    indices.foldl (fun c i => c ^^^ f i) (a ^^^ b) = indices.foldl (fun c i => c ^^^ f i) a ^^^ b := by
  induction indices generalizing a with
  | nil => rfl
  | cons i indices ih =>
    rw [List.foldl_cons, List.foldl_cons, ← ih]
    congr 1
    rw [Nat.xor_assoc, Nat.xor_assoc, Nat.xor_comm b]

theorem polymodStep_eq (chk value : ℕ) : polymodStep chk value = polymodAdvance chk ^^^ value := by
  rw [polymodAdvance, polymodStep, polymodStep, foldl_xor, Nat.xor_zero]

theorem polymodAdvance_eq (chk : ℕ) :
    polymodAdvance chk = feedback (chk >>> 25) ^^^ ((chk &&& 0x1ffffff) <<< 5) := by
  rw [polymodAdvance, polymodStep, feedback, Nat.xor_zero, ← foldl_xor, Nat.zero_xor]

theorem polymod_eq_run (values : List ℕ) : polymod values = run polymodAdvance 1 values := by
  have hstep : polymodStep = fun chk value => polymodAdvance chk ^^^ value := by
    funext chk value
    exact polymodStep_eq chk value
  rw [polymod, hstep]
  rfl

theorem feedback_xor (a b : ℕ) : feedback (a ^^^ b) = feedback a ^^^ feedback b := by
  -- each generator is added for both numbers, for one of them, or for neither
  have hterm : ∀ i, (if (a ^^^ b).testBit i then gen.getD i 0 else 0) =
      (if a.testBit i then gen.getD i 0 else 0) ^^^ (if b.testBit i then gen.getD i 0 else 0) := by
    intro i
    rw [Nat.testBit_xor]
    cases a.testBit i <;> cases b.testBit i <;> simp
  have hfold : ∀ (indices : List ℕ) (c d : ℕ),
      indices.foldl (fun c i => c ^^^ (if (a ^^^ b).testBit i then gen.getD i 0 else 0)) (c ^^^ d) =
        indices.foldl (fun c i => c ^^^ (if a.testBit i then gen.getD i 0 else 0)) c ^^^
          indices.foldl (fun c i => c ^^^ (if b.testBit i then gen.getD i 0 else 0)) d := by
    intro indices
    induction indices with
    | nil => exact fun _ _ => rfl
    | cons i indices ih =>
      intro c d
      rw [List.foldl_cons, List.foldl_cons, List.foldl_cons, ← ih, hterm]
      congr 1
      simp only [Nat.xor_assoc, Nat.xor_left_comm]
  exact hfold _ 0 0

/-- The five generators are below `2 ^ 30`, and no sum of some of them ends in five zeros. -/
theorem feedback_spec : ∀ top < 32, feedback top < 2 ^ 30 ∧ (feedback top % 32 = 0 → top = 0) := by
  decide

theorem and_low (a : ℕ) : a &&& 0x1ffffff = a % 2 ^ 25 := Nat.and_two_pow_sub_one_eq_mod a 25

/-- **The register.**  `_polymod` is a linear register of 30 bits. -/
theorem polymodAdvance_isLinear : IsLinear polymodAdvance 30 where
  map_xor a b := by
    rw [polymodAdvance_eq, polymodAdvance_eq, polymodAdvance_eq, Nat.shiftRight_xor_distrib,
      feedback_xor, Nat.and_xor_distrib_right, Nat.shiftLeft_xor_distrib]
    simp only [Nat.xor_assoc, Nat.xor_left_comm]
  lt_two_pow a ha := by
    rw [polymodAdvance_eq, and_low, Nat.shiftLeft_eq]
    refine Nat.xor_lt_two_pow (feedback_spec _ ?_).1 (by omega)
    rw [Nat.shiftRight_eq_div_pow]
    omega
  eq_zero a ha hzero := by
    rw [polymodAdvance_eq, Nat.xor_eq_zero_iff, and_low, Nat.shiftLeft_eq,
      Nat.shiftRight_eq_div_pow] at hzero
    -- the shifted bits leave the lowest five alone, so the feedback ends in five zeros
    have htop : a / 2 ^ 25 = 0 := (feedback_spec _ (by omega)).2 (by omega)
    rw [htop, show feedback 0 = 0 by decide] at hzero
    omega

theorem polymodAdvance_of_lt (a : ℕ) (ha : a < 2 ^ 25) : polymodAdvance a = a <<< 5 := by
  have htop : a >>> 25 = 0 := by
    rw [Nat.shiftRight_eq_div_pow]
    omega
  rw [polymodAdvance_eq, and_low, Nat.mod_eq_of_lt ha, htop, show feedback 0 = 0 by decide,
    Nat.zero_xor]

/-- The last six symbols of an address. -/
def checksumSymbols (mod : ℕ) : List ℕ :=
  (List.range 6).map fun i => (mod >>> (5 * (5 - i))) &&& 31

theorem checksumSymbols_lt {mod symbol : ℕ} (h : symbol ∈ checksumSymbols mod) : symbol < 2 ^ 5 := by
  obtain ⟨i, _, rfl⟩ := List.mem_map.mp h
  exact mask_lt _ 5

@[simp] theorem length_checksumSymbols (mod : ℕ) : (checksumSymbols mod).length = 6 := rfl

theorem flat_checksumSymbols (mod : ℕ) : flat 5 (checksumSymbols mod) = bitsOf 30 mod := by
  have hmask : ∀ v, bitsOf 5 (v &&& 31) = bitsOf 5 v := bitsOf_mask (w := 5) (m := 5) le_rfl
  have hsplit : ∀ n, bitsOf (5 + n) mod = bitsOf 5 (mod >>> n) ++ bitsOf n mod :=
    fun n => bitsOf_add 5 n mod
  have hsymbols : checksumSymbols mod = [(mod >>> 25) &&& 31, (mod >>> 20) &&& 31,
      (mod >>> 15) &&& 31, (mod >>> 10) &&& 31, (mod >>> 5) &&& 31, (mod >>> 0) &&& 31] := rfl
  rw [hsymbols]
  simp only [flat_cons, flat_nil, hmask, List.append_nil]
  rw [hsplit 25, hsplit 20, hsplit 15, hsplit 10, hsplit 5]
  rfl

theorem polymod_lt {values : List ℕ} (hvalues : ∀ value ∈ values, value < 2 ^ 30) :
    polymod values < 2 ^ 30 := by
  rw [polymod_eq_run]
  exact polymodAdvance_isLinear.run_lt hvalues (by decide)

/-- **The checksum is determined.**  Six symbols complete the values to a right checksum if and
only if they are the ones `bech32m_encode` appends. -/
theorem polymod_append_iff {values check : List ℕ} (hvalues : ∀ value ∈ values, value < 2 ^ 30)
    (hcheck : ∀ symbol ∈ check, symbol < 2 ^ 5) (hlength : check.length = 6) :
    polymod (values ++ check) = bech32mConst ↔
      check = checksumSymbols (polymod (values ++ List.replicate 6 0) ^^^ bech32mConst) := by
  obtain ⟨hlt, hbits⟩ := bitsOf_run_zero polymodAdvance_of_lt hcheck (by rw [hlength])
  rw [hlength] at hlt hbits
  have hzeros : polymod (values ++ List.replicate 6 0) < 2 ^ 30 := by
    refine polymod_lt fun value hvalue => ?_
    rcases List.mem_append.mp hvalue with hmem | hmem
    · exact hvalues value hmem
    · rw [List.eq_of_mem_replicate hmem]
      decide
  have hsum : polymod (values ++ check) =
      polymod (values ++ List.replicate 6 0) ^^^ run polymodAdvance 0 check := by
    rw [polymod_eq_run, polymod_eq_run, run_append, run_append,
      polymodAdvance_isLinear.run_eq_xor, hlength]
  have hconst : bech32mConst < 2 ^ 30 := by decide
  rw [hsum]
  constructor
  · intro hright
    have hrun : run polymodAdvance 0 check =
        polymod (values ++ List.replicate 6 0) ^^^ bech32mConst := by
      rw [← hright, ← Nat.xor_assoc, Nat.xor_self, Nat.zero_xor]
    refine eq_of_flat_eq (by rw [hlength, length_checksumSymbols]) hcheck
      (fun _ => checksumSymbols_lt) ?_
    rw [flat_checksumSymbols, ← hrun, ← hbits]
  · intro hsymbols
    rw [hsymbols, flat_checksumSymbols, ← hsymbols] at hbits
    rw [eq_of_bitsOf_eq hlt (Nat.xor_lt_two_pow hzeros hconst) hbits, ← Nat.xor_assoc,
      Nat.xor_self, Nat.zero_xor]

/-! ## Encoding and decoding -/

/-- `_CHARSET`. -/
def charset : List Char :=
  ['q', 'p', 'z', 'r', 'y', '9', 'x', '8', 'g', 'f', '2', 't', 'v', 'd', 'w', '0',
    's', '3', 'j', 'n', '5', '4', 'k', 'h', 'c', 'e', '6', 'm', 'u', 'a', '7', 'l']

/-- `_CHARSET[d]`, for `d < 32`. -/
def symbolChar (d : ℕ) : Char := charset.getD d 'q'

/-- `_hrp_expand`. -/
def hrpExpand (hrp : List Char) : List ℕ :=
  hrp.map (fun c => c.toNat >>> 5) ++ [0] ++ hrp.map (fun c => c.toNat &&& 31)

/-- What `bech32m_encode` writes for the data symbols. -/
def encodeData (hrp : List Char) (data : List ℕ) : List Char :=
  let mod := polymod (hrpExpand hrp ++ data ++ List.replicate 6 0) ^^^ bech32mConst
  hrp ++ '1' :: (data.map symbolChar ++ (checksumSymbols mod).map symbolChar)

/-- `bech32m_encode`; `none` where Python raises, that is for a version outside `_CHARSET`. -/
def bech32mEncode (hrp : List Char) (witver : ℕ) (program : Bytes) : Option (List Char) :=
  match convertbits (program.map UInt8.toNat) 8 5 true with
  | none => none
  | some groups => if 32 ≤ witver then none else some (encodeData hrp (witver :: groups))

/-- The refusals of `bech32m_decode`. -/
inductive AddressError where
  | invalidCharacter
  | mixedCase
  | malformed
  | invalidDataCharacter
  | wrongChecksum
  | badWitnessVersion
  | badWitnessProgram
deriving DecidableEq, Repr

/-- `str.lower`, on ASCII. -/
def lower (text : List Char) : List Char := text.map Char.toLower

/-- `str.upper`, on ASCII. -/
def upper (text : List Char) : List Char := text.map Char.toUpper

/-- `str.rfind` of one character; `none` for -1. -/
def rfind (c : Char) : List Char → Option ℕ
  | [] => none
  | d :: rest =>
    match rfind c rest with
    | some pos => some (pos + 1)
    | none => if d = c then some 0 else none

/-- `bech32m_decode` from the checksum on. -/
def decodeData (hrp : List Char) (data : List ℕ) :
    Except AddressError (List Char × ℕ × Bytes) :=
  if polymod (hrpExpand hrp ++ data) ≠ bech32mConst then .error .wrongChecksum
  else
    match data.take (data.length - 6) with
    | [] => .error .badWitnessVersion
    | witver :: groups =>
      if 16 < witver then .error .badWitnessVersion
      else
        match convertbits groups 5 8 false with
        | none => .error .badWitnessProgram
        | some prog =>
          if 2 ≤ prog.length ∧ prog.length ≤ 40 then .ok (hrp, witver, prog.map UInt8.ofNat)
          else .error .badWitnessProgram

/-- `bech32m_decode` once the address is in lower case. -/
def decodeLower (addr : List Char) : Except AddressError (List Char × ℕ × Bytes) :=
  match rfind '1' addr with
  | none => .error .malformed
  | some pos =>
    if pos < 1 ∨ addr.length < pos + 7 ∨ 90 < addr.length then .error .malformed
    else if (addr.drop (pos + 1)).any (fun c => decide (c ∉ charset)) then
      .error .invalidDataCharacter
    else decodeData (addr.take pos) ((addr.drop (pos + 1)).map charset.idxOf)

/-- Every character is printable ASCII other than the blank. -/
def Printable (text : List Char) : Prop := ∀ c ∈ text, 33 ≤ c.toNat ∧ c.toNat ≤ 126

-- over the text; the instance found by search would run through all characters
instance (text : List Char) : Decidable (Printable text) :=
  List.decidableBAll (fun c : Char => 33 ≤ c.toNat ∧ c.toNat ≤ 126) text

/-- `bech32m_decode`. -/
def bech32mDecode (addr : List Char) : Except AddressError (List Char × ℕ × Bytes) :=
  if ¬ Printable addr then .error .invalidCharacter
  else if lower addr ≠ addr ∧ upper addr ≠ addr then .error .mixedCase
  else decodeLower (lower addr)

/-! ### Characters -/

theorem idxOf_symbolChar : ∀ d < 32, charset.idxOf (symbolChar d) = d := by decide

theorem symbolChar_mem : ∀ d < 32, symbolChar d ∈ charset := by decide

theorem idxOf_lt (hc : c ∈ charset) : charset.idxOf c < 2 ^ 5 :=
  List.idxOf_lt_length_iff.mpr hc

theorem symbolChar_idxOf (hc : c ∈ charset) : symbolChar (charset.idxOf c) = c := by
  rw [symbolChar, List.getD_eq_getElem _ _ (List.idxOf_lt_length_iff.mpr hc)]
  exact List.getElem_idxOf _

theorem one_not_mem_charset : '1' ∉ charset := by decide

theorem one_not_mem_symbols (hdata : ∀ d ∈ data, d < 2 ^ 5) : '1' ∉ data.map symbolChar := by
  intro hmem
  obtain ⟨d, hd, hchar⟩ := List.mem_map.mp hmem
  exact one_not_mem_charset (hchar ▸ symbolChar_mem d (hdata d hd))

theorem map_idxOf_symbols (hdata : ∀ d ∈ data, d < 2 ^ 5) :
    (data.map symbolChar).map charset.idxOf = data := by
  rw [List.map_map]
  exact (List.map_congr_left fun d hd => idxOf_symbolChar d (hdata d hd)).trans (List.map_id data)

theorem map_symbols_idxOf (htext : ∀ c ∈ text, c ∈ charset) :
    (text.map charset.idxOf).map symbolChar = text := by
  rw [List.map_map]
  exact (List.map_congr_left fun c hc => symbolChar_idxOf (htext c hc)).trans (List.map_id text)

theorem hrpExpand_lt : ∀ value ∈ hrpExpand hrp, value < 2 ^ 30 := by
  intro value hvalue
  simp only [hrpExpand, List.mem_append, List.mem_map, List.mem_singleton] at hvalue
  rcases hvalue with (⟨c, _, rfl⟩ | rfl) | ⟨c, _, rfl⟩
  · have hc : c.toNat < 2 ^ 32 := c.val.toNat_lt
    rw [Nat.shiftRight_eq_div_pow]
    omega
  · decide
  · exact (mask_lt c.toNat 5).trans (by decide)

theorem map_toNat_map_ofNat {values : List ℕ} (hvalues : ∀ value ∈ values, value < 2 ^ 8) :
    (values.map UInt8.ofNat).map UInt8.toNat = values := by
  rw [List.map_map]
  refine (List.map_congr_left fun value hvalue => ?_).trans (List.map_id values)
  exact UInt8.toNat_ofNat_of_lt' (hvalues value hvalue)

theorem map_ofNat_map_toNat (program : Bytes) :
    (program.map UInt8.toNat).map UInt8.ofNat = program := by
  rw [List.map_map]
  exact (List.map_congr_left fun byte _ => UInt8.ofNat_toNat).trans (List.map_id program)

theorem map_toNat_lt (program : Bytes) : ∀ value ∈ program.map UInt8.toNat, value < 2 ^ 8 := by
  intro value hvalue
  obtain ⟨byte, _, rfl⟩ := List.mem_map.mp hvalue
  exact byte.toNat_lt

theorem rfind_of_not_mem (hc : c ∉ text) : rfind c text = none := by
  induction text with
  | nil => rfl
  | cons d text ih =>
    rw [List.mem_cons, not_or] at hc
    rw [rfind, ih hc.2]
    exact if_neg fun heq => hc.1 heq.symm

theorem rfind_append (front : List Char) {back : List Char} (hback : c ∉ back) :
    rfind c (front ++ c :: back) = some front.length := by
  induction front with
  | nil => simp [rfind, rfind_of_not_mem hback]
  | cons d front ih => simp [rfind, ih]

theorem exists_of_rfind {pos : ℕ} (h : rfind c text = some pos) :
    ∃ front back, text = front ++ c :: back ∧ front.length = pos ∧ c ∉ back := by
  by_cases hmem : c ∈ text
  · -- the first occurrence in the reversed text is the last one
    obtain ⟨back, front, hsplit, hback⟩ := List.eq_append_cons_of_mem (List.mem_reverse.mpr hmem)
    have htext : text = front.reverse ++ c :: back.reverse := by
      rw [← List.reverse_reverse text, hsplit]
      simp
    have hback' : c ∉ back.reverse := fun hc => hback (List.mem_reverse.mp hc)
    rw [htext, rfind_append _ hback'] at h
    exact ⟨front.reverse, back.reverse, htext, Option.some.inj h, hback'⟩
  · rw [rfind_of_not_mem hmem] at h
    cases h

/-! ### What is accepted -/

/-- The symbols an address has between the separator and its end. -/
def dataSymbols (hrp : List Char) (data : List ℕ) : List ℕ :=
  data ++ checksumSymbols (polymod (hrpExpand hrp ++ data ++ List.replicate 6 0) ^^^ bech32mConst)

theorem encodeData_eq (hrp : List Char) (data : List ℕ) :
    encodeData hrp data = hrp ++ '1' :: (dataSymbols hrp data).map symbolChar := by
  rw [dataSymbols, List.map_append]
  rfl

/-- A version and a program as the decoder accepts them, and the groups they are written in. -/
structure Writes (witver : ℕ) (program : Bytes) (groups : List ℕ) : Prop where
  version_le : witver ≤ 16
  two_le : 2 ≤ program.length
  le_forty : program.length ≤ 40
  groups_eq : convertbits (program.map UInt8.toNat) 8 5 true = some groups

theorem Writes.groups_lt (hwrites : Writes witver program groups) :
    ∀ group ∈ groups, group < 2 ^ 5 :=
  ((convertbits_pad_iff (by decide) (map_toNat_lt program)).mp hwrites.groups_eq).1

theorem decodeData_eq_ok_iff {hrp hrp' : List Char} {witver : ℕ} {program : Bytes}
    (hdata : ∀ d ∈ data, d < 2 ^ 5) (hlength : 6 ≤ data.length) :
    decodeData hrp data = .ok (hrp', witver, program) ↔
      hrp' = hrp ∧ ∃ groups, Writes witver program groups ∧
        data = dataSymbols hrp (witver :: groups) := by
  obtain ⟨body, check, rfl, hcheck⟩ : ∃ body check, data = body ++ check ∧ check.length = 6 :=
    ⟨data.take (data.length - 6), data.drop (data.length - 6), (List.take_append_drop _ _).symm,
      by rw [List.length_drop]; omega⟩
  have hbodyLt : ∀ d ∈ body, d < 2 ^ 5 := fun d hd => hdata d (List.mem_append_left _ hd)
  have hvalues : ∀ value ∈ hrpExpand hrp ++ body, value < 2 ^ 30 := by
    intro value hvalue
    rcases List.mem_append.mp hvalue with hmem | hmem
    · exact hrpExpand_lt value hmem
    · exact (hbodyLt value hmem).trans (by decide)
  have hright := polymod_append_iff hvalues (fun d hd => hdata d (List.mem_append_right _ hd)) hcheck
  have htake : (body ++ check).take ((body ++ check).length - 6) = body := by
    rw [List.length_append, hcheck, Nat.add_sub_cancel]
    exact List.take_left
  rw [decodeData, htake, ← List.append_assoc]
  constructor
  · -- each test of the decoder is a field of `Writes`
    intro hdecode
    split_ifs at hdecode with hsum
    rw [not_not, hright] at hsum
    cases body with
    | nil => simp at hdecode
    | cons version groups =>
      simp only at hdecode
      split_ifs at hdecode with hversion
      cases hconvert : convertbits groups 5 8 false with
      | none => simp [hconvert] at hdecode
      | some prog =>
        simp only [hconvert] at hdecode
        split_ifs at hdecode with hsize
        obtain ⟨rfl, rfl, rfl⟩ : hrp = hrp' ∧ version = witver ∧
            prog.map UInt8.ofNat = program := by
          simpa using hdecode
        have hgroups : ∀ group ∈ groups, group < 2 ^ 5 :=
          fun group hgroup => hbodyLt group (List.mem_cons_of_mem _ hgroup)
        have hprog := ((convertbits_strict_iff (by decide) hgroups).mp hconvert).1
        refine ⟨rfl, groups, ⟨Nat.not_lt.mp hversion, by simpa using hsize.1,
          by simpa using hsize.2, ?_⟩, by rw [dataSymbols, ← hsum]⟩
        rw [map_toNat_map_ofNat hprog]
        exact (convertbits_strict_iff_pad (by decide) hprog (by decide) hgroups).mp hconvert
  · rintro ⟨rfl, groups, hwrites, hsymbols⟩
    obtain ⟨rfl, hcheckEq⟩ := List.append_inj' hsymbols (by rw [hcheck, length_checksumSymbols])
    have hconvert := (convertbits_strict_iff_pad (by decide) (map_toNat_lt program) (by decide)
      hwrites.groups_lt).mpr hwrites.groups_eq
    rw [if_neg (not_not.mpr (hright.mpr hcheckEq))]
    simp only [Nat.not_lt.mpr hwrites.version_le, if_false, hconvert, List.length_map,
      hwrites.two_le, hwrites.le_forty, and_self, if_true, map_ofNat_map_toNat]

theorem dataSymbols_lt (hrp : List Char) (hdata : ∀ d ∈ data, d < 2 ^ 5) :
    ∀ d ∈ dataSymbols hrp data, d < 2 ^ 5 := by
  intro d hd
  rcases List.mem_append.mp hd with hmem | hmem
  · exact hdata d hmem
  · exact checksumSymbols_lt hmem

@[simp] theorem length_dataSymbols (hrp : List Char) (data : List ℕ) :
    (dataSymbols hrp data).length = data.length + 6 := by
  rw [dataSymbols, List.length_append, length_checksumSymbols]

theorem Writes.data_lt (hwrites : Writes witver program groups) :
    ∀ d ∈ witver :: groups, d < 2 ^ 5 := by
  intro d hd
  rcases List.mem_cons.mp hd with rfl | hmem
  · exact hwrites.version_le.trans_lt (by decide)
  · exact hwrites.groups_lt d hmem

theorem Writes.symbols_lt (hwrites : Writes witver program groups) (hrp : List Char) :
    ∀ d ∈ dataSymbols hrp (witver :: groups), d < 2 ^ 5 :=
  dataSymbols_lt hrp hwrites.data_lt

/-- An address splits at its last `1`, into the human-readable part and the symbols. -/
theorem decodeLower_append {hrp back : List Char} (hback : '1' ∉ back) :
    decodeLower (hrp ++ '1' :: back) =
      if hrp.length < 1 ∨ back.length < 6 ∨ 90 < hrp.length + 1 + back.length then
        .error .malformed
      else if back.any (fun c => decide (c ∉ charset)) then .error .invalidDataCharacter
      else decodeData hrp (back.map charset.idxOf) := by
  have hlength : (hrp ++ '1' :: back).length = hrp.length + 1 + back.length := by
    rw [List.length_append, List.length_cons]
    omega
  have htake : (hrp ++ '1' :: back).take hrp.length = hrp := List.take_left
  have hdrop : (hrp ++ '1' :: back).drop (hrp.length + 1) = back := by
    rw [← List.drop_drop, List.drop_left]
    rfl
  have hbound : hrp.length + 1 + back.length < hrp.length + 7 ↔ back.length < 6 := by omega
  rw [decodeLower, rfind_append hrp hback]
  simp only [hlength, htake, hdrop, hbound]

theorem decodeLower_eq_ok_iff {addr hrp : List Char} {witver : ℕ} {program : Bytes} :
    decodeLower addr = .ok (hrp, witver, program) ↔
      hrp ≠ [] ∧ addr.length ≤ 90 ∧
        ∃ groups, Writes witver program groups ∧ addr = encodeData hrp (witver :: groups) := by
  constructor
  · intro hdecode
    cases hfind : rfind '1' addr with
    | none => simp [decodeLower, hfind] at hdecode
    | some pos =>
      obtain ⟨front, back, rfl, _, hback⟩ := exists_of_rfind hfind
      rw [decodeLower_append hback] at hdecode
      split_ifs at hdecode with hlengths hchars
      simp only [not_or, Nat.not_lt] at hlengths
      have hmem : ∀ c ∈ back, c ∈ charset := by simpa using hchars
      have hsymbols : ∀ d ∈ back.map charset.idxOf, d < 2 ^ 5 := by
        intro d hd
        obtain ⟨c, hc, rfl⟩ := List.mem_map.mp hd
        exact idxOf_lt (hmem c hc)
      obtain ⟨rfl, groups, hwrites, hdata⟩ :=
        (decodeData_eq_ok_iff hsymbols (by rw [List.length_map]; exact hlengths.2.1)).mp hdecode
      refine ⟨List.length_pos_iff.mp hlengths.1, ?_, groups, hwrites, ?_⟩
      · rw [List.length_append, List.length_cons]
        omega
      · rw [encodeData_eq, ← hdata, map_symbols_idxOf hmem]
  · rintro ⟨hhrp, hlength, groups, hwrites, rfl⟩
    have hsymbols := hwrites.symbols_lt hrp
    have hchars : ((dataSymbols hrp (witver :: groups)).map symbolChar).any
        (fun c => decide (c ∉ charset)) = false := by
      simp only [List.any_eq_false, List.mem_map, decide_eq_true_eq, not_not]
      rintro c ⟨d, hd, rfl⟩
      exact symbolChar_mem d (hsymbols d hd)
    rw [encodeData_eq] at hlength ⊢
    rw [List.length_append, List.length_cons] at hlength
    rw [decodeLower_append (one_not_mem_symbols hsymbols), hchars, map_idxOf_symbols hsymbols,
      if_neg, if_neg Bool.false_ne_true]
    · exact (decodeData_eq_ok_iff hsymbols (by simp)).mpr ⟨rfl, groups, hwrites, rfl⟩
    · have hpos := List.length_pos_iff.mpr hhrp
      have hsize : 6 ≤ ((dataSymbols hrp (witver :: groups)).map symbolChar).length := by simp
      omega

theorem length_lower (text : List Char) : (lower text).length = text.length := List.length_map _

/-- **What the decoder accepts.**  The texts that the encoder writes for a version and a program
in range, in lower or in upper case, of at most 90 characters. -/
theorem bech32mDecode_eq_ok_iff {addr hrp : List Char} {witver : ℕ} {program : Bytes} :
    bech32mDecode addr = .ok (hrp, witver, program) ↔
      Printable addr ∧ (lower addr = addr ∨ upper addr = addr) ∧ hrp ≠ [] ∧ addr.length ≤ 90 ∧
        ∃ groups, Writes witver program groups ∧
          lower addr = encodeData hrp (witver :: groups) := by
  rw [bech32mDecode, ← length_lower addr]
  by_cases hprintable : Printable addr
  · by_cases hcase : lower addr ≠ addr ∧ upper addr ≠ addr
    · simp [hprintable, hcase]
    · have hone : lower addr = addr ∨ upper addr = addr := by
        simpa only [not_and_or, not_not] using hcase
      simp only [hprintable, hcase, hone, not_true, if_false, true_and, decodeLower_eq_ok_iff]
  · simp [hprintable]

theorem Writes.bech32mEncode_eq (hwrites : Writes witver program groups) (hrp : List Char) :
    bech32mEncode hrp witver program = some (encodeData hrp (witver :: groups)) := by
  have hversion : ¬ 32 ≤ witver := by
    have := hwrites.version_le
    omega
  rw [bech32mEncode, hwrites.groups_eq]
  exact if_neg hversion

/-! ### One wrong character -/

theorem polymod_dataSymbols (hdata : ∀ d ∈ data, d < 2 ^ 5) :
    polymod (hrpExpand hrp ++ dataSymbols hrp data) = bech32mConst := by
  have hvalues : ∀ value ∈ hrpExpand hrp ++ data, value < 2 ^ 30 := by
    intro value hvalue
    rcases List.mem_append.mp hvalue with hmem | hmem
    · exact hrpExpand_lt value hmem
    · exact (hdata value hmem).trans (by decide)
  rw [dataSymbols, ← List.append_assoc]
  exact (polymod_append_iff hvalues (fun _ => checksumSymbols_lt)
    (length_checksumSymbols _)).mpr rfl

/-- Two addresses with one human-readable part that differ in at most one data character are the
same. -/
theorem eq_of_encodeData {hrp before after : List Char} {old new : Char} {data data' : List ℕ}
    (hdata : ∀ d ∈ dataSymbols hrp data, d < 2 ^ 5)
    (hright : polymod (hrpExpand hrp ++ dataSymbols hrp data) = bech32mConst)
    (hdata' : ∀ d ∈ dataSymbols hrp data', d < 2 ^ 5)
    (hright' : polymod (hrpExpand hrp ++ dataSymbols hrp data') = bech32mConst)
    (hold : before ++ old :: after = (dataSymbols hrp data).map symbolChar)
    (hnew : before ++ new :: after = (dataSymbols hrp data').map symbolChar) : old = new := by
  have hsymbols := congrArg (List.map charset.idxOf) hold
  have hsymbols' := congrArg (List.map charset.idxOf) hnew
  rw [map_idxOf_symbols hdata, List.map_append, List.map_cons] at hsymbols
  rw [map_idxOf_symbols hdata', List.map_append, List.map_cons] at hsymbols'
  have hmem : ∀ {c : Char} {symbols : List ℕ}, (∀ d ∈ symbols, d < 2 ^ 5) →
      c ∈ symbols.map symbolChar → c ∈ charset := by
    intro c symbols hsymbols hc
    obtain ⟨d, hd, rfl⟩ := List.mem_map.mp hc
    exact symbolChar_mem d (hsymbols d hd)
  have holdMem : old ∈ charset := hmem hdata (hold ▸ by simp)
  have hnewMem : new ∈ charset := hmem hdata' (hnew ▸ by simp)
  by_contra hne
  have hindex : charset.idxOf old ≠ charset.idxOf new := fun heq =>
    hne (by rw [← symbolChar_idxOf holdMem, heq, symbolChar_idxOf hnewMem])
  rw [← hsymbols, ← List.append_assoc, polymod_eq_run] at hright
  rw [← hsymbols', ← List.append_assoc, polymod_eq_run] at hright'
  exact polymodAdvance_isLinear.run_ne_of_symbol_ne 1 _ _ ((idxOf_lt holdMem).trans (by decide))
    ((idxOf_lt hnewMem).trans (by decide)) hindex (hright.trans hright'.symm)

theorem eq_of_separator {front front' back back' : List Char} (hback : c ∉ back)
    (hback' : c ∉ back') (h : front ++ c :: back = front' ++ c :: back') :
    front = front' ∧ back = back' := by
  have hlength : front.length = front'.length := by
    have hfind := rfind_append front hback
    rw [h, rfind_append front' hback'] at hfind
    exact (Option.some.inj hfind).symm
  obtain ⟨hfront, hrest⟩ := List.append_inj h hlength
  exact ⟨hfront, (List.cons.inj hrest).2⟩

theorem exists_behind_separator {text after front back : List Char} {c separator : Char}
    (h : text ++ c :: after = front ++ separator :: back) (hlt : front.length < text.length) :
    ∃ between, text = front ++ separator :: between ∧ between ++ c :: after = back := by
  rcases List.append_eq_append_iff.mp h with ⟨more, hfront, _⟩ | ⟨more, htext, hrest⟩
  · rw [hfront, List.length_append] at hlt
    omega
  · cases more with
    | nil =>
      rw [htext, List.append_nil] at hlt
      exact absurd hlt (lt_irrefl _)
    | cons d between =>
      obtain ⟨rfl, hback⟩ := List.cons.inj hrest
      exact ⟨between, htext, hback.symm⟩

theorem bech32mDecode_replaced {before after hrp : List Char} {old new : Char} {witver : ℕ}
    {program : Bytes} (hold : bech32mDecode (before ++ old :: after) = .ok (hrp, witver, program))
    (hposition : hrp.length < before.length) (hnew : new.toLower ∈ charset)
    (hne : new.toLower ≠ old.toLower) :
    ∃ refusal, bech32mDecode (before ++ new :: after) = .error refusal := by
  cases hdecode : bech32mDecode (before ++ new :: after) with
  | error refusal => exact ⟨refusal, rfl⟩
  | ok result =>
    exfalso
    obtain ⟨hrp', witver', program'⟩ := result
    obtain ⟨-, -, -, -, groups, hwrites, htext⟩ := bech32mDecode_eq_ok_iff.mp hold
    obtain ⟨-, -, -, -, groups', hwrites', htext'⟩ := bech32mDecode_eq_ok_iff.mp hdecode
    have hlower : ∀ c, lower (before ++ c :: after) = lower before ++ c.toLower :: lower after :=
      fun c => by simp [lower]
    rw [hlower, encodeData_eq] at htext htext'
    -- the replaced character stands behind the separator
    obtain ⟨between, hbefore, hsymbols⟩ :=
      exists_behind_separator htext (by rwa [length_lower])
    rw [hbefore, List.append_assoc, List.cons_append] at htext'
    have hone : '1' ∉ between ++ new.toLower :: lower after := by
      have hclear := one_not_mem_symbols (hwrites.symbols_lt hrp)
      rw [← hsymbols] at hclear
      simp only [List.mem_append, List.mem_cons, not_or] at hclear ⊢
      exact ⟨hclear.1, fun heq => one_not_mem_charset (heq ▸ hnew), hclear.2.2⟩
    obtain ⟨rfl, hsymbols'⟩ :=
      eq_of_separator hone (one_not_mem_symbols (hwrites'.symbols_lt hrp')) htext'
    exact hne (eq_of_encodeData (hwrites.symbols_lt hrp) (polymod_dataSymbols hwrites.data_lt)
      (hwrites'.symbols_lt hrp) (polymod_dataSymbols hwrites'.data_lt) hsymbols hsymbols').symm

/-! ## The addresses of the pool -/

/-- The witness version of v3 addresses. -/
def witverV3 : ℕ := 3

/-- The bytes of their programs. -/
def witnessV3Size : ℕ := 32

/-- `REGTEST_HRP`. -/
def regtestHrp : List Char := ['n', 'x', 'r', 't']

/-- `KNOWN_HRPS`. -/
def knownHrps : List (List Char) := [['x', 'p', 'a'], ['t', 'x', 'a'], regtestHrp]

/-- A human-readable part an address can have: at least one and at most 30 printable characters,
none of them an upper-case letter.  With 30 characters a 32-byte program fills the 90 of an
address. -/
structure HandledHrp (hrp : List Char) : Prop where
  ne_nil : hrp ≠ []
  length_le : hrp.length ≤ 30
  printable : Printable hrp
  lower_eq : lower hrp = hrp

theorem handledHrp_of_known (hknown : hrp ∈ knownHrps) : HandledHrp hrp := by
  rw [knownHrps, List.mem_cons, List.mem_cons, List.mem_singleton] at hknown
  rcases hknown with rfl | rfl | rfl <;>
    exact ⟨by decide, by decide, by decide, by decide⟩

theorem symbolChar_printable :
    ∀ d < 32, 33 ≤ (symbolChar d).toNat ∧ (symbolChar d).toNat ≤ 126 := by decide

theorem toLower_symbolChar : ∀ d < 32, (symbolChar d).toLower = symbolChar d := by decide

theorem HandledHrp.encodeData_clean (hhrp : HandledHrp hrp) (hdata : ∀ d ∈ data, d < 2 ^ 5) :
    Printable (encodeData hrp data) ∧ lower (encodeData hrp data) = encodeData hrp data := by
  have hsymbols := dataSymbols_lt hrp hdata
  rw [encodeData_eq]
  constructor
  · intro c hc
    rcases List.mem_append.mp hc with hmem | hmem
    · exact hhrp.printable c hmem
    · rcases List.mem_cons.mp hmem with rfl | hmem
      · decide
      · obtain ⟨d, hd, rfl⟩ := List.mem_map.mp hmem
        exact symbolChar_printable d (hsymbols d hd)
  · have hlower : lower ((dataSymbols hrp data).map symbolChar) =
        (dataSymbols hrp data).map symbolChar := by
      rw [lower, List.map_map]
      exact List.map_congr_left fun d hd => toLower_symbolChar d (hsymbols d hd)
    calc lower (hrp ++ '1' :: (dataSymbols hrp data).map symbolChar)
        = lower hrp ++ '1' :: lower ((dataSymbols hrp data).map symbolChar) := by simp [lower]
      _ = hrp ++ '1' :: (dataSymbols hrp data).map symbolChar := by rw [hhrp.lower_eq, hlower]

theorem HandledHrp.decode_encode (hhrp : HandledHrp hrp) {program : Bytes}
    (hprogram : program.length = witnessV3Size) :
    ∃ addr, bech32mEncode hrp witverV3 program = some addr ∧
      bech32mDecode addr = .ok (hrp, witverV3, program) := by
  have hsize : program.length = 32 := hprogram
  obtain ⟨groups, hgroups, _, k, hk, hflat⟩ :=
    exists_convertbits_pad (show 0 < 5 by decide) (map_toNat_lt program)
  have hcount : groups.length = 52 := by
    have hlength := congrArg List.length hflat
    rw [List.length_append, length_flat, length_flat, List.length_map, hsize,
      List.length_replicate] at hlength
    omega
  have hwrites : Writes witverV3 program groups :=
    ⟨by decide, by omega, by omega, hgroups⟩
  obtain ⟨hprintable, hlower⟩ := hhrp.encodeData_clean hwrites.data_lt
  refine ⟨_, hwrites.bech32mEncode_eq hrp, bech32mDecode_eq_ok_iff.mpr
    ⟨hprintable, Or.inl hlower, hhrp.ne_nil, ?_, groups, hwrites, hlower⟩⟩
  have hle := hhrp.length_le
  rw [encodeData_eq, List.length_append, List.length_cons, List.length_map, length_dataSymbols,
    List.length_cons, hcount]
  omega

/-- **Addresses.**  The decoder inverts the encoder, the encoder the decoder up to the case of the
text, and one data character that stands for another symbol is always noticed. -/
theorem bech32m_roundTrip :
    (∀ hrp program, HandledHrp hrp → program.length = witnessV3Size →
      ∃ addr, bech32mEncode hrp witverV3 program = some addr ∧
        bech32mDecode addr = .ok (hrp, witverV3, program)) ∧
    (∀ addr hrp witver program, bech32mDecode addr = .ok (hrp, witver, program) →
      bech32mEncode hrp witver program = some (lower addr)) ∧
    (∀ before old after new hrp witver program,
      bech32mDecode (before ++ old :: after) = .ok (hrp, witver, program) →
      hrp.length < before.length → Char.toLower new ∈ charset →
      Char.toLower new ≠ Char.toLower old →
        ∃ refusal, bech32mDecode (before ++ new :: after) = .error refusal) := by
  refine ⟨fun hrp program hhrp => hhrp.decode_encode, ?_, ?_⟩
  · intro addr hrp witver program hdecode
    obtain ⟨-, -, -, -, groups, hwrites, htext⟩ := bech32mDecode_eq_ok_iff.mp hdecode
    rw [htext]
    exact hwrites.bech32mEncode_eq hrp
  · intro before old after new hrp witver program hold hposition hnew hne
    exact bech32mDecode_replaced hold hposition hnew hne

/-- An address whose only letter is a data character. -/
def oneLetterAddress (letter : Char) : List Char :=
  ['2', '1', '2', '7', '0', '6'] ++ letter :: ['8', '9', '3', '3', '9', '9']

theorem decode_oneLetterAddress :
    bech32mDecode (oneLetterAddress 'S') = .ok (['2'], 10, [0xf3, 0xf5]) ∧
      bech32mDecode (oneLetterAddress 's') = .ok (['2'], 10, [0xf3, 0xf5]) := by
  decide

/-- An address whose only letter is one data character may have it in either case, so this
character can be replaced by one of the charset that differs from it. -/
theorem only_letter_replaced :
    's' ∈ charset ∧ 's' ≠ 'S' ∧
      bech32mDecode (['2', '1', '2', '7', '0', '6'] ++ 'S' :: ['8', '9', '3', '3', '9', '9']) =
        .ok (['2'], 10, [0xf3, 0xf5]) ∧
      bech32mDecode (['2', '1', '2', '7', '0', '6'] ++ 's' :: ['8', '9', '3', '3', '9', '9']) =
        .ok (['2'], 10, [0xf3, 0xf5]) :=
  ⟨by decide, by decide, decode_oneLetterAddress⟩

/-- A program of mainnet, an address in upper case, and one with another letter in its place. -/
theorem mainnet_roundTrip :
    (∃ addr, bech32mEncode ['x', 'p', 'a'] witverV3 (List.replicate 32 7) = some addr ∧
      bech32mDecode addr = .ok (['x', 'p', 'a'], witverV3, List.replicate 32 7)) ∧
    bech32mEncode ['2'] 10 [0xf3, 0xf5] = some (lower (oneLetterAddress 'S')) ∧
    ∃ refusal, bech32mDecode (oneLetterAddress 'q') = .error refusal := by
  have hdecode := decode_oneLetterAddress.1
  obtain ⟨hencodes, hdecodes, hreplaced⟩ := bech32m_roundTrip
  exact ⟨hencodes _ _ (handledHrp_of_known (by decide)) (by decide), hdecodes _ _ _ _ hdecode,
    hreplaced ['2', '1', '2', '7', '0', '6'] 'S' ['8', '9', '3', '3', '9', '9'] 'q' _ _ _ hdecode
      (by decide) (by decide) (by decide)⟩

end XCoin.Pool
