import XCoin.Lib.BitGroups

/-!
# Linear checksum registers

A checksum register keeps a number of fixed width, advances it for every symbol and adds
the symbol by exclusive or.  If advancing is linear and sends no number but zero to zero,
two inputs that differ in one symbol leave two different registers, however long the input
is: the difference is advanced with the register and never vanishes.

The last symbols of an input can be chosen to leave any register one likes.  As long as no
bit has left the top of the register, advancing is a shift, so a few symbols from zero are
written into it as they stand (`bitsOf_run_zero`).
-/

namespace XorRegister

open BitGroups

/-- The register after the symbols. -/
def run (advance : ℕ → ℕ) (register : ℕ) (symbols : List ℕ) : ℕ :=
  symbols.foldl (fun register symbol => advance register ^^^ symbol) register

/-- Advancing a register of `width` bits is linear, stays in the width and only sends zero to
zero. -/
structure IsLinear (advance : ℕ → ℕ) (width : ℕ) : Prop where
  map_xor : ∀ a b, advance (a ^^^ b) = advance a ^^^ advance b
  lt_two_pow : ∀ a, a < 2 ^ width → advance a < 2 ^ width
  eq_zero : ∀ a, a < 2 ^ width → advance a = 0 → a = 0

variable {advance : ℕ → ℕ} {width a b : ℕ} {symbols : List ℕ}

@[simp] theorem run_nil : run advance a [] = a := rfl

@[simp] theorem run_cons (symbol : ℕ) :
    run advance a (symbol :: symbols) = run advance (advance a ^^^ symbol) symbols := rfl

@[simp] theorem run_append (more : List ℕ) :
    run advance a (symbols ++ more) = run advance (run advance a symbols) more :=
  List.foldl_append

namespace IsLinear

theorem run_lt (hlinear : IsLinear advance width) (hsymbols : ∀ symbol ∈ symbols, symbol < 2 ^ width)
    (ha : a < 2 ^ width) : run advance a symbols < 2 ^ width := by
  induction symbols generalizing a with
  | nil => exact ha
  | cons symbol symbols ih =>
    have hsymbol := hsymbols symbol List.mem_cons_self
    exact ih (fun s hs => hsymbols s (List.mem_cons_of_mem _ hs))
      (Nat.xor_lt_two_pow (hlinear.lt_two_pow a ha) hsymbol)

theorem iterate_ne_zero (hlinear : IsLinear advance width) (ha : a < 2 ^ width) (h0 : a ≠ 0)
    (n : ℕ) : advance^[n] a ≠ 0 := by
  induction n generalizing a with
  | zero => exact h0
  | succ n ih =>
    rw [Function.iterate_succ_apply]
    exact ih (hlinear.lt_two_pow a ha) fun hzero => h0 (hlinear.eq_zero a ha hzero)

/-- The difference of two registers is advanced once for every symbol. -/
theorem run_xor_run (hlinear : IsLinear advance width) (a b : ℕ) (symbols : List ℕ) :
    run advance a symbols ^^^ run advance b symbols = advance^[symbols.length] (a ^^^ b) := by
  induction symbols generalizing a b with
  | nil => rfl
  | cons symbol symbols ih =>
    have hstep : advance a ^^^ symbol ^^^ (advance b ^^^ symbol) = advance (a ^^^ b) := by
      rw [hlinear.map_xor, Nat.xor_comm (advance b), ← Nat.xor_assoc, Nat.xor_assoc (advance a),
        Nat.xor_self, Nat.xor_zero]
    rw [run_cons, run_cons, ih, hstep, List.length_cons, Function.iterate_succ_apply]

/-- **One wrong symbol.**  Inputs that differ in exactly one symbol leave different registers. -/
theorem run_ne_of_symbol_ne (hlinear : IsLinear advance width) (a : ℕ) (before after : List ℕ)
    {symbol other : ℕ} (hsymbol : symbol < 2 ^ width) (hother : other < 2 ^ width)
    (hne : symbol ≠ other) :
    run advance a (before ++ symbol :: after) ≠ run advance a (before ++ other :: after) := by
  intro heq
  rw [run_append, run_append, run_cons, run_cons] at heq
  have hdifference := hlinear.run_xor_run (advance (run advance a before) ^^^ symbol)
    (advance (run advance a before) ^^^ other) after
  rw [heq, Nat.xor_self, Nat.xor_comm (advance (run advance a before)) symbol, Nat.xor_assoc,
    ← Nat.xor_assoc (advance (run advance a before)), Nat.xor_self, Nat.zero_xor] at hdifference
  refine hlinear.iterate_ne_zero (Nat.xor_lt_two_pow hsymbol hother) ?_ after.length
    hdifference.symm
  exact fun hzero => hne (Nat.xor_eq_zero_iff.mp hzero)

/-- The register is that of as many zeros, plus what the symbols leave from zero. -/
theorem run_eq_xor (hlinear : IsLinear advance width) (a : ℕ) (symbols : List ℕ) :
    run advance a symbols =
      run advance a (List.replicate symbols.length 0) ^^^ run advance 0 symbols := by
  induction symbols using List.reverseRecOn generalizing a with
  | nil => simp
  | append_singleton symbols symbol ih =>
    rw [List.length_append, List.length_singleton, List.replicate_add, run_append, run_append,
      run_append, ih a]
    simp only [List.replicate_one, run_cons, run_nil, Nat.xor_zero, hlinear.map_xor,
      Nat.xor_assoc]

end IsLinear

/-- Symbols of `w` bits are written into a register of zeros as they stand, while they fit. -/
theorem bitsOf_run_zero {w : ℕ} (hshift : ∀ a, a < 2 ^ (width - w) → advance a = a <<< w)
    (hsymbols : ∀ symbol ∈ symbols, symbol < 2 ^ w) (hfits : w * symbols.length ≤ width) :
    run advance 0 symbols < 2 ^ (w * symbols.length) ∧
      bitsOf (w * symbols.length) (run advance 0 symbols) = flat w symbols := by
  induction symbols using List.reverseRecOn with
  | nil => simp [bitsOf]
  | append_singleton symbols symbol ih =>
    rw [List.length_append, List.length_singleton, Nat.mul_add, Nat.mul_one] at hfits ⊢
    obtain ⟨hlt, hbits⟩ := ih (fun s hs => hsymbols s (List.mem_append_left _ hs)) (by omega)
    have hsymbol : symbol < 2 ^ w := hsymbols symbol (by simp)
    have hsmall : run advance 0 symbols < 2 ^ (width - w) :=
      hlt.trans_le (Nat.pow_le_pow_right (by decide) (by omega))
    have hrun : run advance 0 (symbols ++ [symbol]) = run advance 0 symbols <<< w ||| symbol := by
      rw [run_append, run_cons, run_nil, hshift _ hsmall]
      exact shiftLeft_xor_eq_or hsymbol
    rw [hrun, bitsOf_shiftLeft_or _ hsymbol, hbits, flat_append]
    refine ⟨?_, by simp⟩
    apply Nat.or_lt_two_pow
    · rw [Nat.shiftLeft_eq, pow_add]
      exact Nat.mul_lt_mul_of_pos_right hlt (Nat.two_pow_pos w)
    · exact hsymbol.trans_le (Nat.pow_le_pow_right (by decide) (Nat.le_add_left _ _))

end XorRegister
