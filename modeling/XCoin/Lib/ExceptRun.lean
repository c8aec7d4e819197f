import Mathlib

/-!
# Runs of fallible computations

How a sequence of steps in `Except` succeeds: each step does.  Callers take a
successful run apart with these lemmas and never unfold the monad.  `Satisfies` is
for what holds of a run whether it fails or not, with the rule for sequences;
`Narrows` compares two runs of which one fails more often.
-/

namespace Except

universe u v

variable {ε : Type u} {α β : Type v} {x : Except ε α} {f : α → Except ε β}

theorem bind_eq_ok_iff {b : β} : (x >>= f) = .ok b ↔ ∃ a, x = .ok a ∧ f a = .ok b := by
  cases x with
  | error e => simp [bind, Except.bind]
  | ok a => simp [bind, Except.bind]

theorem isOk_iff_exists : x.isOk = true ↔ ∃ a, x = .ok a := by
  cases x with
  | error e => simp [Except.isOk, Except.toBool]
  | ok a => simp [Except.isOk, Except.toBool]

theorem isOk_bind_iff : (x >>= f).isOk = true ↔ ∃ a, x = .ok a ∧ (f a).isOk = true := by
  cases x with
  | error e => simp [bind, Except.bind, Except.isOk, Except.toBool]
  | ok a => simp [bind, Except.bind]

@[simp] theorem isOk_ok (a : α) : (Except.ok a : Except ε α).isOk = true := rfl

@[simp] theorem isOk_error (e : ε) : (Except.error e : Except ε α).isOk = false := rfl

theorem ok_bind (a : α) (f : α → Except ε β) : ((Except.ok a : Except ε α) >>= f) = f a := rfl

theorem pure_eq_ok (a : α) : (pure a : Except ε α) = .ok a := rfl

/-! ## Conditions on both outcomes -/

/-- An error satisfies `E`, a result satisfies `Q`. -/
def Satisfies (E : ε → Prop) (Q : α → Prop) : Except ε α → Prop
  | .error e => E e
  | .ok a => Q a

variable {E E' : ε → Prop} {Q Q' : α → Prop} {R : β → Prop}

theorem Satisfies.imp (hx : x.Satisfies E Q) (hE : ∀ e, E e → E' e) (hQ : ∀ a, Q a → Q' a) :
    x.Satisfies E' Q' := by
  cases x with
  | error e => exact hE e hx
  | ok a => exact hQ a hx

theorem Satisfies.and (hx : x.Satisfies E Q) (hx' : x.Satisfies E' Q') :
    x.Satisfies (fun e => E e ∧ E' e) (fun a => Q a ∧ Q' a) := by
  cases x with
  | error e => exact ⟨hx, hx'⟩
  | ok a => exact ⟨hx, hx'⟩

theorem Satisfies.bind (hx : x.Satisfies E Q) (hf : ∀ a, Q a → (f a).Satisfies E R) :
    (x >>= f).Satisfies E R := by
  cases x with
  | error e => exact hx
  | ok a => exact hf a hx

/-! ## Runs that fail more often -/

/-- Whatever `x` returns, `y` returns too. -/
def Narrows (x y : Except ε α) : Prop := ∀ a, x = .ok a → y = .ok a

theorem Narrows.refl (x : Except ε α) : x.Narrows x := fun _ h => h

theorem narrows_error (e : ε) (y : Except ε α) : (Except.error e).Narrows y := by
  intro a h
  cases h

theorem Narrows.bind {x y : Except ε α} {f g : α → Except ε β} (hx : x.Narrows y)
    (hf : ∀ a, (f a).Narrows (g a)) : (x >>= f).Narrows (y >>= g) := by
  intro b h
  obtain ⟨a, hxa, hfa⟩ := bind_eq_ok_iff.mp h
  exact bind_eq_ok_iff.mpr ⟨a, hx a hxa, hf a b hfa⟩

theorem Narrows.ite {p : Prop} [Decidable p] {x x' y y' : Except ε α} (hx : p → x.Narrows y)
    (hx' : ¬p → x'.Narrows y') : (if p then x else x').Narrows (if p then y else y') := by
  split_ifs with hp
  · exact hx hp
  · exact hx' hp

theorem Narrows.bind_left {x y : Except ε α} {f : α → Except ε β} (hx : x.Narrows y) :
    (x >>= f).Narrows (y >>= f) :=
  hx.bind fun _ => Narrows.refl _

theorem Narrows.ite_right {p : Prop} [Decidable p] {x y y' : Except ε α}
    (hy : ¬p → y.Narrows y') : (if p then x else y).Narrows (if p then x else y') :=
  Narrows.ite (fun _ => Narrows.refl x) hy

theorem Narrows.guard {p q : Prop} [Decidable p] [Decidable q] {x y : Except ε α} {e e' : ε}
    (hpq : q → p) (hxy : x.Narrows y) :
    (if p then .error e else x).Narrows (if q then .error e' else y) := by
  by_cases hp : p
  · rw [if_pos hp]
    exact narrows_error e _
  · rw [if_neg hp, if_neg fun hq => hp (hpq hq)]
    exact hxy

end Except
