import Mathlib

/-!
# Merkle trees over lists

A level is reduced to the next one by combining neighbours; a level of odd length first
repeats its last element.  The root is what is left of a list that is reduced until one element
remains.  The branch of the leftmost leaf collects its neighbour in every level.  The branch
does not depend on the leaf, and folding it from the leaf gives the root.

Nothing is assumed of the function that combines two elements.
-/

namespace MerkleTree

variable {α : Type} (combine : α → α → α)

/-- A level of even length: the last element is repeated if there is an odd one. -/
def evenUp (xs : List α) : List α :=
  if xs.length % 2 = 1 then xs ++ xs.getLast?.toList else xs

/-- Neighbours combined. -/
def pairs : List α → List α
  | a :: b :: rest => combine a b :: pairs rest
  | _ => []

/-- The next level. -/
def level (xs : List α) : List α := pairs combine (evenUp xs)

/-- The reduction to one element. -/
def reduce : ℕ → List α → List α
  | 0, xs => xs
  | fuel + 1, xs => if xs.length ≤ 1 then xs else reduce fuel (level combine xs)

/-- The neighbours of the leftmost leaf. -/
def branch : ℕ → List α → List α
  | 0, _ => []
  | fuel + 1, xs =>
    if xs.length ≤ 1 then []
    else (evenUp xs)[1]?.toList ++ branch fuel (level combine xs)

/-! ## Levels -/

theorem evenUp_cons_cons (a b : α) (rest : List α) :
    evenUp (a :: b :: rest) = a :: b :: evenUp rest := by
  have hparity : (a :: b :: rest).length % 2 = rest.length % 2 := by
    rw [List.length_cons, List.length_cons]
    omega
  unfold evenUp
  rw [hparity]
  split_ifs with hodd
  · -- an odd rest is not empty, so the last element is in it
    obtain ⟨c, more, rfl⟩ : ∃ c more, rest = c :: more := by
      apply List.exists_cons_of_ne_nil
      intro hempty
      rw [hempty, List.length_nil] at hodd
      cases hodd
    rw [List.getLast?_cons_cons, List.getLast?_cons_cons]
    rfl
  · rfl

theorem level_nil : level combine [] = [] := rfl

theorem level_singleton (a : α) : level combine [a] = [combine a a] := rfl

theorem level_cons_cons (a b : α) (rest : List α) :
    level combine (a :: b :: rest) = combine a b :: level combine rest := by
  rw [level, evenUp_cons_cons, pairs, level]

/-- A level is half as long as the one before, rounded up. -/
theorem length_level : ∀ xs : List α, (level combine xs).length = (xs.length + 1) / 2
  | [] => by rw [level_nil, List.length_nil]
  | [a] => by rw [level_singleton, List.length_singleton, List.length_singleton]
  | a :: b :: rest => by
    rw [level_cons_cons, List.length_cons, length_level rest, List.length_cons, List.length_cons]
    omega

/-! ## The leftmost leaf -/

theorem reduce_cons_cons (fuel : ℕ) (a b : α) (rest : List α) :
    reduce combine (fuel + 1) (a :: b :: rest) =
      reduce combine fuel (combine a b :: level combine rest) := by
  rw [reduce, if_neg (by simp), level_cons_cons]

theorem branch_cons_cons (fuel : ℕ) (a b : α) (rest : List α) :
    branch combine (fuel + 1) (a :: b :: rest) =
      b :: branch combine fuel (combine a b :: level combine rest) := by
  rw [branch, if_neg (by simp), level_cons_cons, evenUp_cons_cons]
  rfl

/-- **The branch.**  Folded from any leaf it gives the root of the list that starts with that
leaf, whatever leaf it was computed with. -/
theorem reduce_eq_foldl_branch :
    ∀ (fuel : ℕ) (leaf placeholder : α) (rest : List α), rest.length ≤ fuel →
      reduce combine fuel (leaf :: rest) =
        [(branch combine fuel (placeholder :: rest)).foldl combine leaf] := by
  intro fuel
  induction fuel with
  | zero =>
    intro leaf placeholder rest hlength
    rw [List.eq_nil_of_length_eq_zero (Nat.le_zero.mp hlength)]
    rfl
  | succ fuel ih =>
    intro leaf placeholder rest hlength
    cases rest with
    | nil => rfl
    | cons b rest =>
      have hshorter : (level combine rest).length ≤ fuel := by
        rw [length_level]
        rw [List.length_cons] at hlength
        omega
      rw [reduce_cons_cons, branch_cons_cons, List.foldl_cons]
      exact ih (combine leaf b) (combine placeholder b) (level combine rest) hshorter

/-! ## Another representation of the elements -/

section Map

variable {β : Type} {combine} {combine' : β → β → β} {f : α → β}

theorem map_level (hcombine : ∀ a b, f (combine a b) = combine' (f a) (f b)) :
    ∀ xs : List α, (level combine xs).map f = level combine' (xs.map f)
  | [] => rfl
  | [a] => by
    rw [level_singleton, List.map_singleton, List.map_singleton, level_singleton, hcombine]
  | a :: b :: rest => by
    rw [level_cons_cons, List.map_cons, hcombine, map_level hcombine rest, List.map_cons,
      List.map_cons, level_cons_cons]

theorem map_reduce (hcombine : ∀ a b, f (combine a b) = combine' (f a) (f b)) :
    ∀ (fuel : ℕ) (xs : List α),
      (reduce combine fuel xs).map f = reduce combine' fuel (xs.map f) := by
  intro fuel
  induction fuel with
  | zero =>
    intro xs
    rfl
  | succ fuel ih =>
    intro xs
    rw [reduce, reduce, List.length_map]
    split_ifs with hdone
    · rfl
    · rw [ih, map_level hcombine]

end Map

end MerkleTree
