import Mathlib

/-!
# Insertion into sorted lists

Ordered sets and ordered maps as the lists of their elements in order.  Two elements of which
neither is less than the other are the same for the container, so that the second one is not
inserted.
-/

namespace SortedInsert

variable {α κ : Type} (less : α → α → Bool)

/-- Insertion into an ordered set. -/
def insert (a : α) : List α → List α
  | [] => [a]
  | b :: rest =>
    if less a b then a :: b :: rest
    else if less b a then b :: insert a rest
    else b :: rest

/-- Insertion into the set that an ordered map holds at a key; a key that is not there gets the
empty set first. -/
def insertAt (keyLess : κ → κ → Bool) (key : κ) (a : α) : List (κ × List α) → List (κ × List α)
  | [] => [(key, [a])]
  | (key', set) :: rest =>
    if keyLess key key' then (key, [a]) :: (key', set) :: rest
    else if keyLess key' key then (key', set) :: insertAt keyLess key a rest
    else (key', insert less a set) :: rest

variable {less}

theorem mem_insert (htotal : ∀ a b, less a b = false → less b a = false → a = b) {a x : α}
    {set : List α} : x ∈ insert less a set ↔ x = a ∨ x ∈ set := by
  induction set with
  | nil => exact List.mem_cons
  | cons b rest ih =>
    rw [insert]
    split_ifs with hbefore hafter
    · exact List.mem_cons
    · rw [List.mem_cons, ih, List.mem_cons]
      tauto
    · have hsame : a = b := htotal a b (by simpa using hbefore) (by simpa using hafter)
      rw [List.mem_cons, hsame]
      tauto

/-! ## Maps to sets -/

/-- The map has this element at this key. -/
def Has (map : List (κ × List α)) (key : κ) (a : α) : Prop := ∃ set, (key, set) ∈ map ∧ a ∈ set

theorem has_cons {key key' : κ} {a : α} {set : List α} {rest : List (κ × List α)} :
    Has ((key', set) :: rest) key a ↔ (key = key' ∧ a ∈ set) ∨ Has rest key a := by
  unfold Has
  constructor
  · rintro ⟨set', hmem, ha⟩
    rcases List.mem_cons.mp hmem with heq | hrest
    · obtain ⟨rfl, rfl⟩ := Prod.mk.inj heq
      exact Or.inl ⟨rfl, ha⟩
    · exact Or.inr ⟨set', hrest, ha⟩
  · rintro (⟨rfl, ha⟩ | ⟨set', hmem, ha⟩)
    · exact ⟨set, List.mem_cons_self, ha⟩
    · exact ⟨set', List.mem_cons_of_mem _ hmem, ha⟩

variable {keyLess : κ → κ → Bool}

theorem has_insertAt (htotal : ∀ a b, less a b = false → less b a = false → a = b)
    (hkeys : ∀ k l, keyLess k l = false → keyLess l k = false → k = l) {key key' : κ} {a a' : α}
    {map : List (κ × List α)} :
    Has (insertAt less keyLess key a map) key' a' ↔ (key' = key ∧ a' = a) ∨ Has map key' a' := by
  induction map with
  | nil =>
    rw [insertAt, has_cons, List.mem_singleton]
  | cons entry rest ih =>
    obtain ⟨k, set⟩ := entry
    rw [insertAt]
    split_ifs with hbefore hafter
    · rw [has_cons, List.mem_singleton]
    · rw [has_cons, ih, has_cons]
      tauto
    · have hsame : key = k := hkeys key k (by simpa using hbefore) (by simpa using hafter)
      rw [has_cons, mem_insert htotal, has_cons, hsame]
      tauto

end SortedInsert
