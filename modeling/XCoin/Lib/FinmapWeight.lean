import Mathlib

/-!
# The total weight of a finite map

A finite map whose values carry a weight has a total weight.  Inserting adds the
new weight and drops the one it replaces, erasing drops the one it erases.  This
is all that an accounting argument over a map needs: no case of it looks at the
map's other entries.
-/

namespace Finmap

variable {α β M : Type*} [AddCommMonoid M]

/-- The sum of the weights of all values of the map. -/
def weight (w : β → M) (m : Finmap fun _ : α => β) : M :=
  (m.entries.map fun entry => w entry.2).sum

variable {w : β → M}

@[simp] theorem weight_empty : weight w (∅ : Finmap fun _ : α => β) = 0 := rfl

variable [DecidableEq α] {m : Finmap fun _ : α => β} {key : α} {value : β}

theorem weight_insert_of_notMem (hkey : key ∉ m) :
    weight w (m.insert key value) = w value + weight w m := by
  rw [weight, weight, entries_insert_of_notMem hkey, Multiset.map_cons, Multiset.sum_cons]

theorem weight_eq_add_erase (hlookup : m.lookup key = some value) :
    weight w m = w value + weight w (m.erase key) := by
  have hback : (m.erase key).insert key value = m := by
    apply ext_lookup
    intro other
    by_cases hother : other = key
    · subst hother
      rw [lookup_insert, hlookup]
    · rw [lookup_insert_of_ne _ hother, lookup_erase_ne hother]
  conv_lhs => rw [← hback]
  exact weight_insert_of_notMem notMem_erase_self

theorem erase_of_lookup_none (hlookup : m.lookup key = none) : m.erase key = m := by
  apply ext_lookup
  intro other
  by_cases hother : other = key
  · subst hother
    rw [lookup_erase, hlookup]
  · rw [lookup_erase_ne hother]

theorem weight_insert :
    weight w (m.insert key value) = w value + weight w (m.erase key) := by
  have hinsert : m.insert key value = (m.erase key).insert key value := by
    apply ext_lookup
    intro other
    by_cases hother : other = key
    · subst hother
      rw [lookup_insert, lookup_insert]
    · rw [lookup_insert_of_ne _ hother, lookup_insert_of_ne _ hother, lookup_erase_ne hother]
  rw [hinsert, weight_insert_of_notMem notMem_erase_self]

theorem weight_eq_sum {entries : Finset (α × β)}
    (hentries : ∀ key value, m.lookup key = some value ↔ (key, value) ∈ entries) :
    weight w m = ∑ entry ∈ entries, w entry.2 := by
  have hinjective : Function.Injective fun entry : (_ : α) × β => (entry.1, entry.2) := by
    rintro ⟨key, value⟩ ⟨other, found⟩ hsame
    obtain ⟨rfl, rfl⟩ := Prod.mk.inj hsame
    rfl
  have hval : entries.val = m.entries.map fun entry => (entry.1, entry.2) := by
    rw [Multiset.Nodup.ext entries.nodup (m.nodupKeys.nodup.map hinjective)]
    rintro ⟨key, value⟩
    rw [Finset.mem_val, ← hentries, Multiset.mem_map]
    constructor
    · intro hlookup
      exact ⟨⟨key, value⟩, lookup_eq_some_iff.mp hlookup, rfl⟩
    · rintro ⟨⟨other, found⟩, hmem, hsame⟩
      obtain ⟨rfl, rfl⟩ := Prod.mk.inj hsame
      exact lookup_eq_some_iff.mpr hmem
  rw [Finset.sum, hval, Multiset.map_map]
  rfl

section Ordered

variable [PartialOrder M] [IsOrderedAddMonoid M]

theorem weight_erase_le (hnonneg : ∀ key value, m.lookup key = some value → 0 ≤ w value) :
    weight w (m.erase key) ≤ weight w m := by
  cases hlookup : m.lookup key with
  | none => rw [erase_of_lookup_none hlookup]
  | some value =>
    rw [weight_eq_add_erase hlookup]
    exact le_add_of_nonneg_left (hnonneg key value hlookup)

theorem weight_insert_le (hnonneg : ∀ key value, m.lookup key = some value → 0 ≤ w value) :
    weight w (m.insert key value) ≤ w value + weight w m := by
  rw [weight_insert]
  exact add_le_add_right (weight_erase_le hnonneg) _

theorem weight_nonneg (hnonneg : ∀ key value, m.lookup key = some value → 0 ≤ w value) :
    0 ≤ weight w m := by
  apply Multiset.sum_nonneg
  intro part hpart
  obtain ⟨⟨key, value⟩, hmem, rfl⟩ := Multiset.mem_map.mp hpart
  exact hnonneg key value (lookup_eq_some_iff.mpr hmem)

end Ordered

end Finmap
