import Mathlib

/-!
# Entries of a finite map

Inserting and erasing one key undo each other, and so do inserting and erasing the keys of a
list.  A condition on all entries of a map survives both.  An argument about a map that
changes one key at a time needs no more.
-/

namespace Finmap

variable {α β : Type*} [DecidableEq α] {m : Finmap fun _ : α => β} {key : α} {value : β}
  {entries : List (α × β)}

theorem insert_erase_of_lookup (hlookup : m.lookup key = some value) :
    (m.erase key).insert key value = m := by
  apply ext_lookup
  intro other
  by_cases hother : other = key
  · subst hother
    rw [lookup_insert, hlookup]
  · rw [lookup_insert_of_ne _ hother, lookup_erase_ne hother]

/-! ## Lists of entries -/

/-- Insert the entries of a list, the first one first. -/
def insertAll (m : Finmap fun _ : α => β) (entries : List (α × β)) : Finmap fun _ : α => β :=
  entries.foldl (fun m entry => m.insert entry.1 entry.2) m

/-- Erase the keys of a list. -/
def eraseAll (m : Finmap fun _ : α => β) (keys : List α) : Finmap fun _ : α => β :=
  keys.foldl (fun m key => m.erase key) m

theorem lookup_insertAll_of_notMem :
    ∀ {m : Finmap fun _ : α => β}, key ∉ entries.map Prod.fst →
      (m.insertAll entries).lookup key = m.lookup key := by
  induction entries with
  | nil =>
    intro m _
    rfl
  | cons entry rest ih =>
    intro m hkey
    rw [List.map_cons, List.mem_cons, not_or] at hkey
    calc (m.insertAll (entry :: rest)).lookup key
        = ((m.insert entry.1 entry.2).insertAll rest).lookup key := rfl
      _ = (m.insert entry.1 entry.2).lookup key := ih hkey.2
      _ = m.lookup key := lookup_insert_of_ne _ hkey.1

theorem lookup_insertAll_of_mem :
    ∀ {m : Finmap fun _ : α => β}, (entries.map Prod.fst).Nodup → (key, value) ∈ entries →
      (m.insertAll entries).lookup key = some value := by
  induction entries with
  | nil =>
    intro m _ hmem
    cases hmem
  | cons entry rest ih =>
    intro m hnodup hmem
    rw [List.map_cons, List.nodup_cons] at hnodup
    rcases List.mem_cons.mp hmem with rfl | hrest
    · calc (m.insertAll ((key, value) :: rest)).lookup key
          = ((m.insert key value).insertAll rest).lookup key := rfl
        _ = (m.insert key value).lookup key := lookup_insertAll_of_notMem hnodup.1
        _ = some value := lookup_insert _
    · exact ih hnodup.2 hrest

theorem lookup_insertAll_eq_some_iff (hnodup : (entries.map Prod.fst).Nodup)
    (hnone : m.lookup key = none) :
    (m.insertAll entries).lookup key = some value ↔ (key, value) ∈ entries := by
  constructor
  · intro hlookup
    by_cases hkey : key ∈ entries.map Prod.fst
    · obtain ⟨⟨other, found⟩, hmem, rfl⟩ := List.mem_map.mp hkey
      have hfound : (m.insertAll entries).lookup other = some found :=
        lookup_insertAll_of_mem hnodup hmem
      obtain rfl := Option.some.inj (hlookup.symm.trans hfound)
      exact hmem
    · rw [lookup_insertAll_of_notMem hkey, hnone] at hlookup
      cases hlookup
  · exact lookup_insertAll_of_mem hnodup

theorem lookup_eraseAll_of_notMem {keys : List α} :
    ∀ {m : Finmap fun _ : α => β}, key ∉ keys → (m.eraseAll keys).lookup key = m.lookup key := by
  induction keys with
  | nil =>
    intro m _
    rfl
  | cons first rest ih =>
    intro m hkey
    rw [List.mem_cons, not_or] at hkey
    calc (m.eraseAll (first :: rest)).lookup key
        = ((m.erase first).eraseAll rest).lookup key := rfl
      _ = (m.erase first).lookup key := ih hkey.2
      _ = m.lookup key := lookup_erase_ne hkey.1

theorem lookup_eraseAll_of_mem {keys : List α} :
    ∀ {m : Finmap fun _ : α => β}, key ∈ keys → (m.eraseAll keys).lookup key = none := by
  induction keys with
  | nil =>
    intro m hkey
    cases hkey
  | cons first rest ih =>
    intro m hkey
    by_cases hrest : key ∈ rest
    · exact ih hrest
    · have hfirst : key = first := (List.mem_cons.mp hkey).resolve_right hrest
      calc (m.eraseAll (first :: rest)).lookup key
          = ((m.erase first).eraseAll rest).lookup key := rfl
        _ = (m.erase first).lookup key := lookup_eraseAll_of_notMem hrest
        _ = none := by rw [hfirst, lookup_erase]

theorem eraseAll_insertAll (hnew : ∀ entry ∈ entries, m.lookup entry.1 = none) :
    (m.insertAll entries).eraseAll (entries.map Prod.fst) = m := by
  apply ext_lookup
  intro key
  by_cases hkey : key ∈ entries.map Prod.fst
  · obtain ⟨entry, hentry, rfl⟩ := List.mem_map.mp hkey
    rw [lookup_eraseAll_of_mem hkey, hnew entry hentry]
  · rw [lookup_eraseAll_of_notMem hkey, lookup_insertAll_of_notMem hkey]

/-! ## Conditions on all entries -/

variable {P : α → β → Prop}

/-- Every entry of the map satisfies `P`. -/
def All (P : α → β → Prop) (m : Finmap fun _ : α => β) : Prop :=
  ∀ key value, m.lookup key = some value → P key value

theorem all_empty : All P (∅ : Finmap fun _ : α => β) := by
  intro key value hlookup
  simp at hlookup

theorem All.erase (h : All P m) (key : α) : All P (m.erase key) := by
  intro other found hlookup
  by_cases hother : other = key
  · subst hother
    rw [lookup_erase] at hlookup
    cases hlookup
  · rw [lookup_erase_ne hother] at hlookup
    exact h other found hlookup

theorem All.insert (h : All P m) (hvalue : P key value) : All P (m.insert key value) := by
  intro other found hlookup
  by_cases hother : other = key
  · subst hother
    rw [lookup_insert] at hlookup
    rwa [← Option.some.inj hlookup]
  · rw [lookup_insert_of_ne _ hother] at hlookup
    exact h other found hlookup

end Finmap
