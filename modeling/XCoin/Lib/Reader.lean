import Mathlib

/-!
# Readers

A reader takes symbols from the front of a list and returns a value, or fails.  `ReadsAs r xs a`
says that `r` reads exactly `xs`, whatever follows, as `a`.  A format's reader inverts its
writer part by part: the rules below follow the shape of the reader, and no proof about a
format looks at the symbols that follow.
-/

/-- A reader of symbols `σ`. -/
abbrev Reader (σ α : Type) := StateT (List σ) Option α

namespace Reader

variable {σ α β : Type} {xs ys : List σ} {r : Reader σ α} {a : α}

/-- The next `n` symbols. -/
def take (n : ℕ) : Reader σ (List σ) := fun input =>
  if input.length < n then none else some (input.take n, input.drop n)

/-- Fail unless `p` holds. -/
def check (p : Prop) [Decidable p] : Reader σ Unit := fun input =>
  if p then some ((), input) else none

/-- `n` values one after another. -/
def many (r : Reader σ α) : ℕ → Reader σ (List α)
  | 0 => pure []
  | n + 1 => do
    let first ← r
    let rest ← many r n
    return first :: rest

/-- `r` reads exactly `xs`, as `a`. -/
def ReadsAs (r : Reader σ α) (xs : List σ) (a : α) : Prop :=
  ∀ rest, r.run (xs ++ rest) = some (a, rest)

theorem ReadsAs.run (h : ReadsAs r xs a) : r.run xs = some (a, []) := by
  have hall := h []
  rwa [List.append_nil] at hall

theorem ReadsAs.unique {a b : α} (ha : ReadsAs r xs a) (hb : ReadsAs r xs b) : a = b :=
  (Prod.mk.inj (Option.some.inj (ha.run.symm.trans hb.run))).1

/-- `r` fails on `xs`, whatever follows. -/
def Refuses (r : Reader σ α) (xs : List σ) : Prop := ∀ rest, r.run (xs ++ rest) = none

/-- What one reader reads is cut off in one way only. -/
theorem ReadsAs.append_inj {rest rest' : List σ} {a b : α} (ha : ReadsAs r xs a)
    (hb : ReadsAs r ys b) (hsame : xs ++ rest = ys ++ rest') : a = b ∧ rest = rest' := by
  have hread := ha rest
  rw [hsame, hb rest'] at hread
  obtain ⟨hvalue, hrest⟩ := Prod.mk.inj (Option.some.inj hread)
  exact ⟨hvalue.symm, hrest.symm⟩

/-- A list is determined by its items written one after another, if no item is written as
nothing. -/
theorem flatMap_inj {write : α → List σ} {items : List α} :
    ∀ {others : List α}, (∀ item ∈ items, ReadsAs r (write item) item ∧ write item ≠ []) →
      (∀ item ∈ others, ReadsAs r (write item) item ∧ write item ≠ []) →
      items.flatMap write = others.flatMap write → items = others := by
  induction items with
  | nil =>
    intro others _ hothers hsame
    cases others with
    | nil => rfl
    | cons other rest =>
      rw [List.flatMap_nil, List.flatMap_cons] at hsame
      exact absurd (List.append_eq_nil_iff.mp hsame.symm).1 (hothers other List.mem_cons_self).2
  | cons item rest ih =>
    intro others hitems hothers hsame
    cases others with
    | nil =>
      rw [List.flatMap_nil, List.flatMap_cons] at hsame
      exact absurd (List.append_eq_nil_iff.mp hsame).1 (hitems item List.mem_cons_self).2
    | cons other more =>
      rw [List.flatMap_cons, List.flatMap_cons] at hsame
      obtain ⟨hfirst, hmore⟩ := (hitems item List.mem_cons_self).1.append_inj
        (hothers other List.mem_cons_self).1 hsame
      rw [hfirst, ih (fun later hlater => hitems later (List.mem_cons_of_mem _ hlater))
        (fun later hlater => hothers later (List.mem_cons_of_mem _ hlater)) hmore]

/-! ## Rules -/

theorem readsAs_pure (a : α) : ReadsAs (pure a : Reader σ α) [] a := by
  intro rest
  rfl

theorem readsAs_take {n : ℕ} (hlength : xs.length = n) : ReadsAs (take n) xs xs := by
  intro rest
  subst hlength
  simp [take, StateT.run]

theorem ReadsAs.bind {f : α → Reader σ β} {b : β} (hfirst : ReadsAs r xs a)
    (hnext : ReadsAs (f a) ys b) : ReadsAs (r >>= f) (xs ++ ys) b := by
  intro rest
  rw [StateT.run_bind, List.append_assoc, hfirst]
  exact hnext rest

theorem ReadsAs.map {f : α → β} (h : ReadsAs r xs a) :
    ReadsAs (r >>= fun a => pure (f a)) xs (f a) := by
  have hbind : ReadsAs (r >>= fun a => pure (f a)) (xs ++ []) (f a) := h.bind (readsAs_pure (f a))
  rwa [List.append_nil] at hbind

theorem ReadsAs.check_bind {p : Prop} [Decidable p] {r : Unit → Reader σ α} (hp : p)
    (h : ReadsAs (r ()) xs a) : ReadsAs (check p >>= r) xs a := by
  intro rest
  have hcheck : (check p : Reader σ Unit).run (xs ++ rest) = some ((), xs ++ rest) := if_pos hp
  rw [StateT.run_bind, hcheck]
  exact h rest

/-! A reader fails with any of its steps. -/

theorem refuses_check_bind {p : Prop} [Decidable p] {r : Unit → Reader σ α} (hp : ¬p) :
    Refuses (check p >>= r) [] := by
  intro rest
  have hcheck : (check p : Reader σ Unit).run ([] ++ rest) = none := if_neg hp
  rw [StateT.run_bind, hcheck]
  rfl

theorem Refuses.bind (h : Refuses r xs) (f : α → Reader σ β) (ys : List σ) :
    Refuses (r >>= f) (xs ++ ys) := by
  intro rest
  rw [StateT.run_bind, List.append_assoc, h]
  rfl

theorem ReadsAs.refuses {f : α → Reader σ β} (hfirst : ReadsAs r xs a) (hnext : Refuses (f a) ys) :
    Refuses (r >>= f) (xs ++ ys) := by
  intro rest
  rw [StateT.run_bind, List.append_assoc, hfirst]
  exact hnext rest

/-- A list of values, each written by `write` and read as `f` of it. -/
theorem readsAs_many {r : Reader σ β} {write : α → List σ} {f : α → β} {items : List α} :
    (∀ item ∈ items, ReadsAs r (write item) (f item)) →
      ReadsAs (many r items.length) (items.flatMap write) (items.map f) := by
  induction items with
  | nil =>
    intro _
    exact readsAs_pure []
  | cons item rest ih =>
    intro hitems
    have hfirst := hitems item List.mem_cons_self
    have hrest := ih fun other hother => hitems other (List.mem_cons_of_mem _ hother)
    rw [List.flatMap_cons]
    exact hfirst.bind hrest.map

end Reader
