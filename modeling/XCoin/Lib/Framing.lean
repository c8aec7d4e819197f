import Mathlib

/-!
# Numbered frames on a byte stream

A sender writes items one after another, the item at position `k` encoded by `encode k`.
A reader that has taken the first `k` items and part of the next one off the stream is
left with the rest of that item's frame, then the frames after it.
-/

namespace Framing

universe u v

variable {α : Type u} {β : Type v} {encode : ℕ → α → List β}

/-- The frames of a list of items, numbered from `start` on. -/
def encodeAll (encode : ℕ → α → List β) : ℕ → List α → List β
  | _, [] => []
  | start, item :: rest => encode start item ++ encodeAll encode (start + 1) rest

@[simp] theorem encodeAll_nil (start : ℕ) : encodeAll encode start [] = [] := rfl

@[simp] theorem encodeAll_cons (start : ℕ) (item : α) (rest : List α) :
    encodeAll encode start (item :: rest) =
      encode start item ++ encodeAll encode (start + 1) rest := rfl

theorem encodeAll_append (start : ℕ) (items more : List α) :
    encodeAll encode start (items ++ more) =
      encodeAll encode start items ++ encodeAll encode (start + items.length) more := by
  induction items generalizing start with
  | nil => simp
  | cons item rest ih =>
    simp only [List.cons_append, encodeAll_cons, ih, List.length_cons, List.append_assoc]
    rw [Nat.add_right_comm start 1]
    rfl

theorem encodeAll_concat (items : List α) (item : α) :
    encodeAll encode 0 (items ++ [item]) =
      encodeAll encode 0 items ++ encode items.length item := by
  simp [encodeAll_append]

/-- A reader that has taken `count` items and has not reached the end of the stream is inside the
frame of the next item. -/
theorem exists_next_of_not_end {items : List α} {count : ℕ} {unread : List β}
    (hcount : count ≤ items.length) (hunread : unread ≠ [])
    (hstream : encodeAll encode 0 (items.take count) ++ unread = encodeAll encode 0 items) :
    ∃ item, items[count]? = some item ∧
      unread = encode count item ++ encodeAll encode (count + 1) (items.drop (count + 1)) := by
  have hsplit : encodeAll encode 0 items =
      encodeAll encode 0 (items.take count) ++ encodeAll encode count (items.drop count) := by
    conv_lhs => rw [← List.take_append_drop count items, encodeAll_append]
    rw [List.length_take, Nat.min_eq_left hcount, Nat.zero_add]
  have hrest : unread = encodeAll encode count (items.drop count) := by
    rw [hsplit] at hstream
    exact List.append_cancel_left hstream
  by_cases hlt : count < items.length
  · refine ⟨items[count], List.getElem?_eq_getElem hlt, ?_⟩
    rw [hrest, List.drop_eq_getElem_cons hlt, encodeAll_cons]
  · rw [List.drop_eq_nil_of_le (by omega)] at hrest
    exact absurd hrest hunread

theorem encodeAll_take_succ {items : List α} {count : ℕ} {item : α}
    (hitem : items[count]? = some item) :
    encodeAll encode 0 (items.take (count + 1)) =
      encodeAll encode 0 (items.take count) ++ encode count item := by
  have hlt : count < items.length := (List.getElem?_eq_some_iff.mp hitem).1
  rw [List.take_add_one, hitem, Option.toList_some, encodeAll_concat, List.length_take,
    Nat.min_eq_left hlt.le]

/-- The start of a stream that is not longer than its first part is a part of that part. -/
theorem isPrefix_of_append_eq {start more first rest : List β}
    (heq : start ++ more = first ++ rest) (hle : start.length ≤ first.length) : start <+: first :=
  List.prefix_of_prefix_length_le ⟨more, heq⟩ ⟨rest, rfl⟩ hle

end Framing
