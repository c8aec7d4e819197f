import Mathlib

/-!
# Binary trees listed by the depths of their leaves

A binary tree with values at its leaves can be written down as the list of its leaves from left
to right, each with its depth (`listAt`).  The list is read back with a stack of pending
subtrees, at most one for each depth: a new subtree is placed at its depth, and as long as there
is one at this depth already, the two are combined and the result is placed one level up.

The stack holds values of any type with an operation that combines two of them.  For every such
type the lists that are read to the end are the lists of trees, and what is read is the fold of
the tree (`insertList_eq_iff`).

A stack is listed with the deepest entry first.
-/

/-- A binary tree with values at its leaves. -/
inductive LeafTree (α : Type) where
  | leaf (value : α)
  | node (left right : LeafTree α)
deriving DecidableEq, Repr

namespace LeafTree

variable {α β ν μ : Type} (tree : LeafTree α)

/-- The values from left to right. -/
def leaves : LeafTree α → List α
  | leaf value => [value]
  | node left right => left.leaves ++ right.leaves

/-- The leaves from left to right with their depths, for a tree at this depth. -/
def listAt (depth : ℕ) : LeafTree α → List (ℕ × α)
  | leaf value => [(depth, value)]
  | node left right => left.listAt (depth + 1) ++ right.listAt (depth + 1)

/-- The value of a tree from the values of its leaves. -/
def fold (f : α → ν) (combine : ν → ν → ν) : LeafTree α → ν
  | leaf value => f value
  | node left right => combine (left.fold f combine) (right.fold f combine)

theorem map_snd_listAt : ∀ depth, (tree.listAt depth).map Prod.snd = tree.leaves := by
  induction tree with
  | leaf value =>
    intro depth
    rfl
  | node left right ihLeft ihRight =>
    intro depth
    rw [listAt, leaves, List.map_append, ihLeft, ihRight]

theorem leaves_ne_nil : tree.leaves ≠ [] := by
  induction tree with
  | leaf value => exact List.cons_ne_nil _ _
  | node left right ihLeft _ => exact List.append_ne_nil_of_left_ne_nil ihLeft _

theorem listAt_ne_nil (depth : ℕ) : tree.listAt depth ≠ [] := by
  intro hempty
  apply tree.leaves_ne_nil
  rw [← tree.map_snd_listAt depth, hempty, List.map_nil]

/-! ## Reading a list with a stack of subtrees -/

section Stack

variable (combine : ν → ν → ν)

/-- A subtree placed where the stack ends: it is combined with the entries it meets, up to the
first free place.  There is no place above the root. -/
def place (subtree : ν) : List (Option ν) → Option (List (Option ν))
  | [] => none
  | none :: rest => some (some subtree :: rest)
  | some older :: rest => place (combine older subtree) rest

/-- A subtree inserted at a depth.  A deeper entry must be completed before. -/
def insertAt (depth : ℕ) (subtree : ν) (stack : List (Option ν)) : Option (List (Option ν)) :=
  if depth + 1 < stack.length then none
  else if stack.length ≤ depth then
    some (some subtree :: (List.replicate (depth - stack.length) none ++ stack))
  else place combine subtree stack

/-- The leaves of a list inserted in order. -/
def insertList (f : α → ν) (list : List (ℕ × α)) (stack : List (Option ν)) :
    Option (List (Option ν)) :=
  list.foldlM (fun stack leaf => insertAt combine leaf.1 (f leaf.2) stack) stack

variable {combine}

theorem insertAt_of_length_le {depth : ℕ} {stack : List (Option ν)} (subtree : ν)
    (hshort : stack.length ≤ depth) :
    insertAt combine depth subtree stack =
      some (some subtree :: (List.replicate (depth - stack.length) none ++ stack)) := by
  rw [insertAt, if_neg (by omega), if_pos hshort]

theorem insertAt_of_length_eq {depth : ℕ} {stack : List (Option ν)} (subtree : ν)
    (hfull : stack.length = depth + 1) :
    insertAt combine depth subtree stack = place combine subtree stack := by
  rw [insertAt, if_neg (by omega), if_neg (by omega)]

theorem insertList_append (f : α → ν) (first second : List (ℕ × α)) (stack : List (Option ν)) :
    insertList combine f (first ++ second) stack =
      (insertList combine f first stack).bind (insertList combine f second) :=
  List.foldlM_append

theorem insertAt_pair (depth : ℕ) (left right : ν) (stack : List (Option ν))
    (hlength : stack.length ≤ depth + 1) :
    (insertAt combine (depth + 1) left stack).bind (insertAt combine (depth + 1) right) =
      insertAt combine depth (combine left right) stack := by
  rw [insertAt_of_length_le left hlength, Option.bind_some, insertAt_of_length_eq right]
  swap
  · rw [List.length_cons, List.length_append, List.length_replicate]
    omega
  rw [place]
  rcases Nat.lt_or_ge depth stack.length with hfull | hshort
  · -- no free place was added between the stack and the left subtree
    rw [insertAt_of_length_eq _ (by omega), show depth + 1 - stack.length = 0 by omega,
      List.replicate_zero, List.nil_append]
  · rw [insertAt_of_length_le _ hshort,
      show depth + 1 - stack.length = depth - stack.length + 1 by omega, List.replicate_succ,
      List.cons_append, place]

/-- **Reading a tree.**  The list of a tree at some depth has the effect of the whole tree. -/
theorem insertList_listAt (f : α → ν) (tree : LeafTree α) :
    ∀ (depth : ℕ) (stack : List (Option ν)), stack.length ≤ depth + 1 →
      insertList combine f (tree.listAt depth) stack =
        insertAt combine depth (tree.fold f combine) stack := by
  induction tree with
  | leaf value =>
    intro depth stack _
    rw [listAt, insertList, List.foldlM_cons]
    exact bind_pure _
  | node left right ihLeft ihRight =>
    intro depth stack hlength
    rw [listAt, insertList_append, ihLeft (depth + 1) stack (by omega), fold,
      ← insertAt_pair depth _ _ stack hlength, insertAt_of_length_le _ hlength,
      Option.bind_some, Option.bind_some]
    apply ihRight
    rw [List.length_cons, List.length_append, List.length_replicate]
    omega

theorem place_ne_nil (stack : List (Option ν)) :
    ∀ subtree, place combine subtree stack ≠ some [] := by
  induction stack with
  | nil =>
    intro subtree hplace
    cases hplace
  | cons entry rest ih =>
    intro subtree
    cases entry with
    | none =>
      intro hplace
      exact List.cons_ne_nil _ _ (Option.some.inj hplace)
    | some older => exact ih (combine older subtree)

theorem insertAt_ne_nil (depth : ℕ) (subtree : ν) (stack : List (Option ν)) :
    insertAt combine depth subtree stack ≠ some [] := by
  unfold insertAt
  split_ifs
  · exact Option.some_ne_none _ ∘ Eq.symm
  · exact fun hinsert => List.cons_ne_nil _ _ (Option.some.inj hinsert)
  · exact place_ne_nil stack subtree

theorem eq_nil_of_insertList {f : α → ν} (list : List (ℕ × α)) :
    ∀ stack, insertList combine f list stack = some [] → list = [] := by
  induction list with
  | nil =>
    intro stack _
    rfl
  | cons leaf rest ih =>
    intro stack hinsert
    rw [insertList, List.foldlM_cons] at hinsert
    obtain ⟨middle, hfirst, hrest⟩ := Option.bind_eq_some_iff.mp hinsert
    obtain rfl := ih middle hrest
    obtain rfl : middle = [] := Option.some.inj hrest
    exact absurd hfirst (insertAt_ne_nil _ _ _)

/-! ## Stacks of different types -/

variable {combine' : μ → μ → μ} {g : ν → μ}

theorem place_map (hcombine : ∀ a b, g (combine a b) = combine' (g a) (g b))
    (stack : List (Option ν)) :
    ∀ subtree, place combine' (g subtree) (stack.map (Option.map g)) =
      (place combine subtree stack).map (List.map (Option.map g)) := by
  induction stack with
  | nil =>
    intro subtree
    rfl
  | cons entry rest ih =>
    intro subtree
    cases entry with
    | none => rfl
    | some older =>
      rw [List.map_cons, Option.map_some, place, place, ← hcombine]
      exact ih (combine older subtree)

theorem insertAt_map (hcombine : ∀ a b, g (combine a b) = combine' (g a) (g b)) (depth : ℕ)
    (subtree : ν) (stack : List (Option ν)) :
    insertAt combine' depth (g subtree) (stack.map (Option.map g)) =
      (insertAt combine depth subtree stack).map (List.map (Option.map g)) := by
  unfold insertAt
  rw [List.length_map]
  by_cases hdeeper : depth + 1 < stack.length
  · rw [if_pos hdeeper, if_pos hdeeper, Option.map_none]
  rw [if_neg hdeeper, if_neg hdeeper]
  by_cases hshort : stack.length ≤ depth
  · rw [if_pos hshort, if_pos hshort, Option.map_some, List.map_cons, List.map_append,
      List.map_replicate, Option.map_some, Option.map_none]
  · rw [if_neg hshort, if_neg hshort, place_map hcombine]

theorem insertList_map (hcombine : ∀ a b, g (combine a b) = combine' (g a) (g b)) (f : α → ν)
    (list : List (ℕ × α)) :
    ∀ stack, insertList combine' (g ∘ f) list (stack.map (Option.map g)) =
      (insertList combine f list stack).map (List.map (Option.map g)) := by
  induction list with
  | nil =>
    intro stack
    rfl
  | cons leaf rest ih =>
    intro stack
    rw [insertList, List.foldlM_cons, Function.comp_apply, insertAt_map hcombine, insertList,
      List.foldlM_cons]
    cases insertAt combine leaf.1 (f leaf.2) stack with
    | none => rfl
    | some stack' => exact ih stack'

end Stack

/-! ## The trees that a list spells -/

/-- The leaves of the subtrees on a stack, from the root down. -/
def spelled : List (Option (LeafTree α)) → List (ℕ × α)
  | [] => []
  | none :: rest => spelled rest
  | some tree :: rest => spelled rest ++ tree.listAt rest.length

theorem spelled_replicate (count : ℕ) (stack : List (Option (LeafTree α))) :
    spelled (List.replicate count none ++ stack) = spelled stack := by
  induction count with
  | zero => rfl
  | succ count ih =>
    rw [List.replicate_succ, List.cons_append, spelled]
    exact ih

theorem spelled_of_place {stack' : List (Option (LeafTree α))}
    (stack : List (Option (LeafTree α))) :
    ∀ (depth : ℕ) (tree : LeafTree α), stack.length = depth + 1 →
      place node tree stack = some stack' →
      spelled stack' = spelled stack ++ tree.listAt depth := by
  induction stack with
  | nil =>
    intro depth tree _ hplace
    cases hplace
  | cons entry rest ih =>
    intro depth tree hlength hplace
    have hdepth : rest.length = depth := Nat.succ.inj hlength
    cases entry with
    | none =>
      rw [place, Option.some.injEq] at hplace
      rw [← hplace, spelled, spelled, hdepth]
    | some older =>
      rw [place] at hplace
      cases depth with
      | zero =>
        -- nothing is above the root
        rw [List.length_eq_zero_iff.mp hdepth] at hplace
        cases hplace
      | succ depth =>
        rw [ih depth (node older tree) hdepth hplace, listAt, spelled, hdepth,
          List.append_assoc]

theorem spelled_of_insertAt {stack stack' : List (Option (LeafTree α))} {depth : ℕ}
    {tree : LeafTree α} (hinsert : insertAt node depth tree stack = some stack') :
    spelled stack' = spelled stack ++ tree.listAt depth := by
  unfold insertAt at hinsert
  by_cases hdeeper : depth + 1 < stack.length
  · rw [if_pos hdeeper] at hinsert
    cases hinsert
  rw [if_neg hdeeper] at hinsert
  by_cases hshort : stack.length ≤ depth
  · rw [if_pos hshort, Option.some.injEq] at hinsert
    rw [← hinsert, spelled, spelled_replicate, List.length_append, List.length_replicate,
      Nat.sub_add_cancel hshort]
  · rw [if_neg hshort] at hinsert
    exact spelled_of_place stack depth tree (by omega) hinsert

theorem spelled_of_insertList {stack' : List (Option (LeafTree α))} (list : List (ℕ × α)) :
    ∀ stack, insertList node leaf list stack = some stack' →
      spelled stack' = spelled stack ++ list := by
  induction list with
  | nil =>
    intro stack hinsert
    rw [List.append_nil, Option.some.inj hinsert]
  | cons first rest ih =>
    intro stack hinsert
    rw [insertList, List.foldlM_cons] at hinsert
    obtain ⟨middle, hfirst, hrest⟩ := Option.bind_eq_some_iff.mp hinsert
    rw [ih middle hrest, spelled_of_insertAt hfirst, List.append_assoc]
    rfl

theorem fold_leaf_node : tree.fold leaf node = tree := by
  induction tree with
  | leaf value => rfl
  | node left right ihLeft ihRight => rw [fold, ihLeft, ihRight]

/-- **Lists of trees.**  Whatever the stack holds, a list is read to one value at the root if and
only if it is the list of a tree, and the value is the fold of this tree. -/
theorem insertList_eq_iff (combine : ν → ν → ν) (f : α → ν) (list : List (ℕ × α)) (value : ν) :
    insertList combine f list [] = some [some value] ↔
      ∃ tree : LeafTree α, list = tree.listAt 0 ∧ value = tree.fold f combine := by
  constructor
  · intro hread
    have hmap : insertList combine f list [] =
        (insertList node leaf list []).map (List.map (Option.map (fold f combine))) :=
      insertList_map (g := fold f combine) (fun _ _ => rfl) leaf list []
    rw [hread] at hmap
    obtain ⟨stack, hstack, hvalue⟩ := Option.map_eq_some_iff.mp hmap.symm
    obtain ⟨entry, rest, rfl, hentry, hrest⟩ := List.map_eq_cons_iff.mp hvalue
    obtain rfl := List.map_eq_nil_iff.mp hrest
    obtain ⟨tree, rfl, hfold⟩ := Option.map_eq_some_iff.mp hentry
    exact ⟨tree, (spelled_of_insertList list [] hstack).symm, hfold.symm⟩
  · rintro ⟨tree, rfl, rfl⟩
    exact insertList_listAt f tree 0 [] (Nat.zero_le _)

/-- A list is the list of at most one tree. -/
theorem listAt_zero_injective : Function.Injective (listAt 0 : LeafTree α → List (ℕ × α)) := by
  intro first second hsame
  have hfirst := (insertList_eq_iff node leaf _ first).mpr ⟨first, rfl, first.fold_leaf_node.symm⟩
  have hsecond := (insertList_eq_iff node leaf _ second).mpr
    ⟨second, rfl, second.fold_leaf_node.symm⟩
  rw [hsame, hsecond] at hfirst
  simpa using hfirst.symm

end LeafTree
