import XCoin.Lib.LeafTree

/-!
# Hash trees whose branches are unordered

The root of a tree folds the hashes of its leaves with a function that hashes two children.  A
leaf is opened by the roots of the siblings on its way up (`Opens`); where the children of a
branch may be swapped, folding them from the leaf's hash gives the root.

Such a hash does not see the order of siblings (`Swapped.root_eq`).  Of the trees with the same
root up to these swaps, `ordered` is the one whose siblings stand in the order of their roots.  It
depends on the tree only up to swaps if no two siblings have the same root, which holds for a
tree with distinct leaves if the hashes that occur in it do not collide
(`Binding.siblingsDiffer`).
-/

namespace LeafTree

variable {α H : Type} (leafHash : α → H) (branchHash : H → H → H) (tree : LeafTree α)

/-- The hash at the top of a tree. -/
def root (tree : LeafTree α) : H := tree.fold leafHash branchHash

/-- The leaf and the roots of the siblings on its way up, the lowest first. -/
inductive Opens : LeafTree α → α → List H → Prop
  | leaf (value : α) : Opens (leaf value) value []
  | left {left right : LeafTree α} {value : α} {path : List H} :
      Opens left value path →
        Opens (node left right) value (path ++ [root leafHash branchHash right])
  | right {left right : LeafTree α} {value : α} {path : List H} :
      Opens right value path →
        Opens (node left right) value (path ++ [root leafHash branchHash left])

variable {leafHash branchHash}

section Openings

variable {tree : LeafTree α} {value : α} {path : List H}

/-- **Openings.**  The path leads from the leaf to the root. -/
theorem Opens.foldl_eq (hcomm : ∀ a b, branchHash a b = branchHash b a)
    (hopens : Opens leafHash branchHash tree value path) :
    path.foldl branchHash (leafHash value) = root leafHash branchHash tree := by
  induction hopens with
  | leaf value => rfl
  | left _ ih =>
    rw [List.foldl_append, ih]
    rfl
  | right _ ih =>
    rw [List.foldl_append, ih]
    exact hcomm _ _

theorem Opens.mem_listAt (hopens : Opens leafHash branchHash tree value path) :
    ∀ depth, (depth + path.length, value) ∈ tree.listAt depth := by
  induction hopens with
  | leaf value =>
    intro depth
    exact List.mem_singleton.mpr rfl
  | left _ ih =>
    intro depth
    rw [List.length_append, List.length_singleton, Nat.add_comm _ 1, ← Nat.add_assoc]
    exact List.mem_append_left _ (ih (depth + 1))
  | right _ ih =>
    intro depth
    rw [List.length_append, List.length_singleton, Nat.add_comm _ 1, ← Nat.add_assoc]
    exact List.mem_append_right _ (ih (depth + 1))

theorem Opens.mem_leaves (hopens : Opens leafHash branchHash tree value path) :
    value ∈ tree.leaves := by
  rw [← tree.map_snd_listAt 0]
  exact List.mem_map_of_mem (hopens.mem_listAt 0)

theorem exists_opens (tree : LeafTree α) :
    ∀ value ∈ tree.leaves, ∃ path, Opens leafHash branchHash tree value path := by
  induction tree with
  | leaf value =>
    intro value' hmem
    obtain rfl := List.mem_singleton.mp hmem
    exact ⟨[], .leaf _⟩
  | node left right ihLeft ihRight =>
    intro value hmem
    rcases List.mem_append.mp hmem with hleft | hright
    · obtain ⟨path, hopens⟩ := ihLeft value hleft
      exact ⟨_, .left hopens⟩
    · obtain ⟨path, hopens⟩ := ihRight value hright
      exact ⟨_, .right hopens⟩

theorem Opens.forall_mem {P : H → Prop} (hroot : ∀ tree, P (root leafHash branchHash tree))
    (hopens : Opens leafHash branchHash tree value path) : ∀ sibling ∈ path, P sibling := by
  induction hopens with
  | leaf value =>
    intro sibling hmem
    exact absurd hmem List.not_mem_nil
  | left _ ih =>
    intro sibling hmem
    rcases List.mem_append.mp hmem with hlower | hlast
    · exact ih sibling hlower
    · rw [List.mem_singleton.mp hlast]
      exact hroot _
  | right _ ih =>
    intro sibling hmem
    rcases List.mem_append.mp hmem with hlower | hlast
    · exact ih sibling hlower
    · rw [List.mem_singleton.mp hlast]
      exact hroot _

end Openings

/-! ## Swapping siblings -/

/-- The second tree is the first one with the siblings swapped at some of its nodes. -/
inductive Swapped : LeafTree α → LeafTree α → Prop
  | leaf (value : α) : Swapped (leaf value) (leaf value)
  | keep {left right left' right' : LeafTree α} :
      Swapped left left' → Swapped right right' → Swapped (node left right) (node left' right')
  | swap {left right left' right' : LeafTree α} :
      Swapped left left' → Swapped right right' → Swapped (node left right) (node right' left')

theorem Swapped.refl : Swapped tree tree := by
  induction tree with
  | leaf value => exact .leaf value
  | node left right ihLeft ihRight => exact .keep ihLeft ihRight

theorem Swapped.root_eq (hcomm : ∀ a b, branchHash a b = branchHash b a)
    {tree other : LeafTree α} (hswapped : Swapped tree other) :
    root leafHash branchHash other = root leafHash branchHash tree := by
  induction hswapped with
  | leaf value => rfl
  | keep _ _ ihLeft ihRight => exact congrArg₂ branchHash ihLeft ihRight
  | swap _ _ ihLeft ihRight =>
    exact (congrArg₂ branchHash ihRight ihLeft).trans (hcomm _ _)

theorem Swapped.listAt_perm {tree other : LeafTree α} (hswapped : Swapped tree other) :
    ∀ depth, (other.listAt depth).Perm (tree.listAt depth) := by
  induction hswapped with
  | leaf value =>
    intro depth
    exact List.Perm.refl _
  | keep _ _ ihLeft ihRight =>
    intro depth
    exact (ihLeft (depth + 1)).append (ihRight (depth + 1))
  | swap _ _ ihLeft ihRight =>
    intro depth
    exact ((ihRight (depth + 1)).append (ihLeft (depth + 1))).trans List.perm_append_comm

theorem Swapped.leaves_perm {tree other : LeafTree α} (hswapped : Swapped tree other) :
    other.leaves.Perm tree.leaves := by
  rw [← other.map_snd_listAt 0, ← tree.map_snd_listAt 0]
  exact (hswapped.listAt_perm 0).map _

/-! ## Siblings in order -/

/-- No two siblings have the same root. -/
def SiblingsDiffer (leafHash : α → H) (branchHash : H → H → H) : LeafTree α → Prop
  | leaf _ => True
  | node left right =>
    root leafHash branchHash left ≠ root leafHash branchHash right ∧
      left.SiblingsDiffer leafHash branchHash ∧ right.SiblingsDiffer leafHash branchHash

/-- The tree with the siblings of every node in the order of their roots. -/
def ordered (leafHash : α → H) (branchHash : H → H → H) (less : H → H → Bool) :
    LeafTree α → LeafTree α
  | leaf value => leaf value
  | node left right =>
    if less (root leafHash branchHash right) (root leafHash branchHash left) then
      node (right.ordered leafHash branchHash less) (left.ordered leafHash branchHash less)
    else node (left.ordered leafHash branchHash less) (right.ordered leafHash branchHash less)

variable {less : H → H → Bool}

theorem swapped_ordered : Swapped tree (tree.ordered leafHash branchHash less) := by
  induction tree with
  | leaf value => exact .leaf value
  | node left right ihLeft ihRight =>
    rw [ordered]
    split_ifs
    · exact .swap ihLeft ihRight
    · exact .keep ihLeft ihRight

/-- **The ordered tree.**  Swapping siblings does not change it. -/
theorem Swapped.ordered_eq (hcomm : ∀ a b, branchHash a b = branchHash b a)
    (hless : ∀ a b, a ≠ b → less b a = !less a b) {tree other : LeafTree α}
    (hswapped : Swapped tree other) (hdiffer : tree.SiblingsDiffer leafHash branchHash) :
    other.ordered leafHash branchHash less = tree.ordered leafHash branchHash less := by
  induction hswapped with
  | leaf value => rfl
  | keep hleft hright ihLeft ihRight =>
    rw [ordered, ordered, hleft.root_eq hcomm, hright.root_eq hcomm, ihLeft hdiffer.2.1,
      ihRight hdiffer.2.2]
  | swap hleft hright ihLeft ihRight =>
    rw [ordered, ordered, hleft.root_eq hcomm, hright.root_eq hcomm, ihLeft hdiffer.2.1,
      ihRight hdiffer.2.2, hless _ _ hdiffer.1]
    -- the two tests are each other's negation, so the same order is chosen
    cases less (root leafHash branchHash _) (root leafHash branchHash _) with
    | false => rfl
    | true => rfl

/-! ## Trees without collisions -/

/-- The tree and everything below. -/
def subtrees : LeafTree α → List (LeafTree α)
  | leaf value => [leaf value]
  | node left right => node left right :: (left.subtrees ++ right.subtrees)

theorem mem_subtrees_self : tree ∈ tree.subtrees := by
  cases tree with
  | leaf value => exact List.mem_singleton.mpr rfl
  | node left right => exact List.mem_cons_self

theorem left_subset_subtrees (left right : LeafTree α) :
    left.subtrees ⊆ (node left right).subtrees := fun _ hmem =>
  List.mem_cons_of_mem _ (List.mem_append_left _ hmem)

theorem right_subset_subtrees (left right : LeafTree α) :
    right.subtrees ⊆ (node left right).subtrees := fun _ hmem =>
  List.mem_cons_of_mem _ (List.mem_append_right _ hmem)

theorem subtrees_subset {tree : LeafTree α} :
    ∀ {subtree : LeafTree α}, subtree ∈ tree.subtrees → subtree.subtrees ⊆ tree.subtrees := by
  induction tree with
  | leaf value =>
    intro subtree hmem
    rw [List.mem_singleton.mp hmem]
    exact List.Subset.refl _
  | node left right ihLeft ihRight =>
    intro subtree hmem
    rcases List.mem_cons.mp hmem with rfl | hbelow
    · exact List.Subset.refl _
    · rcases List.mem_append.mp hbelow with hleft | hright
      · exact List.Subset.trans (ihLeft hleft) (left_subset_subtrees left right)
      · exact List.Subset.trans (ihRight hright) (right_subset_subtrees left right)

/-- The hashes of a tree's nodes do not collide: each root names the leaf or, up to their order,
the roots of the two children it was made of. -/
structure Binding (leafHash : α → H) (branchHash : H → H → H) (tree : LeafTree α) : Prop where
  leaf_inj : ∀ {first second : α}, leaf first ∈ tree.subtrees → leaf second ∈ tree.subtrees →
    leafHash first = leafHash second → first = second
  node_inj : ∀ {left right left' right' : LeafTree α}, node left right ∈ tree.subtrees →
    node left' right' ∈ tree.subtrees →
    root leafHash branchHash (node left right) = root leafHash branchHash (node left' right') →
    (root leafHash branchHash left = root leafHash branchHash left' ∧
        root leafHash branchHash right = root leafHash branchHash right') ∨
      (root leafHash branchHash left = root leafHash branchHash right' ∧
        root leafHash branchHash right = root leafHash branchHash left')
  leaf_ne_node : ∀ {value : α} {left right : LeafTree α}, leaf value ∈ tree.subtrees →
    node left right ∈ tree.subtrees → leafHash value ≠ root leafHash branchHash (node left right)

theorem Binding.of_mem {tree subtree : LeafTree α} (hbinding : Binding leafHash branchHash tree)
    (hmem : subtree ∈ tree.subtrees) : Binding leafHash branchHash subtree where
  leaf_inj hfirst hsecond :=
    hbinding.leaf_inj (subtrees_subset hmem hfirst) (subtrees_subset hmem hsecond)
  node_inj hfirst hsecond :=
    hbinding.node_inj (subtrees_subset hmem hfirst) (subtrees_subset hmem hsecond)
  leaf_ne_node hfirst hsecond :=
    hbinding.leaf_ne_node (subtrees_subset hmem hfirst) (subtrees_subset hmem hsecond)

/-- Subtrees with the same root have the same leaves. -/
theorem Binding.leaves_perm {tree : LeafTree α} (hbinding : Binding leafHash branchHash tree)
    (first : LeafTree α) :
    ∀ second : LeafTree α, first ∈ tree.subtrees → second ∈ tree.subtrees →
      root leafHash branchHash first = root leafHash branchHash second →
      first.leaves.Perm second.leaves := by
  induction first with
  | leaf value =>
    intro second hfirst hsecond hsame
    cases second with
    | leaf value' =>
      rw [hbinding.leaf_inj hfirst hsecond hsame]
    | node left right => exact absurd hsame (hbinding.leaf_ne_node hfirst hsecond)
  | node left right ihLeft ihRight =>
    intro second hfirst hsecond hsame
    cases second with
    | leaf value => exact absurd hsame.symm (hbinding.leaf_ne_node hsecond hfirst)
    | node left' right' =>
      have hleft := subtrees_subset hfirst
        (left_subset_subtrees left right left.mem_subtrees_self)
      have hright := subtrees_subset hfirst
        (right_subset_subtrees left right right.mem_subtrees_self)
      have hleft' := subtrees_subset hsecond
        (left_subset_subtrees left' right' left'.mem_subtrees_self)
      have hright' := subtrees_subset hsecond
        (right_subset_subtrees left' right' right'.mem_subtrees_self)
      rcases hbinding.node_inj hfirst hsecond hsame with ⟨hl, hr⟩ | ⟨hl, hr⟩
      · exact (ihLeft left' hleft hleft' hl).append (ihRight right' hright hright' hr)
      · exact ((ihLeft right' hleft hright' hl).append (ihRight left' hright hleft' hr)).trans
          List.perm_append_comm

/-- In a tree with distinct leaves and no collisions no two siblings have the same root. -/
theorem Binding.siblingsDiffer {tree : LeafTree α} :
    Binding leafHash branchHash tree → tree.leaves.Nodup →
      tree.SiblingsDiffer leafHash branchHash := by
  induction tree with
  | leaf value =>
    intro _ _
    trivial
  | node left right ihLeft ihRight =>
    intro hbinding hdistinct
    have hleft := left_subset_subtrees left right left.mem_subtrees_self
    have hright := right_subset_subtrees left right right.mem_subtrees_self
    rw [leaves, List.nodup_append] at hdistinct
    obtain ⟨hdistinctLeft, hdistinctRight, hapart⟩ := hdistinct
    refine ⟨?_, ihLeft (hbinding.of_mem hleft) hdistinctLeft,
      ihRight (hbinding.of_mem hright) hdistinctRight⟩
    -- siblings with the same root would share a leaf
    intro hsame
    obtain ⟨value, hvalue⟩ := List.exists_mem_of_ne_nil _ left.leaves_ne_nil
    have hvalue' := (hbinding.leaves_perm left right hleft hright hsame).mem_iff.mp hvalue
    exact hapart value hvalue value hvalue' rfl

end LeafTree
