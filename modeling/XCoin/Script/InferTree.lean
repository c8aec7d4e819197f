import XCoin.Script.XcoinV3Builder

/-!
# Inferring a script tree

`InferXcoinV3Tree` gets the control blocks of an output and finds the tree they belong to.  Every
control block is a path of sibling hashes; it is walked from the root down, and the nodes it
passes are added to a partial tree.  The complete tree is then traversed with an explicit stack,
the sibling with the smaller hash first.

A control block does not say left or right.  The partial tree is therefore compared with the
tree that was built up to the order of siblings (`Partial`): a node that is not explored yet is a
subtree from which no control block was seen, and of two siblings each knows its hash as soon as a
control block from the other was seen.  The stack machine emits the leaves of the tree with its
siblings in the order of their roots (`emits_of_partial`).

A path can be followed as long as siblings have different hashes and no hash is null (`Apart`).
-/

namespace XCoin.Script

open Consensus XcoinV3Builder

/-! ## The partial tree -/

/-- `uint256::ZERO`. -/
def nullHash : Bytes := List.replicate 32 0

/-- `TreeNode`: a node that is not explored, an explored leaf or an explored inner node. -/
inductive TreeNode where
  | unexplored (hash : Bytes) (done : Bool)
  | leaf (hash : Bytes) (key : Bytes × UInt8) (done : Bool)
  | inner (hash : Bytes) (sub0 sub1 : TreeNode) (done : Bool)
deriving DecidableEq, Repr

namespace TreeNode

/-- `hash` of a node. -/
def hash : TreeNode → Bytes
  | unexplored hash _ => hash
  | leaf hash _ _ => hash
  | inner hash _ _ _ => hash

/-- `done`: all below the node is reconstructed. -/
def done : TreeNode → Bool
  | unexplored _ done => done
  | leaf _ _ done => done
  | inner _ _ _ done => done

/-- The node is a leaf or has children. -/
def explored : TreeNode → Bool
  | unexplored _ _ => false
  | _ => true

/-- Replaces the hash. -/
def setHash (hash : Bytes) : TreeNode → TreeNode
  | unexplored _ done => unexplored hash done
  | leaf _ key done => leaf hash key done
  | inner _ sub0 sub1 done => inner hash sub0 sub1 done

/-- Replaces `done`. -/
def setDone (done : Bool) : TreeNode → TreeNode
  | unexplored hash _ => unexplored hash done
  | leaf hash key _ => leaf hash key done
  | inner hash sub0 sub1 _ => inner hash sub0 sub1 done

/-- The child that a path through a sibling of this hash cannot take: it has the hash, or it has
none yet and the other one does not have it. -/
def avoids (hash : Bytes) (sub other : TreeNode) : Bool :=
  sub.hash == hash || (sub.hash == nullHash && other.hash != hash)

/-- One control block walked from this node down; `none` where the source returns `nullopt`. -/
def insertPath (leafHash : Bytes) (key : Bytes × UInt8) :
    List Bytes → TreeNode → Option TreeNode
  | [], inner _ _ _ _ => none
  | [], node => some (leaf leafHash key node.done)
  | _ :: _, leaf _ _ _ => none
  | sibling :: path, inner hash sub0 sub1 done =>
    if avoids sibling sub0 sub1 then
      (insertPath leafHash key path sub1).map fun sub =>
        inner hash (sub0.setHash sibling) sub done
    else if avoids sibling sub1 sub0 then
      (insertPath leafHash key path sub0).map fun sub =>
        inner hash sub (sub1.setHash sibling) done
    else none
  | sibling :: path, unexplored hash done =>
    (insertPath leafHash key path (unexplored nullHash false)).map fun sub =>
      inner hash sub (unexplored sibling false) done

end TreeNode

/-- The control blocks with their scripts and leaf versions, in the order of the two loops. -/
def XcoinV3SpendData.records (spend : XcoinV3SpendData) : List ((Bytes × UInt8) × Bytes) :=
  spend.scripts.flatMap fun entry => entry.2.map fun control => (entry.1, control)

/-- The checks after which a control block is used. -/
def usableRecord (hashes : HashFunctions) (root : Bytes) (record : (Bytes × UInt8) × Bytes) :
    Bool :=
  decide (record.1.2 &&& 1 = 0) && validControlSize record.2 &&
    record.2.head? == some record.1.2 && (record.2.drop 1).take 32 == xcoinV3Nokey hashes &&
    computeXcoinV3MerkleRoot hashes record.2
      (computeXcoinLeafHash hashes record.1.2 record.1.1) == root

/-- One round of the loop over the control blocks. -/
def exploreRecord (hashes : HashFunctions) (root : Bytes) (node : TreeNode)
    (record : (Bytes × UInt8) × Bytes) : Option TreeNode :=
  if usableRecord hashes root record then
    node.insertPath (computeXcoinLeafHash hashes record.1.2 record.1.1) record.1
      (controlPath record.2).reverse
  else some node

/-! ## The traversal -/

/-- An inner node on the stack below its top: its other child, and which of the two is above. -/
structure Frame where
  hash : Bytes
  done : Bool
  sibling : TreeNode
  second : Bool
deriving DecidableEq, Repr

/-- The node with the child that was above it on the stack. -/
def Frame.close (frame : Frame) (child : TreeNode) : TreeNode :=
  if frame.second then .inner frame.hash frame.sibling child frame.done
  else .inner frame.hash child frame.sibling frame.done

/-- The stack, its top first, and the leaves emitted so far. -/
structure Traversal where
  top : TreeNode
  below : List Frame
  ret : List (ℤ × (Bytes × UInt8))
deriving DecidableEq, Repr

/-- `stack.pop_back()`; the function returns when the stack is empty. -/
def Traversal.pop (node : TreeNode) (below : List Frame) (ret : List (ℤ × (Bytes × UInt8))) :
    Except (Option (List (ℤ × (Bytes × UInt8)))) Traversal :=
  match below with
  | [] => .error (some ret)
  | frame :: rest => .ok ⟨frame.close node, rest, ret⟩

/-- One round of the loop: the next state, or the value that is returned. -/
def Traversal.step (hashes : HashFunctions) (state : Traversal) :
    Except (Option (List (ℤ × (Bytes × UInt8)))) Traversal :=
  match state.top with
  | .unexplored _ _ => .error none
  | .leaf hash key _ =>
    pop (.leaf hash key true) state.below (state.ret ++ [((state.below.length : ℤ), key)])
  | .inner hash sub0 sub1 done =>
    if !sub0.done && !sub1.done && sub0.explored && sub1.explored &&
        lexLess sub1.hash sub0.hash then
      .ok { state with top := .inner hash sub1 sub0 done }
    else if sub0.done && !sub1.done && !sub1.explored && sub1.hash != nullHash &&
        computeXcoinBranchHash hashes sub1.hash sub1.hash == hash then
      .ok { state with top := .inner hash (sub0.setDone false) (sub1.setDone true) done }
    else if sub0.done && sub1.done then
      pop (.inner hash (sub0.setDone false) (sub1.setDone false) true) state.below state.ret
    else if !sub0.done then
      .ok { state with top := sub0, below := ⟨hash, done, sub1, false⟩ :: state.below }
    else .ok { state with top := sub1, below := ⟨hash, done, sub0, true⟩ :: state.below }

/-- The loop, for as many rounds as there is fuel. -/
def Traversal.run (hashes : HashFunctions) :
    ℕ → Traversal → Option (Option (List (ℤ × (Bytes × UInt8))))
  | 0, _ => none
  | fuel + 1, state =>
    match state.step hashes with
    | .error result => some result
    | .ok next => next.run hashes fuel

/-- `InferXcoinV3Tree`; `none` if the fuel is not enough for the traversal. -/
def inferXcoinV3Tree (hashes : HashFunctions) (fuel : ℕ) (spend : XcoinV3SpendData)
    (root : Bytes) : Option (Option (List (ℤ × (Bytes × UInt8)))) :=
  if spend.merkleRoot = nullHash ∨ spend.merkleRoot ≠ root then some none
  else
    match spend.records.foldlM (exploreRecord hashes spend.merkleRoot)
        (.unexplored spend.merkleRoot false) with
    | none => some none
    | some tree => Traversal.run hashes fuel ⟨tree, [], []⟩

/-- The function returns this value: the loop ends with it. -/
def Infers (hashes : HashFunctions) (spend : XcoinV3SpendData) (root : Bytes)
    (result : Option (List (ℤ × (Bytes × UInt8)))) : Prop :=
  ∃ enough, ∀ fuel, enough ≤ fuel → inferXcoinV3Tree hashes fuel spend root = some result

/-! ## Partial trees and the tree -/

/-- The key of a leaf in the spend data. -/
def XcoinLeaf.key (leaf : XcoinLeaf) : Bytes × UInt8 := (leaf.script, leaf.leafVersion)

theorem XcoinLeaf.key_injective : Function.Injective XcoinLeaf.key := by
  rintro ⟨_, _, _⟩ ⟨_, _, _⟩ hsame
  cases hsame
  rfl

section Trees

variable {hashes : HashFunctions} {tree : LeafTree XcoinLeaf} {seen : XcoinLeaf → Prop}
  {node : TreeNode} {leaf : XcoinLeaf}

/-- Two subtrees that no path and no leaf confuses. -/
structure Apart (hashes : HashFunctions) (first second : LeafTree XcoinLeaf) : Prop where
  root_ne : treeRoot hashes first ≠ treeRoot hashes second
  first_ne_null : treeRoot hashes first ≠ nullHash
  second_ne_null : treeRoot hashes second ≠ nullHash
  leaves : ∀ leaf ∈ first.leaves, leaf ∉ second.leaves

theorem Apart.symm {first second : LeafTree XcoinLeaf} (hapart : Apart hashes first second) :
    Apart hashes second first where
  root_ne := hapart.root_ne.symm
  first_ne_null := hapart.second_ne_null
  second_ne_null := hapart.first_ne_null
  leaves := fun leaf hsecond hfirst => hapart.leaves leaf hfirst hsecond

/-- All siblings are apart. -/
def Separated (hashes : HashFunctions) : LeafTree XcoinLeaf → Prop
  | .leaf _ => True
  | .node left right => Apart hashes left right ∧ Separated hashes left ∧ Separated hashes right

/-- The children of a tree in either order. -/
def Children (tree first second : LeafTree XcoinLeaf) : Prop :=
  tree = .node first second ∨ tree = .node second first

theorem Children.mem_leaves {tree first second : LeafTree XcoinLeaf}
    (hchildren : Children tree first second) :
    leaf ∈ tree.leaves ↔ leaf ∈ first.leaves ∨ leaf ∈ second.leaves := by
  rcases hchildren with rfl | rfl
  · exact List.mem_append
  · exact List.mem_append.trans or_comm

theorem Children.eq_or_swap {tree first second first' second' : LeafTree XcoinLeaf}
    (hchildren : Children tree first second) (hchildren' : Children tree first' second') :
    (first = first' ∧ second = second') ∨ (first = second' ∧ second = first') := by
  rcases hchildren with rfl | rfl <;> rcases hchildren' with heq | heq <;> cases heq
  · exact .inl ⟨rfl, rfl⟩
  · exact .inr ⟨rfl, rfl⟩
  · exact .inr ⟨rfl, rfl⟩
  · exact .inl ⟨rfl, rfl⟩

theorem Children.separated {tree first second : LeafTree XcoinLeaf}
    (hchildren : Children tree first second) (hseparated : Separated hashes tree) :
    Apart hashes first second ∧ Separated hashes first ∧ Separated hashes second := by
  rcases hchildren with rfl | rfl
  · exact hseparated
  · exact ⟨hseparated.1.symm, hseparated.2.2, hseparated.2.1⟩

theorem exists_children_of_opens {left right : LeafTree XcoinLeaf} {path : List Bytes}
    (hopens : TreeOpens hashes (.node left right) leaf path) :
    ∃ first second below, Children (.node left right) first second ∧
      TreeOpens hashes first leaf below ∧ path = below ++ [treeRoot hashes second] := by
  cases hopens with
  | left hbelow => exact ⟨left, right, _, .inl rfl, hbelow, rfl⟩
  | right hbelow => exact ⟨right, left, _, .inr rfl, hbelow, rfl⟩

/-- A node of the partial tree stands for a subtree.  `seen` are the leaves whose control blocks
were walked: a node is explored if one of them is below, and its hash is known if one of them is
below its sibling. -/
inductive Partial (hashes : HashFunctions) (seen : XcoinLeaf → Prop) :
    TreeNode → LeafTree XcoinLeaf → Prop
  | unexplored {tree : LeafTree XcoinLeaf} {hash : Bytes}
      (hhash : hash = nullHash ∨ hash = treeRoot hashes tree)
      (hunseen : ∀ leaf ∈ tree.leaves, ¬seen leaf) :
      Partial hashes seen (.unexplored hash false) tree
  | leaf {value : XcoinLeaf} (hseen : seen value) :
      Partial hashes seen (.leaf (leafHash hashes value) value.key false) (.leaf value)
  | inner {tree first second : LeafTree XcoinLeaf} {hash : Bytes} {sub0 sub1 : TreeNode}
      (hchildren : Children tree first second)
      (hhash : hash = nullHash ∨ hash = treeRoot hashes tree)
      (hseen : ∃ leaf ∈ tree.leaves, seen leaf)
      (hfirst : ∀ leaf ∈ first.leaves, seen leaf → sub1.hash = treeRoot hashes second)
      (hsecond : ∀ leaf ∈ second.leaves, seen leaf → sub0.hash = treeRoot hashes first)
      (hsub0 : Partial hashes seen sub0 first) (hsub1 : Partial hashes seen sub1 second) :
      Partial hashes seen (.inner hash sub0 sub1 false) tree

namespace Partial

variable {seen seen' : XcoinLeaf → Prop} {node : TreeNode} {tree : LeafTree XcoinLeaf}

theorem hash_eq (hinfers : Partial hashes seen node tree) :
    node.hash = nullHash ∨ node.hash = treeRoot hashes tree := by
  cases hinfers with
  | unexplored hhash _ => exact hhash
  | leaf _ => exact .inr rfl
  | inner _ hhash _ _ _ _ _ => exact hhash

theorem done_eq (hinfers : Partial hashes seen node tree) : node.done = false := by
  cases hinfers <;> rfl

theorem setHash (hinfers : Partial hashes seen node tree) :
    Partial hashes seen (node.setHash (treeRoot hashes tree)) tree := by
  cases hinfers with
  | unexplored _ hunseen => exact .unexplored (.inr rfl) hunseen
  | leaf hseen => exact .leaf hseen
  | inner hchildren _ hseen hfirst hsecond hsub0 hsub1 =>
    exact .inner hchildren (.inr rfl) hseen hfirst hsecond hsub0 hsub1

theorem congr (hinfers : Partial hashes seen node tree)
    (hsame : ∀ leaf ∈ tree.leaves, seen leaf ↔ seen' leaf) : Partial hashes seen' node tree := by
  induction hinfers with
  | unexplored hhash hunseen =>
    exact .unexplored hhash fun leaf hmem hseen => hunseen leaf hmem ((hsame leaf hmem).mpr hseen)
  | leaf hseen => exact .leaf ((hsame _ (List.mem_singleton.mpr rfl)).mp hseen)
  | inner hchildren hhash hseen hfirst hsecond _ _ ih0 ih1 =>
    have hsame0 := fun leaf hmem => hsame leaf (hchildren.mem_leaves.mpr (.inl hmem))
    have hsame1 := fun leaf hmem => hsame leaf (hchildren.mem_leaves.mpr (.inr hmem))
    obtain ⟨leaf, hmem, hleaf⟩ := hseen
    exact .inner hchildren hhash ⟨leaf, hmem, (hsame leaf hmem).mp hleaf⟩
      (fun leaf hmem hleaf => hfirst leaf hmem ((hsame0 leaf hmem).mpr hleaf))
      (fun leaf hmem hleaf => hsecond leaf hmem ((hsame1 leaf hmem).mpr hleaf))
      (ih0 hsame0) (ih1 hsame1)

end Partial

/-! ## Walking a control block -/

section Walk

variable {seen : XcoinLeaf → Prop} {first second : LeafTree XcoinLeaf} {sub0 sub1 : TreeNode}

theorem Apart.hash_ne (hapart : Apart hashes first second)
    (hsub0 : Partial hashes seen sub0 first) : sub0.hash ≠ treeRoot hashes second := by
  intro hsame
  rcases hsub0.hash_eq with hnull | hroot
  · exact hapart.second_ne_null (hsame.symm.trans hnull)
  · exact hapart.root_ne (hroot.symm.trans hsame)

theorem Apart.avoids_eq_true (hapart : Apart hashes first second)
    (hsub0 : Partial hashes seen sub0 first) (hsub1 : Partial hashes seen sub1 second) :
    TreeNode.avoids (treeRoot hashes second) sub1 sub0 = true := by
  have hother := hapart.hash_ne hsub0
  rcases hsub1.hash_eq with hnull | hroot
  · simp [TreeNode.avoids, hnull, hother]
  · simp [TreeNode.avoids, hroot]

/-- It does not avoid the first child: the hash of one of the two is known. -/
theorem Apart.avoids_eq_false (hapart : Apart hashes first second)
    (hsub0 : Partial hashes seen sub0 first)
    (hknown : sub0.hash = nullHash → sub1.hash = treeRoot hashes second) :
    TreeNode.avoids (treeRoot hashes second) sub0 sub1 = false := by
  have hne := hapart.hash_ne hsub0
  by_cases hnull : sub0.hash = nullHash
  · rw [hnull] at hne
    simp [TreeNode.avoids, hnull, hne, hknown hnull]
  · simp [TreeNode.avoids, hnull, hne]

end Walk

/-- What a control block leaves behind: the node stands for the same subtree, one more leaf is
seen, and a hash that was known is known. -/
def Walked (hashes : HashFunctions) (seen : XcoinLeaf → Prop) (leaf : XcoinLeaf) (node : TreeNode)
    (path : List Bytes) (tree : LeafTree XcoinLeaf) : Prop :=
  ∃ node', node.insertPath (leafHash hashes leaf) leaf.key path.reverse = some node' ∧
    Partial hashes (fun other => seen other ∨ other = leaf) node' tree ∧
    (node.hash = treeRoot hashes tree → node'.hash = treeRoot hashes tree)

section Walk

variable {seen : XcoinLeaf → Prop} {tree first second : LeafTree XcoinLeaf} {leaf : XcoinLeaf}
  {path : List Bytes} {hash : Bytes}

theorem Partial.of_not_mem (hinfers : Partial hashes seen node tree)
    (hnotMem : leaf ∉ tree.leaves) :
    Partial hashes (fun other => seen other ∨ other = leaf) node tree := by
  refine hinfers.congr fun other hmem => ?_
  constructor
  · exact .inl
  · rintro (hseen | rfl)
    · exact hseen
    · exact absurd hmem hnotMem

/-- The first control block through a node explores it; its sibling's root becomes known. -/
theorem walked_unexplored (hchildren : Children tree first second)
    (hapart : Apart hashes first second) (hopens : TreeOpens hashes first leaf path)
    (hhash : hash = nullHash ∨ hash = treeRoot hashes tree)
    (hunseen : ∀ other ∈ tree.leaves, ¬seen other)
    (hbelow : ∀ node, Partial hashes seen node first → Walked hashes seen leaf node path first) :
    Walked hashes seen leaf (.unexplored hash false) (path ++ [treeRoot hashes second]) tree := by
  have hleaf : leaf ∈ first.leaves := LeafTree.Opens.mem_leaves hopens
  have hunseen0 : ∀ other ∈ first.leaves, ¬seen other := fun other hmem =>
    hunseen other (hchildren.mem_leaves.mpr (.inl hmem))
  have hunseen1 : ∀ other ∈ second.leaves, ¬(seen other ∨ other = leaf) := by
    rintro other hmem (hseen | rfl)
    · exact hunseen other (hchildren.mem_leaves.mpr (.inr hmem)) hseen
    · exact hapart.leaves other hleaf hmem
  obtain ⟨sub, hsub, hinfers, _⟩ :=
    hbelow (.unexplored nullHash false) (.unexplored (.inl rfl) hunseen0)
  refine ⟨.inner hash sub (.unexplored (treeRoot hashes second) false) false, ?_, ?_, id⟩
  · rw [List.reverse_append, List.reverse_singleton, List.singleton_append, TreeNode.insertPath,
      hsub, Option.map_some]
  · exact .inner hchildren hhash
      ⟨leaf, hchildren.mem_leaves.mpr (.inl hleaf), .inr rfl⟩ (fun _ _ _ => rfl)
      (fun other hmem hseen => absurd hseen (hunseen1 other hmem)) hinfers
      (.unexplored (.inr rfl) hunseen1)

/-- A later control block goes to the child that its last sibling is not. -/
theorem walked_first {sub0 sub1 : TreeNode} (hchildren : Children tree first second)
    (hapart : Apart hashes first second) (hopens : TreeOpens hashes first leaf path)
    (hhash : hash = nullHash ∨ hash = treeRoot hashes tree)
    (hseen : ∃ other ∈ tree.leaves, seen other)
    (hfirst : ∀ other ∈ first.leaves, seen other → sub1.hash = treeRoot hashes second)
    (hsecond : ∀ other ∈ second.leaves, seen other → sub0.hash = treeRoot hashes first)
    (hsub0 : Partial hashes seen sub0 first) (hsub1 : Partial hashes seen sub1 second)
    (hbelow : ∀ node, Partial hashes seen node first → Walked hashes seen leaf node path first) :
    Walked hashes seen leaf (.inner hash sub0 sub1 false) (path ++ [treeRoot hashes second])
      tree := by
  have hleaf : leaf ∈ first.leaves := LeafTree.Opens.mem_leaves hopens
  have hknown : sub0.hash = nullHash → sub1.hash = treeRoot hashes second := by
    intro hnull
    obtain ⟨other, hmem, hother⟩ := hseen
    rcases hchildren.mem_leaves.mp hmem with hmem | hmem
    · exact hfirst other hmem hother
    · exact absurd ((hsecond other hmem hother).symm.trans hnull) hapart.first_ne_null
  obtain ⟨sub, hsub, hinfers, hkept⟩ := hbelow sub0 hsub0
  refine ⟨.inner hash sub (sub1.setHash (treeRoot hashes second)) false, ?_, ?_, id⟩
  · rw [List.reverse_append, List.reverse_singleton, List.singleton_append, TreeNode.insertPath,
      hapart.avoids_eq_false hsub0 hknown, hapart.avoids_eq_true hsub0 hsub1, hsub]
    rfl
  · refine .inner hchildren hhash ⟨leaf, hchildren.mem_leaves.mpr (.inl hleaf), .inr rfl⟩
      ?_ ?_ hinfers (hsub1.setHash.of_not_mem (hapart.leaves leaf hleaf))
    · intro _ _ _
      cases sub1 <;> rfl
    · rintro other hmem (hother | rfl)
      · exact hkept (hsecond other hmem hother)
      · exact absurd hmem (hapart.leaves other hleaf)

theorem walked_second {sub0 sub1 : TreeNode} (hchildren : Children tree first second)
    (hapart : Apart hashes first second) (hopens : TreeOpens hashes second leaf path)
    (hhash : hash = nullHash ∨ hash = treeRoot hashes tree)
    (hfirst : ∀ other ∈ first.leaves, seen other → sub1.hash = treeRoot hashes second)
    (hsub0 : Partial hashes seen sub0 first) (hsub1 : Partial hashes seen sub1 second)
    (hbelow : ∀ node, Partial hashes seen node second → Walked hashes seen leaf node path second) :
    Walked hashes seen leaf (.inner hash sub0 sub1 false) (path ++ [treeRoot hashes first])
      tree := by
  have hleaf : leaf ∈ second.leaves := LeafTree.Opens.mem_leaves hopens
  obtain ⟨sub, hsub, hinfers, hkept⟩ := hbelow sub1 hsub1
  refine ⟨.inner hash (sub0.setHash (treeRoot hashes first)) sub false, ?_, ?_, id⟩
  · rw [List.reverse_append, List.reverse_singleton, List.singleton_append, TreeNode.insertPath,
      hapart.symm.avoids_eq_true hsub1 hsub0, hsub]
    rfl
  · refine .inner hchildren hhash ⟨leaf, hchildren.mem_leaves.mpr (.inr hleaf), .inr rfl⟩
      ?_ ?_ (hsub0.setHash.of_not_mem (hapart.symm.leaves leaf hleaf)) hinfers
    · rintro other hmem (hother | rfl)
      · exact hkept (hfirst other hmem hother)
      · exact absurd hleaf (hapart.leaves other hmem)
    · intro _ _ _
      cases sub0 <;> rfl

end Walk

/-- **Walking a control block.**  It is walked to the end, and then its leaf is seen. -/
theorem walked_of_opens (tree : LeafTree XcoinLeaf) :
    ∀ {seen : XcoinLeaf → Prop} {node : TreeNode} {leaf : XcoinLeaf} {path : List Bytes},
      Separated hashes tree → Partial hashes seen node tree → TreeOpens hashes tree leaf path →
      Walked hashes seen leaf node path tree := by
  induction tree with
  | leaf value =>
    intro seen node leaf path _ hinfers hopens
    cases hopens
    refine ⟨.leaf (leafHash hashes value) value.key false, ?_, .leaf (.inr rfl), fun _ => rfl⟩
    cases hinfers with
    | unexplored _ _ => rfl
    | leaf _ => rfl
    | inner hchildren _ _ _ _ _ _ => rcases hchildren with hnode | hnode <;> cases hnode
  | node left right ihLeft ihRight =>
    intro seen node leaf path hseparated hinfers hopens
    -- the induction hypothesis for a child, whichever side it is on
    have ih : ∀ {first second below}, Children (.node left right) first second →
        TreeOpens hashes first leaf below → ∀ node, Partial hashes seen node first →
        Walked hashes seen leaf node below first := by
      intro first second below hchildren hbelow node hnode
      obtain ⟨_, hseparated, _⟩ := hchildren.separated hseparated
      rcases hchildren with heq | heq
      · cases heq
        exact ihLeft hseparated hnode hbelow
      · cases heq
        exact ihRight hseparated hnode hbelow
    obtain ⟨first, second, below, hchildren, hbelow, rfl⟩ := exists_children_of_opens hopens
    have hapart := (hchildren.separated hseparated).1
    cases hinfers with
    | unexplored hhash hunseen =>
      exact walked_unexplored hchildren hapart hbelow hhash hunseen (ih hchildren hbelow)
    | inner hnode hhash hseen hfirst hsecond hsub0 hsub1 =>
      -- the children of the partial tree may stand in the other order
      rcases hchildren.eq_or_swap hnode with ⟨rfl, rfl⟩ | ⟨rfl, rfl⟩
      · exact walked_first hnode hapart hbelow hhash hseen hfirst hsecond hsub0 hsub1
          (ih hchildren hbelow)
      · exact walked_second hnode hapart.symm hbelow hhash hfirst hsub0 hsub1
          (ih hchildren hbelow)

/-! ## All control blocks -/

theorem usableRecord_of_opens {path : List Bytes} (hopens : TreeOpens hashes tree leaf path)
    (hrange : DepthsInRange (tree.listAt 0)) :
    usableRecord hashes (treeRoot hashes tree)
      (leaf.key, controlBlock hashes leaf.leafVersion path) = true := by
  have hnodes := hopens.length_nodes
  have hnokey : (xcoinV3Nokey hashes).length = 32 := hashes.length_sha256 _
  have hmarker : ((controlBlock hashes leaf.leafVersion path).drop 1).take 32 =
      xcoinV3Nokey hashes := by
    rw [controlBlock, List.drop_succ_cons, List.drop_zero, ← hnokey, List.take_left]
  have hfold : path.foldl (computeXcoinBranchHash hashes)
      (computeXcoinLeafHash hashes leaf.leafVersion leaf.script) = treeRoot hashes tree :=
    LeafTree.Opens.foldl_eq (computeXcoinBranchHash_comm hashes) hopens
  have hbit : leaf.leafVersion &&& 1 = 0 := leaf.version_even
  have hhead : (controlBlock hashes leaf.leafVersion path).head? = some leaf.leafVersion := rfl
  simp only [usableRecord, XcoinLeaf.key, hbit, validControlSize_controlBlock hnodes
    (hopens.length_le hrange), hhead, hmarker, computeXcoinV3MerkleRoot,
    controlPath_controlBlock hnodes, hfold, beq_self_eq_true, decide_true, Bool.and_true]

/-- The record of an opening. -/
def IsRecord (hashes : HashFunctions) (tree : LeafTree XcoinLeaf)
    (record : (Bytes × UInt8) × Bytes) : Prop :=
  ∃ leaf path, TreeOpens hashes tree leaf path ∧
    record = (leaf.key, controlBlock hashes leaf.leafVersion path)

theorem exploreRecord_of_isRecord {record : (Bytes × UInt8) × Bytes}
    (hseparated : Separated hashes tree) (hrange : DepthsInRange (tree.listAt 0))
    (hrecord : IsRecord hashes tree record) (hinfers : Partial hashes seen node tree) :
    ∃ node', exploreRecord hashes (treeRoot hashes tree) node record = some node' ∧
      Partial hashes (fun leaf => seen leaf ∨ leaf.key = record.1) node' tree := by
  obtain ⟨leaf, path, hopens, rfl⟩ := hrecord
  obtain ⟨node', hwalk, hinfers', _⟩ := walked_of_opens tree hseparated hinfers hopens
  refine ⟨node', ?_, hinfers'.congr fun other _ => ?_⟩
  · rw [exploreRecord, if_pos (usableRecord_of_opens hopens hrange),
      controlPath_controlBlock hopens.length_nodes]
    exact hwalk
  · exact or_congr_right XcoinLeaf.key_injective.eq_iff.symm

/-- After the control blocks of a list their leaves are seen. -/
theorem exploreRecords (hseparated : Separated hashes tree) (hrange : DepthsInRange (tree.listAt 0))
    (records : List ((Bytes × UInt8) × Bytes)) :
    ∀ (seen : XcoinLeaf → Prop) (node : TreeNode),
      (∀ record ∈ records, IsRecord hashes tree record) → Partial hashes seen node tree →
      ∃ node', records.foldlM (exploreRecord hashes (treeRoot hashes tree)) node = some node' ∧
        Partial hashes (fun leaf => seen leaf ∨ ∃ record ∈ records, leaf.key = record.1)
          node' tree := by
  induction records with
  | nil =>
    intro seen node _ hinfers
    exact ⟨node, rfl, hinfers.congr fun _ _ => by simp⟩
  | cons record rest ih =>
    intro seen node hrecords hinfers
    obtain ⟨hrecord, hrest⟩ := List.forall_mem_cons.mp hrecords
    obtain ⟨middle, hfirst, hmiddle⟩ :=
      exploreRecord_of_isRecord hseparated hrange hrecord hinfers
    obtain ⟨node', hfold, hinfers'⟩ := ih _ middle hrest hmiddle
    refine ⟨node', ?_, hinfers'.congr fun leaf _ => ?_⟩
    · rw [List.foldlM_cons]
      exact Option.bind_eq_some_iff.mpr ⟨middle, hfirst, hfold⟩
    · simp only [List.mem_cons, exists_eq_or_imp, or_assoc]

theorem mem_records {spend : XcoinV3SpendData} {key : Bytes × UInt8} {control : Bytes} :
    (key, control) ∈ spend.records ↔ SortedInsert.Has spend.scripts key control := by
  rw [XcoinV3SpendData.records, List.mem_flatMap]
  constructor
  · rintro ⟨⟨key', set⟩, hmem, hpair⟩
    obtain ⟨control', hcontrol, heq⟩ := List.mem_map.mp hpair
    obtain ⟨rfl, rfl⟩ := Prod.mk.inj heq
    exact ⟨set, hmem, hcontrol⟩
  · rintro ⟨set, hmem, hcontrol⟩
    exact ⟨(key, set), hmem, List.mem_map_of_mem hcontrol⟩

/-- The control blocks of a tree make a partial tree in which every leaf is seen. -/
theorem exists_explored (hseparated : Separated hashes tree)
    (hrange : DepthsInRange (tree.listAt 0)) :
    ∃ node, (spendData hashes tree).records.foldlM (exploreRecord hashes (treeRoot hashes tree))
        (.unexplored (treeRoot hashes tree) false) = some node ∧
      Partial hashes (· ∈ tree.leaves) node tree := by
  have hrecords : ∀ record ∈ (spendData hashes tree).records, IsRecord hashes tree record := by
    rintro ⟨key, control⟩ hmem
    obtain ⟨leaf, path, hopens, rfl, rfl⟩ := has_spendData.mp (mem_records.mp hmem)
    exact ⟨leaf, path, hopens, rfl⟩
  obtain ⟨node, hfold, hinfers⟩ := exploreRecords hseparated hrange _ (fun _ => False) _ hrecords
    (.unexplored (.inr rfl) fun _ _ => id)
  refine ⟨node, hfold, hinfers.congr fun leaf hmem => ?_⟩
  obtain ⟨path, hopens⟩ : ∃ path, TreeOpens hashes tree leaf path :=
    LeafTree.exists_opens tree leaf hmem
  have hrecord := mem_records.mpr (has_spendData.mpr ⟨leaf, path, hopens, rfl, rfl⟩)
  exact ⟨fun _ => hmem, fun _ => .inr ⟨_, hrecord, rfl⟩⟩

/-! ## The stack machine -/

/-- The leaves of a tree as they are emitted. -/
def listed (depth : ℕ) (tree : LeafTree XcoinLeaf) : List (ℤ × (Bytes × UInt8)) :=
  (tree.listAt depth).map fun leaf => ((leaf.1 : ℤ), leaf.2.key)

theorem listed_node (depth : ℕ) (left right : LeafTree XcoinLeaf) :
    listed depth (.node left right) = listed (depth + 1) left ++ listed (depth + 1) right :=
  List.map_append

/-- What the loop does with the outcome of a round. -/
def resume (hashes : HashFunctions) (fuel : ℕ) :
    Except (Option (List (ℤ × (Bytes × UInt8)))) Traversal →
      Option (Option (List (ℤ × (Bytes × UInt8))))
  | .error result => some result
  | .ok next => next.run hashes fuel

theorem run_succ (fuel : ℕ) (state : Traversal) :
    state.run hashes (fuel + 1) = resume hashes fuel (state.step hashes) := rfl

/-- A node on top of the stack is emitted as this tree and popped. -/
def Emits (hashes : HashFunctions) (node : TreeNode) (tree : LeafTree XcoinLeaf) : Prop :=
  ∀ below ret, ∃ rounds finished, finished.done = true ∧
    ∀ fuel, Traversal.run hashes (fuel + rounds) ⟨node, below, ret⟩ =
      resume hashes fuel (Traversal.pop finished below (ret ++ listed below.length tree))

theorem emits_leaf (hash : Bytes) (value : XcoinLeaf) (done : Bool) :
    Emits hashes (.leaf hash value.key done) (.leaf value) := by
  intro below ret
  exact ⟨1, .leaf hash value.key true, rfl, fun fuel => rfl⟩

section Inner

variable {hash : Bytes} {sub0 sub1 : TreeNode} {below : List Frame}
  {ret : List (ℤ × (Bytes × UInt8))}

theorem step_push_first (hdone0 : sub0.done = false) (hdone1 : sub1.done = false)
    (horder : lexLess sub1.hash sub0.hash = false) :
    Traversal.step hashes ⟨.inner hash sub0 sub1 false, below, ret⟩ =
      .ok ⟨sub0, ⟨hash, false, sub1, false⟩ :: below, ret⟩ := by
  simp [Traversal.step, hdone0, hdone1, horder]

theorem step_push_second (hdone0 : sub0.done = true) (hdone1 : sub1.done = false)
    (hexplored : sub1.explored = true) :
    Traversal.step hashes ⟨.inner hash sub0 sub1 false, below, ret⟩ =
      .ok ⟨sub1, ⟨hash, false, sub0, true⟩ :: below, ret⟩ := by
  simp [Traversal.step, hdone0, hdone1, hexplored]

theorem step_pop (hdone0 : sub0.done = true) (hdone1 : sub1.done = true) :
    Traversal.step hashes ⟨.inner hash sub0 sub1 false, below, ret⟩ =
      Traversal.pop (.inner hash (sub0.setDone false) (sub1.setDone false) true) below ret := by
  simp [Traversal.step, hdone0, hdone1]

theorem step_swap (hdone0 : sub0.done = false) (hdone1 : sub1.done = false)
    (hexplored0 : sub0.explored = true) (hexplored1 : sub1.explored = true)
    (horder : lexLess sub1.hash sub0.hash = true) :
    Traversal.step hashes ⟨.inner hash sub0 sub1 false, below, ret⟩ =
      .ok ⟨.inner hash sub1 sub0 false, below, ret⟩ := by
  simp [Traversal.step, hdone0, hdone1, hexplored0, hexplored1, horder]

variable {left right : LeafTree XcoinLeaf}

theorem emits_inner (hdone0 : sub0.done = false) (hdone1 : sub1.done = false)
    (hexplored : sub1.explored = true) (horder : lexLess sub1.hash sub0.hash = false)
    (hleft : Emits hashes sub0 left) (hright : Emits hashes sub1 right) :
    Emits hashes (.inner hash sub0 sub1 false) (.node left right) := by
  intro below ret
  obtain ⟨rounds0, finished0, hfinished0, hrun0⟩ :=
    hleft (⟨hash, false, sub1, false⟩ :: below) ret
  obtain ⟨rounds1, finished1, hfinished1, hrun1⟩ :=
    hright (⟨hash, false, finished0, true⟩ :: below) (ret ++ listed (below.length + 1) left)
  refine ⟨1 + rounds1 + 1 + rounds0 + 1,
    .inner hash (finished0.setDone false) (finished1.setDone false) true, rfl, fun fuel => ?_⟩
  calc Traversal.run hashes (fuel + (1 + rounds1 + 1 + rounds0 + 1))
        ⟨.inner hash sub0 sub1 false, below, ret⟩
      = Traversal.run hashes (fuel + 1 + rounds1 + 1 + rounds0)
          ⟨sub0, ⟨hash, false, sub1, false⟩ :: below, ret⟩ := by
        rw [show fuel + (1 + rounds1 + 1 + rounds0 + 1) =
          fuel + 1 + rounds1 + 1 + rounds0 + 1 by omega, run_succ,
          step_push_first hdone0 hdone1 horder]
        rfl
    _ = Traversal.run hashes (fuel + 1 + rounds1 + 1)
          ⟨.inner hash finished0 sub1 false, below, ret ++ listed (below.length + 1) left⟩ :=
        hrun0 _
    _ = Traversal.run hashes (fuel + 1 + rounds1)
          ⟨sub1, ⟨hash, false, finished0, true⟩ :: below,
            ret ++ listed (below.length + 1) left⟩ := by
        rw [run_succ, step_push_second hfinished0 hdone1 hexplored]
        rfl
    _ = Traversal.run hashes (fuel + 1) ⟨.inner hash finished0 finished1 false, below,
          ret ++ listed (below.length + 1) left ++ listed (below.length + 1) right⟩ :=
        hrun1 _
    _ = resume hashes fuel (Traversal.pop
          (.inner hash (finished0.setDone false) (finished1.setDone false) true) below
          (ret ++ listed below.length (.node left right))) := by
        rw [run_succ, step_pop hfinished0 hfinished1, listed_node, List.append_assoc]

theorem Emits.swap (hdone0 : sub0.done = false) (hdone1 : sub1.done = false)
    (hexplored0 : sub0.explored = true) (hexplored1 : sub1.explored = true)
    (horder : lexLess sub1.hash sub0.hash = true)
    (hemits : Emits hashes (.inner hash sub1 sub0 false) tree) :
    Emits hashes (.inner hash sub0 sub1 false) tree := by
  intro below ret
  obtain ⟨rounds, finished, hfinished, hrun⟩ := hemits below ret
  refine ⟨rounds + 1, finished, hfinished, fun fuel => ?_⟩
  rw [← Nat.add_assoc, run_succ, step_swap hdone0 hdone1 hexplored0 hexplored1 horder]
  exact hrun fuel

end Inner

/-- The tree with the siblings in the order of their roots. -/
def orderedTree (hashes : HashFunctions) (tree : LeafTree XcoinLeaf) : LeafTree XcoinLeaf :=
  tree.ordered (leafHash hashes) (computeXcoinBranchHash hashes) lexLess

theorem swapped_orderedTree (tree : LeafTree XcoinLeaf) :
    LeafTree.Swapped tree (orderedTree hashes tree) := LeafTree.swapped_ordered tree

/-- A root is not less than itself, so the order of different siblings does not matter. -/
theorem Children.orderedTree_eq {tree first second : LeafTree XcoinLeaf}
    (hchildren : Children tree first second) (hapart : Apart hashes first second) :
    orderedTree hashes tree =
      if lexLess (treeRoot hashes second) (treeRoot hashes first) then
        .node (orderedTree hashes second) (orderedTree hashes first)
      else .node (orderedTree hashes first) (orderedTree hashes second) := by
  rcases hchildren with rfl | rfl
  · rfl
  · have hless := lexLess_eq_not hapart.root_ne
    rw [hless]
    change (if lexLess (treeRoot hashes first) (treeRoot hashes second) then
        LeafTree.node (orderedTree hashes first) (orderedTree hashes second)
      else .node (orderedTree hashes second) (orderedTree hashes first)) = _
    cases lexLess (treeRoot hashes first) (treeRoot hashes second) with
    | false => rfl
    | true => rfl

theorem Partial.explored_eq {tree : LeafTree XcoinLeaf} (hinfers : Partial hashes seen node tree)
    (hall : ∀ leaf ∈ tree.leaves, seen leaf) : node.explored = true := by
  cases hinfers with
  | unexplored _ hunseen =>
    obtain ⟨leaf, hmem⟩ := List.exists_mem_of_ne_nil _ tree.leaves_ne_nil
    exact absurd (hall leaf hmem) (hunseen leaf hmem)
  | leaf _ => rfl
  | inner _ _ _ _ _ _ _ => rfl

/-- **The traversal.**  A partial tree in which every leaf is seen is emitted with its siblings in
the order of their roots. -/
theorem emits_of_partial {tree : LeafTree XcoinLeaf} (hinfers : Partial hashes seen node tree)
    (hseparated : Separated hashes tree) (hall : ∀ leaf ∈ tree.leaves, seen leaf) :
    Emits hashes node (orderedTree hashes tree) := by
  induction hinfers with
  | @unexplored tree _ _ hunseen =>
    obtain ⟨leaf, hmem⟩ := List.exists_mem_of_ne_nil _ tree.leaves_ne_nil
    exact absurd (hall leaf hmem) (hunseen leaf hmem)
  | leaf _ => exact emits_leaf _ _ _
  | @inner tree first second hash sub0 sub1 hchildren _ _ hfirst hsecond hsub0 hsub1 ih0 ih1 =>
    obtain ⟨hapart, hseparated0, hseparated1⟩ := hchildren.separated hseparated
    have hall0 : ∀ leaf ∈ first.leaves, seen leaf := fun leaf hmem =>
      hall leaf (hchildren.mem_leaves.mpr (.inl hmem))
    have hall1 : ∀ leaf ∈ second.leaves, seen leaf := fun leaf hmem =>
      hall leaf (hchildren.mem_leaves.mpr (.inr hmem))
    obtain ⟨leaf0, hmem0⟩ := List.exists_mem_of_ne_nil _ first.leaves_ne_nil
    obtain ⟨leaf1, hmem1⟩ := List.exists_mem_of_ne_nil _ second.leaves_ne_nil
    have hhash1 : sub1.hash = treeRoot hashes second := hfirst leaf0 hmem0 (hall0 leaf0 hmem0)
    have hhash0 : sub0.hash = treeRoot hashes first := hsecond leaf1 hmem1 (hall1 leaf1 hmem1)
    have hexplored0 := hsub0.explored_eq hall0
    have hexplored1 := hsub1.explored_eq hall1
    have hemits0 := ih0 hseparated0 hall0
    have hemits1 := ih1 hseparated1 hall1
    rw [hchildren.orderedTree_eq hapart, ← hhash0, ← hhash1]
    cases horder : lexLess sub1.hash sub0.hash with
    | true =>
      apply Emits.swap hsub0.done_eq hsub1.done_eq hexplored0 hexplored1 horder
      exact emits_inner hsub1.done_eq hsub0.done_eq hexplored0 (lexLess_asymm _ _ horder)
        hemits1 hemits0
    | false =>
      exact emits_inner hsub0.done_eq hsub1.done_eq hexplored1 horder hemits0 hemits1

/-- **Inference.**  From the control blocks of a tree whose siblings are apart, the function
returns the leaves of the ordered tree. -/
theorem infers_orderedTree (hseparated : Separated hashes tree)
    (hnull : treeRoot hashes tree ≠ nullHash) (hrange : DepthsInRange (tree.listAt 0)) :
    Infers hashes (spendData hashes tree) (treeRoot hashes tree)
      (some (listed 0 (orderedTree hashes tree))) := by
  obtain ⟨node, hfold, hinfers⟩ := exists_explored hseparated hrange
  obtain ⟨rounds, finished, _, hrun⟩ := emits_of_partial hinfers hseparated (fun _ => id) [] []
  refine ⟨rounds, fun fuel henough => ?_⟩
  have hguard : ¬((spendData hashes tree).merkleRoot = nullHash ∨
      (spendData hashes tree).merkleRoot ≠ treeRoot hashes tree) := by
    rintro (hroot | hroot)
    · exact hnull hroot
    · exact hroot rfl
  have hfold' : (spendData hashes tree).records.foldlM
      (exploreRecord hashes (spendData hashes tree).merkleRoot)
      (.unexplored (spendData hashes tree).merkleRoot false) = some node := hfold
  rw [inferXcoinV3Tree, if_neg hguard, hfold']
  obtain ⟨rest, rfl⟩ := Nat.exists_eq_add_of_le' henough
  exact hrun rest

end Trees

end XCoin.Script
