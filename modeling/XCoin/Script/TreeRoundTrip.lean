import XCoin.Script.InferTree

/-!
# A built tree is found again

The spend data of a complete builder determines its tree up to the order of siblings, provided
that the messages that were hashed for the tree do not collide and no hash is null.  Collisions
are only asked of the messages of the tree at hand: the tags, and one message for each node
(`hashedMessages`).  With distinct leaves, siblings then have different roots, so the list that
`InferXcoinV3Tree` returns is that of the tree with its siblings in order.
-/

namespace XCoin.Script

open Consensus XcoinV3Builder

section Trees

variable {hashes : HashFunctions}

/-! ## Trees without collisions -/

/-- What is hashed for a node. -/
def nodeMessage (hashes : HashFunctions) : LeafTree XcoinLeaf → Bytes
  | .leaf leaf =>
    hashes.sha256 (Bytes.ofAscii "XCoinLeaf") ++ hashes.sha256 (Bytes.ofAscii "XCoinLeaf") ++
      ([leaf.leafVersion] ++ writeCompactSize leaf.script.length ++ leaf.script)
  | .node left right =>
    hashes.sha256 (Bytes.ofAscii "XCoinBranch") ++ hashes.sha256 (Bytes.ofAscii "XCoinBranch") ++
      (if lexLess (treeRoot hashes left) (treeRoot hashes right) then
        treeRoot hashes left ++ treeRoot hashes right
      else treeRoot hashes right ++ treeRoot hashes left)

/-- Everything that is hashed for a tree: the two tags and the messages of the nodes. -/
def hashedMessages (hashes : HashFunctions) (tree : LeafTree XcoinLeaf) : List Bytes :=
  Bytes.ofAscii "XCoinLeaf" :: Bytes.ofAscii "XCoinBranch" ::
    tree.subtrees.map (nodeMessage hashes)

/-- No two of the messages of a tree have the same hash. -/
def CollisionFree (hashes : HashFunctions) (tree : LeafTree XcoinLeaf) : Prop :=
  ∀ message ∈ hashedMessages hashes tree, ∀ other ∈ hashedMessages hashes tree,
    hashes.sha256 message = hashes.sha256 other → message = other

instance (hashes : HashFunctions) (tree : LeafTree XcoinLeaf) :
    Decidable (CollisionFree hashes tree) :=
  inferInstanceAs (Decidable (∀ message ∈ hashedMessages hashes tree,
    ∀ other ∈ hashedMessages hashes tree, hashes.sha256 message = hashes.sha256 other →
      message = other))

theorem treeRoot_eq_sha256 (tree : LeafTree XcoinLeaf) :
    treeRoot hashes tree = hashes.sha256 (nodeMessage hashes tree) := by
  cases tree <;> rfl

section Collisions

variable {tree : LeafTree XcoinLeaf}

theorem CollisionFree.nodeMessage_eq (hfree : CollisionFree hashes tree)
    {first second : LeafTree XcoinLeaf} (hfirst : first ∈ tree.subtrees)
    (hsecond : second ∈ tree.subtrees) (hsame : treeRoot hashes first = treeRoot hashes second) :
    nodeMessage hashes first = nodeMessage hashes second := by
  rw [treeRoot_eq_sha256, treeRoot_eq_sha256] at hsame
  refine hfree _ ?_ _ ?_ hsame
  · exact List.mem_cons_of_mem _ (List.mem_cons_of_mem _ (List.mem_map_of_mem hfirst))
  · exact List.mem_cons_of_mem _ (List.mem_cons_of_mem _ (List.mem_map_of_mem hsecond))

theorem CollisionFree.tags_ne (hfree : CollisionFree hashes tree) :
    hashes.sha256 (Bytes.ofAscii "XCoinLeaf") ≠ hashes.sha256 (Bytes.ofAscii "XCoinBranch") := by
  intro hsame
  have htags := hfree _ List.mem_cons_self _ (List.mem_cons_of_mem _ List.mem_cons_self) hsame
  exact absurd htags (by decide)

/-- Two hashes can be read off their sorted concatenation up to the order. -/
theorem eq_or_swap_of_sorted {a b c d : Bytes} {width : ℕ} (ha : a.length = width)
    (hb : b.length = width) (hc : c.length = width) (hd : d.length = width)
    (hsame : (if lexLess a b then a ++ b else b ++ a) = if lexLess c d then c ++ d else d ++ c) :
    (a = c ∧ b = d) ∨ (a = d ∧ b = c) := by
  split_ifs at hsame
  · exact Or.inl (List.append_inj hsame (ha.trans hc.symm))
  · exact Or.inr (List.append_inj hsame (ha.trans hd.symm))
  · exact Or.inr (List.append_inj hsame (hb.trans hc.symm)).symm
  · exact Or.inl (List.append_inj hsame (hb.trans hd.symm)).symm

theorem CollisionFree.binding (hfree : CollisionFree hashes tree) :
    LeafTree.Binding (leafHash hashes) (computeXcoinBranchHash hashes) tree where
  leaf_inj := by
    intro first second hfirst hsecond hsame
    have hmessage := hfree.nodeMessage_eq hfirst hsecond hsame
    have hdata := List.cons.inj (List.append_cancel_left hmessage)
    have hscript := serializeBytes_inj hdata.2
    exact XcoinLeaf.key_injective (Prod.ext hscript hdata.1)
  node_inj := by
    intro left right left' right' hfirst hsecond hsame
    have hmessage := hfree.nodeMessage_eq hfirst hsecond hsame
    exact eq_or_swap_of_sorted (length_treeRoot left) (length_treeRoot right)
      (length_treeRoot left') (length_treeRoot right') (List.append_cancel_left hmessage)
  leaf_ne_node := by
    intro value left right hfirst hsecond hsame
    have hmessage := hfree.nodeMessage_eq hfirst hsecond hsame
    rw [nodeMessage, nodeMessage, List.append_assoc,
      List.append_assoc (hashes.sha256 (Bytes.ofAscii "XCoinBranch"))] at hmessage
    have hlength : (hashes.sha256 (Bytes.ofAscii "XCoinLeaf")).length =
        (hashes.sha256 (Bytes.ofAscii "XCoinBranch")).length := by
      rw [hashes.length_sha256, hashes.length_sha256]
    exact hfree.tags_ne (List.append_inj hmessage hlength).1

theorem separated_of_differ (tree : LeafTree XcoinLeaf) :
    tree.SiblingsDiffer (leafHash hashes) (computeXcoinBranchHash hashes) → tree.leaves.Nodup →
      (∀ subtree ∈ tree.subtrees, treeRoot hashes subtree ≠ nullHash) → Separated hashes tree := by
  induction tree with
  | leaf value =>
    intro _ _ _
    trivial
  | node left right ihLeft ihRight =>
    intro hdiffer hdistinct hnull
    rw [LeafTree.leaves, List.nodup_append] at hdistinct
    obtain ⟨hdistinctLeft, hdistinctRight, hapart⟩ := hdistinct
    have hleft := LeafTree.left_subset_subtrees left right
    have hright := LeafTree.right_subset_subtrees left right
    refine ⟨⟨hdiffer.1, hnull _ (hleft left.mem_subtrees_self),
      hnull _ (hright right.mem_subtrees_self), ?_⟩, ?_, ?_⟩
    · intro leaf hleaf hleaf'
      exact hapart leaf hleaf leaf hleaf' rfl
    · exact ihLeft hdiffer.2.1 hdistinctLeft fun subtree hmem => hnull subtree (hleft hmem)
    · exact ihRight hdiffer.2.2 hdistinctRight fun subtree hmem => hnull subtree (hright hmem)

theorem Separated.of_swapped {other : LeafTree XcoinLeaf} (hseparated : Separated hashes tree)
    (hswapped : LeafTree.Swapped tree other) : Separated hashes other := by
  have hcomm := computeXcoinBranchHash_comm hashes
  -- the siblings of a node, swapped below, are as far apart as before
  have hapart : ∀ {left right left' right' : LeafTree XcoinLeaf}, LeafTree.Swapped left left' →
      LeafTree.Swapped right right' → Apart hashes left right → Apart hashes left' right' := by
    intro left right left' right' hleft hright hbefore
    have hroot : treeRoot hashes left' = treeRoot hashes left := hleft.root_eq hcomm
    have hroot' : treeRoot hashes right' = treeRoot hashes right := hright.root_eq hcomm
    refine ⟨?_, ?_, ?_, fun leaf hmem hmem' => ?_⟩
    · rw [hroot, hroot']
      exact hbefore.root_ne
    · rw [hroot]
      exact hbefore.first_ne_null
    · rw [hroot']
      exact hbefore.second_ne_null
    · exact hbefore.leaves leaf (hleft.leaves_perm.mem_iff.mp hmem)
        (hright.leaves_perm.mem_iff.mp hmem')
  induction hswapped with
  | leaf value => trivial
  | keep hleft hright ihLeft ihRight =>
    exact ⟨hapart hleft hright hseparated.1, ihLeft hseparated.2.1, ihRight hseparated.2.2⟩
  | swap hleft hright ihLeft ihRight =>
    exact ⟨(hapart hleft hright hseparated.1).symm, ihRight hseparated.2.2,
      ihLeft hseparated.2.1⟩

end Collisions

/-! ## Round trip -/

theorem depthsInRange_of_perm {α : Type} {leaves other : List (ℕ × α)} (hperm : leaves.Perm other)
    (hrange : DepthsInRange other) : DepthsInRange leaves :=
  fun leaf hmem => hrange leaf (hperm.mem_iff.mp hmem)

theorem signed_injective {α : Type} :
    Function.Injective (signed : List (ℕ × α) → List (ℤ × α)) := by
  apply List.map_injective_iff.mpr
  intro leaf leaf' hsame
  obtain ⟨hdepth, hvalue⟩ := Prod.mk.inj hsame
  exact Prod.ext (Int.ofNat_inj.mp hdepth) hvalue

theorem map_key_signed (tree : LeafTree XcoinLeaf) :
    (signed (tree.listAt 0)).map (fun leaf => (leaf.1, leaf.2.key)) = listed 0 tree := by
  rw [signed, List.map_map]
  rfl

/-- **Inferring a built tree.**  For a complete builder with distinct leaves, hashes that do not
collide and no null hash, the tree is found again from the spend data: the depths of the returned
leaves are valid, they are the leaves that were added, and built again they give the same root.
A tree that differs by swaps of siblings gives the same list. -/
theorem infers_of_complete (hashes : HashFunctions) (tree : LeafTree XcoinLeaf)
    (builder : XcoinV3Builder) (hadd : addLeaves hashes (signed (tree.listAt 0)) = some builder)
    (hcomplete : builder.isComplete = true) (hdistinct : tree.leaves.Nodup)
    (hfree : CollisionFree hashes tree)
    (hnull : ∀ subtree ∈ tree.subtrees, treeRoot hashes subtree ≠ nullHash) :
    ∃ root spend leaves, builder.getRoot = some root ∧
      builder.getSpendData hashes = some spend ∧
      Infers hashes spend root (some (leaves.map fun leaf => (leaf.1, leaf.2.key))) ∧
      validDepths (leaves.map Prod.fst) = true ∧
      (leaves.map Prod.snd).Perm tree.leaves ∧
      (∃ rebuilt, addLeaves hashes leaves = some rebuilt ∧ rebuilt.isComplete = true ∧
        rebuilt.getRoot = some root) ∧
      ∀ other builder', LeafTree.Swapped tree other →
        addLeaves hashes (signed (other.listAt 0)) = some builder' →
        ∃ root' spend', builder'.getRoot = some root' ∧
          builder'.getSpendData hashes = some spend' ∧
          Infers hashes spend' root' (some (leaves.map fun leaf => (leaf.1, leaf.2.key))) := by
  obtain ⟨tree', hsame, hrange, rfl⟩ := (addLeaves_complete_iff hashes _ _).mp ⟨hadd, hcomplete⟩
  obtain rfl : tree = tree' := LeafTree.listAt_zero_injective (signed_injective hsame)
  have hless : ∀ a b, a ≠ b → lexLess b a = !lexLess a b := fun _ _ => lexLess_eq_not
  have hdiffer := hfree.binding.siblingsDiffer hdistinct
  have hseparated := separated_of_differ tree hdiffer hdistinct hnull
  have hroot : ∀ {other}, LeafTree.Swapped tree other →
      treeRoot hashes other = treeRoot hashes tree := fun hswapped =>
    hswapped.root_eq (computeXcoinBranchHash_comm hashes)
  have hrange' : ∀ {other}, LeafTree.Swapped tree other → DepthsInRange (other.listAt 0) :=
    fun hswapped => depthsInRange_of_perm (hswapped.listAt_perm 0) hrange
  have hordered : LeafTree.Swapped tree (orderedTree hashes tree) := swapped_orderedTree tree
  -- every tree with the same siblings gives the list of the ordered tree
  have hinfers : ∀ {other}, LeafTree.Swapped tree other →
      Infers hashes (spendData hashes other) (treeRoot hashes other)
        (some ((signed ((orderedTree hashes tree).listAt 0)).map fun leaf =>
          (leaf.1, leaf.2.key))) := by
    intro other hswapped
    rw [map_key_signed, orderedTree,
      ← hswapped.ordered_eq (computeXcoinBranchHash_comm hashes) hless hdiffer]
    exact infers_orderedTree (hseparated.of_swapped hswapped)
      (hroot hswapped ▸ hnull tree tree.mem_subtrees_self) (hrange' hswapped)
  refine ⟨_, _, signed ((orderedTree hashes tree).listAt 0), getRoot_eq tree, getSpendData_eq tree,
    hinfers (.refl tree), (validDepths_iff _).mpr ⟨_, rfl, hrange' hordered⟩, ?_, ?_, ?_⟩
  · rw [map_snd_signed]
    exact hordered.leaves_perm
  · obtain ⟨hrebuilt, hcomplete'⟩ := (addLeaves_complete_iff hashes _ _).mpr
      ⟨orderedTree hashes tree, rfl, hrange' hordered, rfl⟩
    exact ⟨_, hrebuilt, hcomplete', (getRoot_eq _).trans (congrArg some (hroot hordered))⟩
  · intro other builder' hswapped hadd'
    obtain ⟨hother, _⟩ := (addLeaves_complete_iff hashes _ _).mpr
      ⟨other, rfl, hrange' hswapped, rfl⟩
    obtain rfl := Option.some.inj (hadd'.symm.trans hother)
    exact ⟨_, _, getRoot_eq other, getSpendData_eq other, hinfers hswapped⟩

end Trees

/-- A small hash function, for trees that can be written down. -/
def polynomialHash (data : Bytes) : ℕ :=
  data.foldl (fun value byte => (value * 257 + byte.toNat + 1) % 65537) 0

/-- Hash functions that tell small inputs apart. -/
def polynomialHashes : HashFunctions :=
  { constantHashes with
    sha256 := fun data => Bytes.ofNatLE 32 (polynomialHash data)
    length_sha256 := fun data => Bytes.length_ofNatLE 32 (polynomialHash data) }

/-- Three leaves, the last one at depth 1. -/
def smallTree : LeafTree XcoinLeaf :=
  .node
    (.node (.leaf ⟨xcoinLeafPq, [0x51], xcoinLeafPq_even⟩)
      (.leaf ⟨xcoinLeafPq, [0x52], xcoinLeafPq_even⟩))
    (.leaf ⟨xcoinLeafSlh, [0x51], xcoinLeafSlh_even⟩)

theorem smallTree_inferred : smallTree.leaves.Nodup ∧ CollisionFree polynomialHashes smallTree ∧
    (∀ subtree ∈ smallTree.subtrees, treeRoot polynomialHashes subtree ≠ nullHash) ∧
    ∃ builder root spend leaves,
      addLeaves polynomialHashes (signed (smallTree.listAt 0)) = some builder ∧
      builder.getRoot = some root ∧ builder.getSpendData polynomialHashes = some spend ∧
      Infers polynomialHashes spend root (some leaves) := by
  obtain ⟨hadd, hcomplete⟩ := (addLeaves_complete_iff polynomialHashes _ _).mpr
    ⟨smallTree, rfl, by unfold DepthsInRange; decide, rfl⟩
  have hdistinct : smallTree.leaves.Nodup := by decide
  have hfree : CollisionFree polynomialHashes smallTree := by decide +kernel
  have hnull : ∀ subtree ∈ smallTree.subtrees, treeRoot polynomialHashes subtree ≠ nullHash := by
    decide +kernel
  obtain ⟨root, spend, leaves, hroot, hspend, hinfers, _⟩ :=
    infers_of_complete polynomialHashes smallTree _ hadd hcomplete hdistinct hfree hnull
  exact ⟨hdistinct, hfree, hnull, _, root, spend, _, hadd, hroot, hspend, hinfers⟩

/-- Hash functions without a collision among the two tags and one leaf, and the null hash for the
leaf. -/
def nullLeafHashes : HashFunctions :=
  { constantHashes with
    sha256 := fun data =>
      List.replicate 32 (if data.length = 9 then 1 else if data.length = 11 then 2 else 0)
    length_sha256 := fun _ => List.length_replicate }

/-- **A null root.**  Without a collision the root of a single leaf may be the null hash, and then
nothing is inferred. -/
theorem infers_none_of_null : ∃ builder root spend,
    addLeaves nullLeafHashes (signed ((LeafTree.leaf ⟨xcoinLeafPq, [0x51], rfl⟩).listAt 0)) =
      some builder ∧
    builder.isComplete = true ∧ CollisionFree nullLeafHashes (.leaf ⟨xcoinLeafPq, [0x51], rfl⟩) ∧
    builder.getRoot = some root ∧ builder.getSpendData nullLeafHashes = some spend ∧
    Infers nullLeafHashes spend root none := by
  obtain ⟨hadd, hcomplete⟩ := (addLeaves_complete_iff nullLeafHashes _ _).mpr
    ⟨.leaf ⟨xcoinLeafPq, [0x51], rfl⟩, rfl, by unfold DepthsInRange; decide, rfl⟩
  have hnull : treeRoot nullLeafHashes (.leaf ⟨xcoinLeafPq, [0x51], rfl⟩) = nullHash := by
    decide +kernel
  refine ⟨_, _, _, hadd, hcomplete, by decide +kernel, getRoot_eq _, getSpendData_eq _, 0, ?_⟩
  intro fuel _
  exact if_pos (Or.inl hnull)

end XCoin.Script
