import XCoin.Lib.HashTree
import XCoin.Lib.SortedInsert
import XCoin.Script.LeafSpend

/-!
# Building a witness v3 output

`XcoinV3Builder` takes the leaves of a script tree from left to right with their depths and keeps
a stack of finished subtrees.  Every subtree remembers its leaves and, for each of them, the
hashes of the siblings on the way up.  When one tree is complete, `GetSpendData` writes the
control block of every leaf.

The builder is the stack of `LeafTree.insertAt` with `combine`, and `ValidDepths` the same stack
without values, so that both accept the lists of trees whose leaves are at depth 128 at most
(`validDepths_iff`, `addLeaves_complete_iff`).  What the builder knows of a tree is its root and
the openings of its leaves (`mem_leaves_nodeInfo`), and the verifier folds an opening back to the
root: every control block commits its leaf (`TreeOpens.commitsLeaf`).
-/

namespace XCoin.Script

open Consensus

variable (hashes : HashFunctions) (builder : XcoinV3Builder)

/-! ## Leaves and orders -/

/-- A leaf version and a script.  The lowest bit of a leaf version is clear. -/
structure XcoinLeaf where
  leafVersion : UInt8
  script : Bytes
  version_even : leafVersion &&& ~~~taprootLeafMask = 0
deriving DecidableEq, Repr

theorem xcoinLeafPq_even : xcoinLeafPq &&& ~~~taprootLeafMask = 0 := rfl

theorem xcoinLeafSlh_even : xcoinLeafSlh &&& ~~~taprootLeafMask = 0 := rfl

/-- `ShortestVectorFirstComparator`. -/
def shortestVectorFirst (a b : Bytes) : Bool :=
  if a.length < b.length then true
  else if b.length < a.length then false
  else lexLess a b

/-- `operator<` of pairs of a script and a leaf version. -/
def pairLess (a b : Bytes × UInt8) : Bool :=
  lexLess a.1 b.1 || (!lexLess b.1 a.1 && decide (a.2 < b.2))

/-! ## The builder -/

/-- A leaf and the hashes of the siblings on its way up. -/
structure LeafInfo where
  script : Bytes
  leafVersion : UInt8
  merkleBranch : List Bytes
deriving DecidableEq, Repr

/-- `XcoinV3Builder::NodeInfo`. -/
structure NodeInfo where
  hash : Bytes
  leaves : List LeafInfo
deriving DecidableEq, Repr

/-- `XcoinV3Builder`; `m_branch` is listed with its last entry first.  The branch of a builder
that is not valid is never read. -/
structure XcoinV3Builder where
  valid : Bool
  branch : List (Option NodeInfo)
deriving DecidableEq, Repr

/-- `XcoinV3SpendData`: the map from script and leaf version to control blocks, in order. -/
structure XcoinV3SpendData where
  merkleRoot : Bytes
  scripts : List ((Bytes × UInt8) × List Bytes)
deriving DecidableEq, Repr

/-- A sibling hash is appended to the way up. -/
def LeafInfo.pushBack (hash : Bytes) (leaf : LeafInfo) : LeafInfo :=
  { leaf with merkleBranch := leaf.merkleBranch ++ [hash] }

namespace XcoinV3Builder

/-- A builder without leaves. -/
def new : XcoinV3Builder := ⟨true, []⟩

/-- `Combine`. -/
def combine (a b : NodeInfo) : NodeInfo where
  hash := computeXcoinBranchHash hashes a.hash b.hash
  leaves := a.leaves.map (LeafInfo.pushBack b.hash) ++ b.leaves.map (LeafInfo.pushBack a.hash)

/-- `Insert`; `none` where the assertion on the depth fails.  The newer node is the first
argument of `Combine`. -/
def insert (node : NodeInfo) (depth : ℤ) (builder : XcoinV3Builder) : Option XcoinV3Builder :=
  if 0 ≤ depth ∧ depth ≤ xcoinV3ControlMaxNodeCount then
    match LeafTree.insertAt (fun older newer => combine hashes newer older) depth.toNat node
        builder.branch with
    | none => some { builder with valid := false }
    | some branch => some { builder with branch }
  else none

/-- The node of a single leaf. -/
def leafNode (leaf : XcoinLeaf) (track : Bool) : NodeInfo where
  hash := computeXcoinLeafHash hashes leaf.leafVersion leaf.script
  leaves := if track then [⟨leaf.script, leaf.leafVersion, []⟩] else []

/-- `Add`. -/
def add (depth : ℤ) (leaf : XcoinLeaf) (track : Bool) (builder : XcoinV3Builder) :
    Option XcoinV3Builder :=
  if builder.valid then builder.insert hashes (leafNode hashes leaf track) depth else some builder

/-- The leaves of a list added in order. -/
def addLeaves (leaves : List (ℤ × XcoinLeaf)) : Option XcoinV3Builder :=
  leaves.foldlM (fun builder leaf => builder.add hashes leaf.1 leaf.2 true) new

/-- `IsComplete`. -/
def isComplete : Bool :=
  builder.valid && decide (builder.branch.length = 1) &&
    ((builder.branch.head?.bind id).isSome)

/-- The node of a complete builder; `none` where the assertion fails. -/
def rootNode : Option NodeInfo :=
  if builder.isComplete then builder.branch.head?.bind id else none

/-- `GetRoot`. -/
def getRoot : Option Bytes := builder.rootNode.map NodeInfo.hash

/-- The control block of a leaf. -/
def leafControl (leaf : LeafInfo) : Bytes :=
  controlBlock hashes leaf.leafVersion leaf.merkleBranch

/-- The control blocks of the leaves, by script and leaf version. -/
def spendScripts (leaves : List LeafInfo) : List ((Bytes × UInt8) × List Bytes) :=
  leaves.foldl (fun scripts leaf => SortedInsert.insertAt shortestVectorFirst pairLess
    (leaf.script, leaf.leafVersion) (leafControl hashes leaf) scripts) []

/-- `GetSpendData`. -/
def getSpendData : Option XcoinV3SpendData :=
  builder.rootNode.map fun node => ⟨node.hash, spendScripts hashes node.leaves⟩

end XcoinV3Builder

/-- One depth of `TaprootBuilder::ValidDepths`. -/
def insertDepth (branch : List (Option Unit)) (depth : ℤ) : Option (List (Option Unit)) :=
  if depth < 0 ∨ xcoinV3ControlMaxNodeCount < depth then none
  else LeafTree.insertAt (fun _ _ => ()) depth.toNat () branch

/-- `TaprootBuilder::ValidDepths`. -/
def taprootValidDepths (depths : List ℤ) : Bool :=
  match depths.foldlM insertDepth [] with
  | none => false
  | some branch => branch.isEmpty || branch == [some ()]

/-- `XcoinV3Builder::ValidDepths`. -/
def XcoinV3Builder.validDepths (depths : List ℤ) : Bool :=
  !depths.isEmpty && taprootValidDepths depths

/-- `VerifyXcoinV3Commitment`; `none` where an assertion on the sizes fails. -/
def verifyXcoinV3Commitment (control program leafHash : Bytes) : Option Bool :=
  if validControlSize control ∧ program.length = witnessV3Size then
    some (computeXcoinV3MerkleRoot hashes control leafHash == program)
  else none

/-! ## Orders and hashes -/

theorem eq_of_not_lexLess (a : Bytes) :
    ∀ b, lexLess a b = false → lexLess b a = false → a = b := by
  induction a with
  | nil =>
    intro b hab _
    cases b with
    | nil => rfl
    | cons _ _ => cases hab
  | cons x xs ih =>
    intro b hab hba
    cases b with
    | nil => cases hba
    | cons y ys =>
      simp only [lexLess, Bool.or_eq_false_iff, decide_eq_false_iff_not,
        UInt8.not_lt] at hab hba
      obtain rfl : x = y := UInt8.le_antisymm hba.1 hab.1
      simp only [beq_self_eq_true, Bool.true_and] at hab hba
      rw [ih ys hab.2 hba.2]

theorem lexLess_asymm (a : Bytes) : ∀ b, lexLess a b = true → lexLess b a = false := by
  induction a with
  | nil =>
    intro b _
    cases b with
    | nil => rfl
    | cons _ _ => rfl
  | cons x xs ih =>
    intro b hab
    cases b with
    | nil => cases hab
    | cons y ys =>
      simp only [lexLess, Bool.or_eq_true, decide_eq_true_eq, Bool.and_eq_true,
        beq_iff_eq] at hab
      rcases hab with hless | ⟨rfl, hrest⟩
      · simp [lexLess, UInt8.lt_asymm hless, (UInt8.ne_of_lt hless).symm]
      · simp [lexLess, UInt8.lt_irrefl, ih ys hrest]

theorem lexLess_eq_not {a b : Bytes} (hne : a ≠ b) : lexLess b a = !lexLess a b := by
  cases hab : lexLess a b with
  | true => exact lexLess_asymm a b hab
  | false =>
    by_contra hba
    exact hne (eq_of_not_lexLess a b hab (by simpa using hba))

theorem eq_of_not_shortestVectorFirst (a b : Bytes) (hab : shortestVectorFirst a b = false)
    (hba : shortestVectorFirst b a = false) : a = b := by
  unfold shortestVectorFirst at hab hba
  by_cases hlt : a.length < b.length
  · rw [if_pos hlt] at hab
    cases hab
  by_cases hgt : b.length < a.length
  · rw [if_pos hgt] at hba
    cases hba
  rw [if_neg hlt, if_neg hgt] at hab
  rw [if_neg hgt, if_neg hlt] at hba
  exact eq_of_not_lexLess a b hab hba

theorem eq_of_not_pairLess (a b : Bytes × UInt8) (hab : pairLess a b = false)
    (hba : pairLess b a = false) : a = b := by
  simp only [pairLess, Bool.or_eq_false_iff, Bool.and_eq_false_iff, Bool.not_eq_false',
    decide_eq_false_iff_not, UInt8.not_lt] at hab hba
  have hscript : a.1 = b.1 := eq_of_not_lexLess a.1 b.1 hab.1 hba.1
  have hversion : a.2 = b.2 :=
    UInt8.le_antisymm (hba.2.resolve_left (by simp [hab.1])) (hab.2.resolve_left (by simp [hba.1]))
  exact Prod.ext hscript hversion

/-- The branch hash does not see the order of the children. -/
theorem computeXcoinBranchHash_comm (a b : Bytes) :
    computeXcoinBranchHash hashes a b = computeXcoinBranchHash hashes b a := by
  by_cases hsame : a = b
  · rw [hsame]
  · unfold computeXcoinBranchHash
    rw [lexLess_eq_not hsame]
    cases lexLess a b with
    | false => rfl
    | true => rfl

/-! ## Lists of depths -/

section Depths

variable {α : Type}

/-- A list of leaves as the source writes it, with signed depths. -/
def signed (leaves : List (ℕ × α)) : List (ℤ × α) := leaves.map fun leaf => ((leaf.1 : ℤ), leaf.2)

/-- The depths that a control block can express. -/
def DepthsInRange (leaves : List (ℕ × α)) : Prop :=
  ∀ leaf ∈ leaves, leaf.1 ≤ xcoinV3ControlMaxNodeCount

theorem map_snd_signed (tree : LeafTree α) :
    (signed (tree.listAt 0)).map Prod.snd = tree.leaves := by
  rw [← tree.map_snd_listAt 0, signed, List.map_map]
  rfl

/-- What a loop over leaves with signed depths comes to, if each step inserts the leaf into the
stack that the state shows, provided that the depth is in range. -/
theorem foldlM_signed_iff {σ ν : Type} (combine : ν → ν → ν) (f : α → ν)
    (view : List (Option ν) → σ) (step : σ → ℤ × α → Option σ)
    (hstep : ∀ stack stack' leaf, step (view stack) leaf = some (view stack') ↔
      (0 ≤ leaf.1 ∧ leaf.1 ≤ xcoinV3ControlMaxNodeCount) ∧
        LeafTree.insertAt combine leaf.1.toNat (f leaf.2) stack = some stack')
    (hview : ∀ state leaf stack, step state leaf = some (view stack) →
      ∃ before, state = view before)
    (stack' : List (Option ν)) (leaves : List (ℤ × α)) :
    ∀ state, leaves.foldlM step state = some (view stack') ↔
      ∃ stack naturals, state = view stack ∧ leaves = signed naturals ∧ DepthsInRange naturals ∧
        LeafTree.insertList combine f naturals stack = some stack' := by
  induction leaves with
  | nil =>
    intro state
    constructor
    · intro hfold
      exact ⟨stack', [], Option.some.inj hfold, rfl, fun _ hmem => absurd hmem List.not_mem_nil,
        rfl⟩
    · rintro ⟨stack, naturals, rfl, hnil, _, hinsert⟩
      rw [List.map_eq_nil_iff.mp hnil.symm] at hinsert
      rw [Option.some.inj hinsert]
      rfl
  | cons leaf rest ih =>
    intro state
    rw [List.foldlM_cons]
    constructor
    · intro hfold
      obtain ⟨middle, hfirst, hrest⟩ := Option.bind_eq_some_iff.mp hfold
      obtain ⟨stackMiddle, naturals, rfl, rfl, hrange, hinsert⟩ := (ih middle).mp hrest
      obtain ⟨stack, rfl⟩ := hview state leaf stackMiddle hfirst
      obtain ⟨hdepth, hplace⟩ := (hstep stack stackMiddle leaf).mp hfirst
      refine ⟨stack, (leaf.1.toNat, leaf.2) :: naturals, rfl, ?_,
        List.forall_mem_cons.mpr ⟨Int.toNat_le.mpr hdepth.2, hrange⟩, ?_⟩
      · exact congrArg (· :: signed naturals) (Prod.ext (Int.toNat_of_nonneg hdepth.1).symm rfl)
      · exact Option.bind_eq_some_iff.mpr ⟨stackMiddle, hplace, hinsert⟩
    · rintro ⟨stack, naturals, rfl, hsigned, hrange, hinsert⟩
      obtain ⟨⟨depth, value⟩, naturals, rfl, rfl, rfl⟩ := List.map_eq_cons_iff.mp hsigned.symm
      obtain ⟨hle, hrange⟩ := List.forall_mem_cons.mp hrange
      obtain ⟨middle, hplace, hrest⟩ := Option.bind_eq_some_iff.mp hinsert
      have hdepth : 0 ≤ (depth : ℤ) ∧ (depth : ℤ) ≤ xcoinV3ControlMaxNodeCount :=
        ⟨Int.natCast_nonneg depth, Int.ofNat_le.mpr hle⟩
      refine Option.bind_eq_some_iff.mpr ⟨view middle, (hstep stack middle _).mpr
        ⟨hdepth, hplace⟩, (ih (view middle)).mpr ⟨middle, naturals, rfl, rfl, hrange, hrest⟩⟩

theorem insertDepth_eq_some (branch branch' : List (Option Unit)) (depth : ℤ) :
    insertDepth branch depth = some branch' ↔
      (0 ≤ depth ∧ depth ≤ xcoinV3ControlMaxNodeCount) ∧
        LeafTree.insertAt (fun _ _ => ()) depth.toNat () branch = some branch' := by
  unfold insertDepth
  by_cases hrange : 0 ≤ depth ∧ depth ≤ xcoinV3ControlMaxNodeCount
  · rw [if_neg (by omega)]
    exact (and_iff_right hrange).symm
  · rw [if_pos (by omega)]
    exact ⟨fun h => absurd h.symm (Option.some_ne_none _), fun h => absurd h.1 hrange⟩

theorem foldlM_insertDepth (leaves : List (ℤ × α)) (branch : List (Option Unit)) :
    (leaves.map Prod.fst).foldlM insertDepth [] = some branch ↔
      ∃ naturals : List (ℕ × α), leaves = signed naturals ∧ DepthsInRange naturals ∧
        LeafTree.insertList (fun _ _ => ()) (fun _ => ()) naturals [] = some branch := by
  have hloop := foldlM_signed_iff (fun _ _ => ()) (fun _ => ()) id
    (fun branch (leaf : ℤ × α) => insertDepth branch leaf.1)
    (fun stack stack' leaf => insertDepth_eq_some stack stack' leaf.1)
    (fun state _ _ _ => ⟨state, rfl⟩) branch leaves []
  rw [List.foldlM_map]
  refine hloop.trans ?_
  constructor
  · rintro ⟨_, naturals, rfl, hrest⟩
    exact ⟨naturals, hrest⟩
  · rintro ⟨naturals, hrest⟩
    exact ⟨[], naturals, rfl, hrest⟩

/-- **Valid depths.**  A non-empty list has valid depths if and only if it is the list of a tree
with no leaf below depth 128. -/
theorem validDepths_iff (leaves : List (ℤ × α)) :
    XcoinV3Builder.validDepths (leaves.map Prod.fst) = true ↔
      ∃ tree : LeafTree α, leaves = signed (tree.listAt 0) ∧ DepthsInRange (tree.listAt 0) := by
  rw [XcoinV3Builder.validDepths, Bool.and_eq_true, taprootValidDepths]
  constructor
  · rintro ⟨hnonempty, hvalid⟩
    cases hfold : (leaves.map Prod.fst).foldlM insertDepth [] with
    | none =>
      rw [hfold] at hvalid
      cases hvalid
    | some branch =>
      simp only [hfold, Bool.or_eq_true, List.isEmpty_iff, beq_iff_eq] at hvalid
      obtain ⟨naturals, rfl, hrange, hinsert⟩ := (foldlM_insertDepth leaves branch).mp hfold
      rcases hvalid with rfl | rfl
      · rw [LeafTree.eq_nil_of_insertList naturals [] hinsert] at hnonempty
        cases hnonempty
      · obtain ⟨tree, rfl, _⟩ := (LeafTree.insertList_eq_iff _ _ naturals ()).mp hinsert
        exact ⟨tree, rfl, hrange⟩
  · rintro ⟨tree, rfl, hrange⟩
    have hfold := (foldlM_insertDepth (signed (tree.listAt 0)) [some ()]).mpr
      ⟨tree.listAt 0, rfl, hrange, (LeafTree.insertList_eq_iff _ _ _ ()).mpr ⟨tree, rfl, rfl⟩⟩
    refine ⟨?_, by rw [hfold]; rfl⟩
    simpa [signed] using tree.listAt_ne_nil 0

end Depths

/-! ## The builder's stack -/

namespace XcoinV3Builder

variable {hashes : HashFunctions} (tree : LeafTree XcoinLeaf)

/-- What the builder knows of a tree. -/
def nodeInfo (hashes : HashFunctions) (tree : LeafTree XcoinLeaf) : NodeInfo :=
  tree.fold (leafNode hashes · true) fun older newer => combine hashes newer older

theorem add_eq_some (branch branch' : List (Option NodeInfo)) (leaf : ℤ × XcoinLeaf) :
    add hashes leaf.1 leaf.2 true ⟨true, branch⟩ = some ⟨true, branch'⟩ ↔
      (0 ≤ leaf.1 ∧ leaf.1 ≤ xcoinV3ControlMaxNodeCount) ∧
        LeafTree.insertAt (fun older newer => combine hashes newer older) leaf.1.toNat
          (leafNode hashes leaf.2 true) branch = some branch' := by
  rw [add, if_pos rfl, insert]
  by_cases hrange : 0 ≤ leaf.1 ∧ leaf.1 ≤ xcoinV3ControlMaxNodeCount
  · rw [if_pos hrange, and_iff_right hrange]
    cases LeafTree.insertAt (fun older newer => combine hashes newer older) leaf.1.toNat
        (leafNode hashes leaf.2 true) branch with
    | none => simp
    | some inserted => simp
  · rw [if_neg hrange]
    exact ⟨fun h => absurd h.symm (Option.some_ne_none _), fun h => absurd h.1 hrange⟩

theorem valid_of_add {builder : XcoinV3Builder} {leaf : ℤ × XcoinLeaf}
    {branch : List (Option NodeInfo)}
    (hadd : add hashes leaf.1 leaf.2 true builder = some ⟨true, branch⟩) :
    ∃ before, builder = ⟨true, before⟩ := by
  obtain ⟨valid, before⟩ := builder
  cases valid with
  | true => exact ⟨before, rfl⟩
  | false => simp [add] at hadd

theorem isComplete_iff {builder : XcoinV3Builder} :
    builder.isComplete = true ↔ ∃ node, builder = ⟨true, [some node]⟩ := by
  constructor
  · intro hcomplete
    obtain ⟨valid, branch⟩ := builder
    simp only [isComplete, Bool.and_eq_true, decide_eq_true_eq] at hcomplete
    obtain ⟨⟨rfl, hlength⟩, hsome⟩ := hcomplete
    obtain ⟨entry, rfl⟩ := List.length_eq_one_iff.mp hlength
    obtain ⟨node, hnode⟩ := Option.isSome_iff_exists.mp hsome
    exact ⟨node, by rw [show entry = some node from hnode]⟩
  · rintro ⟨node, rfl⟩
    rfl

/-- **The builder.**  It is complete after the leaves of a list if and only if this is the list
of a tree with no leaf below depth 128; it then holds what it knows of this tree. -/
theorem addLeaves_complete_iff (hashes : HashFunctions) (leaves : List (ℤ × XcoinLeaf))
    (builder : XcoinV3Builder) :
    addLeaves hashes leaves = some builder ∧ builder.isComplete = true ↔
      ∃ tree, leaves = signed (tree.listAt 0) ∧ DepthsInRange (tree.listAt 0) ∧
        builder = ⟨true, [some (nodeInfo hashes tree)]⟩ := by
  have hloop := fun branch => foldlM_signed_iff (fun older newer => combine hashes newer older)
    (leafNode hashes · true) (fun branch => ⟨true, branch⟩)
    (fun builder (leaf : ℤ × XcoinLeaf) => add hashes leaf.1 leaf.2 true builder) add_eq_some
    (fun _ _ _ => valid_of_add) branch leaves new
  rw [isComplete_iff]
  constructor
  · rintro ⟨hadd, node, rfl⟩
    obtain ⟨stack, naturals, hstack, rfl, hrange, hinsert⟩ := (hloop _).mp hadd
    obtain rfl : [] = stack := congrArg XcoinV3Builder.branch hstack
    obtain ⟨tree, rfl, rfl⟩ := (LeafTree.insertList_eq_iff _ _ naturals node).mp hinsert
    exact ⟨tree, rfl, hrange, rfl⟩
  · rintro ⟨tree, rfl, hrange, rfl⟩
    refine ⟨(hloop _).mpr ⟨[], tree.listAt 0, rfl, rfl, hrange, ?_⟩, _, rfl⟩
    exact (LeafTree.insertList_eq_iff _ _ _ _).mpr ⟨tree, rfl, rfl⟩

/-! ## Openings and spend data -/

/-- The hash of a leaf. -/
def leafHash (hashes : HashFunctions) (leaf : XcoinLeaf) : Bytes :=
  computeXcoinLeafHash hashes leaf.leafVersion leaf.script

/-- The root of a tree. -/
def treeRoot (hashes : HashFunctions) (tree : LeafTree XcoinLeaf) : Bytes :=
  tree.root (leafHash hashes) (computeXcoinBranchHash hashes)

/-- The siblings on the way up from a leaf. -/
def TreeOpens (hashes : HashFunctions) (tree : LeafTree XcoinLeaf) (leaf : XcoinLeaf)
    (path : List Bytes) : Prop :=
  tree.Opens (leafHash hashes) (computeXcoinBranchHash hashes) leaf path

@[simp] theorem length_treeRoot : (treeRoot hashes tree).length = 32 := by
  cases tree with
  | leaf value => exact length_taggedHash _ _ _
  | node left right => exact length_taggedHash _ _ _

theorem hash_nodeInfo : (nodeInfo hashes tree).hash = treeRoot hashes tree := by
  induction tree with
  | leaf value => rfl
  | node left right ihLeft ihRight =>
    calc (nodeInfo hashes (.node left right)).hash
        = computeXcoinBranchHash hashes (nodeInfo hashes right).hash
            (nodeInfo hashes left).hash := rfl
      _ = computeXcoinBranchHash hashes (treeRoot hashes right) (treeRoot hashes left) := by
          rw [ihLeft, ihRight]
      _ = treeRoot hashes (.node left right) := computeXcoinBranchHash_comm _ _ _

theorem mem_leaves_nodeInfo :
    ∀ info, info ∈ (nodeInfo hashes tree).leaves ↔ ∃ leaf path, TreeOpens hashes tree leaf path ∧
      info = ⟨leaf.script, leaf.leafVersion, path⟩ := by
  induction tree with
  | leaf value =>
    intro info
    constructor
    · intro hmem
      exact ⟨value, [], .leaf value, List.mem_singleton.mp hmem⟩
    · rintro ⟨leaf, path, hopens, rfl⟩
      cases hopens
      exact List.mem_singleton.mpr rfl
  | node left right ihLeft ihRight =>
    intro info
    have hleaves : (nodeInfo hashes (.node left right)).leaves =
        (nodeInfo hashes right).leaves.map (LeafInfo.pushBack (treeRoot hashes left)) ++
          (nodeInfo hashes left).leaves.map (LeafInfo.pushBack (treeRoot hashes right)) := by
      rw [← hash_nodeInfo, ← hash_nodeInfo]
      rfl
    rw [hleaves, List.mem_append, List.mem_map, List.mem_map]
    constructor
    · rintro (⟨below, hbelow, rfl⟩ | ⟨below, hbelow, rfl⟩)
      · obtain ⟨leaf, path, hopens, rfl⟩ := (ihRight below).mp hbelow
        exact ⟨leaf, _, .right hopens, rfl⟩
      · obtain ⟨leaf, path, hopens, rfl⟩ := (ihLeft below).mp hbelow
        exact ⟨leaf, _, .left hopens, rfl⟩
    · rintro ⟨leaf, path, hopens, rfl⟩
      cases hopens with
      | left hbelow => exact Or.inr ⟨_, (ihLeft _).mpr ⟨leaf, _, hbelow, rfl⟩, rfl⟩
      | right hbelow => exact Or.inl ⟨_, (ihRight _).mpr ⟨leaf, _, hbelow, rfl⟩, rfl⟩

theorem has_spendScripts (leaves : List LeafInfo) (key : Bytes × UInt8) (control : Bytes) :
    SortedInsert.Has (spendScripts hashes leaves) key control ↔ ∃ info ∈ leaves,
      key = (info.script, info.leafVersion) ∧ control = leafControl hashes info := by
  -- from the back, so that the last insertion is on the outside
  induction leaves using List.reverseRecOn with
  | nil => simp [spendScripts, SortedInsert.Has]
  | append_singleton rest info ih =>
    rw [spendScripts, List.foldl_append, List.foldl_cons, List.foldl_nil, ← spendScripts,
      SortedInsert.has_insertAt eq_of_not_shortestVectorFirst eq_of_not_pairLess, ih]
    simp only [List.mem_append, List.mem_singleton, or_and_right, exists_or, exists_eq_left]
    exact or_comm

/-- The spend data of a tree. -/
def spendData (hashes : HashFunctions) (tree : LeafTree XcoinLeaf) : XcoinV3SpendData :=
  ⟨treeRoot hashes tree, spendScripts hashes (nodeInfo hashes tree).leaves⟩

theorem getSpendData_eq :
    getSpendData hashes ⟨true, [some (nodeInfo hashes tree)]⟩ = some (spendData hashes tree) := by
  rw [spendData, ← hash_nodeInfo]
  rfl

theorem getRoot_eq :
    getRoot ⟨true, [some (nodeInfo hashes tree)]⟩ = some (treeRoot hashes tree) := by
  rw [← hash_nodeInfo]
  rfl

/-- **Spend data.**  The control blocks are those of the openings. -/
theorem has_spendData {tree : LeafTree XcoinLeaf} {key : Bytes × UInt8} {control : Bytes} :
    SortedInsert.Has (spendData hashes tree).scripts key control ↔
      ∃ leaf path, TreeOpens hashes tree leaf path ∧ key = (leaf.script, leaf.leafVersion) ∧
        control = controlBlock hashes leaf.leafVersion path := by
  rw [spendData, has_spendScripts]
  constructor
  · rintro ⟨info, hinfo, rfl, rfl⟩
    obtain ⟨leaf, path, hopens, rfl⟩ := (mem_leaves_nodeInfo tree info).mp hinfo
    exact ⟨leaf, path, hopens, rfl, rfl⟩
  · rintro ⟨leaf, path, hopens, rfl, rfl⟩
    exact ⟨_, (mem_leaves_nodeInfo tree _).mpr ⟨leaf, path, hopens, rfl⟩, rfl, rfl⟩

section Openings

variable {tree : LeafTree XcoinLeaf} {leaf : XcoinLeaf} {path : List Bytes}

theorem TreeOpens.length_nodes (hopens : TreeOpens hashes tree leaf path) :
    ∀ node ∈ path, node.length = 32 :=
  LeafTree.Opens.forall_mem length_treeRoot hopens

theorem TreeOpens.length_le (hopens : TreeOpens hashes tree leaf path)
    (hrange : DepthsInRange (tree.listAt 0)) : path.length ≤ 128 := by
  have hdepth := hrange _ (LeafTree.Opens.mem_listAt hopens 0)
  rwa [Nat.zero_add] at hdepth

/-- The control block of an opening commits the leaf to the root. -/
theorem TreeOpens.commitsLeaf (hopens : TreeOpens hashes tree leaf path)
    (hrange : DepthsInRange (tree.listAt 0)) :
    CommitsLeaf hashes leaf.leafVersion leaf.script
      (controlBlock hashes leaf.leafVersion path) (treeRoot hashes tree) :=
  ⟨path, hopens.length_nodes, hopens.length_le hrange, rfl,
    (LeafTree.Opens.foldl_eq (computeXcoinBranchHash_comm hashes) hopens).symm⟩

theorem TreeOpens.verifyXcoinV3Commitment_eq (hopens : TreeOpens hashes tree leaf path)
    (hrange : DepthsInRange (tree.listAt 0)) :
    verifyXcoinV3Commitment hashes (controlBlock hashes leaf.leafVersion path)
      (treeRoot hashes tree) (leafHash hashes leaf) = some true := by
  have hnodes := hopens.length_nodes
  have hfold : path.foldl (computeXcoinBranchHash hashes) (leafHash hashes leaf) =
      treeRoot hashes tree :=
    LeafTree.Opens.foldl_eq (computeXcoinBranchHash_comm hashes) hopens
  rw [verifyXcoinV3Commitment, if_pos ⟨validControlSize_controlBlock hnodes
    (hopens.length_le hrange), length_treeRoot tree⟩, computeXcoinV3MerkleRoot,
    controlPath_controlBlock hnodes, hfold, beq_self_eq_true]

end Openings

/-- **Building a tree.**  Leaves whose depths are valid make a complete builder.  Its spend data
has every leaf, and every control block in it has a path of at most 128 nodes, carries the version
of its leaf and leads from the hash of this leaf to the root. -/
theorem complete_of_validDepths (hashes : HashFunctions) (leaves : List (ℤ × XcoinLeaf))
    (hnonempty : leaves ≠ []) (hvalid : taprootValidDepths (leaves.map Prod.fst) = true) :
    ∃ builder root spend, addLeaves hashes leaves = some builder ∧ builder.valid = true ∧
      builder.isComplete = true ∧ builder.getRoot = some root ∧
      builder.getSpendData hashes = some spend ∧
      (∀ leaf ∈ leaves, ∃ control,
        SortedInsert.Has spend.scripts (leaf.2.script, leaf.2.leafVersion) control) ∧
      ∀ script leafVersion control,
        SortedInsert.Has spend.scripts (script, leafVersion) control →
        (∃ leaf ∈ leaves, leaf.2.script = script ∧ leaf.2.leafVersion = leafVersion) ∧
          (controlPath control).length ≤ 128 ∧ control.head? = some leafVersion ∧
          verifyXcoinV3Commitment hashes control root
            (computeXcoinLeafHash hashes leafVersion script) = some true := by
  have hdepths : validDepths (leaves.map Prod.fst) = true := by
    rw [validDepths, hvalid, Bool.and_true, Bool.not_eq_true', List.isEmpty_eq_false_iff]
    simpa using hnonempty
  obtain ⟨tree, rfl, hrange⟩ := (validDepths_iff leaves).mp hdepths
  obtain ⟨hadd, hcomplete⟩ := (addLeaves_complete_iff hashes _ _).mpr
    ⟨tree, rfl, hrange, rfl⟩
  have hleaves := map_snd_signed tree
  refine ⟨_, _, _, hadd, rfl, hcomplete, getRoot_eq tree, getSpendData_eq tree, ?_, ?_⟩
  · intro leaf hleaf
    have hmem : leaf.2 ∈ tree.leaves := hleaves ▸ List.mem_map_of_mem hleaf
    obtain ⟨path, hopens⟩ := LeafTree.exists_opens tree leaf.2 hmem
    exact ⟨_, has_spendData.mpr ⟨leaf.2, path, hopens, rfl, rfl⟩⟩
  · intro script leafVersion control hhas
    obtain ⟨leaf, path, hopens, hkey, rfl⟩ := has_spendData.mp hhas
    obtain ⟨rfl, rfl⟩ := Prod.mk.inj hkey
    refine ⟨?_, ?_, rfl, hopens.verifyXcoinV3Commitment_eq hrange⟩
    · obtain ⟨entry, hentry, rfl⟩ := List.mem_map.mp (hleaves ▸ LeafTree.Opens.mem_leaves hopens)
      exact ⟨entry, hentry, rfl, rfl⟩
    · rw [controlPath_controlBlock hopens.length_nodes]
      exact hopens.length_le hrange

/-- A leaf twice below the left child of the root, and an SLH-DSA leaf on the right. -/
def threeLeaves : List (ℤ × XcoinLeaf) :=
  [(2, ⟨xcoinLeafPq, [0x51], xcoinLeafPq_even⟩), (2, ⟨xcoinLeafPq, [0x51], xcoinLeafPq_even⟩),
    (1, ⟨xcoinLeafSlh, [0x51], xcoinLeafSlh_even⟩)]

theorem threeLeaves_complete : threeLeaves ≠ [] ∧
    taprootValidDepths (threeLeaves.map Prod.fst) = true ∧
    ∃ builder, addLeaves constantHashes threeLeaves = some builder ∧
      builder.isComplete = true := by
  refine ⟨by decide, by decide, ?_⟩
  obtain ⟨builder, _, _, hadd, _, hcomplete, _⟩ :=
    complete_of_validDepths constantHashes threeLeaves (by decide) (by decide)
  exact ⟨builder, hadd, hcomplete⟩

/-- **Spending through a leaf.**  With the control block that the spend data has for a leaf, the
verifier runs this leaf on the items before it, and nothing else decides. -/
theorem verifyScript_of_spendData {env : Env} {leaves : List (ℤ × XcoinLeaf)}
    {builder : XcoinV3Builder} {spend : XcoinV3SpendData} {script control : Bytes}
    {leafVersion : UInt8} (hadd : addLeaves env.hashes leaves = some builder)
    (hcomplete : builder.isComplete = true) (hspend : builder.getSpendData env.hashes = some spend)
    (hhas : SortedInsert.Has spend.scripts (script, leafVersion) control)
    (htag : leafVersion ≠ annexTag) (htrue : castToBool spend.merkleRoot = true)
    (hflags : blockScriptFlags ⊆ env.flags) (items : List Bytes) :
    verifyScript env [] (v3Output spend.merkleRoot) (items ++ [script, control]) =
      executeXcoinV3Leaf env (items ++ [script, control]) items script control .none := by
  obtain ⟨tree, -, hrange, rfl⟩ := (addLeaves_complete_iff _ _ _).mp ⟨hadd, hcomplete⟩
  obtain rfl : spendData env.hashes tree = spend := by simpa [getSpendData_eq] using hspend
  obtain ⟨leaf, path, hopens, hkey, rfl⟩ := has_spendData.mp hhas
  obtain ⟨rfl, rfl⟩ := Prod.mk.inj hkey
  have hmask : ∀ v : UInt8, v &&& ~~~taprootLeafMask = 0 → v &&& taprootLeafMask = v := by
    decide +kernel
  change verifyScript env [] (v3Output (treeRoot env.hashes tree)) _ = _
  rw [verifyScript_v3Output (length_treeRoot tree) htrue (hflags (by decide)) (hflags (by decide))]
  simpa using verifyXcoinV3Program_of_commitsLeaf (hflags (by decide)) (hopens.commitsLeaf hrange)
    (hmask _ leaf.version_even) leaf.version_even htag annex_tagged_none .none

/-- A primitive that accepts. -/
def anyoneEnv : Env :=
  inputEnv constantHashes ⟨fun _ _ _ => true, fun _ _ _ => true⟩ noOtherChecks blockScriptFlags
    lockedLeafSpend.tx lockedLeafSpend.spentOutputs 0

/-- The control block of a leaf at depth 2. -/
def deepLeafControl : Bytes :=
  controlBlock constantHashes xcoinLeafPq (List.replicate 2 (List.replicate 32 1))

theorem deepLeaf_verifies :
    verifyScript anyoneEnv [] (v3Output (List.replicate 32 1)) [[0x51], deepLeafControl] =
      executeXcoinV3Leaf anyoneEnv [[0x51], deepLeafControl] [] [0x51] deepLeafControl .none :=
  @verifyScript_of_spendData anyoneEnv threeLeaves _ _ [0x51] deepLeafControl xcoinLeafPq rfl rfl
    rfl ⟨_, .head _, .head _⟩ (by decide) (by decide) (by decide) []

end XcoinV3Builder

end XCoin.Script
