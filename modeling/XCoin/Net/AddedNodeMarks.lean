import XCoin.Net.ClassicalRetry

/-!
# Marks across a removal and an addition

A manual destination whose hybrid session was lost is marked, and the next v2 manual
connection to it is a classical retry.  `RemoveAddedNode` and `AddNode` erase the mark,
so that an added node does not inherit it.  But a call that connects has taken the mark
out of the set: it is out of reach for `AddNode`, the call uses it if the connection
comes about, and puts it back if it does not.  And while `AddNode` takes two strings for
one node if both name the same service, it erases the mark of its own string only.

For the destinations of one service, a mark is in the set, with a call that has taken it, or
with one that puts it back; `marksOf` counts them.  Only a qualifying disconnect of one of
them adds one (`Change.marksOf_le`).  So if `AddNode` leaves no mark of the service in the
set and no call holds one, a later retry has a later disconnect.
-/

namespace XCoin.Net

variable {V1 Addr : Type}

/-! ## Qualifying disconnects and retries of a destination -/

/-- The two strings are one node to `AddNode`. -/
def Addressing.spells (addressing : Addressing Addr) (node dest : String) : Bool :=
  node == dest || addressing.sameService node dest

/-- The loss of this manual connection marks one of the destinations. -/
def Node.qualifies (names : String → Bool) (node : Node V1 Addr) : Bool :=
  node.manual && names node.dest && node.retryClassical && decide (node.hybridCloseCause ≠ .none)

/-- The call holds the mark of one of the destinations. -/
def Task.holdsMark (names : String → Bool) : Task V1 Addr → Bool
  | .connecting args manualRetry => manualRetry && names (args.pszDest.getD "")
  | .restoring marked => names marked
  | _ => false

/-- If the connection of this call comes about, it is a v2 manual connection to one of the
destinations and opened as a classical retry. -/
def Task.opensRetry (names : String → Bool) : Task V1 Addr → Bool
  | .connecting args manualRetry =>
    decide (args.connType = .manual) && args.useV2transport && args.pszDest.any names &&
      (args.hybridClassicalRetry || manualRetry)
  | _ => false

/-- A call that is a retry by its own argument is not a manual one with a name. -/
def OpenArgs.Plain (args : OpenArgs Addr) : Prop :=
  args.hybridClassicalRetry = true → args.connType = .manual → args.pszDest = none

/-- So are the calls that a task makes. -/
def Task.Plain : Task V1 Addr → Prop
  | .checking args => args.Plain
  | .marking args => args.Plain
  | .connecting args _ => args.Plain
  | .splicing items => ∀ item ∈ items, item.openArgs.Plain
  | .restoring _ => True
  | .adding _ => True

/-- `DisconnectNodes` gives a manual destination a mark instead of the argument. -/
theorem Node.plain_of_mem_reconnections {networkActive : Bool} {node : Node V1 Addr}
    {item : ReconnectionInfo Addr} (hitem : item ∈ node.reconnections networkActive) :
    item.openArgs.Plain := by
  intro hretry hmanual
  unfold Node.reconnections at hitem
  rcases List.mem_append.mp hitem with hv1 | hclassical
  · split_ifs at hv1
    · rw [List.mem_singleton.mp hv1] at hretry
      cases hretry
    · cases hv1
  · split_ifs at hclassical
    · obtain rfl := List.mem_singleton.mp hclassical
      have hempty : node.dest.isEmpty = true := by
        simpa [ReconnectionInfo.openArgs, Node.manual, show node.connType = .manual from hmanual]
          using hretry
      simp [ReconnectionInfo.openArgs, hempty]
    · cases hclassical

namespace ConnMan

variable {addressing : Addressing Addr} {cm cm' : ConnMan V1 Addr} {names : String → Bool}
  {task : Task V1 Addr} {next : Option (Task V1 Addr)}

/-- What `AddNode` returns. -/
def addNodeReturns (addressing : Addressing Addr) (cm : ConnMan V1 Addr) (add : AddedNodeParams) :
    Bool :=
  !cm.addedNodeParams.any fun it => add.addedNode == it.addedNode ||
    addressing.sameService add.addedNode it.addedNode

/-- The qualifying disconnects of the destinations so far. -/
def disconnectsOf (names : String → Bool) (cm : ConnMan V1 Addr) : ℕ :=
  cm.disconnected.countP (Node.qualifies names)

/-- How many of the destinations a set of marks has. -/
def markCount (names : String → Bool) (marks : Finset String) : ℕ :=
  (marks.filter fun mark => names mark = true).card

/-- The marks of the destinations, in the set and with calls. -/
def marksOf (names : String → Bool) (cm : ConnMan V1 Addr) : ℕ :=
  markCount names cm.retryDests + cm.tasks.countP (Task.holdsMark names)

/-! ## Marks are accounted for -/

section MarkCount

variable {marks : Finset String} {dest : String}

theorem markCount_erase_le : markCount names (marks.erase dest) ≤ markCount names marks :=
  Finset.card_le_card (Finset.filter_subset_filter _ (Finset.erase_subset _ _))

theorem markCount_erase_add_one (hmem : dest ∈ marks) (hnames : names dest = true) :
    markCount names (marks.erase dest) + 1 = markCount names marks := by
  rw [markCount, Finset.filter_erase]
  exact Finset.card_erase_add_one (Finset.mem_filter.mpr ⟨hmem, hnames⟩)

theorem markCount_insert_le :
    markCount names (insert dest marks) ≤ markCount names marks + if names dest then 1 else 0 := by
  rw [markCount, Finset.filter_insert]
  split_ifs
  · exact Finset.card_insert_le _ _
  · exact le_rfl

end MarkCount

theorem pszDest_of_markedDest {args : OpenArgs Addr} {marked : String}
    (hmarked : markedDest args = some marked) : args.pszDest = some marked := by
  unfold markedDest at hmarked
  split_ifs at hmarked
  exact hmarked

theorem Advance.marks_le (hadvance : Advance cm task cm' next) (names : String → Bool) :
    markCount names cm'.retryDests + next.toList.countP (Task.holdsMark names) ≤
      markCount names cm.retryDests + [task].countP (Task.holdsMark names) := by
  cases hadvance with
  | marked args taken hmarked =>
    have hdest := pszDest_of_markedDest hmarked
    have hle : markCount names (cm.retryDests.erase taken) ≤ markCount names cm.retryDests :=
      markCount_erase_le
    by_cases hmark : taken ∈ cm.retryDests ∧ names taken = true
    · -- the mark goes from the set to the call
      have hone := markCount_erase_add_one hmark.1 hmark.2
      simpa [Task.holdsMark, hdest, hmark.1, hmark.2] using hone.le
    · have hheld : (decide (taken ∈ cm.retryDests) && names taken) = false := by
        rw [Bool.and_eq_false_iff]
        by_cases hmem : taken ∈ cm.retryDests
        · exact Or.inr (Bool.eq_false_iff.mpr fun hnames => hmark ⟨hmem, hnames⟩)
        · exact Or.inl (decide_eq_false hmem)
      simpa [Task.holdsMark, hdest, hheld] using hle
  | failed args =>
    rw [Option.toList_some, List.countP_singleton, List.countP_singleton]
    exact le_rfl
  | restored marked =>
    have hle : markCount names (insert marked cm.retryDests) ≤ _ := markCount_insert_le
    rw [Option.toList_none, List.countP_nil, List.countP_singleton]
    exact hle
  | connected args manualRetry addr config =>
    change markCount names cm.retryDests + 0 ≤ _
    omega
  | refused | checked | unmarked | abandoned | added | spliced => simp [Task.holdsMark]

theorem Advance.frame (hadvance : Advance cm task cm' next) :
    cm'.tasks = cm.tasks ∧ cm'.disconnected = cm.disconnected := by
  cases hadvance <;> exact ⟨rfl, rfl⟩

theorem markCount_disconnectNode_le (names : String → Bool) (networkActive : Bool)
    (marks : Finset String) (node : Node V1 Addr) :
    markCount names (marks ∪ node.retryMark networkActive) ≤
      markCount names marks + if node.qualifies names then 1 else 0 := by
  unfold Node.retryMark
  split_ifs with hretries hqualifies hqualifies
  · rw [Finset.union_singleton]
    refine markCount_insert_le.trans (Nat.add_le_add_left ?_ _)
    split_ifs <;> decide
  · -- without a qualifying disconnect the mark is of another destination
    rw [Finset.union_singleton]
    refine markCount_insert_le.trans (Nat.add_le_add_left ?_ _)
    rw [if_neg]
    intro hnames
    simp only [Node.retriesClassical, Bool.and_eq_true, decide_eq_true_eq] at hretries
    obtain ⟨⟨⟨-, hstatus⟩, hcause⟩, hmanual⟩ := hretries
    exact hqualifies (by simp [Node.qualifies, hmanual, hnames, hstatus, hcause])
  · rw [Finset.union_empty]
    exact Nat.le_add_right _ _
  · rw [Finset.union_empty]
    exact Nat.le_add_right _ _

/-- **Marks come from disconnects.** A step that adds a mark of the destinations is a qualifying
disconnect of one of them. -/
theorem Change.marksOf_le (hchange : Change cm cm') (names : String → Bool) :
    cm'.marksOf names + cm.disconnectsOf names ≤ cm.marksOf names + cm'.disconnectsOf names := by
  cases hchange with
  | advancing index task after next htask hadvance =>
    have hmarks := hadvance.marks_le names
    obtain ⟨htasks, hdisconnected⟩ := hadvance.frame
    have hcount : cm.tasks.countP (Task.holdsMark names) =
        [task].countP (Task.holdsMark names) +
          (cm.tasks.eraseIdx index).countP (Task.holdsMark names) := by
      obtain ⟨hindex, rfl⟩ := List.getElem?_eq_some_iff.mp htask
      rw [← List.countP_append, List.singleton_append]
      exact ((List.getElem_cons_eraseIdx_perm hindex).countP_eq _).symm
    simp only [marksOf, disconnectsOf, htasks, hdisconnected, List.countP_append] at hmarks ⊢
    omega
  | taking current rest node hcurrent hnode =>
    have hcount := markCount_disconnectNode_le names current.networkActive cm.retryDests node
    simp only [marksOf, disconnectsOf, disconnectNode, List.countP_cons]
    omega
  | erasing erased params =>
    have hcount : markCount names (cm.retryDests.erase erased) ≤ markCount names cm.retryDests :=
      markCount_erase_le
    simp only [marksOf, disconnectsOf]
    omega
  | called | reconnecting | releasing | accepting =>
    simp [marksOf, disconnectsOf, Task.holdsMark]
  | locking | skipping | happening | activating | idling => exact Nat.le_refl _

/-! ## Manual calls are retries by their mark only -/

/-- In the queue, in the calls and in what is collected. -/
structure Plain (cm : ConnMan V1 Addr) : Prop where
  reconnections : ∀ item ∈ cm.reconnections, item.openArgs.Plain
  tasks : ∀ task ∈ cm.tasks, task.Plain
  collected : ∀ current, cm.disconnecting = some current →
    ∀ item ∈ current.reconnectionsToAdd, item.openArgs.Plain

theorem plain_start (mode : HybridMode) (networkActive : Bool) :
    (start mode networkActive : ConnMan V1 Addr).Plain where
  reconnections _ hitem := absurd hitem List.not_mem_nil
  tasks _ htask := absurd htask List.not_mem_nil
  collected _ hcurrent := by cases hcurrent

theorem Plain.cons_task (h : cm.Plain) {task : Task V1 Addr} (htask : task.Plain) :
    ∀ other ∈ task :: cm.tasks, other.Plain := by
  intro other hother
  rcases List.mem_cons.mp hother with rfl | hold
  · exact htask
  · exact h.tasks other hold

theorem Advance.plain (hadvance : Advance cm task cm' next) (h : cm.Plain) (htask : task.Plain) :
    cm'.Plain ∧ ∀ other ∈ next.toList, other.Plain := by
  cases hadvance with
  | spliced items =>
    refine ⟨⟨?_, h.tasks, h.collected⟩, fun _ hother => absurd hother List.not_mem_nil⟩
    intro item hitem
    rcases List.mem_append.mp hitem with hold | hnew
    · exact h.reconnections item hold
    · exact htask item hnew
  | refused | abandoned | restored | added =>
    exact ⟨⟨h.reconnections, h.tasks, h.collected⟩,
      fun _ hother => absurd hother List.not_mem_nil⟩
  | checked args | unmarked args | marked args =>
    refine ⟨⟨h.reconnections, h.tasks, h.collected⟩, ?_⟩
    intro other hother
    obtain rfl := List.mem_singleton.mp hother
    exact htask
  | failed args | connected args =>
    refine ⟨⟨h.reconnections, h.tasks, h.collected⟩, ?_⟩
    intro other hother
    obtain rfl := List.mem_singleton.mp hother
    trivial

theorem Plain.change (h : cm.Plain) (hchange : Change cm cm') : cm'.Plain := by
  cases hchange with
  | called args hretry =>
    refine ⟨h.reconnections, h.cons_task ?_, h.collected⟩
    intro hretry'
    rw [hretry] at hretry'
    cases hretry'
  | reconnecting item rest hitems =>
    have hall : ∀ other ∈ item :: rest, other.openArgs.Plain := hitems ▸ h.reconnections
    exact ⟨fun other hother => hall other (List.mem_cons_of_mem _ hother),
      h.cons_task (hall item List.mem_cons_self), h.collected⟩
  | advancing index task after next htask hadvance =>
    have hless : Plain { cm with tasks := cm.tasks.eraseIdx index } :=
      ⟨h.reconnections, fun other hother => h.tasks other (List.mem_of_mem_eraseIdx hother),
        h.collected⟩
    obtain ⟨hafter, hnext⟩ := hadvance.plain hless (h.tasks task (List.mem_of_getElem? htask))
    refine ⟨hafter.reconnections, ?_, hafter.collected⟩
    intro other hother
    rcases List.mem_append.mp hother with hnew | hold
    · exact hnext other hnew
    · exact hafter.tasks other hold
  | locking =>
    refine ⟨h.reconnections, h.tasks, ?_⟩
    intro current hcurrent
    obtain rfl := Option.some.inj hcurrent
    exact nofun
  | releasing current hcurrent =>
    exact ⟨h.reconnections, h.cons_task (h.collected current hcurrent), nofun⟩
  | skipping current rest hcurrent =>
    refine ⟨h.reconnections, h.tasks, ?_⟩
    intro later hlater
    obtain rfl := Option.some.inj hlater
    exact h.collected current hcurrent
  | taking current rest node hcurrent hnode =>
    refine ⟨h.reconnections, h.tasks, ?_⟩
    intro later hlater item hitem
    obtain rfl := Option.some.inj hlater
    rcases List.mem_append.mp hitem with hold | hnew
    · exact h.collected current hcurrent item hold
    · exact Node.plain_of_mem_reconnections hnew
  | accepting addr config useV2transport =>
    exact ⟨h.reconnections, h.cons_task trivial, h.collected⟩
  | erasing | happening | activating | idling => exact ⟨h.reconnections, h.tasks, h.collected⟩

/-! ## Retries after an addition -/

/-- A manual call that opens a retry holds the mark of its destination. -/
theorem Plain.holdsMark_of_opensRetry (h : cm.Plain) {task : Task V1 Addr} (htask : task ∈ cm.tasks)
    (hopens : task.opensRetry names = true) : task.holdsMark names = true := by
  cases task with
  | connecting args manualRetry =>
    have hplain : args.Plain := h.tasks _ htask
    simp only [Task.opensRetry, Bool.and_eq_true, Bool.or_eq_true, decide_eq_true_eq,
      Option.any_eq_true] at hopens
    obtain ⟨⟨⟨hmanual, -⟩, dest, hdest, hnames⟩, hretry | hretry⟩ := hopens
    · rw [hplain hretry hmanual] at hdest
      cases hdest
    · simp [Task.holdsMark, hretry, hdest, hnames]
  | checking | marking | restoring | adding | splicing => cases hopens

theorem marksOf_addNode {add : AddedNodeParams}
    (hreturns : cm.addNodeReturns addressing add = true)
    (hmarks : ∀ mark ∈ cm.retryDests, addressing.spells add.addedNode mark = true →
      mark = add.addedNode)
    (hheld : ∀ task ∈ cm.tasks, task.holdsMark (addressing.spells add.addedNode) = false) :
    (cm.addNode addressing add).marksOf (addressing.spells add.addedNode) = 0 := by
  have hnew : ¬(cm.addedNodeParams.any fun it => add.addedNode == it.addedNode ||
      addressing.sameService add.addedNode it.addedNode) = true := by
    simpa [addNodeReturns] using hreturns
  have hnone : cm.tasks.countP (Task.holdsMark (addressing.spells add.addedNode)) = 0 := by
    apply List.countP_eq_zero.mpr
    intro task htask
    rw [hheld task htask]
    exact Bool.false_ne_true
  have herased : markCount (addressing.spells add.addedNode)
      (cm.retryDests.erase add.addedNode) = 0 := by
    rw [markCount, Finset.card_eq_zero, Finset.filter_eq_empty_iff]
    intro mark hmark hspells
    obtain ⟨hne, hmem⟩ := Finset.mem_erase.mp hmark
    exact hne (hmarks mark hmem hspells)
  rw [addNode, if_neg hnew, marksOf, herased, hnone]

/-- From a state without marks of the destinations, there are never more of them than they had
qualifying disconnects since. -/
theorem marksOf_le_of_run (hnone : cm.marksOf names = 0) (events : List (Event V1 Addr))
    (hrun : cm.run addressing events = some cm') :
    cm'.marksOf names + cm.disconnectsOf names ≤ cm'.disconnectsOf names := by
  apply run_induction (P := fun later => later.marksOf names + cm.disconnectsOf names ≤
    later.disconnectsOf names) _ events _ hrun
  · intro before after hchange hle
    have hstep := hchange.marksOf_le names
    omega
  · rw [hnone, Nat.zero_add]

/-- **No retry without a new loss.** If no other spelling of the added node is marked and no call
holds a mark of it when `AddNode` accepts it, then a v2 manual connection that is opened to it,
under whichever spelling, as a classical retry has a qualifying disconnect of it after the
`AddNode`. -/
theorem disconnected_of_opensRetry (addressing : Addressing Addr) (mode : HybridMode)
    (networkActive : Bool) (before after : List (Event V1 Addr)) (add : AddedNodeParams)
    (cm added later : ConnMan V1 Addr) (task : Task V1 Addr)
    (hbefore : (start mode networkActive).run addressing before = some cm)
    (hreturns : cm.addNodeReturns addressing add = true)
    (hmarks : ∀ mark ∈ cm.retryDests, addressing.spells add.addedNode mark = true →
      mark = add.addedNode)
    (hheld : ∀ task ∈ cm.tasks, task.holdsMark (addressing.spells add.addedNode) = false)
    (hadded : cm.step addressing (.addNode add) = some added)
    (hafter : added.run addressing after = some later)
    (htask : task ∈ later.tasks)
    (hopens : task.opensRetry (addressing.spells add.addedNode) = true) :
    added.disconnectsOf (addressing.spells add.addedNode) <
      later.disconnectsOf (addressing.spells add.addedNode) := by
  have hplain : later.Plain := by
    have hcm : cm.Plain :=
      run_induction (fun _ _ hchange h => h.change hchange) before (plain_start _ _) hbefore
    exact run_induction (fun _ _ hchange h => h.change hchange) after
      (hcm.change (change_of_step hadded)) hafter
  have hnone : added.marksOf (addressing.spells add.addedNode) = 0 := by
    obtain rfl := Option.some.inj hadded
    exact marksOf_addNode hreturns hmarks hheld
  have hle := marksOf_le_of_run hnone after hafter
  -- the call itself holds a mark, so there is at least one
  have hone : 0 < later.tasks.countP (Task.holdsMark (addressing.spells add.addedNode)) :=
    List.countP_pos_iff.mpr ⟨task, htask, hplain.holdsMark_of_opensRetry htask hopens⟩
  simp only [marksOf] at hle
  omega

/-! ## A mark that outlives the removal -/

/-- Two spellings of one service. -/
def portAddressing : Addressing Unit :=
  { plainAddressing with
    sameService := fun dest other =>
      decide (dest ∈ ["1.2.3.4", "1.2.3.4:8333"]) && decide (other ∈ ["1.2.3.4", "1.2.3.4:8333"]) }

/-- A manual connection is lost to a broken record, and the next call takes the mark. -/
def lostAndCalled : List (Event Unit Unit) :=
  [.openNetworkConnection () (some "1.2.3.4") .manual true] ++ openSteps ++
  [.node 1 (.call (.receivedBytes brokenOffer)), .node 1 (.setHybridCloseCause .transport),
    .node 1 .storeHybridCloseCause, .node 1 .disconnect, .disconnectNodes, .disconnectNext,
    .disconnectNext, .proceed 0 false none, .performReconnection,
    .proceed 0 false none, .proceed 0 false none]

/-- The node is added under its other spelling. -/
theorem lostAndCalled_disconnected : ∃ added later : ConnMan Unit Unit,
    (start .prefer true).step portAddressing (.addNode ⟨"1.2.3.4:8333", true⟩) = some added ∧
      added.run portAddressing lostAndCalled = some later ∧
      added.disconnectsOf (portAddressing.spells "1.2.3.4:8333") <
        later.disconnectsOf (portAddressing.spells "1.2.3.4:8333") := by
  have hevaluated : (((start .prefer true : ConnMan Unit Unit).addNode portAddressing
      ⟨"1.2.3.4:8333", true⟩).run portAddressing lostAndCalled).any (fun later =>
        later.tasks.any (Task.opensRetry (portAddressing.spells "1.2.3.4:8333"))) = true := by
    decide +kernel
  obtain ⟨later, hrun, hany⟩ := (Option.any_eq_true _ _).mp hevaluated
  obtain ⟨task, htask, hopens⟩ := List.any_eq_true.mp hany
  exact ⟨_, later, rfl, hrun, disconnected_of_opensRetry portAddressing .prefer true []
    lostAndCalled ⟨"1.2.3.4:8333", true⟩ _ _ later task rfl (by decide)
    (fun _ hmark => absurd hmark (Finset.notMem_empty _))
    (fun _ hmem => absurd hmem List.not_mem_nil) rfl hrun htask hopens⟩

/-- The attempt that holds the mark fails and puts it back, and the next call finds it. -/
def failedAndCalled : List (Event Unit Unit) :=
  [.proceed 0 false none, .proceed 0 false none,
    .openNetworkConnection () (some "1.2.3.4") .manual true, .proceed 0 false none,
    .proceed 0 false none]

/-- While an attempt holds the mark, the peer is removed and added again.  The attempt fails, and
the next connection is opened as a classical retry although nothing was disconnected since. -/
theorem mark_outlives_removal : ∃ cm added later opened : ConnMan Unit Unit,
    (start .prefer true).run portAddressing ([.addNode ⟨"1.2.3.4", true⟩] ++ lostAndCalled ++
      [.removeAddedNode "1.2.3.4"]) = some cm ∧
    cm.addNodeReturns portAddressing ⟨"1.2.3.4", true⟩ = true ∧
    cm.step portAddressing (.addNode ⟨"1.2.3.4", true⟩) = some added ∧
    added.run portAddressing failedAndCalled = some later ∧
    (∃ task ∈ later.tasks, task.opensRetry (portAddressing.spells "1.2.3.4") = true) ∧
    later.step portAddressing (.proceed 0 false (some ((), clearConfig true .prefer 1))) =
      some opened ∧
    opened.classicalRetries = added.classicalRetries + 1 ∧
    opened.disconnectsOf (portAddressing.spells "1.2.3.4") =
      added.disconnectsOf (portAddressing.spells "1.2.3.4") := by
  have hevaluated : ((start .prefer true : ConnMan Unit Unit).run portAddressing
      ([.addNode ⟨"1.2.3.4", true⟩] ++ lostAndCalled ++ [.removeAddedNode "1.2.3.4"])).any
        (fun cm => cm.addNodeReturns portAddressing ⟨"1.2.3.4", true⟩ &&
        (cm.step portAddressing (.addNode ⟨"1.2.3.4", true⟩)).any fun added =>
          (added.run portAddressing failedAndCalled).any fun later =>
            later.tasks.any (Task.opensRetry (portAddressing.spells "1.2.3.4")) &&
            (later.step portAddressing
              (.proceed 0 false (some ((), clearConfig true .prefer 1)))).any fun opened =>
                decide (opened.classicalRetries = added.classicalRetries + 1) &&
                decide (opened.disconnectsOf (portAddressing.spells "1.2.3.4") =
                  added.disconnectsOf (portAddressing.spells "1.2.3.4"))) = true := by
    decide +kernel
  simp only [Option.any_eq_true, Bool.and_eq_true, List.any_eq_true, decide_eq_true_eq]
    at hevaluated
  obtain ⟨cm, hcm, hreturns, added, hadded, later, hlater, hretry, opened, hopened, hcount,
    hlost⟩ := hevaluated
  exact ⟨cm, added, later, opened, hcm, hreturns, hadded, hlater, hretry, hopened, hcount, hlost⟩

end ConnMan

end XCoin.Net
