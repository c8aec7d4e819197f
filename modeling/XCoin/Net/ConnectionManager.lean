import XCoin.Net.TransportRuns

/-!
# Connections and their retries

The part of `CConnman` that loses and opens outbound connections: `DisconnectNodes`,
`PerformReconnections`, `OpenNetworkConnection`, `AddNode` and `RemoveAddedNode`.
They run on several threads, so a step here is what a thread does between two points
at which another one can come in:

* a call of `OpenNetworkConnection` checks, takes the mark of its destination, connects,
  and adds the node or puts the mark back;
* `DisconnectNodes` holds `m_nodes_mutex` and takes the nodes one by one, then releases
  it, and only after that adds the reconnections it has collected to the list;
* `SetHybridCloseCause` reads `fDisconnect` first and stores the cause afterwards.

Where a call stands is a `Task`.  `PerformReconnections` takes one reconnection at a time
and calls `OpenNetworkConnection` with it.  What the operating system, the ban list
and the resolver answer is part of the event.  Left out are the grants of the
semaphores, the reference counts and the logging.
-/

namespace XCoin.Net

variable {V1 Addr : Type} (networkActive : Bool)

/-! ## Nodes -/

/-- `ConnectionType`. -/
inductive ConnectionType where
  | inbound
  | outboundFullRelay
  | manual
  | feeler
  | blockRelay
  | addrFetch
  | privateBroadcast
deriving DecidableEq, Repr

/-- `CNode::HybridCloseCause`. -/
inductive HybridCloseCause where
  | none
  | transport
  | peer
  | timeout
deriving DecidableEq, Repr

/-- The transport of a node; the state of a `V1Transport` does not matter here. -/
inductive NodeTransport (V1 : Type) where
  | v1
  | v2 (config : TransportConfig V1) (endpoint : Endpoint V1)

namespace NodeTransport

/-- `MakeTransport`; `config` has the keys and the garbage. -/
def make (config : TransportConfig V1) (useV2transport inbound : Bool) (hybridMode : HybridMode) :
    NodeTransport V1 :=
  if useV2transport then
    .v2 { config with initiating := !inbound, hybridMode := hybridMode }
      (.new { config with initiating := !inbound, hybridMode := hybridMode })
  else .v1

/-- `ShouldReconnectV1`. -/
def shouldReconnectV1 : NodeTransport V1 → Bool
  | .v1 => false
  | .v2 config endpoint => Net.shouldReconnectV1 config endpoint.transport

/-- `GetHybridStatus`. -/
def getHybridStatus : NodeTransport V1 → HybridStatus
  | .v1 => {}
  | .v2 config endpoint => Net.getHybridStatus config endpoint.transport

/-- A call on the transport; one that the interface does not allow now is not made. -/
def call (call : TransportCall) : NodeTransport V1 → NodeTransport V1
  | .v1 => .v1
  | .v2 config endpoint => .v2 config ((endpoint.call config call).getD endpoint)

end NodeTransport

/-- `CNode`. -/
structure Node (V1 Addr : Type) where
  id : ℕ
  addr : Addr
  dest : String
  connType : ConnectionType
  transport : NodeTransport V1
  fDisconnect : Bool
  hybridCloseCause : HybridCloseCause
  /-- the causes that `SetHybridCloseCause` is about to store -/
  pendingCauses : List HybridCloseCause
  /-- the connection was opened as a classical retry -/
  classicalRetry : Bool
  /-- the transport rejected the peer's bytes, the peer closed the connection or the handshake
  timed out, before this node had decided to disconnect -/
  lost : Bool

namespace Node

/-- The node asks for a classical retry. -/
def retryClassical (node : Node V1 Addr) : Bool := node.transport.getHybridStatus.retryClassical

/-- The connection was outbound, its hybrid session asked for a classical retry, and this node did
not close it itself. -/
def lostHybrid (node : Node V1 Addr) : Bool :=
  decide (node.connType ≠ .inbound) && node.retryClassical && node.lost

end Node

/-- What happens to a node outside of the connection manager. -/
inductive NodeEvent where
  | call (call : TransportCall)
  /-- `SetHybridCloseCause` reads `fDisconnect` -/
  | setHybridCloseCause (cause : HybridCloseCause)
  /-- and stores the cause -/
  | storeHybridCloseCause
  /-- `fDisconnect` is set, for whatever reason -/
  | disconnect
deriving DecidableEq, Repr

/-- One event at a node. -/
def Node.step (node : Node V1 Addr) : NodeEvent → Node V1 Addr
  | .call call => { node with transport := node.transport.call call }
  | .setHybridCloseCause cause =>
    if node.fDisconnect then node
    else { node with pendingCauses := cause :: node.pendingCauses, lost := true }
  | .storeHybridCloseCause =>
    match node.pendingCauses with
    | [] => node
    | cause :: rest => { node with hybridCloseCause := cause, pendingCauses := rest }
  | .disconnect => { node with fDisconnect := true }

/-! ## Reconnections -/

/-- `ReconnectionInfo`. -/
structure ReconnectionInfo (Addr : Type) where
  addrConnect : Addr
  destination : String
  connType : ConnectionType
  useV2transport : Bool
  hybridClassicalRetry : Bool

/-- The arguments of `OpenNetworkConnection`. -/
structure OpenArgs (Addr : Type) where
  addrConnect : Addr
  pszDest : Option String
  connType : ConnectionType
  useV2transport : Bool
  hybridClassicalRetry : Bool

/-- The arguments that `PerformReconnections` passes on. -/
def ReconnectionInfo.openArgs (item : ReconnectionInfo Addr) : OpenArgs Addr where
  addrConnect := item.addrConnect
  pszDest := if item.destination.isEmpty then none else some item.destination
  connType := item.connType
  useV2transport := item.useV2transport
  hybridClassicalRetry := item.hybridClassicalRetry

namespace Node

variable (node : Node V1 Addr)

/-- The manual destination that `DisconnectNodes` marks instead of the reconnection. -/
def manual : Bool :=
  decide (node.connType = .manual) && !node.dest.isEmpty

/-- The condition for a classical retry in `DisconnectNodes`. -/
def retriesClassical : Bool :=
  networkActive && node.retryClassical && decide (node.hybridCloseCause ≠ .none)

/-- The reconnections that `DisconnectNodes` adds for a node. -/
def reconnections : List (ReconnectionInfo Addr) :=
  (if networkActive && node.transport.shouldReconnectV1 then
    [⟨node.addr, node.dest, node.connType, false, false⟩] else []) ++
  (if node.retriesClassical networkActive then
    [⟨node.addr, node.dest, node.connType, true, !node.manual⟩] else [])

/-- The mark that `DisconnectNodes` sets for a node. -/
def retryMark : Finset String :=
  if node.retriesClassical networkActive && node.manual then {node.dest} else ∅

end Node

/-! ## The state -/

/-- `AddedNodeParams`. -/
structure AddedNodeParams where
  addedNode : String
  useV2transport : Bool
deriving DecidableEq, Repr

/-- What is read off addresses and names. -/
structure Addressing (Addr : Type) where
  toStringAddrPort : Addr → String
  /-- equal as `CNetAddr`, whatever the port -/
  sameNetAddr : Addr → Addr → Bool
  isLocal : Addr → Bool
  /-- both are numeric and name the same service -/
  sameService : String → String → Bool

/-- `m_addr_name`. -/
def Node.addrName (addressing : Addressing Addr) (node : Node V1 Addr) : String :=
  if node.dest.isEmpty then addressing.toStringAddrPort node.addr else node.dest

/-- Where a call stands. -/
inductive Task (V1 Addr : Type) where
  | checking (args : OpenArgs Addr)
  | marking (args : OpenArgs Addr)
  | connecting (args : OpenArgs Addr) (manualRetry : Bool)
  /-- the connection failed and the mark goes back -/
  | restoring (dest : String)
  | adding (node : Node V1 Addr)
  /-- the end of `DisconnectNodes` -/
  | splicing (reconnections : List (ReconnectionInfo Addr))

/-- `DisconnectNodes` while it holds `m_nodes_mutex`. -/
structure Disconnecting (Addr : Type) where
  networkActive : Bool
  /-- the nodes of `nodes_copy` still to look at -/
  remaining : List ℕ
  reconnectionsToAdd : List (ReconnectionInfo Addr)

/-- `CConnman`. -/
structure ConnMan (V1 Addr : Type) where
  hybridMode : HybridMode
  networkActive : Bool
  nodes : List (Node V1 Addr)
  lastNodeId : ℕ
  reconnections : List (ReconnectionInfo Addr)
  /-- `m_v2_hybrid_retry_dests` -/
  retryDests : Finset String
  addedNodeParams : List AddedNodeParams
  /-- the counter `classical_retry` -/
  classicalRetries : ℕ
  /-- the call of `DisconnectNodes` that holds `m_nodes_mutex` -/
  disconnecting : Option (Disconnecting Addr)
  tasks : List (Task V1 Addr)
  /-- the nodes that `DisconnectNodes` has taken out, newest first -/
  disconnected : List (Node V1 Addr)

/-- The connection manager at startup. -/
def ConnMan.start (hybridMode : HybridMode) (networkActive : Bool) : ConnMan V1 Addr where
  hybridMode := hybridMode
  networkActive := networkActive
  nodes := []
  lastNodeId := 0
  reconnections := []
  retryDests := ∅
  addedNodeParams := []
  classicalRetries := 0
  disconnecting := none
  tasks := []
  disconnected := []

namespace ConnMan

variable (addressing : Addressing Addr) (cm : ConnMan V1 Addr) {cm' : ConnMan V1 Addr}

/-! ## Opening a connection -/

/-- The constructor of `CNode`. -/
def newNode (id : ℕ) (addr : Addr) (dest : String) (connType : ConnectionType)
    (transport : NodeTransport V1) (classicalRetry : Bool) : Node V1 Addr where
  id := id
  addr := addr
  dest := dest
  connType := connType
  transport := transport
  fDisconnect := false
  hybridCloseCause := .none
  pendingCauses := []
  classicalRetry := classicalRetry
  lost := false

/-- `AlreadyConnectedToAddress`, or `AlreadyConnectedToHost` if there is a name. -/
def alreadyConnected (args : OpenArgs Addr) : Bool :=
  match args.pszDest with
  | none => cm.nodes.any fun node => addressing.sameNetAddr node.addr args.addrConnect
  | some dest => cm.nodes.any fun node => node.addrName addressing == dest

/-- Interrupted, inactive, or an address not to connect to. -/
def refuses (refused : Bool) (args : OpenArgs Addr) : Bool :=
  refused || !cm.networkActive || (args.pszDest.isNone && addressing.isLocal args.addrConnect)

/-- The destination whose mark this call takes. -/
def markedDest (args : OpenArgs Addr) : Option String :=
  if args.connType = .manual ∧ args.useV2transport = true then args.pszDest else none

/-- The node that `ConnectNode` makes of a socket. -/
def connectNode (args : OpenArgs Addr) (classicalRetry : Bool) (addr : Addr)
    (config : TransportConfig V1) : Node V1 Addr :=
  newNode (cm.lastNodeId + 1) addr (args.pszDest.getD "") args.connType
    (.make config args.useV2transport (decide (args.connType = .inbound))
      (if classicalRetry then .off else cm.hybridMode))
    classicalRetry

/-- The connection is there: count it, and go on to add the node. -/
def connected (args : OpenArgs Addr) (classicalRetry : Bool) (addr : Addr)
    (config : TransportConfig V1) : ConnMan V1 Addr × Option (Task V1 Addr) :=
  ({ cm with
      lastNodeId := cm.lastNodeId + 1
      classicalRetries := cm.classicalRetries + if classicalRetry then 1 else 0 },
    some (.adding (cm.connectNode args classicalRetry addr config)))

/-- The next step of a call, and where it stands then; `none` if it has to wait for
`m_nodes_mutex`.  `refused` and `connection` are what its surroundings answer. -/
def proceed (refused : Bool) (connection : Option (Addr × TransportConfig V1)) :
    Task V1 Addr → Option (ConnMan V1 Addr × Option (Task V1 Addr))
  | .checking args =>
    if cm.refuses addressing refused args then some (cm, none)
    else if cm.disconnecting.isSome then none
    else if cm.alreadyConnected addressing args then some (cm, none)
    else some (cm, some (.marking args))
  | .marking args =>
    match markedDest args with
    | none => some (cm, some (.connecting args false))
    | some dest =>
      some ({ cm with retryDests := cm.retryDests.erase dest },
        some (.connecting args (decide (dest ∈ cm.retryDests))))
  | .connecting args manualRetry =>
    match connection with
    | none =>
      some (cm, if manualRetry then some (.restoring (args.pszDest.getD "")) else none)
    | some (addr, config) =>
      some (cm.connected args (args.hybridClassicalRetry || manualRetry) addr config)
  | .restoring dest => some ({ cm with retryDests := insert dest cm.retryDests }, none)
  | .adding node =>
    if cm.disconnecting.isSome then none
    else some ({ cm with nodes := cm.nodes ++ [node] }, none)
  | .splicing items => some ({ cm with reconnections := cm.reconnections ++ items }, none)

/-! ## Disconnecting -/

/-- `DisconnectNodes` locks `m_nodes_mutex` and copies the list of nodes. -/
def disconnectNodes : Option (ConnMan V1 Addr) :=
  if cm.disconnecting.isSome then none
  else some { cm with
    nodes := if cm.networkActive then cm.nodes
      else cm.nodes.map fun node => { node with fDisconnect := true }
    disconnecting := some ⟨cm.networkActive, cm.nodes.map Node.id, []⟩ }

/-- A node whose `fDisconnect` is set is taken out. -/
def disconnectNode (current : Disconnecting Addr) (rest : List ℕ) (node : Node V1 Addr) :
    ConnMan V1 Addr :=
  { cm with
    nodes := cm.nodes.filter fun other => other.id ≠ node.id
    retryDests := cm.retryDests ∪ node.retryMark current.networkActive
    disconnecting := some { current with
      remaining := rest
      reconnectionsToAdd := current.reconnectionsToAdd ++ node.reconnections current.networkActive }
    disconnected := node :: cm.disconnected }

/-- `DisconnectNodes` looks at the next node, or releases the mutex. -/
def disconnectNext : Option (ConnMan V1 Addr) :=
  match cm.disconnecting with
  | none => none
  | some current =>
    match current.remaining with
    | [] => some { cm with
        disconnecting := none
        tasks := .splicing current.reconnectionsToAdd :: cm.tasks }
    | id :: rest =>
      match cm.nodes.find? fun node => node.id = id && node.fDisconnect with
      | none => some { cm with disconnecting := some { current with remaining := rest } }
      | some node => some (cm.disconnectNode current rest node)

/-! ## Added nodes -/

/-- `AddNode`. -/
def addNode (add : AddedNodeParams) : ConnMan V1 Addr :=
  if cm.addedNodeParams.any fun it => add.addedNode == it.addedNode ||
      addressing.sameService add.addedNode it.addedNode then cm
  else { cm with
    addedNodeParams := cm.addedNodeParams ++ [add]
    retryDests := cm.retryDests.erase add.addedNode }

/-- `RemoveAddedNode`. -/
def removeAddedNode (node : String) : ConnMan V1 Addr :=
  if cm.addedNodeParams.any fun it => node == it.addedNode then
    { cm with
      addedNodeParams := cm.addedNodeParams.eraseP fun it => node == it.addedNode
      retryDests := cm.retryDests.erase node }
  else cm

/-! ## Runs -/

/-- A step of some thread. -/
inductive Event (V1 Addr : Type) where
  /-- a call of `OpenNetworkConnection` from anywhere but `PerformReconnections`; no such call
  asks for a classical retry -/
  | openNetworkConnection (addrConnect : Addr) (pszDest : Option String)
      (connType : ConnectionType) (useV2transport : Bool)
  /-- `PerformReconnections` takes the first reconnection -/
  | performReconnection
  | proceed (index : ℕ) (refused : Bool) (connection : Option (Addr × TransportConfig V1))
  | disconnectNodes
  | disconnectNext
  | addNode (add : AddedNodeParams)
  | removeAddedNode (node : String)
  /-- `CreateNodeFromAcceptedSocket`, where it creates a node -/
  | accept (addr : Addr) (config : TransportConfig V1) (useV2transport : Bool)
  | node (id : ℕ) (event : NodeEvent)
  | setNetworkActive (active : Bool)

/-- A new call; it asserts that the connection is not inbound. -/
def call (args : OpenArgs Addr) : Option (ConnMan V1 Addr) :=
  if args.connType = .inbound then none
  else some { cm with tasks := .checking args :: cm.tasks }

/-- One step; `none` if the thread has to wait, has nothing to do or fails an assertion. -/
def step : Event V1 Addr → Option (ConnMan V1 Addr)
  | .openNetworkConnection addrConnect pszDest connType useV2transport =>
    cm.call ⟨addrConnect, pszDest, connType, useV2transport, false⟩
  | .performReconnection =>
    match cm.reconnections with
    | [] => none
    | item :: rest => { cm with reconnections := rest }.call item.openArgs
  | .proceed index refused connection => do
    let task ← cm.tasks[index]?
    let (cm, next) ←
      { cm with tasks := cm.tasks.eraseIdx index }.proceed addressing refused connection task
    some { cm with tasks := next.toList ++ cm.tasks }
  | .disconnectNodes => cm.disconnectNodes
  | .disconnectNext => cm.disconnectNext
  | .addNode add => some (cm.addNode addressing add)
  | .removeAddedNode node => some (cm.removeAddedNode node)
  | .accept addr config useV2transport =>
    some { cm with
      lastNodeId := cm.lastNodeId + 1
      tasks := .adding (newNode (cm.lastNodeId + 1) addr "" .inbound
        (.make config useV2transport true cm.hybridMode) false) :: cm.tasks }
  | .node id event =>
    some { cm with
      nodes := cm.nodes.map fun node => if node.id = id then node.step event else node }
  | .setNetworkActive active => some { cm with networkActive := active }

/-- Any interleaving of the calls. -/
def run (events : List (Event V1 Addr)) : Option (ConnMan V1 Addr) :=
  events.foldlM (step addressing) cm

/-! ## What a step can do -/

variable {addressing cm}

/-- The steps of a call: where it stood, the manager afterwards, and where it stands. -/
inductive Advance (cm : ConnMan V1 Addr) :
    Task V1 Addr → ConnMan V1 Addr → Option (Task V1 Addr) → Prop where
  | refused (args) : Advance cm (.checking args) cm none
  | checked (args) : Advance cm (.checking args) cm (some (.marking args))
  | unmarked (args) : markedDest args = none →
      Advance cm (.marking args) cm (some (.connecting args false))
  | marked (args) (dest) : markedDest args = some dest →
      Advance cm (.marking args) { cm with retryDests := cm.retryDests.erase dest }
        (some (.connecting args (decide (dest ∈ cm.retryDests))))
  | abandoned (args) : Advance cm (.connecting args false) cm none
  | failed (args) :
      Advance cm (.connecting args true) cm (some (.restoring (args.pszDest.getD "")))
  | connected (args) (manualRetry) (addr) (config) :
      Advance cm (.connecting args manualRetry)
        (cm.connected args (args.hybridClassicalRetry || manualRetry) addr config).1
        (cm.connected args (args.hybridClassicalRetry || manualRetry) addr config).2
  | restored (dest) :
      Advance cm (.restoring dest) { cm with retryDests := insert dest cm.retryDests } none
  | added (node) : Advance cm (.adding node) { cm with nodes := cm.nodes ++ [node] } none
  | spliced (items) :
      Advance cm (.splicing items) { cm with reconnections := cm.reconnections ++ items } none

theorem advance_of_proceed {refused : Bool} {connection : Option (Addr × TransportConfig V1)}
    {task : Task V1 Addr} {next : Option (Task V1 Addr)}
    (hproceed : cm.proceed addressing refused connection task = some (cm', next)) :
    Advance cm task cm' next := by
  cases task with
  | checking args =>
    simp only [proceed] at hproceed
    split_ifs at hproceed
    · cases hproceed
      exact .refused args
    · cases hproceed
      exact .refused args
    · cases hproceed
      exact .checked args
  | marking args =>
    simp only [proceed] at hproceed
    cases hdest : markedDest args with
    | none =>
      rw [hdest] at hproceed
      cases hproceed
      exact .unmarked args hdest
    | some dest =>
      rw [hdest] at hproceed
      cases hproceed
      exact .marked args dest hdest
  | connecting args manualRetry =>
    cases connection with
    | none =>
      cases manualRetry <;> cases hproceed
      · exact .abandoned args
      · exact .failed args
    | some found =>
      cases hproceed
      exact .connected args manualRetry found.1 found.2
  | restoring dest =>
    cases hproceed
    exact .restored dest
  | adding node =>
    simp only [proceed] at hproceed
    split_ifs at hproceed
    cases hproceed
    exact .added node
  | splicing items =>
    cases hproceed
    exact .spliced items

/-- Everything that a step can do to the manager. -/
inductive Change (cm : ConnMan V1 Addr) : ConnMan V1 Addr → Prop where
  | called (args : OpenArgs Addr) : args.hybridClassicalRetry = false →
      Change cm { cm with tasks := .checking args :: cm.tasks }
  | reconnecting (item) (rest) : cm.reconnections = item :: rest →
      Change cm { cm with reconnections := rest, tasks := .checking item.openArgs :: cm.tasks }
  | advancing (index) (task) (cm') (next) : cm.tasks[index]? = some task →
      Advance { cm with tasks := cm.tasks.eraseIdx index } task cm' next →
      Change cm { cm' with tasks := next.toList ++ cm'.tasks }
  | locking : cm.disconnecting = none →
      Change cm { cm with
        nodes := if cm.networkActive then cm.nodes
          else cm.nodes.map fun node => { node with fDisconnect := true }
        disconnecting := some ⟨cm.networkActive, cm.nodes.map Node.id, []⟩ }
  | releasing (current) : cm.disconnecting = some current →
      Change cm { cm with
        disconnecting := none
        tasks := .splicing current.reconnectionsToAdd :: cm.tasks }
  | skipping (current) (rest) : cm.disconnecting = some current →
      Change cm { cm with disconnecting := some { current with remaining := rest } }
  | taking (current) (rest) (node) : cm.disconnecting = some current → node ∈ cm.nodes →
      Change cm (cm.disconnectNode current rest node)
  | erasing (dest) (params) :
      Change cm { cm with addedNodeParams := params, retryDests := cm.retryDests.erase dest }
  | accepting (addr) (config) (useV2transport) :
      Change cm { cm with
        lastNodeId := cm.lastNodeId + 1
        tasks := .adding (newNode (cm.lastNodeId + 1) addr "" .inbound
          (.make config useV2transport true cm.hybridMode) false) :: cm.tasks }
  | happening (id) (event) :
      Change cm { cm with
        nodes := cm.nodes.map fun node => if node.id = id then node.step event else node }
  | activating (active) : Change cm { cm with networkActive := active }
  | idling : Change cm cm

theorem call_eq_some {args : OpenArgs Addr} (hcall : cm.call args = some cm') :
    cm' = { cm with tasks := .checking args :: cm.tasks } := by
  rw [call] at hcall
  split_ifs at hcall
  exact (Option.some.inj hcall).symm

theorem change_of_disconnectNext (hstep : cm.disconnectNext = some cm') : Change cm cm' := by
  rw [disconnectNext] at hstep
  split at hstep
  · cases hstep
  · next current hcurrent =>
      split at hstep
      · cases hstep
        exact .releasing current hcurrent
      · next id rest _ =>
          split at hstep
          · cases hstep
            exact .skipping current rest hcurrent
          · next node hfind =>
              cases hstep
              exact .taking current rest node hcurrent (List.mem_of_find?_eq_some hfind)

theorem change_of_step {event : Event V1 Addr} (hstep : cm.step addressing event = some cm') :
    Change cm cm' := by
  cases event with
  | openNetworkConnection addrConnect pszDest connType useV2transport =>
    rw [call_eq_some hstep]
    exact .called _ rfl
  | performReconnection =>
    simp only [step] at hstep
    split at hstep
    · cases hstep
    · next item rest hitems =>
        rw [call_eq_some hstep]
        exact .reconnecting item rest hitems
  | proceed index refused connection =>
    obtain ⟨task, htask, hstep⟩ := Option.bind_eq_some_iff.mp hstep
    obtain ⟨⟨after, next⟩, hproceed, hstep⟩ := Option.bind_eq_some_iff.mp hstep
    obtain rfl := Option.some.inj hstep
    exact .advancing index task after next htask (advance_of_proceed hproceed)
  | disconnectNodes =>
    simp only [step, disconnectNodes] at hstep
    split at hstep
    · cases hstep
    · next hlocked =>
        cases hstep
        exact .locking (by simpa using hlocked)
  | disconnectNext => exact change_of_disconnectNext hstep
  | addNode add =>
    obtain rfl := Option.some.inj hstep
    rw [addNode]
    split_ifs
    · exact .idling
    · exact .erasing _ _
  | removeAddedNode node =>
    obtain rfl := Option.some.inj hstep
    rw [removeAddedNode]
    split_ifs
    · exact .erasing _ _
    · exact .idling
  | accept addr config useV2transport =>
    obtain rfl := Option.some.inj hstep
    exact .accepting addr config useV2transport
  | node id event =>
    obtain rfl := Option.some.inj hstep
    exact .happening id event
  | setNetworkActive active =>
    obtain rfl := Option.some.inj hstep
    exact .activating active

/-- What every change keeps holds after every run. -/
theorem run_induction {P : ConnMan V1 Addr → Prop}
    (hchange : ∀ cm cm' : ConnMan V1 Addr, Change cm cm' → P cm → P cm') :
    ∀ (events : List (Event V1 Addr)) {cm cm' : ConnMan V1 Addr}, P cm →
      cm.run addressing events = some cm' → P cm' := by
  intro events
  induction events with
  | nil =>
    intro cm cm' h hrun
    cases hrun
    exact h
  | cons event events ih =>
    intro cm cm' h hrun
    rw [run, List.foldlM_cons] at hrun
    obtain ⟨middle, hstep, hrest⟩ := Option.bind_eq_some_iff.mp hrun
    exact ih (hchange cm middle (change_of_step hstep) h) hrest

end ConnMan

end XCoin.Net
