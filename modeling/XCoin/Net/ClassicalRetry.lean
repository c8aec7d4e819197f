import XCoin.Net.ConnectionManager
import XCoin.Net.ReceiveSteps

/-!
# Classical retries are accounted for

Every connection opened as a classical retry goes back to one outbound hybrid session
that was lost.  A lost session leaves one claim to a retry behind, and the claim is
always in one place:

| place                                   | what happens to it                       |
|-----------------------------------------|------------------------------------------|
| a collected reconnection                | goes to the list                         |
| a reconnection in the list              | goes to a call                           |
| a mark of a manual destination          | goes to a call, is erased, or is doubled |
| a call of `OpenNetworkConnection`       | becomes a connection, a mark, or nothing |
| a connection opened as a retry          | is counted                               |

So the places never hold more claims than there were lost sessions (`Accounted`); a mark
that is set twice only loses one.  The rest is about single nodes (`Traced`): the mode
of a retry is off, so that it asks for no other retry, and the tag of the peer is seen
only after its key, when the v1 reconnect is out of the question.
-/

namespace XCoin.Net

open V2Transport

variable {V1 Addr : Type} {config : TransportConfig V1} {t : V2Transport V1}

/-! ## The tag is seen after the key -/

/-- The key of the peer has been received. -/
def PastKey (t : V2Transport V1) : Prop := t.recvState ≠ .key ∧ t.recvState ≠ .keyMaybeV1

/-- The tag of the peer has been seen only if its key has been received. -/
def TagAfterKey (t : V2Transport V1) : Prop := t.hybridTagSeen = true → PastKey t

theorem pastKey_of_recvState (state : RecvState) (hrecv : t.recvState = state)
    (hkey : state ≠ .key) (hmaybe : state ≠ .keyMaybeV1) : PastKey t := by
  rw [PastKey, hrecv]
  exact ⟨hkey, hmaybe⟩

theorem PastKey.versionUsed {result : Except (V2Transport V1) (V2Transport V1)} (h : PastKey t)
    (hused : VersionUsed config t result) : result.Satisfies PastKey PastKey := by
  cases hused with
  | declined =>
    cases hinitiating : config.initiating <;>
      simp only [declineHybrid, hinitiating] <;> exact h
  | refused | failed | sealedInVain | answered | confirmed => exact h

theorem TagAfterKey.of_tag (h : t.hybridTagSeen = false) : TagAfterKey t := by
  intro hseen
  rw [h] at hseen
  cases hseen

theorem TagAfterKey.of_pastKey (h : PastKey t) : TagAfterKey t := fun _ => h

theorem InPacket.pastKey (h : InPacket t) : PastKey t := by
  rcases h with hrecv | hrecv
  · exact pastKey_of_recvState _ hrecv (by decide) (by decide)
  · exact pastKey_of_recvState _ hrecv (by decide) (by decide)

/-- Before the key the tag is unseen and stays so; after it the state never goes back. -/
theorem TagAfterKey.processed {result : Except (V2Transport V1) (V2Transport V1)}
    (h : TagAfterKey t) (hprocessed : Processed config t result) :
    result.Satisfies TagAfterKey TagAfterKey := by
  have hmaybe (hrecv : t.recvState = .keyMaybeV1) : t.hybridTagSeen = false := by
    by_contra hseen
    exact (h (by simpa using hseen)).2 hrecv
  have hkey (hrecv : t.recvState = .key) : t.hybridTagSeen = false := by
    by_contra hseen
    exact (h (by simpa using hseen)).1 hrecv
  cases hprocessed with
  | waits | rejects | refusesV1 => exact h
  | starts hrecv | fallsBack hrecv => exact .of_tag (hmaybe hrecv)
  | keyClassical hrecv | keyInitiator hrecv | keygenFails hrecv | offers _ hrecv =>
    exact .of_tag (hkey hrecv)
  | garbageEnds =>
    exact .of_pastKey (pastKey_of_recvState .version rfl (by decide) (by decide))
  | lengthRead hpacket | lengthRejected hpacket | lengthFails hpacket | packetRejected hpacket
  | packetFails hpacket | decoy _ hpacket => exact .of_pastKey hpacket.pastKey
  | message => exact .of_pastKey (pastKey_of_recvState .appReady rfl (by decide) (by decide))
  | versionIgnored => exact .of_pastKey (pastKey_of_recvState .app rfl (by decide) (by decide))
  | versionFails contents t' hrecv _ hused =>
    have hpast : PastKey (openPacket config contents t) := InPacket.pastKey (.inl hrecv)
    exact .of_pastKey (hpast.versionUsed hused)
  | versionDone => exact .of_pastKey (pastKey_of_recvState .app rfl (by decide) (by decide))

theorem inductive_tagAfterKey : Inductive config TagAfterKey where
  new := by
    apply TagAfterKey.of_tag
    cases hinitiating : config.initiating <;>
      simp [V2Transport.new, startSendingHandshake, hinitiating]
  append _ _ h := h
  process t h := h.processed (processed_processReceived config t)
  fallback _ _ _ h := h
  take _ _ _ := fun _ => pastKey_of_recvState .app rfl (by decide) (by decide)
  set msg t t' hsend hset h := by
    simp only [setMessageToSend, if_neg hsend, Option.ite_none_right_eq_some,
      Option.some.injEq] at hset
    obtain ⟨-, rfl⟩ := hset
    rw [sendFirstDecoy]
    split_ifs <;> exact h
  mark bytesSent t hsend h := by
    rw [markBytesSent, if_neg hsend]
    split_ifs <;> exact h

theorem not_shouldReconnectV1_and_retryClassical (h : TagAfterKey t)
    (hv1 : shouldReconnectV1 config t = true) :
    (getHybridStatus config t).retryClassical = false := by
  have hkey : t.recvState = .key := by
    simp only [shouldReconnectV1, v1ReconnectCondition, Bool.and_eq_true, decide_eq_true_eq] at hv1
    exact hv1.2.1.1.2
  have hseen : t.hybridTagSeen = false := by
    by_contra hseen
    exact (h (by simpa using hseen)).1 hkey
  rw [getHybridStatus]
  split_ifs
  · rfl
  · simp [hseen]

/-! ## Nodes -/

/-- A transport that a manager in this mode has made, for a retry or not. -/
def NodeTransport.Traced (mode : HybridMode) (retry inbound : Bool) : NodeTransport V1 → Prop
  | .v1 => True
  | .v2 config endpoint =>
    (config.hybridMode = .off ∨ retry = false ∧ config.hybridMode = mode) ∧
      config.initiating = !inbound ∧ TagAfterKey endpoint.transport

namespace NodeTransport

variable {mode : HybridMode} {retry inbound : Bool} {transport : NodeTransport V1}

theorem traced_make (config : TransportConfig V1) (useV2transport : Bool) {used : HybridMode}
    (hmode : used = .off ∨ retry = false ∧ used = mode) :
    (make config useV2transport inbound used).Traced mode retry inbound := by
  rw [make]
  split_ifs
  · exact ⟨hmode, rfl, inductive_tagAfterKey.new⟩
  · trivial

theorem Traced.call (h : transport.Traced mode retry inbound) (call : TransportCall) :
    (transport.call call).Traced mode retry inbound := by
  cases transport with
  | v1 => trivial
  | v2 config endpoint =>
    obtain ⟨hmode, hinitiating, htag⟩ := h
    refine ⟨hmode, hinitiating, ?_⟩
    cases hcall : endpoint.call config call with
    | none => exact htag
    | some endpoint' => exact inductive_tagAfterKey.call hcall htag

/-- Only an outbound transport in prefer mode asks for a classical retry. -/
theorem Traced.of_retryClassical (h : transport.Traced mode retry inbound)
    (hstatus : transport.getHybridStatus.retryClassical = true) :
    retry = false ∧ mode = .prefer ∧ inbound = false := by
  cases transport with
  | v1 => cases hstatus
  | v2 config endpoint =>
    obtain ⟨hmode, hinitiating, -⟩ := h
    simp only [getHybridStatus, Net.getHybridStatus] at hstatus
    split_ifs at hstatus with hoff
    simp only [Bool.and_eq_true, decide_eq_true_eq] at hstatus
    obtain ⟨⟨⟨⟨hstart, hprefer⟩, -⟩, -⟩, -⟩ := hstatus
    rcases hmode with hmode | ⟨hretry, hmode⟩
    · exact absurd hmode hoff
    · refine ⟨hretry, hmode.symm.trans hprefer, ?_⟩
      rw [hinitiating] at hstart
      simpa using hstart

theorem Traced.retryClassical_of_v1 (h : transport.Traced mode retry inbound)
    (hv1 : transport.shouldReconnectV1 = true) :
    transport.getHybridStatus.retryClassical = false := by
  cases transport with
  | v1 => rfl
  | v2 config endpoint => exact not_shouldReconnectV1_and_retryClassical h.2.2 hv1

end NodeTransport

namespace Node

/-- What holds of every node of a manager in this mode. -/
structure Traced (mode : HybridMode) (node : Node V1 Addr) : Prop where
  transport : node.transport.Traced mode node.classicalRetry (decide (node.connType = .inbound))
  cause : node.hybridCloseCause ≠ .none → node.lost = true
  pending : node.pendingCauses ≠ [] → node.lost = true

variable {mode : HybridMode} {node : Node V1 Addr} {networkActive : Bool}

theorem Traced.step (h : node.Traced mode) (event : NodeEvent) : (node.step event).Traced mode := by
  cases event with
  | call call => exact ⟨h.transport.call call, h.cause, h.pending⟩
  | setHybridCloseCause cause =>
    rw [Node.step]
    split_ifs
    · exact h
    · exact ⟨h.transport, fun _ => rfl, fun _ => rfl⟩
  | storeHybridCloseCause =>
    rw [Node.step]
    split
    · exact h
    · next cause rest hpending =>
        have hlost := h.pending (by simp [hpending])
        exact ⟨h.transport, fun _ => hlost, fun _ => hlost⟩
  | disconnect => exact ⟨h.transport, h.cause, h.pending⟩

theorem Traced.lostHybrid (h : node.Traced mode)
    (hretries : node.retriesClassical networkActive = true) : node.lostHybrid = true := by
  simp only [retriesClassical, Bool.and_eq_true, decide_eq_true_eq] at hretries
  obtain ⟨⟨-, hstatus⟩, hcause⟩ := hretries
  have houtbound := (h.transport.of_retryClassical hstatus).2.2
  simp only [Node.lostHybrid, hstatus, h.cause hcause, Bool.and_true, decide_eq_true_eq]
  simpa using houtbound

theorem Traced.lostHybrid_of_require (h : node.Traced .require) : node.lostHybrid = false := by
  by_contra hlost
  simp only [Node.lostHybrid, Bool.not_eq_false, Bool.and_eq_true] at hlost
  have hmode := (h.transport.of_retryClassical hlost.1.2).2.1
  cases hmode

theorem Traced.retryClassical_of_retry (h : node.Traced mode)
    (hretry : node.classicalRetry = true) : node.retryClassical = false := by
  by_contra hstatus
  have hstatus' : node.retryClassical = true := by simpa using hstatus
  have hnot := (h.transport.of_retryClassical hstatus').1
  rw [hretry] at hnot
  cases hnot

end Node

/-! ## Claims to a retry -/

/-- The reconnections of a list that will be classical retries. -/
def retryCount (items : List (ReconnectionInfo Addr)) : ℕ :=
  items.countP ReconnectionInfo.hybridClassicalRetry

theorem retryCount_append (items more : List (ReconnectionInfo Addr)) :
    retryCount (items ++ more) = retryCount items + retryCount more := List.countP_append

namespace Node

variable {mode : HybridMode} {node : Node V1 Addr}

theorem retryCount_reconnections (networkActive : Bool) (node : Node V1 Addr) :
    retryCount (node.reconnections networkActive) =
      (node.retriesClassical networkActive && !node.manual).toNat := by
  rw [reconnections, retryCount_append]
  cases networkActive && node.transport.shouldReconnectV1 <;>
    cases node.retriesClassical networkActive <;> cases node.manual <;> rfl

theorem card_retryMark (networkActive : Bool) (node : Node V1 Addr) :
    (node.retryMark networkActive).card =
      (node.retriesClassical networkActive && node.manual).toNat := by
  rw [retryMark]
  cases node.retriesClassical networkActive && node.manual <;> rfl

/-- A node that is taken out leaves a claim behind only if it was lost. -/
theorem Traced.newClaims_le (h : node.Traced mode) (networkActive : Bool) :
    retryCount (node.reconnections networkActive) + (node.retryMark networkActive).card ≤
      if node.lostHybrid then 1 else 0 := by
  rw [retryCount_reconnections, card_retryMark]
  cases hretries : node.retriesClassical networkActive with
  | false => exact Nat.zero_le _
  | true =>
    rw [h.lostHybrid hretries, if_pos rfl]
    cases node.manual <;> decide

end Node

/-- The claims a call holds. -/
def Task.claims : Task V1 Addr → ℕ
  | .checking args => args.hybridClassicalRetry.toNat
  | .marking args => args.hybridClassicalRetry.toNat
  | .connecting args manualRetry => args.hybridClassicalRetry.toNat + manualRetry.toNat
  | .restoring _ => 1
  | .adding _ => 0
  | .splicing items => retryCount items

namespace ConnMan

variable {addressing : Addressing Addr} {mode : HybridMode} {cm cm' : ConnMan V1 Addr}
  {task : Task V1 Addr} {next : Option (Task V1 Addr)}

/-- The claims that are not with a call. -/
def heldClaims (cm : ConnMan V1 Addr) : ℕ :=
  cm.classicalRetries + cm.retryDests.card + retryCount cm.reconnections +
    cm.disconnecting.elim 0 fun current => retryCount current.reconnectionsToAdd

/-- All claims. -/
def claims (cm : ConnMan V1 Addr) : ℕ := cm.heldClaims + (cm.tasks.map Task.claims).sum

/-- The node is connected, is about to be added, or was taken out. -/
def HasConnection (cm : ConnMan V1 Addr) (node : Node V1 Addr) : Prop :=
  node ∈ cm.nodes ∨ .adding node ∈ cm.tasks ∨ node ∈ cm.disconnected

/-- **The account.** There are no more claims to a retry than lost hybrid sessions. -/
structure Accounted (cm : ConnMan V1 Addr) (mode : HybridMode) : Prop where
  claims_le : cm.claims ≤ cm.disconnected.countP Node.lostHybrid
  hybridMode_eq : cm.hybridMode = mode
  traced : ∀ node, cm.HasConnection node → node.Traced mode

theorem accounted_start (mode : HybridMode) (networkActive : Bool) :
    (start mode networkActive : ConnMan V1 Addr).Accounted mode where
  claims_le := Nat.le_refl 0
  hybridMode_eq := rfl
  traced := by
    rintro node (h | h | h) <;> cases h

theorem Accounted.of_le (h : cm.Accounted mode) (hclaims : cm'.claims ≤ cm.claims)
    (hdisconnected : cm'.disconnected = cm.disconnected) (hmode : cm'.hybridMode = cm.hybridMode)
    (hnodes : ∀ node, cm'.HasConnection node → cm.HasConnection node ∨ node.Traced mode) :
    cm'.Accounted mode where
  claims_le := by
    rw [hdisconnected]
    exact hclaims.trans h.claims_le
  hybridMode_eq := hmode.trans h.hybridMode_eq
  traced := by
    intro node hnode
    rcases hnodes node hnode with hold | hnew
    · exact h.traced node hold
    · exact hnew

/-! ## Calls -/

theorem Accounted.call (h : cm.Accounted mode) {args : OpenArgs Addr}
    {items : List (ReconnectionInfo Addr)}
    (hclaim : retryCount items + args.hybridClassicalRetry.toNat ≤ retryCount cm.reconnections) :
    { cm with reconnections := items, tasks := .checking args :: cm.tasks }.Accounted mode := by
  apply h.of_le
  · simp only [claims, heldClaims, List.map_cons, List.sum_cons, Task.claims]
    omega
  · rfl
  · rfl
  · rintro node (hnode | hnode | hnode)
    · exact .inl (.inl hnode)
    · rcases List.mem_cons.mp hnode with heq | hold
      · cases heq
      · exact .inl (.inr (.inl hold))
    · exact .inl (.inr (.inr hnode))

/-- What a step of a call does to the rest of the manager. -/
structure Proceeds (cm : ConnMan V1 Addr) (task : Task V1 Addr) (cm' : ConnMan V1 Addr)
    (next : Option (Task V1 Addr)) : Prop where
  claims_le : cm'.heldClaims + (next.map Task.claims).getD 0 ≤ cm.heldClaims + task.claims
  tasks_eq : cm'.tasks = cm.tasks
  disconnected_eq : cm'.disconnected = cm.disconnected
  hybridMode_eq : cm'.hybridMode = cm.hybridMode
  nodes : ∀ node ∈ cm'.nodes, node ∈ cm.nodes ∨ task = .adding node
  next_traced : ∀ node, next = some (.adding node) → node.Traced cm.hybridMode

theorem Proceeds.of_claims_le
    (hclaims : cm'.heldClaims + (next.map Task.claims).getD 0 ≤ cm.heldClaims + task.claims)
    (hkept : cm'.tasks = cm.tasks ∧ cm'.disconnected = cm.disconnected ∧
      cm'.hybridMode = cm.hybridMode ∧ cm'.nodes = cm.nodes)
    (hnext : ∀ node, next ≠ some (.adding node)) : Proceeds cm task cm' next where
  claims_le := hclaims
  tasks_eq := hkept.1
  disconnected_eq := hkept.2.1
  hybridMode_eq := hkept.2.2.1
  nodes _ hnode := .inl (hkept.2.2.2 ▸ hnode)
  next_traced node heq := absurd heq (hnext node)

theorem card_erase_mark (marks : Finset String) (dest : String) :
    (marks.erase dest).card + (decide (dest ∈ marks)).toNat ≤ marks.card := by
  by_cases hdest : dest ∈ marks
  · rw [decide_eq_true hdest, Bool.toNat_true, Finset.card_erase_add_one hdest]
  · rw [decide_eq_false hdest, Finset.erase_eq_of_notMem hdest]
    rfl

theorem traced_connectNode (args : OpenArgs Addr) (classicalRetry : Bool) (addr : Addr)
    (config : TransportConfig V1) :
    (cm.connectNode args classicalRetry addr config).Traced cm.hybridMode where
  transport := by
    apply NodeTransport.traced_make config args.useV2transport
    cases classicalRetry
    · exact .inr ⟨rfl, rfl⟩
    · exact .inl rfl
  cause hcause := absurd rfl hcause
  pending hpending := absurd rfl hpending

theorem proceeds_connected (args : OpenArgs Addr) (manualRetry : Bool) (addr : Addr)
    (config : TransportConfig V1) :
    Proceeds cm (.connecting args manualRetry)
      (cm.connected args (args.hybridClassicalRetry || manualRetry) addr config).1
      (cm.connected args (args.hybridClassicalRetry || manualRetry) addr config).2 where
  claims_le := by
    have hcount : (if args.hybridClassicalRetry || manualRetry then 1 else 0) ≤
        args.hybridClassicalRetry.toNat + manualRetry.toNat := by
      cases args.hybridClassicalRetry <;> cases manualRetry <;> decide
    simp only [connected, heldClaims, Option.map_some, Option.getD_some, Task.claims]
    omega
  tasks_eq := rfl
  disconnected_eq := rfl
  hybridMode_eq := rfl
  nodes _ hnode := .inl hnode
  next_traced node hnext := by
    obtain rfl := Task.adding.inj (Option.some.inj hnext)
    exact traced_connectNode args _ addr config

theorem proceeds_adding (node : Node V1 Addr) :
    Proceeds cm (.adding node) { cm with nodes := cm.nodes ++ [node] } none where
  claims_le := Nat.le_refl _
  tasks_eq := rfl
  disconnected_eq := rfl
  hybridMode_eq := rfl
  nodes other hother := by
    rcases List.mem_append.mp hother with hold | hnew
    · exact .inl hold
    · rw [List.mem_singleton.mp hnew]
      exact .inr rfl
  next_traced _ hnext := by cases hnext

/-- Every step of a call passes its claims on. -/
theorem proceeds_of_advance (hadvance : Advance cm task cm' next) : Proceeds cm task cm' next := by
  cases hadvance with
  | connected args manualRetry addr config => exact proceeds_connected args manualRetry addr config
  | added node => exact proceeds_adding node
  | marked args dest _ =>
    have hcard := card_erase_mark cm.retryDests dest
    apply Proceeds.of_claims_le
    · simp only [heldClaims, Option.map_some, Option.getD_some, Task.claims]
      omega
    · exact ⟨rfl, rfl, rfl, rfl⟩
    · exact fun _ hnext => by cases hnext
  | restored dest =>
    have hcard := Finset.card_insert_le dest cm.retryDests
    apply Proceeds.of_claims_le
    · simp only [heldClaims, Option.map_none, Option.getD_none, Task.claims]
      omega
    · exact ⟨rfl, rfl, rfl, rfl⟩
    · exact fun _ hnext => by cases hnext
  | spliced items =>
    have hcount := retryCount_append cm.reconnections items
    apply Proceeds.of_claims_le
    · simp only [heldClaims, Option.map_none, Option.getD_none, Task.claims]
      omega
    · exact ⟨rfl, rfl, rfl, rfl⟩
    · exact fun _ hnext => by cases hnext
  | refused | checked | unmarked | abandoned | failed =>
    -- the manager stays as it is
    apply Proceeds.of_claims_le
    · simp [Task.claims]
    · exact ⟨rfl, rfl, rfl, rfl⟩
    · exact fun _ hnext => by cases hnext

theorem sum_claims_eraseIdx {index : ℕ} (htask : cm.tasks[index]? = some task) :
    task.claims + ((cm.tasks.eraseIdx index).map Task.claims).sum =
      (cm.tasks.map Task.claims).sum := by
  obtain ⟨hindex, rfl⟩ := List.getElem?_eq_some_iff.mp htask
  rw [← List.sum_cons, ← List.map_cons]
  exact ((List.getElem_cons_eraseIdx_perm hindex).map Task.claims).sum_eq

theorem Accounted.proceed (h : cm.Accounted mode) {index : ℕ}
    (htask : cm.tasks[index]? = some task)
    (hproceeds : Proceeds { cm with tasks := cm.tasks.eraseIdx index } task cm' next) :
    { cm' with tasks := next.toList ++ cm'.tasks }.Accounted mode := by
  apply h.of_le
  · have hsum := sum_claims_eraseIdx htask
    have hnext : (next.toList.map Task.claims).sum = (next.map Task.claims).getD 0 := by
      cases next <;> simp
    have hclaims := hproceeds.claims_le
    simp only [claims, heldClaims, hproceeds.tasks_eq, List.map_append, List.sum_append, hnext]
      at hclaims ⊢
    omega
  · exact hproceeds.disconnected_eq
  · exact hproceeds.hybridMode_eq
  · rintro node (hnode | hnode | hnode)
    · rcases hproceeds.nodes node hnode with hold | rfl
      · exact .inl (.inl hold)
      · exact .inl (.inr (.inl (List.mem_of_getElem? htask)))
    · rcases List.mem_append.mp hnode with hnew | hold
      · have htraced := hproceeds.next_traced node (Option.mem_toList.mp hnew)
        exact .inr (h.hybridMode_eq ▸ htraced)
      · rw [hproceeds.tasks_eq] at hold
        exact .inl (.inr (.inl (List.mem_of_mem_eraseIdx hold)))
    · rw [hproceeds.disconnected_eq] at hnode
      exact .inl (.inr (.inr hnode))

/-! ## Disconnecting -/

theorem Accounted.map_nodes (h : cm.Accounted mode) (f : Node V1 Addr → Node V1 Addr)
    (hf : ∀ node, node.Traced mode → (f node).Traced mode) :
    { cm with nodes := cm.nodes.map f }.Accounted mode := by
  apply h.of_le
  · exact Nat.le_refl _
  · rfl
  · rfl
  · rintro node (hnode | hnode | hnode)
    · obtain ⟨old, hold, rfl⟩ := List.mem_map.mp hnode
      exact .inr (hf old (h.traced old (.inl hold)))
    · exact .inl (.inr (.inl hnode))
    · exact .inl (.inr (.inr hnode))

theorem Accounted.locking (h : cm.Accounted mode) (current : Disconnecting Addr)
    (hcurrent : current.reconnectionsToAdd = []) :
    { cm with disconnecting := some current }.Accounted mode := by
  apply h.of_le
  · simp only [claims, heldClaims, Option.elim_some, hcurrent, retryCount, List.countP_nil]
    omega
  · rfl
  · rfl
  · exact fun node hnode => .inl hnode

theorem Accounted.disconnectNode (h : cm.Accounted mode) {current : Disconnecting Addr}
    (hcurrent : cm.disconnecting = some current) (rest : List ℕ) {node : Node V1 Addr}
    (hnode : node ∈ cm.nodes) : (cm.disconnectNode current rest node).Accounted mode where
  claims_le := by
    have hnew := (h.traced node (.inl hnode)).newClaims_le current.networkActive
    have hmarks := Finset.card_union_le cm.retryDests (node.retryMark current.networkActive)
    have hclaims := h.claims_le
    simp only [claims, heldClaims, ConnMan.disconnectNode, hcurrent, Option.elim_some,
      retryCount_append, List.countP_cons] at hclaims ⊢
    omega
  hybridMode_eq := h.hybridMode_eq
  traced := by
    rintro other (hother | hother | hother)
    · exact h.traced other (.inl (List.mem_filter.mp hother).1)
    · exact h.traced other (.inr (.inl hother))
    · rcases List.mem_cons.mp hother with rfl | hold
      · exact h.traced other (.inl hnode)
      · exact h.traced other (.inr (.inr hold))

theorem Accounted.release (h : cm.Accounted mode) {current : Disconnecting Addr}
    (hcurrent : cm.disconnecting = some current) :
    { cm with
      disconnecting := none
      tasks := .splicing current.reconnectionsToAdd :: cm.tasks }.Accounted mode := by
  apply h.of_le
  · simp only [claims, heldClaims, hcurrent, Option.elim_some, Option.elim_none,
      List.map_cons, List.sum_cons, Task.claims]
    omega
  · rfl
  · rfl
  · rintro node (hnode | hnode | hnode)
    · exact .inl (.inl hnode)
    · rcases List.mem_cons.mp hnode with heq | hold
      · cases heq
      · exact .inl (.inr (.inl hold))
    · exact .inl (.inr (.inr hnode))

/-! ## Runs -/

theorem Accounted.erase_mark (h : cm.Accounted mode) (dest : String)
    (added : List AddedNodeParams) :
    { cm with addedNodeParams := added, retryDests := cm.retryDests.erase dest }.Accounted mode := by
  apply h.of_le
  · have hcard := Finset.card_erase_le (s := cm.retryDests) (a := dest)
    simp only [claims, heldClaims]
    omega
  · rfl
  · rfl
  · exact fun node hnode => .inl hnode

theorem Accounted.accept (h : cm.Accounted mode) (addr : Addr) (config : TransportConfig V1)
    (useV2transport : Bool) :
    { cm with
      lastNodeId := cm.lastNodeId + 1
      tasks := .adding (newNode (cm.lastNodeId + 1) addr "" .inbound
        (.make config useV2transport true cm.hybridMode) false) :: cm.tasks }.Accounted mode := by
  apply h.of_le
  · simp [claims, heldClaims, Task.claims]
  · rfl
  · rfl
  · rintro node (hnode | hnode | hnode)
    · exact .inl (.inl hnode)
    · rcases List.mem_cons.mp hnode with heq | hold
      · obtain rfl := Task.adding.inj heq
        right
        rw [h.hybridMode_eq]
        constructor
        · exact NodeTransport.traced_make config useV2transport (.inr ⟨rfl, rfl⟩)
        · exact fun hcause => absurd rfl hcause
        · exact fun hpending => absurd rfl hpending
      · exact .inl (.inr (.inl hold))
    · exact .inl (.inr (.inr hnode))

/-- **The step.** -/
theorem Accounted.change (h : cm.Accounted mode) (hchange : Change cm cm') : cm'.Accounted mode := by
  cases hchange with
  | called args hretry => exact h.call (by simp [hretry])
  | reconnecting item rest hitems =>
    apply h.call
    simp only [hitems, retryCount, List.countP_cons, ReconnectionInfo.openArgs]
    cases item.hybridClassicalRetry <;> simp
  | advancing index task after next htask hadvance =>
    exact h.proceed htask (proceeds_of_advance hadvance)
  | locking =>
    split_ifs
    · exact h.locking _ rfl
    · have hmarked := h.map_nodes (fun node => { node with fDisconnect := true })
        fun node hnode => ⟨hnode.transport, hnode.cause, hnode.pending⟩
      exact hmarked.locking _ rfl
  | releasing current hcurrent => exact h.release hcurrent
  | skipping current rest hcurrent =>
    apply h.of_le
    · simp only [claims, heldClaims, hcurrent, Option.elim_some]
      exact Nat.le_refl _
    · rfl
    · rfl
    · exact fun node hnode => .inl hnode
  | taking current rest node hcurrent hnode => exact h.disconnectNode hcurrent rest hnode
  | erasing dest params => exact h.erase_mark dest params
  | accepting addr config useV2transport => exact h.accept addr config useV2transport
  | happening id event =>
    apply h.map_nodes
    intro node hnode
    split_ifs
    · exact hnode.step event
    · exact hnode
  | activating active => exact ⟨h.claims_le, h.hybridMode_eq, h.traced⟩
  | idling => exact h

/-- What holds of the classical retries. -/
structure RetriesBounded (cm : ConnMan V1 Addr) : Prop where
  /-- there are no more retries than outbound hybrid sessions that asked for one and that this
  node did not close itself -/
  retries_le : cm.classicalRetries ≤ cm.disconnected.countP Node.lostHybrid
  /-- a retry asks for no other retry -/
  once : ∀ node, cm.HasConnection node → node.classicalRetry = true → node.retryClassical = false
  /-- in require mode there are none -/
  require : cm.hybridMode = .require → cm.classicalRetries = 0
  /-- no transport asks for both kinds of reconnection -/
  exclusive : ∀ node, cm.HasConnection node →
    ¬(node.transport.shouldReconnectV1 = true ∧ node.retryClassical = true)

theorem Accounted.retries_le (h : cm.Accounted mode) :
    cm.classicalRetries ≤ cm.disconnected.countP Node.lostHybrid := by
  have hclaims := h.claims_le
  simp only [claims, heldClaims] at hclaims
  omega

theorem Accounted.retries_of_require (h : cm.Accounted .require) : cm.classicalRetries = 0 := by
  have hnone : cm.disconnected.countP Node.lostHybrid = 0 := by
    apply List.countP_eq_zero.mpr
    intro node hnode
    rw [(h.traced node (.inr (.inr hnode))).lostHybrid_of_require]
    exact Bool.false_ne_true
  have hle := h.retries_le
  omega

/-- **Classical retries.** In every interleaving, whatever the peers and the network do. -/
theorem retriesBounded_of_run (addressing : Addressing Addr) (mode : HybridMode)
    (networkActive : Bool) (events : List (Event V1 Addr)) (cm : ConnMan V1 Addr)
    (hrun : (start mode networkActive).run addressing events = some cm) : cm.RetriesBounded := by
  have h : cm.Accounted mode := by
    apply run_induction _ events (accounted_start mode networkActive) hrun
    intro before after hchange hbefore
    exact hbefore.change hchange
  constructor
  · exact h.retries_le
  · intro node hnode hretry
    exact (h.traced node hnode).retryClassical_of_retry hretry
  · intro hrequire
    have hmode : mode = .require := h.hybridMode_eq.symm.trans hrequire
    subst hmode
    exact h.retries_of_require
  · rintro node hnode ⟨hv1, hstatus⟩
    have hnot := (h.traced node hnode).transport.retryClassical_of_v1 hv1
    rw [Node.retryClassical, hnot] at hstatus
    cases hstatus

/-! ### A peer that sends a broken record -/

/-- A version packet that has the tag and nothing else. -/
def brokenOffer : Bytes :=
  List.replicate ellSwiftSize 2 ++ Bytes.ofAscii "ors" ++ List.replicate 13 0 ++
    encodePacket clearCrypto ⟨[], 0⟩ ⟨[], 0⟩ (hybridTag ++ [hybridVersion]) [] false

/-- One address, on one network. -/
def plainAddressing : Addressing Unit where
  toStringAddrPort _ := "peer"
  sameNetAddr _ _ := true
  isLocal _ := false
  sameService _ _ := false

/-- The four steps of `OpenNetworkConnection` on the newest call. -/
def openSteps : List (Event Unit Unit) :=
  [.proceed 0 false none, .proceed 0 false none,
    .proceed 0 false (some ((), clearConfig true .prefer 1)), .proceed 0 false none]

/-- A manual connection is lost to a broken record and retried. -/
def retryEvents : List (Event Unit Unit) :=
  [.openNetworkConnection () (some "peer") .manual true] ++ openSteps ++
  [.node 1 (.call (.receivedBytes brokenOffer)), .node 1 (.setHybridCloseCause .transport),
    .node 1 .storeHybridCloseCause, .node 1 .disconnect, .disconnectNodes, .disconnectNext,
    .disconnectNext, .proceed 0 false none, .performReconnection] ++ openSteps

theorem brokenOffer_retried : ∃ cm : ConnMan Unit Unit,
    (start .prefer true).run plainAddressing retryEvents = some cm ∧ cm.classicalRetries = 1 ∧
      cm.RetriesBounded := by
  have hretries : ((start .prefer true).run plainAddressing retryEvents).map
      ConnMan.classicalRetries = some 1 := by decide +kernel
  obtain ⟨cm, hrun, hcount⟩ := Option.map_eq_some_iff.mp hretries
  exact ⟨cm, hrun, hcount, retriesBounded_of_run plainAddressing .prefer true retryEvents cm hrun⟩

end ConnMan

end XCoin.Net
