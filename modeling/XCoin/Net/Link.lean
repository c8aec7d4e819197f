import XCoin.Net.Packets
import XCoin.Net.TransportRuns

/-!
# Two honest transports on a link

An initiator and a responder joined by two reliable, in-order byte streams.  Either side
may at any time move some pending bytes to its stream, feed any number of bytes from the
other's stream to `ReceivedBytes`, queue a message or take one.  Calls are atomic: a round
of `ReceivedBytes` touches the send side only under the send lock, and rounds of one call
are calls of their own here, since the link may cut the stream anywhere.

The joint invariant puts each side in step with the other's stream.  From it: only a side
that requires HX1 and meets a peer without it fails; two sides that speak HX1 end up on the
same stage-2 keys and confirm them with the first packet under them; otherwise both stay on
the classical keys; and messages arrive in order and unaltered.
-/

namespace XCoin.Net

open V2Transport HonestPair

variable {V1 : Type}

/-! ## The link -/

/-- The two sides, the bytes on the way from each, and what each has queued and taken. -/
structure Link (V1 : Type) where
  side : Bool → Endpoint V1
  wire : Bool → Bytes
  accepted : Bool → List NetMsg
  delivered : Bool → List (Option NetMsg)

/-- A step of one side. -/
inductive LinkAction where
  | send (side : Bool) (count : ℕ)
  | receive (side : Bool) (count : ℕ)
  | queue (side : Bool) (msg : NetMsg)
  | take (side : Bool)
deriving DecidableEq, Repr

/-- A message that may be queued: a printable type of at most 12 bytes, and contents whose length
fits the length field. -/
def ValidMessage (msg : NetMsg) : Prop :=
  msg.type.length ≤ messageTypeSize ∧ (∀ byte ∈ msg.type, 0x20 ≤ byte ∧ byte ≤ 0x7f) ∧
    (encodeContents msg).length < 2 ^ 24

instance (msg : NetMsg) : Decidable (ValidMessage msg) :=
  inferInstanceAs (Decidable (_ ∧ _ ∧ _))

/-- The bytes that `ReceivedBytes` leaves. -/
def leftBytes : Except (V2Transport V1 × Bytes) (V2Transport V1 × Bytes) → Bytes
  | .error (_, left) => left
  | .ok (_, left) => left

/-- Both transports after their constructors. -/
def Link.new (pair : HonestPair V1) : Link V1 where
  side i := Endpoint.new (pair.config i)
  wire _ := []
  accepted _ := []
  delivered _ := []

/-- What side `i` may put on the wire now: at most `count` of its pending bytes. -/
def Link.outgoing (pair : HonestPair V1) (link : Link V1) (i : Bool) (count : ℕ) : Bytes :=
  (getBytesToSend (pair.config i) false (link.side i).transport).1.take count

/-- What `ReceivedBytes` of side `i` makes of the first `count` bytes on the way to it. -/
def Link.incoming (pair : HonestPair V1) (link : Link V1) (i : Bool) (count : ℕ) :
    Except (V2Transport V1 × Bytes) (V2Transport V1 × Bytes) :=
  receivedBytes (pair.config i) (link.side i).transport ((link.wire (!i)).take count)

/-- Replace the transport of side `i`. -/
def Link.setTransport (link : Link V1) (i : Bool) (t : V2Transport V1) : Link V1 :=
  { link with side := Function.update link.side i { link.side i with transport := t } }

/-- One step; `none` if the interface does not allow it now. -/
def Link.step (pair : HonestPair V1) (link : Link V1) : LinkAction → Option (Link V1)
  | .send i count =>
    some { link.setTransport i (markBytesSent (pair.config i) (link.outgoing pair i count).length
        (link.side i).transport) with
      wire := Function.update link.wire i (link.wire i ++ link.outgoing pair i count) }
  | .receive i count =>
    if (link.side i).rejected then none
    else some
      { link with
        side := Function.update link.side i (endpointAfter (link.incoming pair i count))
        wire := Function.update link.wire (!i)
          (leftBytes (link.incoming pair i count) ++ (link.wire (!i)).drop count) }
  | .queue i msg =>
    if ValidMessage msg then
      match setMessageToSend (pair.config i) msg (link.side i).transport with
      | none => some link
      | some t =>
        some { link.setTransport i t with
          accepted := Function.update link.accepted i (link.accepted i ++ [msg]) }
    else none
  | .take i =>
    if receivedMessageComplete (pair.config i) (link.side i).transport then
      some { link.setTransport i
          (getReceivedMessage (pair.config i) (link.side i).transport).2 with
        delivered := Function.update link.delivered i (link.delivered i ++
          [(getReceivedMessage (pair.config i) (link.side i).transport).1.message]) }
    else none

/-- A sequence of steps. -/
def Link.run (pair : HonestPair V1) (link : Link V1) (actions : List LinkAction) :
    Option (Link V1) :=
  actions.foldlM (Link.step pair) link

/-! ## The joint invariant -/

variable {pair : HonestPair V1} {link link' : Link V1} {packets : Bool → List Packet}
  {t : V2Transport V1} {own : List Packet} {i : Bool} {count : ℕ} {phase : Phase}
  {state : SendState} {unread : Bytes} {msg : NetMsg}

/-- Side `i` has not failed, is in step with the other side's stream, and has passed on the messages
that it read. -/
def Reading (pair : HonestPair V1) (link : Link V1) (packets : Bool → List Packet) (i : Bool) :
    Prop :=
  (link.side i).rejected = false ∧ ∃ phase,
    InStep pair i (link.side i).transport (packets i) (packets (!i)) phase
      (link.wire (!i) ++ pendingBytes (link.side (!i)).transport)
      (link.side (!i)).transport.sendState ∧
    link.delivered i ++ (waitingContents (link.side i).transport).map parseMessage =
      (messageContents (phase.read (packets (!i)))).map parseMessage

/-- Side `i` has refused the session. -/
def HasRefused (pair : HonestPair V1) (link : Link V1) (packets : Bool → List Packet) (i : Bool) :
    Prop :=
  (link.side i).rejected = true ∧ RefusedState pair i (link.side i).transport (packets i)

/-- Both sides with the packets they have sent. -/
structure Joined (pair : HonestPair V1) (link : Link V1) (packets : Bool → List Packet) :
    Prop where
  sends : ∀ i, Sends pair i (link.side i).transport (packets i)
  reads : ∀ i, Reading pair link packets i ∨ HasRefused pair link packets i
  accepted : ∀ i, (link.accepted i).map encodeContents = messageContents (packets i)
  valid : ∀ i, ∀ msg ∈ link.accepted i, ValidMessage msg
  delivered : ∀ i, link.delivered i <+: (messageContents (packets (!i))).map parseMessage

theorem messageContents_isPrefix {read whole : List Packet} (hbegins : read <+: whole) :
    messageContents read <+: messageContents whole :=
  ((hbegins.drop 1).filter _).map _

theorem Phase.read_isPrefix (phase : Phase) (peer : List Packet) : phase.read peer <+: peer := by
  cases phase with
  | packets count => exact List.take_prefix _ _
  | maybeV1 => exact List.nil_prefix
  | key => exact List.nil_prefix
  | garbage => exact List.nil_prefix

/-- What a side has read is not changed by what the other sends later. -/
theorem InStep.peer_grows {side : Bool} {own peer peer' : List Packet} {unread added : Bytes}
    {state state' : SendState} (h : InStep pair side t own peer phase unread state)
    (hbegins : peer <+: peer') (hlog : pair.Log (!side) peer')
    (hstream : pair.stream (!side) peer' state' = pair.stream (!side) peer state ++ added) :
    InStep pair side t own peer' phase (unread ++ added) state' ∧
      phase.read peer' = phase.read peer := by
  have hread : phase.read peer' = phase.read peer ∧
      pair.readBytes (!side) peer' phase = pair.readBytes (!side) peer phase ∧
      Receives pair side t peer' phase := by
    have hreceives := h.receives
    cases phase with
    | maybeV1 => exact ⟨rfl, rfl, hreceives⟩
    | key => exact ⟨rfl, rfl, hreceives⟩
    | garbage => exact ⟨rfl, rfl, hreceives⟩
    | packets count =>
      obtain ⟨hkeyed, haad, hcount, hrest⟩ := hreceives
      obtain ⟨more, rfl⟩ := hbegins
      have htake : (peer ++ more).take count = peer.take count :=
        List.take_append_of_le_length hcount
      have hget {index : ℕ} {packet : Packet} (hpacket : peer[index]? = some packet) :
          (peer ++ more)[index]? = some packet := by
        rw [List.getElem?_append_left (List.getElem?_eq_some_iff.mp hpacket).1, hpacket]
      refine ⟨htake, by rw [readBytes, htake, readBytes], hkeyed, haad,
        hcount.trans (by simp), ?_⟩
      rcases hrest with ⟨hrecv, hframed⟩ | hwaiting
      · refine .inl ⟨hrecv, ?_⟩
        rcases hframed with hshort | ⟨hlong, hrecvL, packet, hpacket, hlen, hlt⟩
        · exact .inl hshort
        · exact .inr ⟨hlong, hrecvL, packet, hget hpacket, hlen, hlt⟩
      · exact .inr { hwaiting with message := ⟨hwaiting.message.1, hget hwaiting.message.2⟩ }
  obtain ⟨hread, hbytes, hreceives⟩ := hread
  refine ⟨⟨h.sends, hreceives, h.sendState, hlog, ?_⟩, hread⟩
  rw [hbytes, hstream, ← h.stream]
  simp only [List.append_assoc]

/-- One side moves: its send side only grows, and it is in step or has refused. -/
theorem Joined.move (h : Joined pair link packets) (i : Bool) (added : Bytes) {e : Endpoint V1}
    (hside : link'.side = Function.update link.side i e) (hsends : Sends pair i e.transport own)
    (hbegins : packets i <+: own)
    (hwire : link'.wire i ++ pendingBytes e.transport =
      link.wire i ++ pendingBytes (link.side i).transport ++ added)
    (hstream : pair.stream i own e.transport.sendState =
      pair.stream i (packets i) (link.side i).transport.sendState ++ added)
    (hreads : Reading pair link' (Function.update packets i own) i ∨
      HasRefused pair link' (Function.update packets i own) i)
    (haccepted : (link'.accepted i).map encodeContents = messageContents own)
    (hvalid : ∀ msg ∈ link'.accepted i, ValidMessage msg)
    (hothers : link'.accepted (!i) = link.accepted (!i) ∧
      link'.delivered (!i) = link.delivered (!i))
    (hdelivered : link'.delivered i <+: (messageContents (packets (!i))).map parseMessage) :
    Joined pair link' (Function.update packets i own) := by
  have hne : (!i) ≠ i := by cases i <;> decide
  have hself : link'.side i = e := by rw [hside, Function.update_self]
  have hother : link'.side (!i) = link.side (!i) := by rw [hside, Function.update_of_ne hne]
  have hpackets : Function.update packets i own i = own := Function.update_self ..
  have hpackets' : Function.update packets i own (!i) = packets (!i) :=
    Function.update_of_ne hne ..
  -- every side is this one or the other
  have hboth {P : Bool → Prop} (hi : P i) (hj : P (!i)) : ∀ k, P k := by
    intro k
    cases i <;> cases k <;> assumption
  refine ⟨hboth ?_ ?_, hboth hreads ?_, hboth ?_ ?_, hboth hvalid ?_, hboth ?_ ?_⟩
  · rw [hself, hpackets]
    exact hsends
  · rw [hother, hpackets']
    exact h.sends (!i)
  · -- the other side reads a stream that has only grown
    have hreads' := h.reads (!i)
    rw [Reading, HasRefused, Bool.not_not] at hreads'
    rw [Reading, HasRefused, Bool.not_not, hself, hother, hpackets, hpackets', hothers.2, hwire]
    rcases hreads' with ⟨hrejected, phase, hstep, hmessages⟩ | hrefused
    · have hlog : pair.Log (!!i) own := by
        rw [Bool.not_not]
        exact hsends.log
      have hgrown := hstep.peer_grows hbegins hlog (by rw [Bool.not_not]; exact hstream)
      refine .inl ⟨hrejected, phase, hgrown.1, ?_⟩
      rw [hgrown.2]
      exact hmessages
    · exact .inr hrefused
  · rw [hpackets]
    exact haccepted
  · rw [hpackets', hothers.1]
    exact h.accepted (!i)
  · rw [hothers.1]
    exact h.valid (!i)
  · rw [hpackets']
    exact hdelivered
  · have hold := h.delivered (!i)
    rw [Bool.not_not] at hold
    rw [Bool.not_not, hpackets, hothers.2]
    exact hold.trans ((messageContents_isPrefix hbegins).map _)

/-! ## Steps -/

theorem joined_new : Joined pair (Link.new pair) fun _ => [] where
  sends _ := sends_new
  reads i := by
    refine .inl ⟨rfl, ?_⟩
    cases i with
    | false =>
      refine ⟨.maybeV1, ⟨sends_new, ⟨rfl, rfl, ⟨rfl, rfl, rfl⟩, show 0 < v1PrefixLen by decide⟩,
        rfl, log_nil, ?_⟩, rfl⟩
      rfl
    | true =>
      refine ⟨.key, ⟨sends_new, ⟨rfl, ⟨rfl, rfl, rfl⟩, show 0 < ellSwiftSize by decide⟩,
        rfl, log_nil, ?_⟩, rfl⟩
      rfl
  accepted _ := rfl
  valid _ := by simp [Link.new]
  delivered _ := List.nil_prefix

theorem Joined.reads_of_view (h : Joined pair link packets) (i : Bool) {e : Endpoint V1}
    (hside : link'.side = Function.update link.side i e) (hwire : link'.wire (!i) = link.wire (!i))
    (hdelivered : link'.delivered i = link.delivered i)
    (hrejected : e.rejected = (link.side i).rejected)
    (hview : receiveView e.transport = receiveView (link.side i).transport)
    (hstate : e.transport.sendState = (link.side i).transport.sendState)
    (hsends : Sends pair i e.transport own)
    (hrefused : RefusedState pair i (link.side i).transport (packets i) →
      RefusedState pair i e.transport own) :
    Reading pair link' (Function.update packets i own) i ∨
      HasRefused pair link' (Function.update packets i own) i := by
  have hne : (!i) ≠ i := by cases i <;> decide
  rw [Reading, HasRefused, hside, Function.update_self, Function.update_of_ne hne,
    Function.update_self, Function.update_of_ne hne, hwire, hdelivered, hrejected]
  rcases h.reads i with ⟨hlive, phase, hstep, hmessages⟩ | ⟨hdead, hstateRefused⟩
  · refine .inl ⟨hlive, phase, hstep.of_sends hsends hview hstate, ?_⟩
    rw [waitingContents_of_view hview]
    exact hmessages
  · exact .inr ⟨hdead, hrefused hstateRefused⟩

theorem receiveView_markBytesSent (config : TransportConfig V1) (count : ℕ)
    (hstate : t.sendState ≠ .v1) : receiveView (markBytesSent config count t) = receiveView t := by
  rw [markBytesSent, if_neg hstate]
  split <;> rfl

theorem RefusedState.markBytesSent (h : RefusedState pair i t own)
    (hcount : count ≤ (pendingBytes t).length) :
    RefusedState pair i (markBytesSent (pair.config i) count t) own := by
  obtain ⟨hsends, -, hstate⟩ := h.sends.markBytesSent hcount
  have hview := receiveView_markBytesSent (pair.config i) count h.sends.not_v1
  have hfailure : (Net.markBytesSent (pair.config i) count t).hybridFailure = t.hybridFailure := by
    rw [Net.markBytesSent, if_neg h.sends.not_v1]
    split <;> rfl
  exact
    { refuses := h.refuses
      failure := hfailure.trans h.failure
      hybridState := (congrArg ReceiveView.hybridState hview).trans h.hybridState
      stage2 := (congrArg ReceiveView.stage2 hview).trans h.stage2
      sends := hsends
      sendState := hstate.trans h.sendState
      recvState := (congrArg ReceiveView.recvState hview).trans h.recvState }

theorem Joined.send (h : Joined pair link packets)
    (hstep : link.step pair (.send i count) = some link') :
    ∃ packets', Joined pair link' packets' := by
  simp only [Link.step, Option.some.injEq] at hstep
  subst hstep
  have hne : (!i) ≠ i := by cases i <;> decide
  have hsends := h.sends i
  have hout : link.outgoing pair i count = (pendingBytes (link.side i).transport).take count := by
    rw [Link.outgoing, getBytesToSend, if_neg hsends.not_v1]
    rfl
  have hcount : (link.outgoing pair i count).length ≤
      (pendingBytes (link.side i).transport).length := by
    rw [hout]
    exact List.length_take_le' _ _
  obtain ⟨hsends', hpending, hstate⟩ := hsends.markBytesSent hcount
  have hview := receiveView_markBytesSent (pair.config i) (link.outgoing pair i count).length
    hsends.not_v1
  have hrest : link.outgoing pair i count ++ (pendingBytes (link.side i).transport).drop
      (link.outgoing pair i count).length = pendingBytes (link.side i).transport := by
    obtain ⟨more, hmore⟩ : link.outgoing pair i count <+: pendingBytes (link.side i).transport := by
      rw [hout]
      exact List.take_prefix _ _
    rw [← hmore, List.drop_left]
  refine ⟨_, h.move i [] rfl hsends' List.prefix_rfl ?_ ?_ ?_ (h.accepted i) (h.valid i)
    ⟨rfl, rfl⟩ (h.delivered i)⟩
  · change Function.update link.wire i _ i ++ pendingBytes (Net.markBytesSent _ _ _) = _
    rw [Function.update_self, hpending, List.append_nil, List.append_assoc, hrest]
  · change pair.stream i (packets i) (Net.markBytesSent _ _ _).sendState = _
    rw [hstate, List.append_nil]
  · exact h.reads_of_view i rfl (Function.update_of_ne hne ..) rfl rfl hview hstate hsends'
      fun hrefused => hrefused.markBytesSent hcount

theorem receiveView_setMessageToSend {config : TransportConfig V1} {t t' : V2Transport V1}
    (hstate : t.sendState ≠ .v1) (hset : setMessageToSend config msg t = some t') :
    receiveView t' = receiveView t ∧ t.sendState = .ready ∧ t'.sendState = .ready := by
  rw [setMessageToSend, if_neg hstate, Option.ite_none_right_eq_some] at hset
  obtain ⟨⟨hready, -⟩, hset⟩ := hset
  cases hset
  rw [sendFirstDecoy]
  split_ifs <;> exact ⟨rfl, hready, hready⟩

theorem messageContents_concat {sent decoys : List Packet} (contents : Bytes) (hsent : sent ≠ [])
    (hdecoys : ∀ decoy ∈ decoys, decoy.ignore = true) :
    messageContents (sent ++ decoys ++ [⟨contents, false⟩]) =
      messageContents sent ++ [contents] := by
  have hone : 1 ≤ sent.length := List.length_pos_iff.mpr hsent
  have hnone : decoys.filter (fun packet => !packet.ignore) = [] := by
    rw [List.filter_eq_nil_iff]
    intro decoy hdecoy
    simp [hdecoys decoy hdecoy]
  rw [messageContents, messageContents, List.append_assoc, List.drop_append_of_le_length hone,
    List.filter_append, List.filter_append, hnone]
  simp

theorem Joined.queue (h : Joined pair link packets)
    (hstep : link.step pair (.queue i msg) = some link') :
    ∃ packets', Joined pair link' packets' := by
  simp only [Link.step, Option.ite_none_right_eq_some] at hstep
  obtain ⟨hvalid, hstep⟩ := hstep
  have hne : (!i) ≠ i := by cases i <;> decide
  have hsends := h.sends i
  cases hset : setMessageToSend (pair.config i) msg (link.side i).transport with
  | none =>
    rw [hset] at hstep
    cases hstep
    exact ⟨packets, h⟩
  | some t =>
    rw [hset] at hstep
    cases hstep
    obtain ⟨hview, hready, hready'⟩ := receiveView_setMessageToSend hsends.not_v1 hset
    obtain ⟨decoys, hdecoys, hsends', hbegins, added, hpending, hstream⟩ :=
      hsends.setMessageToSend hvalid.2.2 hset
    have hpackets : packets i ≠ [] := by
      have hin := hsends.state
      rw [hready] at hin
      exact hin.1
    refine ⟨_, h.move i added rfl hsends' hbegins ?_ hstream ?_ ?_ ?_ ⟨?_, rfl⟩ (h.delivered i)⟩
    · change link.wire i ++ pendingBytes t = _
      rw [hpending, List.append_assoc]
    · refine h.reads_of_view i rfl rfl rfl rfl hview (hready'.trans hready.symm) hsends' ?_
      intro hrefused
      exact absurd (hready.symm.trans hrefused.sendState) (by decide)
    · change (Function.update link.accepted i _ i).map encodeContents = _
      rw [Function.update_self, List.map_append, h.accepted i,
        messageContents_concat _ hpackets hdecoys]
      rfl
    · change ∀ queued ∈ Function.update link.accepted i _ i, ValidMessage queued
      rw [Function.update_self]
      intro queued hqueued
      rcases List.mem_append.mp hqueued with hqueued | hqueued
      · exact h.valid i queued hqueued
      · rw [List.mem_singleton.mp hqueued]
        exact hvalid
    · exact Function.update_of_ne hne ..

/-- What a call to `ReceivedBytes` on side `i` does, for any number of bytes on the way to it. -/
theorem Reading.incoming (h : Reading pair link packets i) (count : ℕ) :
    ∃ phase,
      InStep pair i (link.side i).transport (packets i) (packets (!i)) phase
        (link.wire (!i) ++ pendingBytes (link.side (!i)).transport)
        (link.side (!i)).transport.sendState ∧
      link.delivered i ++ (waitingContents (link.side i).transport).map parseMessage =
        (messageContents (phase.read (packets (!i)))).map parseMessage ∧
      (link.incoming pair i count).Satisfies
        (fun result => ∃ own, RefusedState pair i result.1 own ∧
          GrowsSilently pair i (link.side i).transport (packets i) result.1 own)
        (fun result => Received pair i (link.side i).transport (packets i) (packets (!i)) phase
          ((link.wire (!i)).drop count ++ pendingBytes (link.side (!i)).transport)
          (link.side (!i)).transport.sendState result.1 result.2) := by
  obtain ⟨-, phase, hstep, hmessages⟩ := h
  refine ⟨phase, hstep, hmessages, ?_⟩
  rw [Link.incoming, receivedBytes, if_neg hstep.receives.not_v1]
  have hsplit : link.wire (!i) ++ pendingBytes (link.side (!i)).transport =
      (link.wire (!i)).take count ++
        ((link.wire (!i)).drop count ++ pendingBytes (link.side (!i)).transport) := by
    rw [← List.append_assoc, List.take_append_drop]
  rw [hsplit] at hstep
  exact InStep.receiveLoop _ _ _ _ _ hstep (Nat.le_refl _)

theorem Joined.receive (h : Joined pair link packets)
    (hstep : link.step pair (.receive i count) = some link') :
    ∃ packets', Joined pair link' packets' := by
  simp only [Link.step, Option.ite_none_left_eq_some, Option.some.injEq] at hstep
  obtain ⟨hlive, rfl⟩ := hstep
  have hne : (!i) ≠ i := by cases i <;> decide
  have hreading : Reading pair link packets i := by
    rcases h.reads i with hreading | ⟨hdead, -⟩
    · exact hreading
    · exact absurd hdead hlive
  obtain ⟨phase, hinStep, hmessages, hresult⟩ := hreading.incoming count
  revert hresult
  cases hincoming : link.incoming pair i count with
  | error result =>
    rintro ⟨own, hrefused, ⟨hbegins, added, hpending, hstream⟩, hsilent⟩
    refine ⟨_, h.move i added rfl hrefused.sends hbegins ?_ hstream (.inr ?_) ?_ (h.valid i)
      ⟨rfl, rfl⟩ (h.delivered i)⟩
    · change Function.update link.wire (!i) _ i ++ pendingBytes result.1 = _
      rw [Function.update_of_ne hne.symm, hpending, List.append_assoc]
    · rw [HasRefused]
      simp only [Function.update_self]
      exact ⟨rfl, hrefused⟩
    · rw [hsilent]
      exact h.accepted i
  | ok result =>
    rintro ⟨own, phase', hinStep', ⟨⟨hbegins, added, hpending, hstream⟩, hsilent⟩, -, hmessages'⟩
    refine ⟨_, h.move i added rfl hinStep'.sends hbegins ?_ hstream (.inl ?_) ?_ (h.valid i)
      ⟨rfl, rfl⟩ (h.delivered i)⟩
    · change Function.update link.wire (!i) _ i ++ pendingBytes result.1 = _
      rw [Function.update_of_ne hne.symm, hpending, List.append_assoc]
    · rw [Reading]
      simp only [Function.update_self, Function.update_of_ne hne]
      refine ⟨rfl, phase', ?_, hmessages' _ hmessages⟩
      rw [List.append_assoc]
      exact hinStep'
    · rw [hsilent]
      exact h.accepted i

theorem InStep.taken {side : Bool} {own peer : List Packet}
    (h : InStep pair side t own peer phase unread state) (hready : t.recvState = .appReady) :
    InStep pair side { t with recvDecodeBuffer := [], recvState := .app } own peer phase unread
      state := by
  have hreceives := h.receives
  refine ⟨h.sends.of_eq rfl rfl rfl rfl rfl rfl rfl rfl, ?_, h.sendState, h.log, h.stream⟩
  cases phase with
  | maybeV1 => simp [hreceives.2.1] at hready
  | key => simp [hreceives.1] at hready
  | garbage => simp [hreceives.1] at hready
  | packets count =>
    obtain ⟨hkeyed, haad, hcount, ⟨hrecv, -⟩ | hwaiting⟩ := hreceives
    · rw [hrecv, packetState] at hready
      split_ifs at hready
    · have hlong := hwaiting.message.1
      refine ⟨{ hkeyed with }, haad, hcount, .inl ⟨?_, .inl ⟨?_, hwaiting.recvL⟩⟩⟩
      · rw [packetState, if_neg (by omega)]
      · rw [hwaiting.recvBuffer]
        decide

theorem Joined.take (h : Joined pair link packets) (hstep : link.step pair (.take i) = some link') :
    ∃ packets', Joined pair link' packets' := by
  simp only [Link.step, Option.ite_none_right_eq_some, Option.some.injEq] at hstep
  obtain ⟨hcomplete, rfl⟩ := hstep
  have hne : (!i) ≠ i := by cases i <;> decide
  rcases h.reads i with ⟨hlive, phase, hinStep, hmessages⟩ | ⟨-, hrefused⟩
  · have hv1 := hinStep.receives.not_v1
    rw [receivedMessageComplete, if_neg hv1, decide_eq_true_iff] at hcomplete
    have hnext : (getReceivedMessage (pair.config i) (link.side i).transport).2 =
        { (link.side i).transport with recvDecodeBuffer := [], recvState := .app } := by
      rw [getReceivedMessage, if_neg hv1]
    have hmessage : (getReceivedMessage (pair.config i) (link.side i).transport).1.message =
        parseMessage (link.side i).transport.recvDecodeBuffer := by
      rw [getReceivedMessage, if_neg hv1]
      rfl
    have hsends : Sends pair i
        { (link.side i).transport with recvDecodeBuffer := [], recvState := .app } (packets i) :=
      (h.sends i).of_eq rfl rfl rfl rfl rfl rfl rfl rfl
    have hdelivered : link.delivered i ++ [parseMessage (link.side i).transport.recvDecodeBuffer] =
        (messageContents (phase.read (packets (!i)))).map parseMessage := by
      rw [← hmessages, waitingContents, if_pos hcomplete]
      rfl
    rw [hnext, hmessage]
    refine ⟨_, h.move i [] rfl hsends List.prefix_rfl ?_ ?_ (.inl ?_) (h.accepted i) (h.valid i)
      ⟨rfl, Function.update_of_ne hne ..⟩ ?_⟩
    · rw [List.append_nil]
      rfl
    · rw [List.append_nil]
    · rw [Reading]
      simp only [Link.setTransport, Function.update_self, Function.update_of_ne hne]
      refine ⟨hlive, phase, hinStep.taken hcomplete, ?_⟩
      rw [hdelivered]
      exact List.append_nil _
    · change Function.update link.delivered i _ i <+: _
      rw [Function.update_self, hdelivered]
      exact (messageContents_isPrefix (phase.read_isPrefix _)).map _
  · simp [receivedMessageComplete, hrefused.recvState] at hcomplete

theorem Joined.step (h : Joined pair link packets) {action : LinkAction}
    (hstep : link.step pair action = some link') : ∃ packets', Joined pair link' packets' := by
  cases action with
  | send i count => exact h.send hstep
  | receive i count => exact h.receive hstep
  | queue i msg => exact h.queue hstep
  | take i => exact h.take hstep

theorem Joined.run (actions : List LinkAction) :
    ∀ (link link' : Link V1) (packets : Bool → List Packet), Joined pair link packets →
      link.run pair actions = some link' → ∃ packets', Joined pair link' packets' := by
  induction actions with
  | nil =>
    intro link link' packets h hrun
    cases hrun
    exact ⟨packets, h⟩
  | cons action rest ih =>
    intro link link' packets h hrun
    rw [Link.run, List.foldlM_cons] at hrun
    obtain ⟨middle, hstep, hrest⟩ := Option.bind_eq_some_iff.mp hrun
    obtain ⟨packets', h'⟩ := h.step hstep
    exact ih middle link' packets' h' hrest

/-! ## When all bytes have arrived -/

/-- All that was sent has been read, except by a side that has failed. -/
def Link.Settled (link : Link V1) : Prop :=
  ∀ i, (link.side i).rejected = true ∨
    (link.wire (!i) = [] ∧ pendingBytes (link.side (!i)).transport = [])

/-- The handshake of a side is complete. -/
def Established (t : V2Transport V1) : Prop :=
  t.sendState = .ready ∧ (t.recvState = .app ∨ t.recvState = .appReady)

section Settled

variable {side : Bool} {t : V2Transport V1} {own peer : List Packet} {phase : Phase}
  {state : SendState}

/-- A side that has read all of a stream that has begun has the other side's key. -/
theorem InStep.keyed_of_settled (h : InStep pair side t own peer phase [] state)
    (hbegun : state ≠ .maybeV1) (hv1 : state ≠ .v1) : phase ≠ .maybeV1 ∧ phase ≠ .key := by
  have hstream := congrArg List.length h.stream
  have hkey := pair.length_pubKey (!side)
  have hlong : ellSwiftSize ≤ (pair.stream (!side) peer state).length := by
    cases state with
    | maybeV1 => exact absurd rfl hbegun
    | v1 => exact absurd rfl hv1
    | awaitingKey => rw [HonestPair.stream, List.length_append]; omega
    | awaitingVersion => rw [HonestPair.stream, List.length_append]; omega
    | ready => rw [HonestPair.stream, List.length_append]; omega
  have hsmall : v1PrefixLen < ellSwiftSize := by decide
  constructor
  · rintro rfl
    have hlength := h.receives.2.2.2
    simp only [readBytes, List.nil_append, List.append_nil] at hstream
    omega
  · rintro rfl
    have hlength := h.receives.2.2
    simp only [readBytes, List.nil_append, List.append_nil] at hstream
    omega

theorem InStep.packets_of_settled (h : InStep pair side t own peer phase [] state)
    (hstate : state = .awaitingVersion ∨ state = .ready) : ∃ count, phase = .packets count := by
  have hkeyed := h.keyed_of_settled (by rcases hstate with rfl | rfl <;> decide)
    (by rcases hstate with rfl | rfl <;> decide)
  have hstream := congrArg List.length h.stream
  have hterminator := pair.length_terminator (!side)
  cases phase with
  | maybeV1 => exact absurd rfl hkeyed.1
  | key => exact absurd rfl hkeyed.2
  | garbage =>
    have hlength := h.receives.2.2.2.2
    rcases hstate with rfl | rfl <;>
      · simp only [readBytes, HonestPair.stream, List.length_append, List.append_nil] at hstream
        omega
  | packets count => exact ⟨count, rfl⟩

theorem InStep.count_pos_of_settled (h : InStep pair side t own peer (.packets count) [] state)
    (hpeer : peer ≠ []) (hstate : state = .awaitingVersion ∨ state = .ready) : 1 ≤ count := by
  by_contra hzero
  have hcount : count = 0 := by omega
  subst hcount
  obtain ⟨-, -, -, ⟨-, hframed⟩ | hwaiting⟩ := h.receives
  · have hstream := h.stream
    have hnonempty : t.recvBuffer ≠ [] := by
      intro hnil
      obtain ⟨head, rest, rfl⟩ := List.exists_cons_of_ne_nil hpeer
      have hlength := congrArg List.length hstream
      have hhead := pair.length_encode (!side) 0 head
      have hexpansion : 0 < expansion := by decide
      rcases hstate with rfl | rfl <;>
        · simp only [readBytes, HonestPair.stream, hnil, List.length_append, List.append_nil,
            List.take_zero, Framing.encodeAll_nil, Framing.encodeAll_cons] at hlength
          omega
    obtain ⟨packet, hpacket, hposition⟩ := exists_next_packet (Nat.zero_le _) hnonempty hstream
    have hlength := congrArg List.length hposition
    have hencode := pair.length_encode (!side) 0 packet
    rw [List.append_nil, List.length_append] at hlength
    have hsmall : lengthLen < expansion := by decide
    rcases hframed with ⟨hshort, -⟩ | ⟨-, -, known, hknown, hlen, hlt⟩
    · omega
    · have hsame : known = packet := Option.some.inj (hknown.symm.trans hpacket)
      subst hsame
      omega
  · exact absurd hwaiting.message.1 (by decide)

end Settled

/-! ## What an honest link guarantees -/

/-- The session id that both sides use once their handshakes are complete. -/
def HonestPair.finalSessionId (pair : HonestPair V1) : Bytes :=
  if pair.Hybrid then pair.stage2Keys.sessionId else pair.stage1Keys.sessionId

/-- **The guarantees of an honest link.**  `rejected` and `receives`: a side fails only if it
requires HX1 and the other does not speak it.  `stage2` to `classical`: the keys and the HX1
state of a side.  `sessionId`: both sides end up with one id.  `delivered`: messages arrive in
order and unaltered.  `settles`: when all bytes have arrived, the handshake is over. -/
structure LinkAgrees (pair : HonestPair V1) (link : Link V1) : Prop where
  rejected : ∀ i, (link.side i).rejected = true →
    pair.Refuses i ∧ (link.side i).transport.hybridFailure = some .refused
  receives : ∀ i count, (link.side i).rejected = false → ¬pair.Refuses i →
    ∃ t left, link.incoming pair i count = .ok (t, left) ∧ (left = [] ∨ t.recvState = .appReady)
  stage2 : pair.Hybrid → ∀ i,
    ((link.side i).transport.cipher.stage2 = true ↔ Established (link.side i).transport)
  confirmed : pair.Hybrid → ∀ i,
    ((link.side i).transport.hybridState = .confirmed ↔
      stage2Authenticated (link.side i).transport)
  classical : ¬pair.Hybrid → ∀ i, (link.side i).transport.cipher.stage2 = false
  sessionId : ∀ i, Established (link.side i).transport →
    (link.side i).transport.cipher.sessionId = pair.finalSessionId
  delivered : ∀ i, link.delivered i <+: (link.accepted (!i)).map some
  settles : link.Settled → ∀ i,
    (pair.Refuses i → (link.side i).rejected = true) ∧
    (¬pair.Refuses i → ¬pair.Refuses (!i) → Established (link.side i).transport)

theorem parseMessage_encodeContents (hvalid : ValidMessage msg) :
    parseMessage (encodeContents msg) = some msg := by
  rw [parseMessage, getMessageType_encodeContents hvalid.1 hvalid.2.1]
  rfl

theorem RefusedState.not_hybrid (h : RefusedState pair i t own) : ¬pair.Hybrid :=
  fun hhybrid => ((pair.hybrid_iff i).mp hhybrid).2 h.refuses.2

theorem RefusedState.not_established (h : RefusedState pair i t own) : ¬Established t := by
  intro hestablished
  exact absurd (h.sendState.symm.trans hestablished.1) (by decide)

section Guarantees

variable {side : Bool} {t : V2Transport V1} {own peer : List Packet} {phase : Phase}
  {state : SendState} {unread : Bytes}

theorem InStep.established (h : InStep pair side t own peer (.packets (count + 1)) unread state) :
    Established t := by
  refine ⟨h.sendState, ?_⟩
  obtain ⟨-, -, -, ⟨hrecv, -⟩ | hwaiting⟩ := h.receives
  · exact .inl hrecv
  · exact .inr hwaiting.recvState

theorem Fresh.not_authenticated (h : Fresh t) : ¬stage2Authenticated t := by
  rintro ⟨packet, hpacket, -⟩
  rw [h.opened] at hpacket
  cases hpacket

variable (h : InStep pair side t own peer phase unread state)

include h

/-- The handshake of a side is complete once it has read the other's version packet. -/
theorem InStep.packets_of_established (hestablished : Established t) :
    ∃ count, phase = .packets (count + 1) := by
  have hrecv := hestablished.2
  have hreceives := h.receives
  cases phase with
  | maybeV1 =>
    rw [hreceives.2.1] at hrecv
    simp at hrecv
  | key =>
    rw [hreceives.1] at hrecv
    simp at hrecv
  | garbage =>
    rw [hreceives.1] at hrecv
    simp at hrecv
  | packets count =>
    cases count with
    | zero =>
      obtain ⟨-, -, -, ⟨hversion, -⟩ | hwaiting⟩ := hreceives
      · rw [hversion] at hrecv
        simp [packetState] at hrecv
      · exact absurd hwaiting.message.1 (by decide)
    | succ count => exact ⟨count, rfl⟩

theorem InStep.fresh_or_keyed :
    Fresh t ∨ ∃ count, Keyed pair side t count ∧ (1 ≤ count ↔ Established t) := by
  have hreceives := h.receives
  have hestablished := h.packets_of_established
  cases phase with
  | maybeV1 => exact .inl hreceives.2.2.1
  | key => exact .inl hreceives.2.1
  | garbage =>
    refine .inr ⟨0, hreceives.2.1, fun hpos => absurd hpos (by decide), fun hdone => ?_⟩
    obtain ⟨count, hphase⟩ := hestablished hdone
    cases hphase
  | packets count =>
    refine .inr ⟨count, hreceives.1, fun hpos => ?_, fun hdone => ?_⟩
    · obtain ⟨previous, rfl⟩ : ∃ previous, count = previous + 1 := ⟨count - 1, by omega⟩
      exact h.established
    · obtain ⟨previous, hphase⟩ := hestablished hdone
      cases hphase
      exact Nat.le_add_left 1 previous

theorem InStep.not_established_of_fresh (hfresh : Fresh t) (hhybrid : pair.Hybrid) :
    ¬Established t := by
  intro hdone
  obtain ⟨count, rfl⟩ := h.packets_of_established hdone
  have hkeyed := h.receives.1.stage2.mpr ⟨hhybrid, Nat.le_add_left 1 count⟩
  rw [hfresh.stage2] at hkeyed
  cases hkeyed

theorem InStep.stage2_iff (hhybrid : pair.Hybrid) : t.cipher.stage2 = true ↔ Established t := by
  rcases h.fresh_or_keyed with hfresh | ⟨count, hkeyed, hcount⟩
  · have hnot := h.not_established_of_fresh hfresh hhybrid
    simp [hfresh.stage2, hnot]
  · rw [hkeyed.stage2, ← hcount]
    exact and_iff_right hhybrid

theorem InStep.confirmed_iff (hhybrid : pair.Hybrid) :
    t.hybridState = .confirmed ↔ stage2Authenticated t := by
  rcases h.fresh_or_keyed with hfresh | ⟨count, hkeyed, -⟩
  · simp [hfresh.hybridState, hfresh.not_authenticated]
  · rw [hkeyed.authenticated, hkeyed.hybridState ((pair.hybrid_iff side).mp hhybrid).1,
      hybridStateAt, if_pos hhybrid]
    -- no packet, the version packet, and the packets under stage-2 keys
    rcases count with _ | _ | previous
    · simp
    · simp
    · simp [hhybrid]

theorem InStep.stage2_eq_false (hclassical : ¬pair.Hybrid) : t.cipher.stage2 = false := by
  rcases h.fresh_or_keyed with hfresh | ⟨count, hkeyed, -⟩
  · exact hfresh.stage2
  · refine Bool.eq_false_iff.mpr fun hstage2 => ?_
    exact hclassical (hkeyed.stage2.mp hstage2).1

theorem InStep.sessionId_eq (hestablished : Established t) :
    t.cipher.sessionId = pair.finalSessionId := by
  obtain ⟨count, rfl⟩ := h.packets_of_established hestablished
  rw [h.receives.1.sessionId, sessionIdAt, finalSessionId]
  by_cases hhybrid : pair.Hybrid
  · rw [if_pos hhybrid, if_pos ⟨hhybrid, Nat.le_add_left 1 count⟩]
  · rw [if_neg hhybrid, if_neg fun hstage2 => hhybrid hstage2.1]

theorem InStep.not_refuses (hestablished : Established t) : ¬pair.Refuses side := by
  obtain ⟨count, rfl⟩ := h.packets_of_established hestablished
  exact h.receives.1.allowed (Nat.le_add_left 1 count)

end Guarantees

theorem InStep.begun {own peer : List Packet} (h : InStep pair true t own peer phase unread state) :
    t.sendState ≠ .maybeV1 := by
  have hreceives := h.receives
  rw [h.sendState]
  cases phase with
  | maybeV1 => exact absurd hreceives.1 (by decide)
  | key => exact SendState.noConfusion
  | garbage => cases pair.mode true <;> decide
  | packets count =>
    cases count with
    | zero => cases pair.mode true <;> decide
    | succ count => exact SendState.noConfusion

theorem InStep.sendState_of_keyed {side : Bool} {own peer : List Packet}
    (h : InStep pair side t own peer phase unread state)
    (hkeyed : phase ≠ .maybeV1 ∧ phase ≠ .key) :
    t.sendState = .awaitingVersion ∨ t.sendState = .ready := by
  rw [h.sendState]
  cases phase with
  | maybeV1 => exact absurd rfl hkeyed.1
  | key => exact absurd rfl hkeyed.2
  | garbage => cases pair.mode side <;> decide
  | packets count =>
    cases count with
    | zero => cases pair.mode side <;> decide
    | succ count => exact .inr rfl

/-- If neither side has failed and all bytes have arrived, both handshakes are complete: the
responder has the initiator's key, so the initiator has the responder's version packet, so the
responder has the initiator's. -/
theorem Joined.established (h : Joined pair link packets) (hsettled : link.Settled)
    (hreads : ∀ i, Reading pair link packets i) (i : Bool) :
    Established (link.side i).transport := by
  have hall (j : Bool) : ∃ phase,
      InStep pair j (link.side j).transport (packets j) (packets (!j)) phase []
        (link.side (!j)).transport.sendState := by
    obtain ⟨hfine, phase, hstep, -⟩ := hreads j
    rcases hsettled j with hrejected | ⟨hwire, hpending⟩
    · simp [hfine] at hrejected
    · rw [hwire, hpending] at hstep
      exact ⟨phase, hstep⟩
  obtain ⟨phaseI, hinitiator⟩ := hall true
  obtain ⟨phaseR, hresponder⟩ := hall false
  have hkeyed := hresponder.keyed_of_settled hinitiator.begun (h.sends true).not_v1
  have hstateR := hresponder.sendState_of_keyed hkeyed
  have hsentR : packets false ≠ [] := by
    have hin := (h.sends false).state
    rcases hstateR with hstate | hstate
    · rw [hstate] at hin
      rw [hin.2.2]
      exact List.cons_ne_nil _ _
    · rw [hstate] at hin
      exact hin.1
  obtain ⟨countI, rfl⟩ := hinitiator.packets_of_settled hstateR
  have hcountI := hinitiator.count_pos_of_settled hsentR hstateR
  obtain ⟨previousI, rfl⟩ : ∃ previous, countI = previous + 1 := ⟨countI - 1, by omega⟩
  have hreadyI : (link.side true).transport.sendState = .ready := hinitiator.established.1
  have hsentI : packets true ≠ [] := by
    have hin := (h.sends true).state
    rw [hreadyI] at hin
    exact hin.1
  obtain ⟨countR, rfl⟩ := hresponder.packets_of_settled (.inr hreadyI)
  have hcountR := hresponder.count_pos_of_settled hsentI (.inr hreadyI)
  obtain ⟨previousR, rfl⟩ : ∃ previous, countR = previous + 1 := ⟨countR - 1, by omega⟩
  cases i with
  | false => exact hresponder.established
  | true => exact hinitiator.established

theorem Joined.settles (h : Joined pair link packets) (hsettled : link.Settled) (i : Bool) :
    (pair.Refuses i → (link.side i).rejected = true) ∧
    (¬pair.Refuses i → ¬pair.Refuses (!i) → Established (link.side i).transport) := by
  have hreads (j : Bool) (hnot : ¬pair.Refuses j) : Reading pair link packets j :=
    (h.reads j).resolve_right fun hrefused => hnot hrefused.2.refuses
  have hboth (hown : Reading pair link packets i) (hother : Reading pair link packets (!i)) :
      Established (link.side i).transport := by
    refine h.established hsettled (fun j => ?_) i
    cases i <;> cases j <;> assumption
  constructor
  · intro hrefuses
    have hother : ¬pair.Refuses (!i) := by
      intro hboth
      simp [Refuses, hrefuses.2] at hboth
    rcases h.reads i with hreading | hrefused
    · have hestablished := hboth hreading (hreads (!i) hother)
      obtain ⟨-, phase, hstep, -⟩ := hreading
      exact absurd hrefuses (hstep.not_refuses hestablished)
    · exact hrefused.1
  · intro hown hother
    exact hboth (hreads i hown) (hreads (!i) hother)

theorem Joined.agrees (h : Joined pair link packets) : LinkAgrees pair link where
  rejected i hrejected := by
    rcases h.reads i with hreading | hrefused
    · simp [hreading.1] at hrejected
    · exact ⟨hrefused.2.refuses, hrefused.2.failure⟩
  receives i count _ hnot := by
    have hreading := (h.reads i).resolve_right fun hrefused => hnot hrefused.2.refuses
    obtain ⟨phase, -, -, hincoming⟩ := hreading.incoming count
    revert hincoming
    cases link.incoming pair i count with
    | error result =>
      rintro ⟨own, hrefused, -⟩
      exact absurd hrefused.refuses hnot
    | ok result =>
      rintro ⟨own, phase', -, -, hleft, -⟩
      exact ⟨result.1, result.2, rfl, hleft⟩
  stage2 hhybrid i := by
    rcases h.reads i with ⟨-, phase, hstep, -⟩ | hrefused
    · exact hstep.stage2_iff hhybrid
    · exact absurd hhybrid hrefused.2.not_hybrid
  confirmed hhybrid i := by
    rcases h.reads i with ⟨-, phase, hstep, -⟩ | hrefused
    · exact hstep.confirmed_iff hhybrid
    · exact absurd hhybrid hrefused.2.not_hybrid
  classical hclassical i := by
    rcases h.reads i with ⟨-, phase, hstep, -⟩ | hrefused
    · exact hstep.stage2_eq_false hclassical
    · exact hrefused.2.stage2
  sessionId i hestablished := by
    rcases h.reads i with ⟨-, phase, hstep, -⟩ | hrefused
    · exact hstep.sessionId_eq hestablished
    · exact absurd hestablished hrefused.2.not_established
  delivered i := by
    have hparsed : (link.accepted (!i)).map (parseMessage ∘ encodeContents) =
        (link.accepted (!i)).map some :=
      List.map_congr_left fun msg hmsg => parseMessage_encodeContents (h.valid (!i) msg hmsg)
    rw [← hparsed, ← List.map_map, h.accepted]
    exact h.delivered i
  settles hsettled i := h.settles hsettled i

/-- **Two honest transports agree.**  Whatever the modes and however the two byte streams are
interleaved and cut, the link keeps the guarantees of `LinkAgrees`. -/
theorem honest_link_agrees (pair : HonestPair V1) (actions : List LinkAction) (link : Link V1)
    (hrun : (Link.new pair).run pair actions = some link) : LinkAgrees pair link := by
  obtain ⟨packets, hjoined⟩ := Joined.run actions _ _ _ joined_new hrun
  exact hjoined.agrees

/-- Two transports with readable parts. -/
def clearPair (mode : Bool → HybridMode) : HonestPair Unit where
  crypto := clearCrypto
  messageStart := [5, 6, 7, 8]
  mode := mode
  kem _ := clearKem
  pubKey side := List.replicate ellSwiftSize (if side then 1 else 2)
  ecdh _ _ := List.replicate 32 9
  garbage side := if side then [1, 1] else [2, 2]
  v1 := closedV1
  ecdhSecret := List.replicate 32 9
  keyPair := clearKem.keygen.toOption.get rfl
  encapsulation := (clearKem.encaps []).toOption.get rfl
  length_messageStart := rfl
  length_pubKey _ := List.length_replicate
  length_garbage side := by cases side <;> decide
  ecdh_agree _ := rfl
  keygen := rfl
  checkEncapsKey := rfl
  encaps := rfl
  decaps := rfl
  lengthCrypt_lengthCrypt _ _ _ := rfl
  aeadDecrypt_aeadEncrypt _ _ _ _ := by simp [clearCrypto]
  no_early_terminator := by decide
  not_v1 := by decide

/-- A handshake in which both sides speak HX1, cut inside the responder's key, and one message from
the initiator. -/
def hybridSession : List LinkAction :=
  [.send true 100, .receive false 7, .receive false 93, .send false 40, .receive true 40,
    .send false 2000, .receive true 2000, .send true 2000, .receive false 2000,
    .queue true ⟨Bytes.ofAscii "ping", [1]⟩, .send true 100, .receive false 100, .take false,
    .send false 2000, .receive true 2000]

theorem hybridSession_agrees :
    ∃ link, (Link.new (clearPair fun _ => .prefer)).run (clearPair fun _ => .prefer)
        hybridSession = some link ∧
      link.delivered false = [some ⟨Bytes.ofAscii "ping", [1]⟩] ∧
      (∀ i, (link.side i).transport.hybridState = .confirmed) ∧
      LinkAgrees (clearPair fun _ => .prefer) link := by
  -- The session is evaluated once, for all that is read off its last state.
  have hsession : ((Link.new (clearPair fun _ => .prefer)).run (clearPair fun _ => .prefer)
      hybridSession).any (fun link =>
        decide (link.delivered false = [some ⟨Bytes.ofAscii "ping", [1]⟩] ∧
          ∀ i, (link.side i).transport.hybridState = .confirmed)) = true := by
    decide +kernel
  obtain ⟨link, hrun, hlast⟩ := (Option.any_eq_true _ _).mp hsession
  obtain ⟨hdelivered, hconfirmed⟩ := of_decide_eq_true hlast
  exact ⟨link, hrun, hdelivered, hconfirmed, honest_link_agrees _ hybridSession _ hrun⟩

end XCoin.Net
