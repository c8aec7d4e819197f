import XCoin.Net.ReceiveSteps
import XCoin.Net.Sending

/-!
# The bytes to send are a stream

The contract of `Transport::GetBytesToSend`: what it returns is a stream which is only
ever appended to, and `MarkBytesSent` pops bytes off its front.  The transport is driven
by any sequence of calls, and a `Wire` remembers what its caller knows: the bytes that
were marked sent, and what the last `GetBytesToSend` returned.  `MarkBytesSent` reports on
those bytes, so that a second report is about what the first one left of them.

A step that does not fall back to v1 appends to the send buffer (`Extends`); the one
function that overwrites it, `StartSendingHandshake`, is called while it is empty.
-/

namespace XCoin.Net

open V2Transport

variable {V1 : Type} {config : TransportConfig V1} {t t' t'' : V2Transport V1}

/-! ## Steps append -/

/-- If `t'` is no v1 connection, neither is `t`, and the send buffer was appended to. -/
def Extends (t t' : V2Transport V1) : Prop :=
  t'.sendState ≠ .v1 → t.sendState ≠ .v1 ∧ ∃ added, Appends t t' added

theorem Extends.refl (t : V2Transport V1) : Extends t t :=
  fun hv2 => ⟨hv2, [], rfl, (List.append_nil _).symm⟩

theorem Extends.trans (hfirst : Extends t t') (hsecond : Extends t' t'') : Extends t t'' := by
  intro hv2
  obtain ⟨hv2', added', hadded'⟩ := hsecond hv2
  obtain ⟨hv2'', added, hadded⟩ := hfirst hv2'
  refine ⟨hv2'', added ++ added', hadded'.sendPos.trans hadded.sendPos, ?_⟩
  rw [hadded'.sendBuffer, hadded.sendBuffer, List.append_assoc]

theorem Extends.of_append (hv2 : t.sendState ≠ .v1) (added : Bytes) (hpos : t'.sendPos = t.sendPos)
    (hbuffer : t'.sendBuffer = t.sendBuffer ++ added) : Extends t t' :=
  fun _ => ⟨hv2, added, hpos, hbuffer⟩

theorem Extends.of_eq (hstate : t'.sendState = t.sendState) (hpos : t'.sendPos = t.sendPos)
    (hbuffer : t'.sendBuffer = t.sendBuffer) : Extends t t' := by
  intro hv2
  rw [hstate] at hv2
  exact ⟨hv2, [], hpos, by rw [hbuffer, List.append_nil]⟩

/-- The send side of a transport between two calls. -/
structure SendsInOrder (t : V2Transport V1) : Prop where
  pos : t.sendPos ≤ t.sendBuffer.length
  /-- as long as the peer may speak v1, nothing is sent -/
  maybeV1 : t.recvState = .keyMaybeV1 → t.sendState = .maybeV1 ∧ t.sendBuffer = []
  v1 : t.sendState = .v1 → t.recvState = .v1

theorem sendsInOrder_new : SendsInOrder (V2Transport.new config) := by
  cases hinitiating : config.initiating <;>
    constructor <;>
    simp [V2Transport.new, startSendingHandshake, hinitiating]

theorem SendsInOrder.not_v1 (h : SendsInOrder t) (hrecv : t.recvState ≠ .v1) :
    t.sendState ≠ .v1 :=
  fun hsend => hrecv (h.v1 hsend)

theorem SendsInOrder.pos_of_maybeV1 (h : SendsInOrder t) (hrecv : t.recvState = .keyMaybeV1) :
    t.sendPos = 0 := by
  have hpos := h.pos
  rw [(h.maybeV1 hrecv).2] at hpos
  exact Nat.le_zero.mp hpos

theorem SendsInOrder.of_extends (h : SendsInOrder t) (hextends : Extends t t')
    (hsend : t'.sendState ≠ .v1) (hrecv : t'.recvState ≠ .keyMaybeV1) : SendsInOrder t' where
  pos := by
    obtain ⟨-, added, hadded⟩ := hextends hsend
    exact hadded.pos h.pos
  maybeV1 hmaybe := absurd hmaybe hrecv
  v1 hv1 := absurd hv1 hsend

/-! ## Rounds of the receive loop -/

/-- A v2 connection stays one, in the same receive state. -/
structure AppendsInV2 (t t' : V2Transport V1) : Prop where
  extends_ : Extends t t'
  sendState : t'.sendState ≠ .v1
  recvState : t'.recvState = t.recvState

theorem appendsInV2_declineHybrid (hv2 : t.sendState ≠ .v1) :
    AppendsInV2 t (declineHybrid config { t with hybridTagSeen := false }) := by
  -- only the initiator still has its version packet to send
  cases hinitiating : config.initiating with
  | false =>
    have hextends : Extends t (declineHybrid config { t with hybridTagSeen := false }) := by
      simp only [declineHybrid, hinitiating]
      exact .of_append hv2 [] rfl (List.append_nil _).symm
    refine ⟨hextends, ?_, ?_⟩ <;> simp [declineHybrid, hinitiating, countHybrid]
  | true =>
    have hextends : Extends t (declineHybrid config { t with hybridTagSeen := false }) := by
      simp only [declineHybrid, hinitiating]
      exact .of_append hv2 _ rfl rfl
    refine ⟨hextends, ?_, ?_⟩ <;>
      simp [declineHybrid, hinitiating, countHybrid, sendVersion, sendPacket]

theorem VersionUsed.extends_ {result : Except (V2Transport V1) (V2Transport V1)}
    (hused : VersionUsed config t result) (hv2 : t.sendState ≠ .v1) :
    result.Satisfies (AppendsInV2 t) (AppendsInV2 t) := by
  cases hused with
  | declined => exact appendsInV2_declineHybrid hv2
  | refused | failed | sealedInVain => exact ⟨.of_eq rfl rfl rfl, hv2, rfl⟩
  | answered | confirmed => exact ⟨.of_append hv2 _ rfl rfl, SendState.noConfusion, rfl⟩

/-- What holds after each round, seen from the beginning of a call. -/
structure StillExtends (t t' : V2Transport V1) : Prop where
  sendsInOrder : SendsInOrder t'
  extends_ : Extends t t'

theorem SendsInOrder.still (h : SendsInOrder t) (hextends : Extends t t')
    (hsend : t'.sendState ≠ .v1) (hrecv : t'.recvState ≠ .keyMaybeV1) : StillExtends t t' where
  sendsInOrder := h.of_extends hextends hsend hrecv
  extends_ := hextends

/-- **A round appends.** -/
theorem SendsInOrder.processed {result : Except (V2Transport V1) (V2Transport V1)}
    (h : SendsInOrder t) (hprocessed : Processed config t result) :
    result.Satisfies (StillExtends t) (StillExtends t) := by
  have hv2 (state : RecvState) (hrecv : t.recvState = state) (hstate : state ≠ .v1) :
      t.sendState ≠ .v1 := h.not_v1 (hrecv ▸ hstate)
  cases hprocessed with
  | waits | rejects => exact ⟨h, .refl t⟩
  | starts hrecv =>
    have hbuffer : t.startV2.sendBuffer =
        t.sendBuffer ++ (t.cipher.ourPubKey ++ t.sendGarbage) := by
      rw [(h.maybeV1 hrecv).2, List.nil_append]
      rfl
    exact h.still (.of_append (hv2 _ hrecv (by decide)) _ rfl hbuffer)
      SendState.noConfusion RecvState.noConfusion
  | refusesV1 => exact ⟨{ h with }, .of_eq rfl rfl rfl⟩
  | fallsBack hrecv =>
    exact ⟨⟨(h.pos_of_maybeV1 hrecv).le, RecvState.noConfusion, fun _ => rfl⟩,
      fun hv2 => absurd rfl hv2⟩
  | keyClassical hrecv =>
    exact h.still (.of_append (hv2 _ hrecv (by decide)) _ rfl (List.append_assoc ..))
      SendState.noConfusion RecvState.noConfusion
  | keyInitiator hrecv =>
    exact h.still (.of_append (hv2 _ hrecv (by decide)) _ rfl rfl)
      SendState.noConfusion RecvState.noConfusion
  | keygenFails hrecv =>
    exact h.still (.of_eq rfl rfl rfl) (hv2 _ hrecv (by decide)) RecvState.noConfusion
  | offers keyPair hrecv =>
    exact h.still (.of_append (hv2 _ hrecv (by decide)) _ rfl (List.append_assoc ..))
      SendState.noConfusion RecvState.noConfusion
  | garbageEnds garbage hrecv =>
    exact h.still (.of_eq rfl rfl rfl) (hv2 _ hrecv (by decide)) RecvState.noConfusion
  | lengthRead | lengthRejected | lengthFails | packetRejected | packetFails | decoy =>
    exact ⟨{ h with }, .of_eq rfl rfl rfl⟩
  | message contents hrecv =>
    exact h.still (.of_eq rfl rfl rfl) (hv2 _ hrecv (by decide)) RecvState.noConfusion
  | versionIgnored contents hrecv =>
    exact h.still (.of_eq rfl rfl rfl) (hv2 _ hrecv (by decide)) RecvState.noConfusion
  | versionFails contents t' hrecv _ hused =>
    have hopened : Extends t (openPacket config contents t) := .of_eq rfl rfl rfl
    have hversion : AppendsInV2 (openPacket config contents t) t' :=
      hused.extends_ (hv2 _ hrecv (by decide))
    refine h.still (hopened.trans hversion.extends_) hversion.sendState ?_
    rw [hversion.recvState, openPacket, hrecv]
    exact RecvState.noConfusion
  | versionDone contents t' hrecv _ hused =>
    have hopened : Extends t (openPacket config contents t) := .of_eq rfl rfl rfl
    have hversion : AppendsInV2 (openPacket config contents t) t' :=
      hused.extends_ (hv2 _ hrecv (by decide))
    exact h.still ((hopened.trans hversion.extends_).trans (.of_eq rfl rfl rfl))
      hversion.sendState RecvState.noConfusion

theorem SendsInOrder.receivedBytes (h : SendsInOrder t) (bytes : Bytes) :
    StillExtends t (endpointAfter (receivedBytes config t bytes)).transport := by
  apply receivedBytes_satisfies (P := StillExtends t)
  · intro bytes middle hmiddle
    exact ⟨{ hmiddle.sendsInOrder with }, hmiddle.extends_.trans (.of_eq rfl rfl rfl)⟩
  · intro middle hmiddle
    have hround := hmiddle.sendsInOrder.processed (processed_processReceived config middle)
    have hnext (after : V2Transport V1) (hafter : StillExtends middle after) :
        StillExtends t after := ⟨hafter.sendsInOrder, hmiddle.extends_.trans hafter.extends_⟩
    exact hround.imp hnext hnext
  · intro middle v1 _ hmiddle
    exact ⟨{ hmiddle.sendsInOrder with }, hmiddle.extends_.trans (.of_eq rfl rfl rfl)⟩
  · exact ⟨h, .refl t⟩

/-! ## The other calls -/

theorem SendsInOrder.getReceivedMessage (h : SendsInOrder t) :
    StillExtends t (getReceivedMessage config t).2 := by
  by_cases hv1 : t.recvState = .v1
  · rw [Net.getReceivedMessage, if_pos hv1]
    exact ⟨{ h with }, .of_eq rfl rfl rfl⟩
  · rw [Net.getReceivedMessage, if_neg hv1]
    exact h.still (.of_eq rfl rfl rfl) (h.not_v1 hv1) RecvState.noConfusion

theorem appendsInV2_sendFirstDecoy (hv2 : t.sendState ≠ .v1) (contents : Bytes) :
    AppendsInV2 t (sendFirstDecoy config contents t) := by
  rw [sendFirstDecoy]
  split_ifs
  · exact ⟨.of_append hv2 _ rfl rfl, hv2, rfl⟩
  · exact ⟨.of_eq rfl rfl rfl, hv2, rfl⟩
  · exact ⟨.refl t, hv2, rfl⟩

theorem SendsInOrder.setMessageToSend (h : SendsInOrder t) (msg : NetMsg) :
    StillExtends t ((setMessageToSend config msg t).getD t) := by
  rw [Net.setMessageToSend]
  split_ifs with hv1 hready
  · cases config.v1.setMessageToSend t.v1Fallback msg with
    | none => exact ⟨h, .refl t⟩
    | some v1 => exact ⟨{ h with }, .of_eq rfl rfl rfl⟩
  · have hdecoy : AppendsInV2 t (sendFirstDecoy config (encodeContents msg) t) :=
      appendsInV2_sendFirstDecoy hv1 _
    have hmessage : Extends (sendFirstDecoy config (encodeContents msg) t)
        { (sendFirstDecoy config (encodeContents msg) t).sendPacket config.crypto
            (encodeContents msg) [] false with sendType := msg.type } :=
      .of_append hdecoy.sendState _ rfl rfl
    refine h.still (hdecoy.extends_.trans hmessage) hdecoy.sendState ?_
    intro hrecv
    have hmaybe := (h.maybeV1 (hdecoy.recvState.symm.trans hrecv)).1
    rw [hready.1] at hmaybe
    cases hmaybe
  · exact ⟨h, .refl t⟩

theorem pendingBytes_markBytesSent (hv2 : t.sendState ≠ .v1) (bytesSent : ℕ) :
    pendingBytes (markBytesSent config bytesSent t) = (pendingBytes t).drop bytesSent := by
  rw [markBytesSent, if_neg hv2, pendingBytes, pendingBytes, List.drop_drop]
  split_ifs with hall
  · rw [hall, List.drop_length]
    rfl
  · rfl

theorem SendsInOrder.markBytesSent (h : SendsInOrder t) {bytesSent : ℕ}
    (hsent : t.sendState ≠ .v1 → bytesSent ≤ (pendingBytes t).length) :
    SendsInOrder (markBytesSent config bytesSent t) ∧
      (markBytesSent config bytesSent t).sendState = t.sendState := by
  rw [Net.markBytesSent]
  split_ifs with hv1 hall
  · exact ⟨{ h with }, rfl⟩
  · exact ⟨⟨Nat.zero_le _, fun hrecv => ⟨(h.maybeV1 hrecv).1, rfl⟩, h.v1⟩, rfl⟩
  · have hpos : t.sendPos + bytesSent ≤ t.sendBuffer.length := by
      have hle := hsent hv1
      have hbound := h.pos
      rw [pendingBytes, List.length_drop] at hle
      omega
    exact ⟨⟨hpos, h.maybeV1, h.v1⟩, rfl⟩

/-! ## What the caller sees -/

/-- A transport, and what the calls so far have told about its bytes. -/
structure Wire (V1 : Type) where
  endpoint : Endpoint V1
  /-- the bytes that were marked sent -/
  sent : Bytes
  /-- what the last `GetBytesToSend` returned, without what was marked sent since -/
  returned : Bytes

/-- Nothing is sent yet. -/
def Wire.new (config : TransportConfig V1) : Wire V1 := ⟨.new config, [], []⟩

/-- A call of the transport interface. -/
inductive WireCall where
  | receivedBytes (bytes : Bytes)
  | getReceivedMessage
  | setMessageToSend (msg : NetMsg)
  | getBytesToSend (haveNextMessage : Bool)
  | markBytesSent (bytesSent : ℕ)
deriving DecidableEq, Repr

namespace Wire

variable {w w' : Wire V1}

/-- A call that does not concern the bytes to send. -/
def pass (config : TransportConfig V1) (w : Wire V1) (call : TransportCall) : Option (Wire V1) :=
  (w.endpoint.call config call).map fun endpoint => { w with endpoint := endpoint }

/-- One call; no more bytes may be marked sent than were returned. -/
def call (config : TransportConfig V1) (w : Wire V1) : WireCall → Option (Wire V1)
  | .receivedBytes bytes => w.pass config (.receivedBytes bytes)
  | .getReceivedMessage => w.pass config .getReceivedMessage
  | .setMessageToSend msg => w.pass config (.setMessageToSend msg)
  | .getBytesToSend haveNextMessage =>
    some { w with returned := (getBytesToSend config haveNextMessage w.endpoint.transport).1 }
  | .markBytesSent bytesSent =>
    if bytesSent ≤ w.returned.length then
      (w.endpoint.call config (.markBytesSent bytesSent)).map fun endpoint =>
        ⟨endpoint, w.sent ++ w.returned.take bytesSent, w.returned.drop bytesSent⟩
    else none

/-- A run of calls. -/
def calls (config : TransportConfig V1) (w : Wire V1) (calls : List WireCall) :
    Option (Wire V1) :=
  calls.foldlM (Wire.call config) w

/-- The bytes marked sent, and then what `GetBytesToSend` returns now. -/
def stream (config : TransportConfig V1) (w : Wire V1) : Bytes :=
  w.sent ++ (getBytesToSend config false w.endpoint.transport).1

/-- What was returned is still there. -/
structure InOrder (w : Wire V1) : Prop where
  sends : SendsInOrder w.endpoint.transport
  returned : w.endpoint.transport.sendState ≠ .v1 →
    w.returned <+: pendingBytes w.endpoint.transport

/-- The stream only grew, unless the transport fell back to v1. -/
def Grows (w w' : Wire V1) : Prop :=
  w'.endpoint.transport.sendState ≠ .v1 → w.endpoint.transport.sendState ≠ .v1 ∧
    w.sent ++ pendingBytes w.endpoint.transport <+: w'.sent ++ pendingBytes w'.endpoint.transport

theorem Grows.refl (w : Wire V1) : w.Grows w := fun hv2 => ⟨hv2, List.prefix_rfl⟩

theorem Grows.trans {w'' : Wire V1} (hfirst : w.Grows w') (hsecond : w'.Grows w'') :
    w.Grows w'' := by
  intro hv2
  obtain ⟨hv2', hbegins'⟩ := hsecond hv2
  obtain ⟨hv2'', hbegins⟩ := hfirst hv2'
  exact ⟨hv2'', hbegins.trans hbegins'⟩

theorem getBytesToSend_eq (hv2 : t.sendState ≠ .v1) (haveNextMessage : Bool) :
    (getBytesToSend config haveNextMessage t).1 = pendingBytes t := by
  rw [getBytesToSend, if_neg hv2, pendingBytes]

theorem stream_eq (hv2 : w.endpoint.transport.sendState ≠ .v1) :
    w.stream config = w.sent ++ pendingBytes w.endpoint.transport := by
  rw [stream, getBytesToSend_eq hv2]

theorem pendingBytes_isPrefix (h : SendsInOrder t) {added : Bytes} (hadded : Appends t t' added) :
    pendingBytes t <+: pendingBytes t' := by
  refine ⟨added, ?_⟩
  rw [pendingBytes, pendingBytes, hadded.sendPos, hadded.sendBuffer,
    List.drop_append_of_le_length h.pos]

theorem InOrder.of_still (h : w.InOrder) {endpoint : Endpoint V1}
    (hstill : StillExtends w.endpoint.transport endpoint.transport) :
    InOrder { w with endpoint := endpoint } ∧ w.Grows { w with endpoint := endpoint } := by
  refine ⟨⟨hstill.sendsInOrder, ?_⟩, ?_⟩
  · intro hv2
    obtain ⟨hv2', added, hadded⟩ := hstill.extends_ hv2
    exact (h.returned hv2').trans (pendingBytes_isPrefix h.sends hadded)
  · intro hv2
    obtain ⟨hv2', added, hadded⟩ := hstill.extends_ hv2
    exact ⟨hv2', (List.prefix_append_right_inj _).mpr (pendingBytes_isPrefix h.sends hadded)⟩

theorem InOrder.receivedBytes (h : w.InOrder) {bytes : Bytes}
    (hcall : w.pass config (.receivedBytes bytes) = some w') : w'.InOrder ∧ w.Grows w' := by
  obtain ⟨endpoint, hendpoint, rfl⟩ := Option.map_eq_some_iff.mp hcall
  simp only [Endpoint.call, Option.ite_none_left_eq_some, Option.some.injEq] at hendpoint
  obtain ⟨-, rfl⟩ := hendpoint
  exact h.of_still (h.sends.receivedBytes bytes)

theorem InOrder.getReceivedMessage (h : w.InOrder)
    (hcall : w.pass config .getReceivedMessage = some w') : w'.InOrder ∧ w.Grows w' := by
  obtain ⟨endpoint, hendpoint, rfl⟩ := Option.map_eq_some_iff.mp hcall
  simp only [Endpoint.call, Option.ite_none_right_eq_some, Option.some.injEq] at hendpoint
  obtain ⟨-, rfl⟩ := hendpoint
  exact h.of_still h.sends.getReceivedMessage

theorem InOrder.setMessageToSend (h : w.InOrder) {msg : NetMsg}
    (hcall : w.pass config (.setMessageToSend msg) = some w') : w'.InOrder ∧ w.Grows w' := by
  obtain ⟨endpoint, hendpoint, rfl⟩ := Option.map_eq_some_iff.mp hcall
  simp only [Endpoint.call, Option.some.injEq] at hendpoint
  subst hendpoint
  exact h.of_still (h.sends.setMessageToSend msg)

theorem InOrder.getBytesToSend (h : w.InOrder) (haveNextMessage : Bool) :
    InOrder { w with
      returned := (getBytesToSend config haveNextMessage w.endpoint.transport).1 } where
  sends := h.sends
  returned hv2 := by
    rw [getBytesToSend_eq hv2]

/-- What is marked sent is what `GetBytesToSend` would have returned next, so it moves from one
part of the stream to the other. -/
theorem InOrder.markBytesSent (h : w.InOrder) {bytesSent : ℕ}
    (hcall : w.call config (.markBytesSent bytesSent) = some w') : w'.InOrder ∧ w.Grows w' := by
  simp only [call, Option.ite_none_right_eq_some] at hcall
  obtain ⟨hlength, hcall⟩ := hcall
  obtain ⟨endpoint, hendpoint, rfl⟩ := Option.map_eq_some_iff.mp hcall
  simp only [Endpoint.call, Option.some.injEq] at hendpoint
  subst hendpoint
  have hsent : w.endpoint.transport.sendState ≠ .v1 →
      bytesSent ≤ (pendingBytes w.endpoint.transport).length :=
    fun hv2 => hlength.trans (h.returned hv2).length_le
  have hmarked : SendsInOrder (Net.markBytesSent config bytesSent w.endpoint.transport) ∧
      (Net.markBytesSent config bytesSent w.endpoint.transport).sendState =
        w.endpoint.transport.sendState := h.sends.markBytesSent hsent
  obtain ⟨hsends, hstate⟩ := hmarked
  refine ⟨⟨hsends, ?_⟩, ?_⟩
  · intro hv2
    rw [hstate] at hv2
    rw [pendingBytes_markBytesSent hv2]
    exact (h.returned hv2).drop bytesSent
  · intro hv2
    rw [hstate] at hv2
    obtain ⟨rest, hrest⟩ := h.returned hv2
    have htake : w.returned.take bytesSent =
        (pendingBytes w.endpoint.transport).take bytesSent := by
      rw [← hrest, List.take_append_of_le_length hlength]
    refine ⟨hv2, ?_⟩
    rw [pendingBytes_markBytesSent hv2, htake, List.append_assoc, List.take_append_drop]

theorem InOrder.call (h : w.InOrder) {call : WireCall} (hcall : w.call config call = some w') :
    w'.InOrder ∧ w.Grows w' := by
  cases call with
  | receivedBytes bytes => exact h.receivedBytes hcall
  | getReceivedMessage => exact h.getReceivedMessage hcall
  | setMessageToSend msg => exact h.setMessageToSend hcall
  | getBytesToSend haveNextMessage =>
    obtain rfl := Option.some.inj hcall
    exact ⟨h.getBytesToSend haveNextMessage, fun hv2 => ⟨hv2, List.prefix_rfl⟩⟩
  | markBytesSent bytesSent => exact h.markBytesSent hcall

theorem InOrder.calls (calls : List WireCall) :
    ∀ {w w' : Wire V1}, w.InOrder → w.calls config calls = some w' → w'.InOrder ∧ w.Grows w' := by
  induction calls with
  | nil =>
    intro w w' h hcalls
    cases hcalls
    exact ⟨h, .refl w⟩
  | cons call rest ih =>
    intro w w' h hcalls
    rw [Wire.calls, List.foldlM_cons] at hcalls
    obtain ⟨middle, hcall, hrest⟩ := Option.bind_eq_some_iff.mp hcalls
    obtain ⟨hmiddle, hfirst⟩ := h.call hcall
    obtain ⟨hlast, hsecond⟩ := ih hmiddle hrest
    exact ⟨hlast, hfirst.trans hsecond⟩

theorem inOrder_new : (Wire.new config).InOrder :=
  ⟨sendsInOrder_new, fun _ => List.nil_prefix⟩

/-- **The stream is append-only.** Between any two moments of a run that does not fall back to v1,
the bytes marked sent and the bytes that `GetBytesToSend` returns only grew at their end. -/
theorem stream_isPrefix (config : TransportConfig V1) (calls later : List WireCall)
    (w w' : Wire V1) (hcalls : (Wire.new config).calls config calls = some w)
    (hlater : w.calls config later = some w')
    (hv2 : w'.endpoint.transport.sendState ≠ .v1) : w.stream config <+: w'.stream config := by
  obtain ⟨horder, -⟩ := inOrder_new.calls calls hcalls
  obtain ⟨-, hgrows⟩ := horder.calls later hlater
  obtain ⟨hv2', hbegins⟩ := hgrows hv2
  rw [stream_eq hv2', stream_eq hv2]
  exact hbegins

/-- A responder sends part of its key, gets the key of the peer, and sends the rest with the
offer. -/
def partlySent : List WireCall × List WireCall :=
  ([.receivedBytes (List.replicate 10 1), .getBytesToSend false, .markBytesSent 30],
    [.receivedBytes (List.replicate 54 1), .getBytesToSend false, .markBytesSent 1000])

theorem partlySent_isPrefix : ∃ w w' : Wire Unit,
    (Wire.new (clearConfig false .prefer 2)).calls (clearConfig false .prefer 2) partlySent.1 =
      some w ∧
    w.calls (clearConfig false .prefer 2) partlySent.2 = some w' ∧ w'.sent.length = 1030 ∧
    w.stream (clearConfig false .prefer 2) <+: w'.stream (clearConfig false .prefer 2) := by
  have hevaluated : ((Wire.new (clearConfig false .prefer 2)).calls (clearConfig false .prefer 2)
      partlySent.1).any (fun w => (w.calls (clearConfig false .prefer 2) partlySent.2).any
        fun w' => decide (w'.sent.length = 1030) &&
          decide (w'.endpoint.transport.sendState ≠ .v1)) = true := by decide +kernel
  simp only [Option.any_eq_true, Bool.and_eq_true, decide_eq_true_eq] at hevaluated
  obtain ⟨w, hw, w', hw', hlength, hv2⟩ := hevaluated
  exact ⟨w, w', hw, hw', hlength, stream_isPrefix _ _ _ w w' hw hw' hv2⟩

end Wire

end XCoin.Net
