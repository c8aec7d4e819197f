import XCoin.Lib.ExceptRun
import XCoin.Net.Sending

/-!
# The receive side of an honest transport

How far a side has read the other side's stream is its `Phase`.  `Receives` says that its
receive state, buffer and ciphers fit the phase; `InStep` adds the send side and the
position in the stream: what was read before the receive buffer, then the buffer, then
what is still unread, is the whole stream of the peer.

One round of the receive loop keeps `InStep`, whatever part of the unread bytes it is
given.  The one failure is a side that requires HX1 and finds that the peer does not speak
it (`HonestPair.Refuses`).
-/

namespace XCoin.Net

open V2Transport HonestPair

variable {V1 : Type} {pair : HonestPair V1} {side : Bool} {t t' : V2Transport V1}
  {own peer : List Packet} {state : SendState} {unread : Bytes} {buffer : Bytes} {sender : Bool}

/-! ## Phases -/

/-- How far the other side's stream has been read. -/
inductive Phase where
  | maybeV1
  | key
  | garbage
  | packets (count : ℕ)
deriving DecidableEq, Repr

/-- The send state of a side is fixed by how far it has read. -/
def Phase.sendState (mode : HybridMode) : Phase → SendState
  | .maybeV1 => .maybeV1
  | .key => .awaitingKey
  | .garbage | .packets 0 => if mode = .off then .ready else .awaitingVersion
  | .packets (_ + 1) => .ready

/-- The bytes of the other side's stream before the receive buffer. -/
def HonestPair.readBytes (pair : HonestPair V1) (sender : Bool) (packets : List Packet) :
    Phase → Bytes
  | .maybeV1 | .key => []
  | .garbage => pair.pubKey sender
  | .packets count =>
    pair.pubKey sender ++ (pair.garbage sender ++ (pair.terminator sender ++
      Framing.encodeAll (pair.encode sender) 0 (packets.take count)))

/-- The HX1 state of a side that has received `count` packets. -/
def HonestPair.hybridStateAt (pair : HonestPair V1) (count : ℕ) : HybridState :=
  if count = 0 then .pending
  else if pair.Hybrid then if count = 1 then .unconfirmed else .confirmed
  else .classical

/-- No key of the peer yet. -/
structure Fresh (t : V2Transport V1) : Prop where
  stage2 : t.cipher.stage2 = false
  hybridState : t.hybridState = .pending
  opened : t.opened = []

/-- The ciphers and the HX1 state of a side that has received `count` packets. -/
structure Keyed (pair : HonestPair V1) (side : Bool) (t : V2Transport V1) (count : ℕ) : Prop where
  recvP : t.cipher.recvP = pair.cipherAt (packetKey (!side)) count
  sessionId : t.cipher.sessionId = pair.sessionIdAt count
  stage2 : t.cipher.stage2 = true ↔ pair.Stage2At count
  hybridState : pair.mode side ≠ .off → t.hybridState = pair.hybridStateAt count
  authenticated : stage2Authenticated t ↔ pair.Hybrid ∧ 2 ≤ count
  secret : count = 0 → pair.mode side ≠ .off →
    t.cipher.stage2Secret = some (pair.stage2Secret side)
  keyPair : count = 0 → pair.mode side ≠ .off → side = false →
    t.hybridKeyPair = some pair.keyPair
  allowed : 1 ≤ count → ¬pair.Refuses side

/-- The receive buffer is inside packet `count`: before its length is known, or after. -/
def Framed (pair : HonestPair V1) (side : Bool) (t : V2Transport V1) (peer : List Packet)
    (count : ℕ) : Prop :=
  (t.recvBuffer.length < lengthLen ∧
    t.cipher.recvL = pair.cipherAt (lengthKey (!side)) count) ∨
  (lengthLen ≤ t.recvBuffer.length ∧
    t.cipher.recvL = (pair.cipherAt (lengthKey (!side)) count).next ∧
    ∃ packet, peer[count]? = some packet ∧ t.recvLen = packet.contents.length ∧
      t.recvBuffer.length < t.recvLen + expansion)

/-- The state in which packet `count` is received. -/
def packetState (count : ℕ) : RecvState := if count = 0 then .version else .app

/-- The last packet is a message that waits to be taken. -/
structure Waiting (pair : HonestPair V1) (side : Bool) (t : V2Transport V1) (peer : List Packet)
    (count : ℕ) : Prop where
  recvState : t.recvState = .appReady
  recvBuffer : t.recvBuffer = []
  recvL : t.cipher.recvL = pair.cipherAt (lengthKey (!side)) count
  message : 2 ≤ count ∧ peer[count - 1]? = some ⟨t.recvDecodeBuffer, false⟩

/-- The receive side of `t` fits its phase. -/
def Receives (pair : HonestPair V1) (side : Bool) (t : V2Transport V1) (peer : List Packet) :
    Phase → Prop
  | .maybeV1 =>
    side = false ∧ t.recvState = .keyMaybeV1 ∧ Fresh t ∧ t.recvBuffer.length < v1PrefixLen
  | .key => t.recvState = .key ∧ Fresh t ∧ t.recvBuffer.length < ellSwiftSize
  | .garbage =>
    t.recvState = .garbGarbterm ∧ Keyed pair side t 0 ∧
    t.cipher.recvL = pair.cipherAt (lengthKey (!side)) 0 ∧
    t.cipher.recvGarbageTerminator = pair.terminator (!side) ∧
    t.recvBuffer.length < (pair.garbage (!side)).length + garbageTerminatorLen
  | .packets count =>
    Keyed pair side t count ∧ t.recvAad = pair.aad (!side) count ∧ count ≤ peer.length ∧
    ((t.recvState = packetState count ∧ Framed pair side t peer count) ∨
      Waiting pair side t peer count)

/-- A side in step with the other side's stream, of which `unread` is still to come. -/
structure InStep (pair : HonestPair V1) (side : Bool) (t : V2Transport V1) (own peer : List Packet)
    (phase : Phase) (unread : Bytes) (state : SendState) : Prop where
  sends : Sends pair side t own
  receives : Receives pair side t peer phase
  sendState : t.sendState = phase.sendState (pair.mode side)
  log : pair.Log (!side) peer
  stream : pair.readBytes (!side) peer phase ++ (t.recvBuffer ++ unread) =
    pair.stream (!side) peer state

/-! ## Messages -/

/-- The packets that have been read. -/
def Phase.read (peer : List Packet) : Phase → List Packet
  | .packets count => peer.take count
  | _ => []

/-- The message that waits to be taken. -/
def waitingContents (t : V2Transport V1) : List Bytes :=
  if t.recvState = .appReady then [t.recvDecodeBuffer] else []

/-- The message in a packet's contents, as `GetReceivedMessage` returns it. -/
def parseMessage (contents : Bytes) : Option NetMsg :=
  (getMessageType contents).map fun parsed => ⟨parsed.1, parsed.2⟩

/-- What a round of the receive loop leads to. -/
def Advances (pair : HonestPair V1) (side : Bool) (t : V2Transport V1) (own peer : List Packet)
    (phase : Phase) (unread : Bytes) (state : SendState) (t' : V2Transport V1) : Prop :=
  ∃ own' phase', InStep pair side t' own' peer phase' unread state ∧
    GrowsSilently pair side t own t' own' ∧
    messageContents (phase'.read peer) =
      messageContents (phase.read peer) ++ waitingContents t'

/-- A side that requires HX1 has refused the session. -/
structure RefusedState (pair : HonestPair V1) (side : Bool) (t : V2Transport V1)
    (own : List Packet) : Prop where
  refuses : pair.Refuses side
  failure : t.hybridFailure = some .refused
  hybridState : t.hybridState = .failed
  stage2 : t.cipher.stage2 = false
  sends : Sends pair side t own
  sendState : t.sendState = .awaitingVersion
  recvState : t.recvState = .version

/-- A round has refused the session and sent nothing. -/
structure Refused (pair : HonestPair V1) (side : Bool) (t : V2Transport V1) (own : List Packet)
    (t' : V2Transport V1) : Prop where
  state : RefusedState pair side t' own
  grows : GrowsSilently pair side t own t' own

/-! ## What the receive side depends on -/

/-- The fields of the receive side. -/
structure ReceiveView where
  recvState : RecvState
  recvBuffer : Bytes
  recvLen : ℕ
  recvAad : Bytes
  recvDecodeBuffer : Bytes
  hybridState : HybridState
  hybridKeyPair : Option KeyPair
  opened : List OpenedPacket
  recvL : PacketCipher
  recvP : PacketCipher
  sessionId : Bytes
  terminator : Bytes
  secret : Option Stage2Secret
  stage2 : Bool

/-- The fields that receiving reads and writes. -/
def receiveView (t : V2Transport V1) : ReceiveView where
  recvState := t.recvState
  recvBuffer := t.recvBuffer
  recvLen := t.recvLen
  recvAad := t.recvAad
  recvDecodeBuffer := t.recvDecodeBuffer
  hybridState := t.hybridState
  hybridKeyPair := t.hybridKeyPair
  opened := t.opened
  recvL := t.cipher.recvL
  recvP := t.cipher.recvP
  sessionId := t.cipher.sessionId
  terminator := t.cipher.recvGarbageTerminator
  secret := t.cipher.stage2Secret
  stage2 := t.cipher.stage2

theorem waitingContents_of_view (hview : receiveView t' = receiveView t) :
    waitingContents t' = waitingContents t := by
  rw [waitingContents, waitingContents,
    show t'.recvState = t.recvState from congrArg ReceiveView.recvState hview,
    show t'.recvDecodeBuffer = t.recvDecodeBuffer from
      congrArg ReceiveView.recvDecodeBuffer hview]

theorem Fresh.of_view (h : Fresh t) (hview : receiveView t' = receiveView t) : Fresh t' where
  stage2 := (congrArg ReceiveView.stage2 hview).trans h.stage2
  hybridState := (congrArg ReceiveView.hybridState hview).trans h.hybridState
  opened := (congrArg ReceiveView.opened hview).trans h.opened

theorem Keyed.of_view {count : ℕ} (h : Keyed pair side t count)
    (hview : receiveView t' = receiveView t) : Keyed pair side t' count where
  recvP := (congrArg ReceiveView.recvP hview).trans h.recvP
  sessionId := (congrArg ReceiveView.sessionId hview).trans h.sessionId
  stage2 := by
    rw [show t'.cipher.stage2 = t.cipher.stage2 from congrArg ReceiveView.stage2 hview]
    exact h.stage2
  hybridState hmode := (congrArg ReceiveView.hybridState hview).trans (h.hybridState hmode)
  authenticated := by
    rw [stage2Authenticated, show t'.opened = t.opened from congrArg ReceiveView.opened hview]
    exact h.authenticated
  secret hzero hmode := (congrArg ReceiveView.secret hview).trans (h.secret hzero hmode)
  keyPair hzero hmode hside :=
    (congrArg ReceiveView.hybridKeyPair hview).trans (h.keyPair hzero hmode hside)
  allowed := h.allowed

theorem Receives.of_view {phase : Phase} (h : Receives pair side t peer phase)
    (hview : receiveView t' = receiveView t) : Receives pair side t' peer phase := by
  have hrecvState : t'.recvState = t.recvState := congrArg ReceiveView.recvState hview
  have hrecvBuffer : t'.recvBuffer = t.recvBuffer := congrArg ReceiveView.recvBuffer hview
  have hrecvL : t'.cipher.recvL = t.cipher.recvL := congrArg ReceiveView.recvL hview
  cases phase with
  | maybeV1 =>
    obtain ⟨hside, hstate, hfresh, hlength⟩ := h
    exact ⟨hside, hrecvState.trans hstate, hfresh.of_view hview, hrecvBuffer ▸ hlength⟩
  | key =>
    obtain ⟨hstate, hfresh, hlength⟩ := h
    exact ⟨hrecvState.trans hstate, hfresh.of_view hview, hrecvBuffer ▸ hlength⟩
  | garbage =>
    obtain ⟨hstate, hkeyed, hcipher, hterminator, hlength⟩ := h
    exact ⟨hrecvState.trans hstate, hkeyed.of_view hview, hrecvL.trans hcipher,
      (congrArg ReceiveView.terminator hview).trans hterminator, hrecvBuffer ▸ hlength⟩
  | packets count =>
    obtain ⟨hkeyed, haad, hcount, hrest⟩ := h
    have hrecvLen : t'.recvLen = t.recvLen := congrArg ReceiveView.recvLen hview
    refine ⟨hkeyed.of_view hview, (congrArg ReceiveView.recvAad hview).trans haad, hcount, ?_⟩
    rcases hrest with ⟨hstate, hframed⟩ | hwaiting
    · refine .inl ⟨hrecvState.trans hstate, ?_⟩
      rw [Framed, hrecvBuffer, hrecvL, hrecvLen]
      exact hframed
    · refine .inr ⟨hrecvState.trans hwaiting.recvState, hrecvBuffer.trans hwaiting.recvBuffer,
        hrecvL.trans hwaiting.recvL, ?_⟩
      rw [show t'.recvDecodeBuffer = t.recvDecodeBuffer from
        congrArg ReceiveView.recvDecodeBuffer hview]
      exact hwaiting.message

theorem InStep.of_sends {own' : List Packet} {phase : Phase}
    (h : InStep pair side t own peer phase unread state) (hsends : Sends pair side t' own')
    (hview : receiveView t' = receiveView t) (hstate : t'.sendState = t.sendState) :
    InStep pair side t' own' peer phase unread state where
  sends := hsends
  receives := h.receives.of_view hview
  sendState := hstate.trans h.sendState
  log := h.log
  stream := by
    rw [show t'.recvBuffer = t.recvBuffer from congrArg ReceiveView.recvBuffer hview]
    exact h.stream

/-! ## The key -/

theorem isPrefix_pubKey (hstream : buffer ++ unread = pair.stream sender peer state)
    (hnonempty : buffer ≠ []) (hle : buffer.length ≤ ellSwiftSize) :
    buffer <+: pair.pubKey sender := by
  rw [← pair.length_pubKey sender] at hle
  cases state with
  | maybeV1 => exact absurd (List.append_eq_nil_iff.mp hstream).1 hnonempty
  | v1 => exact absurd (List.append_eq_nil_iff.mp hstream).1 hnonempty
  | awaitingKey => exact Framing.isPrefix_of_append_eq hstream hle
  | awaitingVersion => exact Framing.isPrefix_of_append_eq hstream hle
  | ready => exact Framing.isPrefix_of_append_eq hstream hle

/-- No part of the initiator's key is taken for a v1 version message. -/
theorem not_v1_of_isPrefix (hkey : buffer <+: pair.pubKey true)
    (hlong : v1PrefixLen ≤ buffer.length) :
    (buffer.drop 4).take v1VersionType.length ≠ v1VersionType := by
  obtain ⟨more, hmore⟩ := hkey
  have hfour : 4 ≤ buffer.length := le_trans (by decide) hlong
  have htype : v1VersionType.length ≤ (buffer.drop 4).length := by
    rw [List.length_drop]
    exact Nat.le_sub_of_add_le (le_trans (by decide) hlong)
  have hnot := pair.not_v1
  rwa [← hmore, List.drop_append_of_le_length hfour, List.take_append_of_le_length htype] at hnot

theorem v1Type_of_eq_v1Prefix {config : TransportConfig V1}
    (hbuffer : buffer = (v1Prefix config).take buffer.length)
    (hlength : buffer.length = v1PrefixLen) :
    (buffer.drop 4).take v1VersionType.length = v1VersionType := by
  have hwhole : (v1Prefix config).length = v1PrefixLen := by
    simp [v1Prefix, config.length_messageStart]
    rfl
  rw [hlength, ← hwhole, List.take_length] at hbuffer
  rw [hbuffer, v1Prefix, ← config.length_messageStart, List.drop_left, List.take_length]

theorem advances_maybeV1 (hsends : Sends pair false t own) (hstate : t.sendState = .maybeV1)
    (hlog : pair.Log true peer) (hrecv : t.recvState = .keyMaybeV1) (hfresh : Fresh t)
    (hlength : t.recvBuffer.length ≤ v1PrefixLen) (hnonempty : t.recvBuffer ≠ [])
    (hstream : t.recvBuffer ++ unread = pair.stream true peer state) :
    (processReceivedMaybeV1Bytes (pair.config false) t).Satisfies (Refused pair false t own)
      (Advances pair false t own peer .maybeV1 unread state) := by
  have hsmall : v1PrefixLen < ellSwiftSize := by decide
  have hkey := isPrefix_pubKey hstream hnonempty (hlength.trans hsmall.le)
  rw [processReceivedMaybeV1Bytes]
  split_ifs with hmismatch hcomplete hrequire
  · -- not a v1 connection
    obtain ⟨hsends', hgrows⟩ := hsends.startV2 hstate
    have hfresh' : Fresh t.startV2 := { hfresh with }
    exact ⟨own, .key,
      ⟨hsends', ⟨rfl, hfresh', hlength.trans_lt hsmall⟩, rfl, hlog, hstream⟩, hgrows, rfl⟩
  -- the whole v1 prefix would be the beginning of the initiator's key
  · have hbegins : t.recvBuffer = (v1Prefix (pair.config false)).take t.recvBuffer.length := by
      simpa using hmismatch
    exact absurd (v1Type_of_eq_v1Prefix hbegins hcomplete) (not_v1_of_isPrefix hkey hcomplete.ge)
  · have hbegins : t.recvBuffer = (v1Prefix (pair.config false)).take t.recvBuffer.length := by
      simpa using hmismatch
    exact absurd (v1Type_of_eq_v1Prefix hbegins hcomplete) (not_v1_of_isPrefix hkey hcomplete.ge)
  · refine ⟨own, .maybeV1,
      ⟨hsends, ⟨rfl, hrecv, hfresh, lt_of_le_of_ne hlength hcomplete⟩, hstate, hlog, hstream⟩,
      GrowsSilently.refl, ?_⟩
    simp [waitingContents, hrecv]

theorem keyed_zero (hfresh : Fresh t)
    (hrecvP : t.cipher.recvP = ⟨packetKey (!side) pair.stage1Keys, 0⟩)
    (hsessionId : t.cipher.sessionId = pair.stage1Keys.sessionId)
    (hsecret : pair.mode side ≠ .off → t.cipher.stage2Secret = some (pair.stage2Secret side))
    (hkeyPair : pair.mode side ≠ .off → side = false → t.hybridKeyPair = some pair.keyPair) :
    Keyed pair side t 0 where
  recvP := by rw [hrecvP, cipherAt_zero]
  sessionId := by rw [hsessionId, sessionIdAt_zero]
  stage2 := by simp [hfresh.stage2, Stage2At]
  hybridState _ := hfresh.hybridState
  authenticated := by simp [stage2Authenticated, hfresh.opened]
  secret _ := hsecret
  keyPair _ := hkeyPair
  allowed hcount := absurd hcount (by decide)

theorem processReceivedKeyBytes_complete (peer : List Packet) (hsends : Sends pair side t own)
    (hstate : t.sendState = .awaitingKey) (hfresh : Fresh t)
    (hbuffer : t.recvBuffer = pair.pubKey (!side))
    (hnetwork : ¬looksLikeWrongNetwork (pair.config side) t) :
    ∃ t' own', processReceivedKeyBytes (pair.config side) t = .ok t' ∧
      Sends pair side t' own' ∧ GrowsSilently pair side t own t' own' ∧
      t'.sendState = Phase.sendState (pair.mode side) .garbage ∧
      t'.recvBuffer = [] ∧ Receives pair side t' peer .garbage := by
  obtain ⟨hsends', hinit⟩ := hsends.initializeCipher hstate hbuffer
  have hlength : t.recvBuffer.length = ellSwiftSize := by rw [hbuffer, pair.length_pubKey]
  have hroom : 0 < (pair.garbage (!side)).length + garbageTerminatorLen := by
    have : 0 < garbageTerminatorLen := by decide
    omega
  have hrecvL := hinit.recvL.trans (pair.cipherAt_zero (lengthKey (!side))).symm
  rw [processReceivedKeyBytes, if_neg hnetwork, if_pos hlength]
  by_cases hmode : pair.mode side = .off
  · obtain ⟨hsent, hgrows⟩ := hsends'.sendEmptyVersion hstate hinit hmode
    refine ⟨_, _, if_neg (not_not.mpr hmode), hsent, hgrows, ?_, rfl, rfl, ?_, hrecvL,
      hinit.recvTerminator, hroom⟩
    · rw [Phase.sendState, if_pos hmode]
      rfl
    · exact keyed_zero { hfresh with } hinit.recvP hinit.sessionId hinit.secret
        fun hhybrid => absurd hmode hhybrid
  · rw [if_pos (show (pair.config side).hybridMode ≠ .off from hmode), processHybridKey]
    cases side with
    | true =>
      obtain ⟨hsent, hgrows⟩ := hsends'.awaitVersion hstate hinit
      refine ⟨_, _, rfl, hsent, hgrows, ?_, rfl, rfl, ?_, hrecvL, hinit.recvTerminator, hroom⟩
      · rw [Phase.sendState, if_neg hmode]
        rfl
      · exact keyed_zero { hfresh with } hinit.recvP hinit.sessionId hinit.secret
          fun _ hside => absurd hside (by decide)
    | false =>
      obtain ⟨hsent, hgrows⟩ := hsends'.sendOffer hstate hinit hmode
      have hkeygen : (pair.config false).hybridKem.keygen = .ok pair.keyPair := pair.keygen
      refine ⟨_, _, ?_, hsent, hgrows, ?_, rfl, rfl, ?_, hrecvL, hinit.recvTerminator, hroom⟩
      · rw [hkeygen]
        rfl
      · rw [Phase.sendState, if_neg hmode]
        rfl
      · exact keyed_zero { hfresh with } hinit.recvP hinit.sessionId hinit.secret
          fun _ _ => rfl

theorem advances_key (hsends : Sends pair side t own) (hstate : t.sendState = .awaitingKey)
    (hlog : pair.Log (!side) peer) (hrecv : t.recvState = .key) (hfresh : Fresh t)
    (hlength : t.recvBuffer.length ≤ ellSwiftSize) (hnonempty : t.recvBuffer ≠ [])
    (hstream : t.recvBuffer ++ unread = pair.stream (!side) peer state) :
    (processReceivedKeyBytes (pair.config side) t).Satisfies (Refused pair side t own)
      (Advances pair side t own peer .key unread state) := by
  have hkey := isPrefix_pubKey hstream hnonempty hlength
  have hnetwork : ¬looksLikeWrongNetwork (pair.config side) t := by
    rintro ⟨hresponder, hlong, htype⟩
    have hside : side = false := hresponder
    subst hside
    exact not_v1_of_isPrefix hkey hlong htype
  by_cases hcomplete : t.recvBuffer.length = ellSwiftSize
  · have hbuffer : t.recvBuffer = pair.pubKey (!side) :=
      hkey.eq_of_length (hcomplete.trans (pair.length_pubKey _).symm)
    obtain ⟨t', own', hprocess, hsends', hgrows, hstate', hempty, hreceives⟩ :=
      processReceivedKeyBytes_complete peer hsends hstate hfresh hbuffer hnetwork
    rw [hprocess]
    refine ⟨own', .garbage, ⟨hsends', hreceives, hstate', hlog, ?_⟩, hgrows, ?_⟩
    · rw [hempty, List.nil_append, readBytes, ← hbuffer]
      exact hstream
    · simp [waitingContents, hreceives.1, Phase.read]
  · rw [processReceivedKeyBytes, if_neg hnetwork, if_neg hcomplete]
    refine ⟨own, .key,
      ⟨hsends, ⟨hrecv, hfresh, lt_of_le_of_ne hlength hcomplete⟩, hstate, hlog, hstream⟩,
      GrowsSilently.refl, ?_⟩
    simp [waitingContents, hrecv]

/-! ## The garbage -/

theorem isPrefix_garbage
    (hstream : pair.pubKey sender ++ (buffer ++ unread) = pair.stream sender peer state)
    (hle : buffer.length ≤ (pair.garbage sender).length + garbageTerminatorLen) :
    buffer <+: pair.garbage sender ++ pair.terminator sender := by
  have hkey : pair.pubKey sender ≠ [] := by
    intro hnil
    have hlength := pair.length_pubKey sender
    rw [hnil] at hlength
    exact absurd hlength (by decide)
  have hfits : buffer.length ≤ (pair.garbage sender ++ pair.terminator sender).length := by
    rw [List.length_append, pair.length_terminator]
    exact hle
  cases state with
  | maybeV1 => exact absurd (List.append_eq_nil_iff.mp hstream).1 hkey
  | v1 => exact absurd (List.append_eq_nil_iff.mp hstream).1 hkey
  | awaitingKey =>
    have hgarbage : buffer <+: pair.garbage sender := ⟨unread, List.append_cancel_left hstream⟩
    exact hgarbage.trans (List.prefix_append _ _)
  | awaitingVersion =>
    have hrest := List.append_cancel_left hstream
    rw [← List.append_assoc (pair.garbage sender)] at hrest
    exact Framing.isPrefix_of_append_eq hrest hfits
  | ready =>
    have hrest := List.append_cancel_left hstream
    rw [← List.append_assoc (pair.garbage sender)] at hrest
    exact Framing.isPrefix_of_append_eq hrest hfits

/-- The terminator is found exactly at the end of the garbage. -/
theorem drop_eq_terminator_iff (hbuffer : buffer <+: pair.garbage sender ++ pair.terminator sender)
    (hlong : garbageTerminatorLen ≤ buffer.length) :
    buffer.drop (buffer.length - garbageTerminatorLen) = pair.terminator sender ↔
      buffer = pair.garbage sender ++ pair.terminator sender := by
  have htermLen := pair.length_terminator sender
  constructor
  · intro hdrop
    by_contra hpart
    have hlt : buffer.length < (pair.garbage sender ++ pair.terminator sender).length :=
      lt_of_le_of_ne hbuffer.length_le fun hlength => hpart (hbuffer.eq_of_length hlength)
    rw [List.length_append, htermLen] at hlt
    have htake := List.prefix_iff_eq_take.mp hbuffer
    apply pair.no_early_terminator sender (buffer.length - garbageTerminatorLen) (by omega)
    refine Eq.trans ?_ hdrop
    conv_rhs => rw [htake]
    have hlength := congrArg List.length htake
    rw [List.drop_take, ← hlength, Nat.sub_sub_self hlong]
    rfl
  · intro hwhole
    have hlength : buffer.length - garbageTerminatorLen = (pair.garbage sender).length := by
      rw [hwhole, List.length_append, htermLen]
      omega
    rw [hlength, hwhole, List.drop_left]

theorem advances_garbage (hsends : Sends pair side t own)
    (hstate : t.sendState = Phase.sendState (pair.mode side) .garbage)
    (hlog : pair.Log (!side) peer) (hrecv : t.recvState = .garbGarbterm)
    (hkeyed : Keyed pair side t 0)
    (hrecvL : t.cipher.recvL = pair.cipherAt (lengthKey (!side)) 0)
    (hterminator : t.cipher.recvGarbageTerminator = pair.terminator (!side))
    (hlength : t.recvBuffer.length ≤ (pair.garbage (!side)).length + garbageTerminatorLen)
    (hstream : pair.pubKey (!side) ++ (t.recvBuffer ++ unread) =
      pair.stream (!side) peer state) :
    (processReceivedGarbageBytes t).Satisfies (Refused pair side t own)
      (Advances pair side t own peer .garbage unread state) := by
  have hbuffer := isPrefix_garbage hstream hlength
  have hwaits : waitingContents t = [] := by simp [waitingContents, hrecv]
  -- without the terminator the phase stays the same
  have hstay (hpart : t.recvBuffer ≠ pair.garbage (!side) ++ pair.terminator (!side)) :
      Advances pair side t own peer .garbage unread state t := by
    have hlt : t.recvBuffer.length < (pair.garbage (!side)).length + garbageTerminatorLen := by
      refine lt_of_le_of_ne hlength fun heq => hpart (hbuffer.eq_of_length ?_)
      rw [heq, List.length_append, pair.length_terminator]
    exact ⟨own, .garbage, ⟨hsends, ⟨hrecv, hkeyed, hrecvL, hterminator, hlt⟩, hstate, hlog,
      hstream⟩, GrowsSilently.refl, by rw [hwaits, List.append_nil]⟩
  rw [processReceivedGarbageBytes]
  split_ifs with hshort hfound hlimit
  · apply hstay
    intro hwhole
    rw [hwhole, List.length_append, pair.length_terminator] at hshort
    omega
  · rw [hterminator, drop_eq_terminator_iff hbuffer (Nat.le_of_not_lt hshort)] at hfound
    refine ⟨own, .packets 0, ⟨?_, ?_, hstate, hlog, ?_⟩, GrowsSilently.refl, ?_⟩
    · exact { hsends with }
    · refine ⟨{ hkeyed with }, ?_, Nat.zero_le _,
        .inl ⟨rfl, .inl ⟨show 0 < lengthLen by decide, hrecvL⟩⟩⟩
      rw [hfound, List.length_append, pair.length_terminator, Nat.add_sub_cancel,
        List.take_left]
      rfl
    · rw [← hstream, hfound]
      simp [readBytes]
    · simp [waitingContents, Phase.read]
  · -- the limit on garbage is never reached without the terminator
    exfalso
    rw [hterminator, drop_eq_terminator_iff hbuffer (Nat.le_of_not_lt hshort)] at hfound
    have hmax := pair.length_garbage (!side)
    apply hfound
    apply hbuffer.eq_of_length
    rw [List.length_append, pair.length_terminator]
    omega
  · apply hstay
    rwa [hterminator, drop_eq_terminator_iff hbuffer (Nat.le_of_not_lt hshort)] at hfound

end XCoin.Net
