import XCoin.Net.HonestPair

/-!
# The send side of an honest transport

What an honest side has put on the wire is fixed by its send state and the list of its
packets (`HonestPair.stream`).  `Sends` says that its send state, buffer and ciphers fit
that list, and `Grows` that a step only appended to the stream: bytes returned by
`GetBytesToSend` are never altered, dropped or reordered.
-/

namespace XCoin.Net

open V2Transport HonestPair

variable {V1 : Type} {pair : HonestPair V1} {side : Bool} {t t' : V2Transport V1}
  {packets packets' : List Packet} {cipher : Bip324Cipher}

/-- The bytes that `GetBytesToSend` returns. -/
def pendingBytes (t : V2Transport V1) : Bytes := t.sendBuffer.drop t.sendPos

/-- The send ciphers are at packet `count`. -/
structure SendsAt (pair : HonestPair V1) (side : Bool) (cipher : Bip324Cipher) (count : ℕ) :
    Prop where
  sendL : cipher.sendL = pair.cipherAt (lengthKey side) count
  sendP : cipher.sendP = pair.cipherAt (packetKey side) count

/-- What the send state says of the packets and the ciphers.  In `awaitingVersion` the next packet
is still under stage-1 keys if it is sent before the switch. -/
def SendsIn (pair : HonestPair V1) (side : Bool) (t : V2Transport V1) (packets : List Packet) :
    SendState → Prop
  | .maybeV1 => packets = [] ∧ t.sendGarbage = pair.garbage side ∧ t.sendBuffer = []
  | .awaitingKey => packets = [] ∧ t.sendGarbage = pair.garbage side
  | .awaitingVersion =>
    t.cipher.sendL = ⟨lengthKey side pair.stage1Keys, packets.length⟩ ∧
    t.cipher.sendP = ⟨packetKey side pair.stage1Keys, packets.length⟩ ∧
    if side then packets = [] ∧ t.sendGarbage = pair.garbage side
    else packets = [⟨pair.version side, false⟩]
  | .ready =>
    packets ≠ [] ∧ SendsAt pair side t.cipher packets.length ∧
    (pair.Hybrid → t.hybridFirstSend = false → 2 ≤ packets.length)
  | .v1 => False

/-- The send side of `t` is in step with the packets it has sent. -/
structure Sends (pair : HonestPair V1) (side : Bool) (t : V2Transport V1) (packets : List Packet) :
    Prop where
  pos : t.sendPos ≤ t.sendBuffer.length
  ourPubKey : t.cipher.ourPubKey = pair.pubKey side
  log : pair.Log side packets
  state : SendsIn pair side t packets t.sendState

theorem Sends.not_v1 (h : Sends pair side t packets) : t.sendState ≠ .v1 := by
  intro hstate
  have hin := h.state
  rw [hstate] at hin
  exact hin

theorem Sends.of_eq (h : Sends pair side t packets) (hpos : t'.sendPos = t.sendPos)
    (hbuffer : t'.sendBuffer = t.sendBuffer) (hgarbage : t'.sendGarbage = t.sendGarbage)
    (hstate : t'.sendState = t.sendState) (hfirst : t'.hybridFirstSend = t.hybridFirstSend)
    (hsendL : t'.cipher.sendL = t.cipher.sendL) (hsendP : t'.cipher.sendP = t.cipher.sendP)
    (hours : t'.cipher.ourPubKey = t.cipher.ourPubKey) : Sends pair side t' packets where
  pos := by rw [hpos, hbuffer]; exact h.pos
  ourPubKey := hours.trans h.ourPubKey
  log := h.log
  state := by
    have hin := h.state
    rw [hstate]
    cases hcase : t.sendState with
    | maybeV1 =>
      rw [hcase] at hin
      exact ⟨hin.1, hgarbage.trans hin.2.1, hbuffer.trans hin.2.2⟩
    | awaitingKey =>
      rw [hcase] at hin
      exact ⟨hin.1, hgarbage.trans hin.2⟩
    | awaitingVersion =>
      rw [hcase] at hin
      refine ⟨hsendL.trans hin.1, hsendP.trans hin.2.1, ?_⟩
      rw [hgarbage]
      exact hin.2.2
    | ready =>
      rw [hcase] at hin
      refine ⟨hin.1, ⟨hsendL.trans hin.2.1.sendL, hsendP.trans hin.2.1.sendP⟩, ?_⟩
      rw [hfirst]
      exact hin.2.2
    | v1 => exact absurd hcase h.not_v1

/-- From `t` to `t'` the stream only grew. -/
def Grows (pair : HonestPair V1) (side : Bool) (t : V2Transport V1) (packets : List Packet)
    (t' : V2Transport V1) (packets' : List Packet) : Prop :=
  packets <+: packets' ∧ ∃ added, pendingBytes t' = pendingBytes t ++ added ∧
    pair.stream side packets' t'.sendState = pair.stream side packets t.sendState ++ added

theorem Grows.refl : Grows pair side t packets t packets :=
  ⟨List.prefix_rfl, [], by simp, by simp⟩

theorem Grows.trans {t'' : V2Transport V1} {packets'' : List Packet}
    (hfirst : Grows pair side t packets t' packets')
    (hsecond : Grows pair side t' packets' t'' packets'') :
    Grows pair side t packets t'' packets'' := by
  obtain ⟨hpackets, added, hpending, hstream⟩ := hfirst
  obtain ⟨hpackets', added', hpending', hstream'⟩ := hsecond
  refine ⟨hpackets.trans hpackets', added ++ added', ?_, ?_⟩
  · rw [hpending', hpending, List.append_assoc]
  · rw [hstream', hstream, List.append_assoc]

theorem Grows.of_eq (hbuffer : t'.sendBuffer = t.sendBuffer) (hpos : t'.sendPos = t.sendPos)
    (hstate : t'.sendState = t.sendState) : Grows pair side t packets t' packets :=
  ⟨List.prefix_rfl, [], by simp [pendingBytes, hbuffer, hpos], by simp [hstate]⟩

/-- From `t` to `t'` the stream grew by parts of the handshake only. -/
def GrowsSilently (pair : HonestPair V1) (side : Bool) (t : V2Transport V1)
    (packets : List Packet) (t' : V2Transport V1) (packets' : List Packet) : Prop :=
  Grows pair side t packets t' packets' ∧ messageContents packets' = messageContents packets

theorem GrowsSilently.refl : GrowsSilently pair side t packets t packets := ⟨Grows.refl, rfl⟩

theorem GrowsSilently.trans {t'' : V2Transport V1} {packets'' : List Packet}
    (hfirst : GrowsSilently pair side t packets t' packets')
    (hsecond : GrowsSilently pair side t' packets' t'' packets'') :
    GrowsSilently pair side t packets t'' packets'' :=
  ⟨hfirst.1.trans hsecond.1, hsecond.2.trans hfirst.2⟩

theorem GrowsSilently.of_eq (hbuffer : t'.sendBuffer = t.sendBuffer) (hpos : t'.sendPos = t.sendPos)
    (hstate : t'.sendState = t.sendState) : GrowsSilently pair side t packets t' packets :=
  ⟨Grows.of_eq hbuffer hpos hstate, rfl⟩

/-! ## Appending to the send buffer -/

/-- `t'` has `added` appended to the send buffer. -/
structure Appends (t t' : V2Transport V1) (added : Bytes) : Prop where
  sendPos : t'.sendPos = t.sendPos
  sendBuffer : t'.sendBuffer = t.sendBuffer ++ added

theorem Appends.pos {added : Bytes} (h : Appends t t' added)
    (hpos : t.sendPos ≤ t.sendBuffer.length) : t'.sendPos ≤ t'.sendBuffer.length := by
  rw [h.sendPos, h.sendBuffer, List.length_append]
  omega

theorem Appends.grows {added : Bytes} (h : Appends t t' added)
    (hpos : t.sendPos ≤ t.sendBuffer.length) (hpackets : packets <+: packets')
    (hstream : pair.stream side packets' t'.sendState =
      pair.stream side packets t.sendState ++ added) :
    Grows pair side t packets t' packets' := by
  refine ⟨hpackets, added, ?_, hstream⟩
  rw [pendingBytes, pendingBytes, h.sendPos, h.sendBuffer, List.drop_append_of_le_length hpos]

theorem encrypted_eq_encode {count : ℕ} (hcipher : SendsAt pair side cipher count)
    (packet : Packet) :
    cipher.encrypted pair.crypto packet.contents (pair.aad side count) packet.ignore =
      pair.encode side count packet := by
  rw [Bip324Cipher.encrypted, encode, hcipher.sendL, hcipher.sendP]

theorem SendsAt.next {count : ℕ} (hcipher : SendsAt pair side cipher count)
    (hsame : pair.Hybrid → 1 ≤ count) : SendsAt pair side cipher.afterEncrypt (count + 1) where
  sendL := by rw [pair.cipherAt_succ _ hsame, ← hcipher.sendL]; rfl
  sendP := by rw [pair.cipherAt_succ _ hsame, ← hcipher.sendP]; rfl

theorem stream_concat (packets : List Packet) (packet : Packet) {state : SendState}
    (hstate : state = .awaitingVersion ∨ state = .ready) :
    pair.stream side (packets ++ [packet]) state =
      pair.stream side packets state ++ pair.encode side packets.length packet := by
  rcases hstate with rfl | rfl <;>
    simp only [stream, Framing.encodeAll_concat, List.append_assoc]

/-! ## The handshake -/

theorem sends_new : Sends pair side (V2Transport.new (pair.config side)) [] := by
  cases side with
  | false =>
    exact
      { pos := Nat.le_refl _
        ourPubKey := rfl
        log := log_nil
        state := ⟨rfl, rfl, rfl⟩ }
  | true =>
    exact
      { pos := Nat.zero_le _
        ourPubKey := rfl
        log := log_nil
        state := ⟨rfl, rfl⟩ }

theorem Sends.startV2 (h : Sends pair side t packets) (hstate : t.sendState = .maybeV1) :
    Sends pair side t.startV2 packets ∧ GrowsSilently pair side t packets t.startV2 packets := by
  have hin := h.state
  rw [hstate] at hin
  obtain ⟨rfl, hgarbage, hbuffer⟩ := hin
  have happends : Appends t t.startV2 (pair.pubKey side ++ pair.garbage side) := by
    refine ⟨rfl, ?_⟩
    rw [hbuffer, List.nil_append, ← h.ourPubKey, ← hgarbage]
    rfl
  refine ⟨⟨happends.pos h.pos, h.ourPubKey, h.log, rfl, hgarbage⟩,
    ⟨happends.grows h.pos List.prefix_rfl ?_, rfl⟩⟩
  rw [hstate]
  rfl

theorem Sends.initializeCipher (h : Sends pair side t packets)
    (hstate : t.sendState = .awaitingKey) (hkey : t.recvBuffer = pair.pubKey (!side)) :
    Sends pair side (initializeCipher (pair.config side) t) packets ∧
      pair.Initialized side (initializeCipher (pair.config side) t).cipher := by
  have hinit : pair.Initialized side (Net.initializeCipher (pair.config side) t).cipher := by
    rw [Net.initializeCipher, hkey]
    exact initialized_initializeCiphers h.ourPubKey
  have hin := h.state
  rw [hstate] at hin
  refine ⟨⟨h.pos, hinit.ourPubKey, h.log, ?_⟩, hinit⟩
  rw [show (Net.initializeCipher (pair.config side) t).sendState = .awaitingKey from hstate]
  exact hin

theorem Sends.awaitVersion (h : Sends pair true t packets) (hstate : t.sendState = .awaitingKey)
    (hinit : pair.Initialized true t.cipher) :
    Sends pair true t.awaitVersion packets ∧ GrowsSilently pair true t packets t.awaitVersion packets := by
  have hin := h.state
  rw [hstate] at hin
  obtain ⟨rfl, hgarbage⟩ := hin
  have happends : Appends t t.awaitVersion (pair.terminator true) := by
    refine ⟨rfl, ?_⟩
    rw [← hinit.sendTerminator]
    rfl
  refine ⟨⟨happends.pos h.pos, h.ourPubKey, h.log, hinit.sendL, hinit.sendP, rfl, hgarbage⟩,
    ⟨happends.grows h.pos List.prefix_rfl ?_, rfl⟩⟩
  rw [hstate]
  simp [stream, V2Transport.awaitVersion, appendTerminator]

theorem appends_sendVersion (hgarbage : t.sendGarbage = pair.garbage side)
    (hinit : pair.Initialized side t.cipher) (state : SendState) (keyPair : Option KeyPair)
    (contents : Bytes) :
    Appends t
      ({ t with hybridKeyPair := keyPair, sendState := state }.appendTerminator.sendVersion
        pair.crypto contents)
      (pair.terminator side ++ pair.encode side 0 ⟨contents, false⟩) := by
  have hcipher : SendsAt pair side t.cipher 0 :=
    ⟨by rw [hinit.sendL, cipherAt_zero], by rw [hinit.sendP, cipherAt_zero]⟩
  refine ⟨rfl, ?_⟩
  rw [← encrypted_eq_encode hcipher ⟨contents, false⟩, ← hinit.sendTerminator, aad, if_pos rfl,
    ← hgarbage, ← List.append_assoc]
  rfl

theorem stream_version (state : SendState) (hstate : state = .awaitingVersion ∨ state = .ready)
    (packet : Packet) :
    pair.stream side [packet] state =
      pair.stream side [] .awaitingKey ++ (pair.terminator side ++ pair.encode side 0 packet) := by
  rcases hstate with rfl | rfl <;> simp [stream]

theorem log_version : pair.Log side [⟨pair.version side, false⟩] :=
  log_nil.concat _ (length_version_lt side) (fun _ => rfl) (fun _ hlength => absurd hlength (by simp))

theorem Sends.sendEmptyVersion (h : Sends pair side t packets)
    (hstate : t.sendState = .awaitingKey) (hinit : pair.Initialized side t.cipher)
    (hmode : pair.mode side = .off) :
    Sends pair side (t.sendEmptyVersion pair.crypto) [⟨pair.version side, false⟩] ∧
      GrowsSilently pair side t packets (t.sendEmptyVersion pair.crypto)
        [⟨pair.version side, false⟩] := by
  have hin := h.state
  rw [hstate] at hin
  obtain ⟨rfl, hgarbage⟩ := hin
  have hclassical : ¬pair.Hybrid := fun hhybrid => ((pair.hybrid_iff side).mp hhybrid).1 hmode
  have happends : Appends t (t.sendEmptyVersion pair.crypto)
      (pair.terminator side ++ pair.encode side 0 ⟨pair.version side, false⟩) := by
    rw [version_of_off hmode]
    exact appends_sendVersion hgarbage hinit .ready t.hybridKeyPair versionContents
  refine ⟨⟨happends.pos h.pos, h.ourPubKey, log_version, by simp, ⟨?_, ?_⟩,
    fun hhybrid => absurd hhybrid hclassical⟩, ⟨happends.grows h.pos List.nil_prefix ?_, rfl⟩⟩
  · rw [cipherAt_of_not_hybrid pair hclassical]
    exact congrArg PacketCipher.next hinit.sendL
  · rw [cipherAt_of_not_hybrid pair hclassical]
    exact congrArg PacketCipher.next hinit.sendP
  · rw [hstate]
    exact stream_version .ready (.inr rfl) _

theorem Sends.sendOffer (h : Sends pair false t packets) (hstate : t.sendState = .awaitingKey)
    (hinit : pair.Initialized false t.cipher) (hmode : pair.mode false ≠ .off) :
    Sends pair false (t.sendOffer pair.crypto pair.keyPair) [⟨pair.version false, false⟩] ∧
      GrowsSilently pair false t packets (t.sendOffer pair.crypto pair.keyPair)
        [⟨pair.version false, false⟩] := by
  have hin := h.state
  rw [hstate] at hin
  obtain ⟨rfl, hgarbage⟩ := hin
  have hoffer : pair.version false = encodeHybridRecord hybridKindOffer pair.keyPair.ek := by
    simp [version, hmode]
  have happends : Appends t (t.sendOffer pair.crypto pair.keyPair)
      (pair.terminator false ++ pair.encode false 0 ⟨pair.version false, false⟩) := by
    rw [hoffer]
    exact appends_sendVersion hgarbage hinit .awaitingVersion (some pair.keyPair) _
  refine ⟨⟨happends.pos h.pos, h.ourPubKey, log_version, ?_, ?_, rfl⟩,
    ⟨happends.grows h.pos List.nil_prefix ?_, rfl⟩⟩
  · exact congrArg PacketCipher.next hinit.sendL
  · exact congrArg PacketCipher.next hinit.sendP
  · rw [hstate]
    exact stream_version .awaitingVersion (.inl rfl) _

/-! ## The version packet -/

theorem Sends.awaitingVersion (h : Sends pair side t packets)
    (hstate : t.sendState = .awaitingVersion) :
    SendsIn pair side t packets .awaitingVersion := by
  have hin := h.state
  rwa [hstate] at hin

theorem Sends.declineHybrid (h : Sends pair side t packets)
    (hstate : t.sendState = .awaitingVersion) (hclassical : ¬pair.Hybrid) :
    ∃ packets', Sends pair side (declineHybrid (pair.config side) t) packets' ∧
      GrowsSilently pair side t packets (declineHybrid (pair.config side) t) packets' := by
  obtain ⟨hsendL, hsendP, hpackets⟩ := h.awaitingVersion hstate
  cases side with
  | false =>
    subst hpackets
    refine ⟨_, ⟨h.pos, h.ourPubKey, h.log, by simp, ⟨?_, ?_⟩,
      fun hhybrid => absurd hhybrid hclassical⟩, ⟨⟨List.prefix_rfl, [], ?_, ?_⟩, rfl⟩⟩
    · rw [cipherAt_of_not_hybrid pair hclassical]
      exact hsendL
    · rw [cipherAt_of_not_hybrid pair hclassical]
      exact hsendP
    · rw [List.append_nil]
      rfl
    · rw [hstate, List.append_nil]
      rfl
  | true =>
    obtain ⟨rfl, hgarbage⟩ := hpackets
    have hcipher : SendsAt pair true t.cipher 0 :=
      ⟨by rw [hsendL, cipherAt_zero]; rfl, by rw [hsendP, cipherAt_zero]; rfl⟩
    have hversion : pair.version true = versionContents := by simp [version, hclassical]
    have happends : Appends t (Net.declineHybrid (pair.config true) t)
        (pair.encode true 0 ⟨pair.version true, false⟩) := by
      refine ⟨rfl, ?_⟩
      rw [← encrypted_eq_encode hcipher, aad, if_pos rfl, ← hgarbage, hversion]
      rfl
    have hnext := hcipher.next fun hhybrid => absurd hhybrid hclassical
    refine ⟨[⟨pair.version true, false⟩], ⟨happends.pos h.pos, h.ourPubKey, log_version,
      by simp, ⟨hnext.sendL, hnext.sendP⟩, fun hhybrid => absurd hhybrid hclassical⟩,
      ⟨happends.grows h.pos List.nil_prefix ?_, rfl⟩⟩
    rw [hstate]
    exact stream_concat [] _ (.inr rfl)

theorem sendsAt_switched (hhybrid : pair.Hybrid) :
    SendsAt pair side (cipher.switched pair.stage2Keys side) 1 :=
  ⟨by rw [cipherAt_one_of_hybrid pair hhybrid]; rfl,
    by rw [cipherAt_one_of_hybrid pair hhybrid]; rfl⟩

/-- The initiator accepts: its version packet is under stage-1 keys, the next one under stage-2
keys. -/
theorem Sends.answerOffer (h : Sends pair true t packets)
    (hstate : t.sendState = .awaitingVersion) (hhybrid : pair.Hybrid)
    {switched : Bip324Cipher} (hswitched : SendsAt pair true switched 1)
    (hours : switched.ourPubKey = t.cipher.ourPubKey) :
    Sends pair true
        (answerOffer pair.crypto (encodeHybridRecord hybridKindAccept pair.encapsulation.ct)
          switched t) [⟨pair.version true, false⟩] ∧
      GrowsSilently pair true t packets
        (answerOffer pair.crypto (encodeHybridRecord hybridKindAccept pair.encapsulation.ct)
          switched t) [⟨pair.version true, false⟩] := by
  obtain ⟨hsendL, hsendP, rfl, hgarbage⟩ := h.awaitingVersion hstate
  have hcipher : SendsAt pair true t.cipher 0 :=
    ⟨by rw [hsendL, cipherAt_zero]; rfl, by rw [hsendP, cipherAt_zero]; rfl⟩
  have hversion : pair.version true =
      encodeHybridRecord hybridKindAccept pair.encapsulation.ct := by
    simp [version, hhybrid]
  have happends : Appends t
      (Net.answerOffer pair.crypto (encodeHybridRecord hybridKindAccept pair.encapsulation.ct)
        switched t) (pair.encode true 0 ⟨pair.version true, false⟩) := by
    refine ⟨rfl, ?_⟩
    rw [← encrypted_eq_encode hcipher, aad, if_pos rfl, ← hgarbage, hversion]
    rfl
  refine ⟨⟨happends.pos h.pos, hours.trans h.ourPubKey, log_version, by simp, hswitched,
    fun _ hfirst => absurd hfirst (by simp [Net.answerOffer])⟩,
    ⟨happends.grows h.pos List.nil_prefix ?_, rfl⟩⟩
  rw [hstate]
  exact stream_concat [] _ (.inr rfl)

/-- The responder confirms: its second packet, an empty decoy, is its first under stage-2 keys. -/
theorem Sends.confirmSwitch (h : Sends pair false t packets)
    (hstate : t.sendState = .awaitingVersion)
    {switched : Bip324Cipher} (hswitched : SendsAt pair false switched 1)
    (hours : switched.ourPubKey = t.cipher.ourPubKey) :
    Sends pair false (confirmSwitch pair.crypto switched t) (packets ++ [⟨[], true⟩]) ∧
      GrowsSilently pair false t packets (confirmSwitch pair.crypto switched t)
        (packets ++ [⟨[], true⟩]) := by
  obtain ⟨-, -, rfl⟩ := h.awaitingVersion hstate
  have happends : Appends t (Net.confirmSwitch pair.crypto switched t)
      (pair.encode false 1 ⟨[], true⟩) := by
    refine ⟨rfl, ?_⟩
    rw [← encrypted_eq_encode hswitched]
    rfl
  have hnext := hswitched.next fun _ => Nat.le_refl 1
  have hlog := h.log.concat ⟨[], true⟩ (by simp) (by simp) fun _ _ => Nat.zero_le _
  refine ⟨⟨happends.pos h.pos, hours.trans h.ourPubKey, hlog, by simp,
    ⟨hnext.sendL, hnext.sendP⟩, fun _ _ => Nat.le_refl 2⟩,
    ⟨happends.grows h.pos (List.prefix_append _ _) ?_, rfl⟩⟩
  rw [hstate]
  exact stream_concat [_] _ (.inr rfl)

/-! ## Messages -/

theorem Sends.sendPacket (h : Sends pair side t packets) (hstate : t.sendState = .ready)
    (packet : Packet) (hshort : packet.contents.length < 2 ^ 24)
    (hfirst : pair.Hybrid → packets.length = 1 →
      packet.contents.length ≤ hybridFirstPacketMaxContents)
    (first : Bool) :
    Sends pair side
        ({ t with hybridFirstSend := first }.sendPacket pair.crypto packet.contents []
          packet.ignore) (packets ++ [packet]) ∧
      Grows pair side t packets
        ({ t with hybridFirstSend := first }.sendPacket pair.crypto packet.contents []
          packet.ignore) (packets ++ [packet]) := by
  have hin := h.state
  rw [hstate] at hin
  obtain ⟨hpackets, hcipher, -⟩ := hin
  have hcount : packets.length ≠ 0 := fun hzero => hpackets (List.length_eq_zero_iff.mp hzero)
  have happends : Appends t
      ({ t with hybridFirstSend := first }.sendPacket pair.crypto packet.contents []
        packet.ignore) (pair.encode side packets.length packet) := by
    refine ⟨rfl, ?_⟩
    rw [← encrypted_eq_encode hcipher, aad, if_neg hcount]
    rfl
  have hnext := hcipher.next fun _ => Nat.one_le_iff_ne_zero.mpr hcount
  have hlog := h.log.concat packet hshort (fun hnil => absurd hnil hpackets) hfirst
  have hlength : (packets ++ [packet]).length = packets.length + 1 := by simp
  refine ⟨⟨happends.pos h.pos, h.ourPubKey, hlog, ?_⟩,
    happends.grows h.pos (List.prefix_append _ _) ?_⟩
  · change SendsIn pair side _ (packets ++ [packet]) t.sendState
    rw [hstate]
    refine ⟨by simp, ?_, fun _ _ => by omega⟩
    rw [hlength]
    exact ⟨hnext.sendL, hnext.sendP⟩
  · change pair.stream side (packets ++ [packet]) t.sendState = _
    exact stream_concat packets packet (.inr hstate)

/-- A message that is accepted goes out as one packet, after a decoy if it is long and the first
under stage-2 keys. -/
theorem Sends.setMessageToSend {msg : NetMsg} (h : Sends pair side t packets)
    (hshort : (encodeContents msg).length < 2 ^ 24)
    (hset : setMessageToSend (pair.config side) msg t = some t') :
    ∃ decoys : List Packet, (∀ decoy ∈ decoys, decoy.ignore = true) ∧
      Sends pair side t' (packets ++ decoys ++ [⟨encodeContents msg, false⟩]) ∧
      Grows pair side t packets t' (packets ++ decoys ++ [⟨encodeContents msg, false⟩]) := by
  rw [Net.setMessageToSend, if_neg h.not_v1, Option.ite_none_right_eq_some] at hset
  obtain ⟨⟨hstate, -⟩, hset⟩ := hset
  cases hset
  have hin := h.state
  rw [hstate] at hin
  obtain ⟨hpackets, -, hsmall⟩ := hin
  rw [sendFirstDecoy]
  split_ifs with hexchange hlong
  · -- the decoy takes the place of the first packet
    have hmany : packets.length + 1 ≠ 1 := by
      have := List.length_pos_iff.mpr hpackets
      omega
    obtain ⟨hsends, hgrows⟩ :=
      h.sendPacket hstate ⟨[], true⟩ (by simp) (fun _ _ => Nat.zero_le _) false
    obtain ⟨hsends', hgrows'⟩ := hsends.sendPacket hstate ⟨encodeContents msg, false⟩ hshort
      (fun _ hone => absurd (by simpa using hone) hmany) false
    exact ⟨[⟨[], true⟩], by simp, ⟨hsends'.pos, hsends'.ourPubKey, hsends'.log, hsends'.state⟩,
      hgrows.trans hgrows'⟩
  · obtain ⟨hsends, hgrows⟩ := h.sendPacket hstate ⟨encodeContents msg, false⟩ hshort
      (fun _ _ => Nat.le_of_not_lt hlong) false
    refine ⟨[], by simp, ?_⟩
    rw [List.append_nil]
    exact ⟨⟨hsends.pos, hsends.ourPubKey, hsends.log, hsends.state⟩, hgrows⟩
  · have hlater (hhybrid : pair.Hybrid) (hone : packets.length = 1) :
        (encodeContents msg).length ≤ hybridFirstPacketMaxContents := by
      have hmode : pair.mode side ≠ .off := ((pair.hybrid_iff side).mp hhybrid).1
      have hfirst : t.hybridFirstSend = false := by
        by_contra htrue
        exact hexchange ⟨hmode, by simpa using htrue⟩
      have := hsmall hhybrid hfirst
      omega
    obtain ⟨hsends, hgrows⟩ := h.sendPacket hstate ⟨encodeContents msg, false⟩ hshort hlater
      t.hybridFirstSend
    refine ⟨[], by simp, ?_⟩
    rw [List.append_nil]
    exact ⟨⟨hsends.pos, hsends.ourPubKey, hsends.log, hsends.state⟩, hgrows⟩

theorem Sends.markBytesSent (h : Sends pair side t packets) {count : ℕ}
    (hcount : count ≤ (pendingBytes t).length) :
    Sends pair side (markBytesSent (pair.config side) count t) packets ∧
      pendingBytes (markBytesSent (pair.config side) count t) = (pendingBytes t).drop count ∧
      (markBytesSent (pair.config side) count t).sendState = t.sendState := by
  have hlength : t.sendPos + count ≤ t.sendBuffer.length := by
    have hpos := h.pos
    rw [pendingBytes, List.length_drop] at hcount
    omega
  rw [Net.markBytesSent, if_neg h.not_v1]
  split_ifs with hall
  · refine ⟨⟨Nat.le_refl _, h.ourPubKey, h.log, ?_⟩, ?_, rfl⟩
    · have hin := h.state
      change SendsIn pair side _ packets t.sendState
      cases hstate : t.sendState with
      | maybeV1 =>
        rw [hstate] at hin
        exact ⟨hin.1, hin.2.1, rfl⟩
      | awaitingKey => rw [hstate] at hin; exact hin
      | awaitingVersion => rw [hstate] at hin; exact hin
      | ready => rw [hstate] at hin; exact hin
      | v1 => exact absurd hstate h.not_v1
    · simp only [pendingBytes, List.drop_drop, hall, List.drop_length, List.drop_zero]
  · refine ⟨⟨hlength, h.ourPubKey, h.log, h.state⟩, ?_, rfl⟩
    simp only [pendingBytes, List.drop_drop]

end XCoin.Net
