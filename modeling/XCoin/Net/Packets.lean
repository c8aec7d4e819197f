import XCoin.Net.Receiving

/-!
# Packets of an honest peer

The rounds of the receive loop inside a packet: the length, then the contents, then what
the packet is used for.  Packet 0 is the version packet.  With it a side stays classical,
switches to stage-2 keys or refuses; every later packet is a message or a decoy, and in a
hybrid session packet 1 confirms the keys.
-/

namespace XCoin.Net

open V2Transport HonestPair

variable {V1 : Type} {pair : HonestPair V1} {side : Bool} {t t' : V2Transport V1}
  {own peer : List Packet} {state : SendState} {unread : Bytes} {count : ℕ} {packet : Packet}
  {phase : Phase}

/-! ## Position in the stream -/

theorem exists_next_packet (hcount : count ≤ peer.length) (hnonempty : t.recvBuffer ≠ [])
    (hstream : pair.readBytes (!side) peer (.packets count) ++ (t.recvBuffer ++ unread) =
      pair.stream (!side) peer state) :
    ∃ packet, peer[count]? = some packet ∧
      t.recvBuffer ++ unread = pair.encode (!side) count packet ++
        Framing.encodeAll (pair.encode (!side)) (count + 1) (peer.drop (count + 1)) := by
  have hunread : t.recvBuffer ++ unread ≠ [] := fun hnil =>
    hnonempty (List.append_eq_nil_iff.mp hnil).1
  have hlength := congrArg List.length hstream
  simp only [readBytes, List.append_assoc] at hstream
  simp only [readBytes, List.length_append] at hlength
  have hbuffer := List.length_pos_iff.mpr hnonempty
  cases state with
  | maybeV1 =>
    simp only [stream, List.length_nil] at hlength
    omega
  | v1 =>
    simp only [stream, List.length_nil] at hlength
    omega
  | awaitingKey =>
    simp only [stream, List.length_append] at hlength
    omega
  | awaitingVersion =>
    exact Framing.exists_next_of_not_end hcount hunread
      (List.append_cancel_left (List.append_cancel_left (List.append_cancel_left hstream)))
  | ready =>
    exact Framing.exists_next_of_not_end hcount hunread
      (List.append_cancel_left (List.append_cancel_left (List.append_cancel_left hstream)))

theorem readBytes_succ (hpacket : peer[count]? = some packet) :
    pair.readBytes (!side) peer (.packets (count + 1)) =
      pair.readBytes (!side) peer (.packets count) ++ pair.encode (!side) count packet := by
  simp only [readBytes, Framing.encodeAll_take_succ hpacket, List.append_assoc]

theorem messageContents_take_succ (hpacket : peer[count]? = some packet) :
    messageContents (peer.take (count + 1)) =
      messageContents (peer.take count) ++
        if count = 0 ∨ packet.ignore = true then [] else [packet.contents] := by
  rw [List.take_add_one, hpacket, Option.toList_some]
  have hlength : (peer.take count).length = count := by
    have := (List.getElem?_eq_some_iff.mp hpacket).1
    rw [List.length_take]
    omega
  by_cases hzero : count = 0
  · subst hzero
    simp [messageContents]
  · have hone : 1 ≤ (peer.take count).length := by omega
    rw [messageContents, messageContents, List.drop_append_of_le_length hone, List.filter_append,
      List.map_append]
    cases hignore : packet.ignore <;> simp [hzero, hignore]

/-! ## The length -/

theorem length_le_of_awaitsConfirmation (hkeyed : Keyed pair side t count)
    (hlog : pair.Log (!side) peer) (hpacket : peer[count]? = some packet)
    (hwaits : awaitsConfirmation (pair.config side) t) :
    packet.contents.length ≤ hybridFirstPacketMaxContents := by
  have hstate := hkeyed.hybridState hwaits.1
  rw [hwaits.2, hybridStateAt] at hstate
  split_ifs at hstate with hzero hhybrid hone
  subst hone
  exact hlog.first hhybrid packet hpacket

theorem checkLength_eq_ok (hkeyed : Keyed pair side t count) (hlog : pair.Log (!side) peer)
    (hpacket : peer[count]? = some packet) (hlen : t.recvLen = packet.contents.length) :
    checkLength (pair.config side) t = .ok t := by
  have hshort := hlog.short packet (List.mem_of_getElem? hpacket)
  have hmax : 2 ^ 24 ≤ maxContentsLen := by decide
  rw [checkLength, if_neg, if_neg]
  · omega
  · rintro ⟨hwaits, hlong⟩
    have := length_le_of_awaitsConfirmation hkeyed hlog hpacket hwaits
    omega

/-! ## Opening a packet -/

theorem stage2At_succ (hcount : 1 ≤ count) : pair.Stage2At (count + 1) ↔ pair.Stage2At count := by
  simp only [Stage2At, hcount, and_true, and_iff_left_iff_imp]
  intro
  omega

/-- After the version packet every packet moves the session on by one. -/
theorem Keyed.openPacket (hkeyed : Keyed pair side t count) (hcount : 1 ≤ count)
    (contents : Bytes) :
    Keyed pair side (openPacket (pair.config side) contents t) (count + 1) where
  recvP := by
    rw [pair.cipherAt_succ _ fun _ => hcount, ← hkeyed.recvP]
    rfl
  sessionId := by
    rw [sessionIdAt, if_congr (stage2At_succ hcount) rfl rfl]
    exact hkeyed.sessionId
  stage2 := by
    rw [stage2At_succ hcount]
    exact hkeyed.stage2
  hybridState hmode := by
    have hstate := hkeyed.hybridState hmode
    have hwaits : awaitsConfirmation (pair.config side) t ↔ t.hybridState = .unconfirmed :=
      and_iff_right hmode
    have hzero : count ≠ 0 := by omega
    simp only [Net.openPacket, if_congr hwaits rfl rfl, hstate, hybridStateAt, hzero, if_false,
      Nat.add_one_ne_zero]
    by_cases hhybrid : pair.Hybrid
    · by_cases hone : count = 1 <;> simp [hhybrid, hone, hzero]
    · simp [hhybrid]
  authenticated := by
    rw [stage2Authenticated_openPacket, hkeyed.stage2, hkeyed.authenticated, Stage2At]
    constructor
    · rintro (⟨hhybrid, -⟩ | ⟨hhybrid, -⟩) <;> exact ⟨hhybrid, by omega⟩
    · rintro ⟨hhybrid, -⟩
      exact .inl ⟨hhybrid, hcount⟩
  secret hzero := absurd hzero (by omega)
  keyPair hzero := absurd hzero (by omega)
  allowed _ := hkeyed.allowed hcount

/-- The state after opening the version packet. -/
structure VersionOpened (pair : HonestPair V1) (side : Bool) (t : V2Transport V1) : Prop where
  recvL : t.cipher.recvL = ⟨lengthKey (!side) pair.stage1Keys, 1⟩
  recvP : t.cipher.recvP = ⟨packetKey (!side) pair.stage1Keys, 1⟩
  sessionId : t.cipher.sessionId = pair.stage1Keys.sessionId
  stage2 : t.cipher.stage2 = false
  authenticated : ¬stage2Authenticated t
  secret : pair.mode side ≠ .off → t.cipher.stage2Secret = some (pair.stage2Secret side)
  keyPair : pair.mode side ≠ .off → side = false → t.hybridKeyPair = some pair.keyPair
  contents : t.recvDecodeBuffer = pair.version (!side)

theorem Keyed.versionOpened (hkeyed : Keyed pair side t 0)
    (hrecvL : t.cipher.recvL = (pair.cipherAt (lengthKey (!side)) 0).next) :
    VersionOpened pair side (Net.openPacket (pair.config side) (pair.version (!side)) t) := by
  have hstage2 : t.cipher.stage2 = false := by
    rw [Bool.eq_false_iff, ne_eq, hkeyed.stage2]
    exact fun h => absurd h.2 (by decide)
  exact
    { recvL := by
        rw [cipherAt_zero] at hrecvL
        exact hrecvL
      recvP := by
        have hrecvP := hkeyed.recvP
        rw [cipherAt_zero] at hrecvP
        exact congrArg PacketCipher.next hrecvP
      sessionId := hkeyed.sessionId.trans pair.sessionIdAt_zero
      stage2 := hstage2
      authenticated := by
        rw [stage2Authenticated_openPacket, hstage2, hkeyed.authenticated]
        simp
      secret := hkeyed.secret rfl
      keyPair := hkeyed.keyPair rfl
      contents := rfl }

/-- The version packet has been used: the session is ready for packet 1. -/
structure VersionDone (pair : HonestPair V1) (side : Bool) (t : V2Transport V1)
    (own : List Packet) (t' : V2Transport V1) (own' : List Packet) : Prop where
  sends : Sends pair side t' own'
  grows : GrowsSilently pair side t own t' own'
  keyed : Keyed pair side t' 1
  recvL : t'.cipher.recvL = pair.cipherAt (lengthKey (!side)) 1
  recvAad : t'.recvAad = t.recvAad
  sendState : t'.sendState = .ready

theorem keyed_one_of_classical (hclassical : ¬pair.Hybrid) (hallowed : ¬pair.Refuses side)
    (hrecvP : t.cipher.recvP = ⟨packetKey (!side) pair.stage1Keys, 1⟩)
    (hsessionId : t.cipher.sessionId = pair.stage1Keys.sessionId)
    (hstage2 : t.cipher.stage2 = false) (hauthenticated : ¬stage2Authenticated t)
    (hstate : pair.mode side ≠ .off → t.hybridState = .classical) : Keyed pair side t 1 where
  recvP := by rw [hrecvP, cipherAt_of_not_hybrid pair hclassical]
  sessionId := by rw [hsessionId, sessionIdAt, if_neg fun h => hclassical h.1]
  stage2 := by simp [hstage2, Stage2At, hclassical]
  hybridState hmode := by simp [hstate hmode, hybridStateAt, hclassical]
  authenticated := by simp [hauthenticated, hclassical]
  secret hzero := absurd hzero (by decide)
  keyPair hzero := absurd hzero (by decide)
  allowed _ := hallowed

/-- A hybrid session goes on under stage-2 keys, which the peer has still to confirm. -/
theorem keyed_one_of_hybrid (hhybrid : pair.Hybrid)
    (hrecvP : t.cipher.recvP = ⟨packetKey (!side) pair.stage2Keys, 0⟩)
    (hsessionId : t.cipher.sessionId = pair.stage2Keys.sessionId)
    (hstage2 : t.cipher.stage2 = true) (hauthenticated : ¬stage2Authenticated t)
    (hstate : t.hybridState = .unconfirmed) : Keyed pair side t 1 where
  recvP := by rw [hrecvP, cipherAt_one_of_hybrid pair hhybrid]
  sessionId := by rw [hsessionId, sessionIdAt, if_pos ⟨hhybrid, Nat.le_refl 1⟩]
  stage2 := by simp [hstage2, Stage2At, hhybrid]
  hybridState _ := by simp [hstate, hybridStateAt, hhybrid]
  authenticated := by simp [hauthenticated]
  secret hzero := absurd hzero (by decide)
  keyPair hzero := absurd hzero (by decide)
  allowed _ hrefuses := ((pair.hybrid_iff side).mp hhybrid).2 hrefuses.2

theorem recv_switched (side : Bool) (cipher : Bip324Cipher) (keys : SessionKeys) :
    (cipher.switched keys side).recvL = ⟨lengthKey (!side) keys, 0⟩ ∧
      (cipher.switched keys side).recvP = ⟨packetKey (!side) keys, 0⟩ := by
  cases side <;> exact ⟨rfl, rfl⟩

/-! ## The version packet -/

theorem processHybridVersion_classical (hopened : VersionOpened pair side t)
    (hsends : Sends pair side t own) (hstate : t.sendState = .awaitingVersion)
    (hrecv : t.recvState = .version) (hmode : pair.mode side ≠ .off)
    (hoff : pair.mode (!side) = .off) :
    (processHybridVersion (pair.config side) t).Satisfies (Refused pair side t own)
      fun t' => ∃ own', VersionDone pair side t own t' own' := by
  have hclassical : ¬pair.Hybrid := fun hhybrid => ((pair.hybrid_iff side).mp hhybrid).2 hoff
  have hrecord := classify_version hmode
  rw [if_pos hoff, ← hopened.contents] at hrecord
  have hrecvL := hopened.recvL.trans (cipherAt_of_not_hybrid pair hclassical _ 1).symm
  have htag : Sends pair side { t with hybridTagSeen := false } own := { hsends with }
  rw [@processHybridVersion_of_none _ (pair.config side) _ hrecord, stayClassical]
  split_ifs with hrequire
  · exact ⟨⟨⟨hrequire, hoff⟩, rfl, rfl, hopened.stage2,
      hsends.of_eq rfl rfl rfl rfl rfl rfl rfl rfl, hstate, hrecv⟩, GrowsSilently.of_eq rfl rfl rfl⟩
  · obtain ⟨own', hsends', hgrows⟩ := htag.declineHybrid hstate hclassical
    refine ⟨own', hsends', hgrows, ?_, ?_, ?_, rfl⟩
    · have hallowed : ¬pair.Refuses side := fun hrefuses => hrequire hrefuses.1
      cases side <;>
        exact keyed_one_of_classical hclassical hallowed hopened.recvP hopened.sessionId
          hopened.stage2 hopened.authenticated fun _ => rfl
    · cases side <;> exact hrecvL
    · cases side <;> rfl

theorem processHybridVersion_initiator (hopened : VersionOpened pair true t)
    (hsends : Sends pair true t own) (hstate : t.sendState = .awaitingVersion)
    (hhybrid : pair.Hybrid) :
    ∃ t' own', processHybridVersion (pair.config true) t = .ok t' ∧
      VersionDone pair true t own t' own' := by
  have hrecord : classifyHybridRecord t.recvDecodeBuffer (expectedKind true) =
      .valid pair.keyPair.ek := by
    rw [hopened.contents]
    exact (classify_version hhybrid.1).trans (if_neg hhybrid.2)
  have haccept : acceptOffer (pair.config true) pair.keyPair.ek { t with hybridTagSeen := true } =
      .ok (answerOffer pair.crypto (encodeHybridRecord hybridKindAccept pair.encapsulation.ct)
        (t.cipher.afterEncrypt.switched pair.stage2Keys true) { t with hybridTagSeen := true }) :=
    acceptOffer_eq_ok pair.checkEncapsKey pair.encaps
      (switchToStage2_eq (hopened.secret hhybrid.1))
  have htag : Sends pair true { t with hybridTagSeen := true } own := { hsends with }
  obtain ⟨hsends', hgrows⟩ := htag.answerOffer hstate hhybrid (sendsAt_switched hhybrid) rfl
  obtain ⟨hrecvL, hrecvP⟩ := recv_switched true t.cipher.afterEncrypt pair.stage2Keys
  refine ⟨_, _, (@processHybridVersion_of_valid _ (pair.config true) _ _ hrecord).trans haccept,
    hsends', hgrows, ?_, ?_, rfl, rfl⟩
  · exact keyed_one_of_hybrid hhybrid hrecvP rfl rfl hopened.authenticated rfl
  · exact hrecvL.trans (cipherAt_one_of_hybrid pair hhybrid _).symm

theorem processHybridVersion_responder (hopened : VersionOpened pair false t)
    (hsends : Sends pair false t own) (hstate : t.sendState = .awaitingVersion)
    (hhybrid : pair.Hybrid) :
    ∃ t' own', processHybridVersion (pair.config false) t = .ok t' ∧
      VersionDone pair false t own t' own' := by
  have hrecord : classifyHybridRecord t.recvDecodeBuffer (expectedKind false) =
      .valid pair.encapsulation.ct := by
    rw [hopened.contents]
    exact (classify_version hhybrid.2).trans (if_neg hhybrid.1)
  have htake : takeAccept (pair.config false) pair.encapsulation.ct
      { t with hybridTagSeen := true } =
      .ok (confirmSwitch pair.crypto (t.cipher.switched pair.stage2Keys false)
        { t with hybridTagSeen := true }) :=
    takeAccept_eq_ok (hopened.keyPair hhybrid.2 rfl) pair.decaps
      (switchToStage2_eq (hopened.secret hhybrid.2))
  have htag : Sends pair false { t with hybridTagSeen := true } own := { hsends with }
  obtain ⟨hsends', hgrows⟩ := htag.confirmSwitch hstate (sendsAt_switched hhybrid) rfl
  obtain ⟨hrecvL, hrecvP⟩ := recv_switched false t.cipher pair.stage2Keys
  refine ⟨_, _, (@processHybridVersion_of_valid _ (pair.config false) _ _ hrecord).trans htake,
    hsends', hgrows, ?_, ?_, rfl, rfl⟩
  · exact keyed_one_of_hybrid hhybrid hrecvP rfl rfl hopened.authenticated rfl
  · exact hrecvL.trans (cipherAt_one_of_hybrid pair hhybrid _).symm

theorem usePacket_version (hopened : VersionOpened pair side t) (hsends : Sends pair side t own)
    (hstate : t.sendState = Phase.sendState (pair.mode side) (.packets 0))
    (hrecv : t.recvState = .version) :
    (usePacket (pair.config side) t).Satisfies (Refused pair side t own)
      fun t' => t'.recvState = .app ∧ ∃ own', VersionDone pair side t own t' own' := by
  by_cases hmode : pair.mode side = .off
  · have hclassical : ¬pair.Hybrid := fun hhybrid => ((pair.hybrid_iff side).mp hhybrid).1 hmode
    rw [Phase.sendState, if_pos hmode] at hstate
    rw [@usePacket_of_off _ (pair.config side) _ hrecv hmode]
    refine ⟨rfl, own, { hsends with }, GrowsSilently.of_eq rfl rfl rfl, ?_, ?_, rfl, hstate⟩
    · have hallowed : ¬pair.Refuses side := fun hrefuses => by
        simp [Refuses, hmode] at hrefuses
      exact keyed_one_of_classical hclassical hallowed hopened.recvP hopened.sessionId
        hopened.stage2 hopened.authenticated fun hhybrid => absurd hmode hhybrid
    · exact hopened.recvL.trans (cipherAt_of_not_hybrid pair hclassical _ 1).symm
  · rw [Phase.sendState, if_neg hmode] at hstate
    rw [@usePacket_of_hybrid _ (pair.config side) _ hrecv hmode]
    have hversion : (processHybridVersion (pair.config side) t).Satisfies (Refused pair side t own)
        fun t' => ∃ own', VersionDone pair side t own t' own' := by
      by_cases hoff : pair.mode (!side) = .off
      · exact processHybridVersion_classical hopened hsends hstate hrecv hmode hoff
      · have hhybrid : pair.Hybrid := (pair.hybrid_iff side).mpr ⟨hmode, hoff⟩
        cases side with
        | true =>
          obtain ⟨t', own', hprocess, hdone⟩ :=
            processHybridVersion_initiator hopened hsends hstate hhybrid
          rw [hprocess]
          exact ⟨own', hdone⟩
        | false =>
          obtain ⟨t', own', hprocess, hdone⟩ :=
            processHybridVersion_responder hopened hsends hstate hhybrid
          rw [hprocess]
          exact ⟨own', hdone⟩
    revert hversion
    cases processHybridVersion (pair.config side) t with
    | error t' => exact id
    | ok t' =>
      rintro ⟨own', hdone⟩
      exact ⟨rfl, own', { hdone.sends with }, hdone.grows, { hdone.keyed with }, hdone.recvL,
        hdone.recvAad, hdone.sendState⟩

/-! ## The whole packet -/

/-- What using packet `count` leaves for the next one. -/
structure PacketUsed (pair : HonestPair V1) (side : Bool) (t : V2Transport V1)
    (own : List Packet) (count : ℕ) (packet : Packet) (t' : V2Transport V1) (own' : List Packet) :
    Prop where
  sends : Sends pair side t' own'
  grows : GrowsSilently pair side t own t' own'
  keyed : Keyed pair side t' (count + 1)
  recvL : t'.cipher.recvL = pair.cipherAt (lengthKey (!side)) (count + 1)
  recvAad : t'.recvAad = []
  sendState : t'.sendState = .ready
  used : if count = 0 ∨ packet.ignore = true then t'.recvState = .app
    else t'.recvState = .appReady ∧ t'.recvDecodeBuffer = packet.contents

theorem PacketUsed.advances {own' : List Packet}
    (hused : PacketUsed pair side t own count packet t' own')
    (hlog : pair.Log (!side) peer) (hpacket : peer[count]? = some packet)
    (hbuffer : t.recvBuffer = pair.encode (!side) count packet)
    (hstream : pair.readBytes (!side) peer (.packets count) ++ (t.recvBuffer ++ unread) =
      pair.stream (!side) peer state) :
    Advances pair side t own peer (.packets count) unread state (wipePacket t') := by
  have hlt : count < peer.length := (List.getElem?_eq_some_iff.mp hpacket).1
  have hposition : pair.readBytes (!side) peer (.packets (count + 1)) ++ ([] ++ unread) =
      pair.stream (!side) peer state := by
    rw [readBytes_succ hpacket, ← hbuffer, List.nil_append, List.append_assoc]
    exact hstream
  have hcase := hused.used
  refine ⟨own', .packets (count + 1), ⟨{ hused.sends with }, ⟨{ hused.keyed with }, hused.recvAad,
    hlt, ?_⟩, hused.sendState, hlog, hposition⟩, hused.grows, ?_⟩
  · split_ifs at hcase with hsilent
    · exact .inl ⟨hcase, .inl ⟨show 0 < lengthLen by decide, hused.recvL⟩⟩
    · refine .inr ⟨hcase.1, rfl, hused.recvL, by omega, ?_⟩
      have hignore : packet.ignore = false := by
        simpa using fun h => hsilent (.inr h)
      rw [wipePacket, if_pos hcase.1, hcase.2, Nat.add_sub_cancel, hpacket, ← hignore]
  · simp only [Phase.read, messageContents_take_succ hpacket, List.append_cancel_left_eq,
      waitingContents, wipePacket]
    split_ifs at hcase ⊢ with hsilent hready <;> simp_all

theorem satisfies_map_wipePacket {result : Except (V2Transport V1) (V2Transport V1)}
    (hresult : result.Satisfies (Refused pair side t own)
      fun t' => ∃ own', PacketUsed pair side t own count packet t' own')
    (hlog : pair.Log (!side) peer) (hpacket : peer[count]? = some packet)
    (hbuffer : t.recvBuffer = pair.encode (!side) count packet)
    (hstream : pair.readBytes (!side) peer (.packets count) ++ (t.recvBuffer ++ unread) =
      pair.stream (!side) peer state) :
    (result.map wipePacket).Satisfies (Refused pair side t own)
      (Advances pair side t own peer (.packets count) unread state) := by
  cases result with
  | error t' => exact hresult
  | ok t' =>
    obtain ⟨own', hused⟩ := hresult
    exact hused.advances hlog hpacket hbuffer hstream

theorem packetUsed_openPacket (hsends : Sends pair side t own)
    (hstate : t.sendState = Phase.sendState (pair.mode side) (.packets count))
    (hkeyed : Keyed pair side t count)
    (hrecvL : t.cipher.recvL = (pair.cipherAt (lengthKey (!side)) count).next)
    (hcount : 1 ≤ count) (hrecv : t'.recvState = if packet.ignore then .app else .appReady)
    (hopened : t' = { openPacket (pair.config side) packet.contents t with
      recvState := t'.recvState }) :
    PacketUsed pair side t own count packet t' own := by
  have hready : t.sendState = .ready := by
    rw [hstate]
    obtain ⟨previous, rfl⟩ : ∃ previous, count = previous + 1 := ⟨count - 1, by omega⟩
    rfl
  have hnext := (pair.cipherAt_succ (lengthKey (!side)) fun _ => hcount).trans hrecvL.symm
  have hkeyed' := hkeyed.openPacket hcount packet.contents
  rw [hopened]
  refine ⟨hsends.of_eq rfl rfl rfl rfl rfl rfl rfl rfl, GrowsSilently.of_eq rfl rfl rfl,
    { hkeyed' with }, hnext.symm, rfl, hready, ?_⟩
  have hzero : count ≠ 0 := by omega
  cases hignore : packet.ignore with
  | true =>
    rw [if_pos (.inr rfl)]
    rw [hignore] at hrecv
    exact hrecv
  | false =>
    rw [if_neg (by simp [hzero])]
    rw [hignore] at hrecv
    exact ⟨hrecv, rfl⟩

theorem advances_processPacket (hsends : Sends pair side t own)
    (hstate : t.sendState = Phase.sendState (pair.mode side) (.packets count))
    (hkeyed : Keyed pair side t count) (haad : t.recvAad = pair.aad (!side) count)
    (hrecv : t.recvState = packetState count)
    (hrecvL : t.cipher.recvL = (pair.cipherAt (lengthKey (!side)) count).next)
    (hlog : pair.Log (!side) peer) (hpacket : peer[count]? = some packet)
    (hbuffer : t.recvBuffer = pair.encode (!side) count packet)
    (hstream : pair.readBytes (!side) peer (.packets count) ++ (t.recvBuffer ++ unread) =
      pair.stream (!side) peer state) :
    (processPacket (pair.config side) t).Satisfies (Refused pair side t own)
      (Advances pair side t own peer (.packets count) unread state) := by
  have hdecrypted : t.cipher.decrypted (pair.config side).crypto (t.recvBuffer.drop lengthLen)
      t.recvAad = some (packet.ignore, packet.contents) := by
    rw [hbuffer, haad]
    exact decrypted_encode hkeyed.recvP
  rw [processPacket_of_decrypted hdecrypted]
  by_cases hzero : count = 0
  · -- the version packet
    subst hzero
    have hversion := hlog.version packet hpacket
    subst hversion
    rw [if_neg (by simp)]
    refine satisfies_map_wipePacket ?_ hlog hpacket hbuffer hstream
    have hopened := hkeyed.versionOpened hrecvL
    have hsends' : Sends pair side (openPacket (pair.config side) (pair.version (!side)) t) own :=
      hsends.of_eq rfl rfl rfl rfl rfl rfl rfl rfl
    have huse := usePacket_version hopened hsends' hstate hrecv
    revert huse
    cases usePacket (pair.config side)
        (openPacket (pair.config side) (pair.version (!side)) t) with
    | error t' =>
      intro hrefused
      exact { hrefused with }
    | ok t' =>
      rintro ⟨happ, own', hdone⟩
      exact ⟨own', hdone.sends, hdone.grows, hdone.keyed, hdone.recvL, hdone.recvAad,
        hdone.sendState, happ⟩
  · have hcount : 1 ≤ count := Nat.one_le_iff_ne_zero.mpr hzero
    have happ : t.recvState = .app := by rw [hrecv, packetState, if_neg hzero]
    cases hignore : packet.ignore with
    | true =>
      rw [if_pos rfl]
      have hused : PacketUsed pair side t own count packet
          (openPacket (pair.config side) packet.contents t) own :=
        packetUsed_openPacket hsends hstate hkeyed hrecvL hcount
          (by rw [hignore]; exact happ) rfl
      exact hused.advances hlog hpacket hbuffer hstream
    | false =>
      have happ' : (openPacket (pair.config side) packet.contents t).recvState = .app := happ
      rw [if_neg (by simp), usePacket_of_app happ']
      have hused : PacketUsed pair side t own count packet
          { openPacket (pair.config side) packet.contents t with recvState := .appReady } own :=
        packetUsed_openPacket hsends hstate hkeyed hrecvL hcount (by rw [hignore]; rfl) rfl
      exact hused.advances hlog hpacket hbuffer hstream

/-! ## Bytes of a packet -/

/-- The receive buffer after a round has appended bytes: it may have reached the end of the length
or of the packet. -/
def Reached (pair : HonestPair V1) (side : Bool) (t : V2Transport V1) (peer : List Packet)
    (count : ℕ) : Prop :=
  (t.recvBuffer.length ≤ lengthLen ∧
    t.cipher.recvL = pair.cipherAt (lengthKey (!side)) count) ∨
  (lengthLen < t.recvBuffer.length ∧
    t.cipher.recvL = (pair.cipherAt (lengthKey (!side)) count).next ∧
    ∃ packet, peer[count]? = some packet ∧ t.recvLen = packet.contents.length ∧
      t.recvBuffer.length ≤ t.recvLen + expansion)

theorem advances_inside (hsends : Sends pair side t' own)
    (hgrows : GrowsSilently pair side t own t' own)
    (hstate : t'.sendState = Phase.sendState (pair.mode side) (.packets count))
    (hkeyed : Keyed pair side t' count) (haad : t'.recvAad = pair.aad (!side) count)
    (hcount : count ≤ peer.length) (hrecv : t'.recvState = packetState count)
    (hframed : Framed pair side t' peer count) (hlog : pair.Log (!side) peer)
    (hstream : pair.readBytes (!side) peer (.packets count) ++ (t'.recvBuffer ++ unread) =
      pair.stream (!side) peer state) :
    Advances pair side t own peer (.packets count) unread state t' := by
  have hnone : waitingContents t' = [] := by
    rw [waitingContents, hrecv, packetState]
    split_ifs <;> simp_all
  refine ⟨own, .packets count, ⟨hsends, ⟨hkeyed, haad, hcount, .inl ⟨hrecv, hframed⟩⟩, hstate, hlog,
    hstream⟩, hgrows, ?_⟩
  rw [hnone, List.append_nil]

theorem advances_packets (hsends : Sends pair side t own)
    (hstate : t.sendState = Phase.sendState (pair.mode side) (.packets count))
    (hkeyed : Keyed pair side t count) (haad : t.recvAad = pair.aad (!side) count)
    (hcount : count ≤ peer.length) (hrecv : t.recvState = packetState count)
    (hreached : Reached pair side t peer count) (hnonempty : t.recvBuffer ≠ [])
    (hlog : pair.Log (!side) peer)
    (hstream : pair.readBytes (!side) peer (.packets count) ++ (t.recvBuffer ++ unread) =
      pair.stream (!side) peer state) :
    (processReceivedPacketBytes (pair.config side) t).Satisfies (Refused pair side t own)
      (Advances pair side t own peer (.packets count) unread state) := by
  obtain ⟨packet, hpacket, hposition⟩ := exists_next_packet hcount hnonempty hstream
  have hlength := pair.length_encode (!side) count packet
  rw [processReceivedPacketBytes]
  rcases hreached with ⟨hle, hrecvL⟩ | ⟨hlong, hrecvL, known, hknown, hlen, hle⟩
  · by_cases hcomplete : t.recvBuffer.length = lengthLen
    · -- the length is complete
      have hexpansion : lengthLen ≤ expansion := by decide
      have htake : t.recvBuffer = (pair.encode (!side) count packet).take lengthLen := by
        rw [← hcomplete]
        exact List.prefix_iff_eq_take.mp
          (Framing.isPrefix_of_append_eq hposition (by omega))
      have hshort := hlog.short packet (List.mem_of_getElem? hpacket)
      have hlen : (decryptLength (pair.config side) t).recvLen = packet.contents.length := by
        rw [decryptLength, htake]
        exact decryptedLength_encode hrecvL hshort
      have hkeyed' : Keyed pair side (decryptLength (pair.config side) t) count := { hkeyed with }
      rw [if_pos hcomplete, checkLength_eq_ok hkeyed' hlog hpacket hlen]
      refine advances_inside (hsends.of_eq rfl rfl rfl rfl rfl rfl rfl rfl)
        (GrowsSilently.of_eq rfl rfl rfl) hstate hkeyed' haad hcount hrecv (.inr ⟨hcomplete.ge, ?_, packet,
        hpacket, hlen, ?_⟩) hlog hstream
      · rw [← hrecvL]
        rfl
      · have hroom : lengthLen < expansion := by decide
        change t.recvBuffer.length < _
        omega
    · rw [if_neg hcomplete, if_neg (by omega)]
      exact advances_inside hsends GrowsSilently.refl hstate hkeyed haad hcount hrecv
        (.inl ⟨by omega, hrecvL⟩) hlog hstream
  · have hsame : known = packet := Option.some.inj (hknown.symm.trans hpacket)
    subst hsame
    rw [if_neg (by omega)]
    by_cases hcomplete : t.recvBuffer.length = t.recvLen + expansion
    · have hbuffer : t.recvBuffer = pair.encode (!side) count known :=
        (List.append_inj hposition (by omega)).1
      rw [if_pos ⟨hlong, hcomplete⟩]
      exact advances_processPacket hsends hstate hkeyed haad hrecv hrecvL hlog hpacket hbuffer
        hstream
    · rw [if_neg fun h => hcomplete h.2]
      exact advances_inside hsends GrowsSilently.refl hstate hkeyed haad hcount hrecv
        (.inr ⟨hlong.le, hrecvL, known, hknown, hlen, by omega⟩) hlog hstream

/-! ## Rounds -/

theorem getMaxBytesToProcess_packets (hrecv : t.recvState = packetState count) :
    getMaxBytesToProcess t =
      if t.recvBuffer.length < lengthLen then lengthLen - t.recvBuffer.length
      else expansion + t.recvLen - t.recvBuffer.length := by
  rw [getMaxBytesToProcess, hrecv, packetState]
  split_ifs <;> rfl

theorem Framed.reached {chunk : Bytes} (hframed : Framed pair side t peer count)
    (hrecv : t.recvState = packetState count) (hchunk : chunk ≠ [])
    (hmax : chunk.length ≤ getMaxBytesToProcess t) :
    Reached pair side (appendReceived chunk t) peer count := by
  have hpos := List.length_pos_iff.mpr hchunk
  rw [getMaxBytesToProcess_packets hrecv] at hmax
  have hlength : (appendReceived chunk t).recvBuffer.length =
      t.recvBuffer.length + chunk.length := List.length_append
  rcases hframed with ⟨hshort, hrecvL⟩ | ⟨hlong, hrecvL, packet, hpacket, hlen, hlt⟩
  · rw [if_pos hshort] at hmax
    exact .inl ⟨by omega, hrecvL⟩
  · rw [if_neg (by omega)] at hmax
    refine .inr ⟨by omega, hrecvL, packet, hpacket, hlen, ?_⟩
    change _ ≤ t.recvLen + expansion
    omega

theorem Receives.max_pos (hreceives : Receives pair side t peer phase)
    (hready : t.recvState ≠ .appReady) : 0 < getMaxBytesToProcess t := by
  cases phase with
  | maybeV1 =>
    obtain ⟨-, hrecv, -, hlength⟩ := hreceives
    rw [getMaxBytesToProcess, hrecv]
    exact Nat.sub_pos_of_lt hlength
  | key =>
    obtain ⟨hrecv, -, hlength⟩ := hreceives
    rw [getMaxBytesToProcess, hrecv]
    exact Nat.sub_pos_of_lt hlength
  | garbage =>
    rw [getMaxBytesToProcess, hreceives.1]
    exact Nat.one_pos
  | packets count =>
    obtain ⟨-, -, -, ⟨hrecv, hframed⟩ | hwaiting⟩ := hreceives
    · rw [getMaxBytesToProcess_packets hrecv]
      rcases hframed with ⟨hshort, -⟩ | ⟨hlong, -, packet, -, -, hlt⟩
      · rw [if_pos hshort]
        omega
      · rw [if_neg (by omega)]
        omega
    · exact absurd hwaiting.recvState hready

theorem Receives.not_v1 (hreceives : Receives pair side t peer phase) : t.recvState ≠ .v1 := by
  cases phase with
  | maybeV1 => simp [hreceives.2.1]
  | key => simp [hreceives.1]
  | garbage => simp [hreceives.1]
  | packets count =>
    obtain ⟨-, -, -, ⟨hrecv, -⟩ | hwaiting⟩ := hreceives
    · rw [hrecv, packetState]
      split_ifs <;> simp
    · simp [hwaiting.recvState]

/-- **One round.** From a side in step with the peer's stream, a round of the receive loop fails
only by refusing, and otherwise leaves the side in step. -/
theorem InStep.round {chunk : Bytes} (h : InStep pair side t own peer phase (chunk ++ unread) state)
    (hchunk : chunk ≠ []) (hmax : chunk.length ≤ getMaxBytesToProcess t)
    (hready : t.recvState ≠ .appReady) :
    (processReceived (pair.config side) (appendReceived chunk t)).Satisfies
      (Refused pair side t own) (Advances pair side t own peer phase unread state) := by
  have hsends : Sends pair side (appendReceived chunk t) own := { h.sends with }
  have hnonempty : (appendReceived chunk t).recvBuffer ≠ [] := by
    simp [appendReceived, hchunk]
  have hlength : (appendReceived chunk t).recvBuffer.length =
      t.recvBuffer.length + chunk.length := List.length_append
  have hstream : pair.readBytes (!side) peer phase ++
      ((appendReceived chunk t).recvBuffer ++ unread) = pair.stream (!side) peer state := by
    rw [appendReceived, List.append_assoc t.recvBuffer]
    exact h.stream
  have hreceives := h.receives
  have hstate := h.sendState
  -- appending to the receive buffer leaves the send side as it was
  suffices hround : (processReceived (pair.config side) (appendReceived chunk t)).Satisfies
      (Refused pair side (appendReceived chunk t) own)
      (Advances pair side (appendReceived chunk t) own peer phase unread state) from
    hround.imp (fun _ hrefused => { hrefused with }) (fun _ hadvances => hadvances)
  rw [processReceived]
  cases phase with
  | maybeV1 =>
    obtain ⟨rfl, hrecv, hfresh, hlt⟩ := hreceives
    rw [getMaxBytesToProcess, hrecv] at hmax
    have hrecv' : (appendReceived chunk t).recvState = .keyMaybeV1 := hrecv
    rw [hrecv']
    exact advances_maybeV1 hsends hstate h.log hrecv' { hfresh with }
      (by simp only at hmax; omega) hnonempty hstream
  | key =>
    obtain ⟨hrecv, hfresh, hlt⟩ := hreceives
    rw [getMaxBytesToProcess, hrecv] at hmax
    have hrecv' : (appendReceived chunk t).recvState = .key := hrecv
    rw [hrecv']
    exact advances_key hsends hstate h.log hrecv' { hfresh with }
      (by simp only at hmax; omega) hnonempty hstream
  | garbage =>
    obtain ⟨hrecv, hkeyed, hrecvL, hterminator, hlt⟩ := hreceives
    rw [getMaxBytesToProcess, hrecv] at hmax
    have hrecv' : (appendReceived chunk t).recvState = .garbGarbterm := hrecv
    rw [hrecv']
    exact advances_garbage hsends hstate h.log hrecv' { hkeyed with } hrecvL
      hterminator (by simp only at hmax; omega) hstream
  | packets count =>
    obtain ⟨hkeyed, haad, hcount, ⟨hrecv, hframed⟩ | hwaiting⟩ := hreceives
    · have hreached := hframed.reached hrecv hchunk hmax
      have hrecv' : (appendReceived chunk t).recvState = packetState count := hrecv
      have hround := advances_packets hsends hstate { hkeyed with } haad hcount hrecv' hreached
        hnonempty h.log hstream
      rw [hrecv', packetState]
      split_ifs <;> exact hround
    · exact absurd hwaiting.recvState hready

/-! ## The receive loop -/

/-- What a call to `ReceivedBytes` leads to if it succeeds; `left` are the bytes it has not
consumed. -/
def Received (pair : HonestPair V1) (side : Bool) (t : V2Transport V1) (own peer : List Packet)
    (phase : Phase) (rest : Bytes) (state : SendState) (t' : V2Transport V1) (left : Bytes) :
    Prop :=
  ∃ own' phase', InStep pair side t' own' peer phase' (left ++ rest) state ∧
    GrowsSilently pair side t own t' own' ∧ (left = [] ∨ t'.recvState = .appReady) ∧
    ∀ delivered, delivered ++ (waitingContents t).map parseMessage =
        (messageContents (phase.read peer)).map parseMessage →
      delivered ++ (waitingContents t').map parseMessage =
        (messageContents (phase'.read peer)).map parseMessage

/-- **The receive loop.** Every round keeps the side in step, so the loop does, and it consumes all
bytes unless a message waits. -/
theorem InStep.receiveLoop {rest : Bytes} (fuel : ℕ) :
    ∀ (t : V2Transport V1) (own : List Packet) (phase : Phase) (bytes : Bytes),
      InStep pair side t own peer phase (bytes ++ rest) state → bytes.length ≤ fuel →
      (receiveLoop (pair.config side) fuel t bytes).Satisfies
        (fun result => ∃ own', RefusedState pair side result.1 own' ∧
          GrowsSilently pair side t own result.1 own')
        (fun result => Received pair side t own peer phase rest state result.1 result.2) := by
  induction fuel with
  | zero =>
    intro t own phase bytes h hfuel
    have hnil : bytes = [] := List.length_eq_zero_iff.mp (Nat.le_zero.mp hfuel)
    exact ⟨own, phase, h, GrowsSilently.refl, .inl hnil, fun _ hmessages => hmessages⟩
  | succ fuel ih =>
    intro t own phase bytes h hfuel
    rw [Net.receiveLoop]
    by_cases hnil : bytes = []
    · rw [if_pos (.inl hnil)]
      exact ⟨own, phase, h, GrowsSilently.refl, .inl hnil, fun _ hmessages => hmessages⟩
    by_cases hready : t.recvState = .appReady
    · rw [if_pos (.inr (.inl hready))]
      exact ⟨own, phase, h, GrowsSilently.refl, .inr hready, fun _ hmessages => hmessages⟩
    have hmax := h.receives.max_pos hready
    have hchunk : bytes.take (getMaxBytesToProcess t) ≠ [] := by
      rw [ne_eq, List.take_eq_nil_iff]
      simp [hnil, hmax.ne']
    have hsplit : bytes ++ rest = bytes.take (getMaxBytesToProcess t) ++
        (bytes.drop (getMaxBytesToProcess t) ++ rest) := by
      rw [← List.append_assoc, List.take_append_drop]
    -- a round takes at least one byte, so the fuel lasts
    have hround := InStep.round (hsplit ▸ h) hchunk (List.length_take_le _ _) hready
    rw [if_neg (by simp [hnil, hready, h.receives.not_v1])]
    revert hround
    cases processReceived (pair.config side)
        (appendReceived (bytes.take (getMaxBytesToProcess t)) t) with
    | error t' =>
      intro hrefused
      exact ⟨own, hrefused.state, hrefused.grows⟩
    | ok t' =>
      rintro ⟨own', phase', hstep, hgrows, hmessages⟩
      have hfuel' : (bytes.drop (getMaxBytesToProcess t)).length ≤ fuel := by
        rw [List.length_drop]
        have := List.length_pos_iff.mpr hnil
        omega
      refine (ih t' own' phase' _ hstep hfuel').imp ?_ ?_
      · rintro result ⟨own'', hrefused, hgrows'⟩
        exact ⟨own'', hrefused, hgrows.trans hgrows'⟩
      · rintro result ⟨own'', phase'', hstep', hgrows', hleft, hmessages'⟩
        refine ⟨own'', phase'', hstep', hgrows.trans hgrows', hleft, ?_⟩
        intro delivered hdelivered
        apply hmessages'
        have hnone : waitingContents t = [] := by simp [waitingContents, hready]
        rw [hnone, List.map_nil, List.append_nil] at hdelivered
        rw [hmessages, List.map_append, hdelivered]

end XCoin.Net
