import XCoin.Net.Stage2Keys

/-!
# No downgrade in require mode

A transport in require mode (`-v2hybrid=2`) against any peer.  Its HX1 session cannot be
talked down: it never speaks v1, application packets are sent and received under stage-2
keys only, and no message and no session is reported before a packet of the peer has
authenticated under stage-2 keys.

The invariant ties the receive state, the send state and the HX1 state to the stage of
the keys.  It holds in the states that a failed call leaves behind too, so that nothing
the caller still asks of a rejected connection can break it.
-/

namespace XCoin.Net

open V2Transport

variable {V1 : Type} {config : TransportConfig V1} {t : V2Transport V1} {t' : V2Transport V1}

/-- The states of a transport in require mode. -/
structure StaysHybrid (t : V2Transport V1) : Prop where
  recv_not_v1 : t.recvState ≠ .v1
  send_not_v1 : t.sendState ≠ .v1
  not_classical : t.hybridState ≠ .classical
  ready_stage2 : t.sendState = .ready → t.cipher.stage2 = true
  app_stage2 : t.recvState = .app ∨ t.recvState = .appReady → t.cipher.stage2 = true
  unconfirmed_stage2 : t.hybridState = .unconfirmed → t.cipher.stage2 = true
  confirmed : t.hybridState = .confirmed → stage2Authenticated t
  appReady : t.recvState = .appReady → stage2Authenticated t
  opened : ∀ packet ∈ t.opened, packet.recvState = .app → packet.stage2 = true

theorem staysHybrid_new : StaysHybrid (V2Transport.new config) := by
  cases hinitiating : config.initiating <;>
    constructor <;>
    simp [V2Transport.new, startSendingHandshake, hinitiating]

/-! ## Rounds of the receive loop -/

theorem StaysHybrid.hybridFail (h : StaysHybrid t) (outcome : HybridOutcome) :
    StaysHybrid (t.hybridFail outcome) :=
  { h with
    not_classical := by simp [V2Transport.hybridFail, countHybrid]
    unconfirmed_stage2 := by simp [V2Transport.hybridFail, countHybrid]
    confirmed := by simp [V2Transport.hybridFail, countHybrid] }

theorem StaysHybrid.initializeCipher (h : StaysHybrid t) :
    StaysHybrid (initializeCipher config t) :=
  { h with
    recv_not_v1 := by simp [Net.initializeCipher]
    app_stage2 := by simp [Net.initializeCipher]
    appReady := by simp [Net.initializeCipher] }

theorem StaysHybrid.awaiting (h : StaysHybrid t) (hrecv : t'.recvState = t.recvState)
    (hopened : t'.opened = t.opened) (hstate : t'.hybridState = t.hybridState)
    (hstage2 : t'.cipher.stage2 = t.cipher.stage2) (hsend : t'.sendState = .awaitingVersion) :
    StaysHybrid t' where
  recv_not_v1 := hrecv ▸ h.recv_not_v1
  send_not_v1 := by simp [hsend]
  not_classical := hstate ▸ h.not_classical
  ready_stage2 := by simp [hsend]
  app_stage2 := hrecv ▸ hstage2 ▸ h.app_stage2
  unconfirmed_stage2 := hstate ▸ hstage2 ▸ h.unconfirmed_stage2
  confirmed := by
    rw [stage2Authenticated, hopened, hstate]
    exact h.confirmed
  appReady := by
    rw [stage2Authenticated, hopened, hrecv]
    exact h.appReady
  opened := hopened ▸ h.opened

theorem StaysHybrid.switched (h : StaysHybrid t) (hrecv : t'.recvState = t.recvState)
    (hopened : t'.opened = t.opened) (hsend : t'.sendState = .ready)
    (hstate : t'.hybridState = .unconfirmed) (hstage2 : t'.cipher.stage2 = true) :
    StaysHybrid t' where
  recv_not_v1 := hrecv ▸ h.recv_not_v1
  send_not_v1 := by simp [hsend]
  not_classical := by simp [hstate]
  ready_stage2 _ := hstage2
  app_stage2 _ := hstage2
  unconfirmed_stage2 _ := hstage2
  confirmed := by simp [hstate]
  appReady hready := by
    rw [stage2Authenticated, hopened]
    exact h.appReady (hrecv ▸ hready)
  opened := hopened ▸ h.opened

/-- The version packet is accepted only with the switch to stage-2 keys. -/
theorem StaysHybrid.versionUsed (hmode : config.hybridMode = .require) (h : StaysHybrid t)
    {result : Except (V2Transport V1) (V2Transport V1)} (hused : VersionUsed config t result) :
    result.Satisfies StaysHybrid fun t' => StaysHybrid t' ∧ t'.cipher.stage2 = true := by
  have htag (seen : Bool) : StaysHybrid { t with hybridTagSeen := seen } := { h with }
  cases hused with
  | refused => exact (htag false).hybridFail .refused
  | declined hother => exact absurd hmode hother
  | failed outcome => exact (htag true).hybridFail outcome
  | sealedInVain =>
    have hspent : StaysHybrid { t with hybridTagSeen := true, cipher := t.cipher.afterEncrypt } :=
      { h with }
    exact hspent.hybridFail .localError
  | answered ek encapsulation switched _ hswitch =>
    have hstage2 := Bip324Cipher.switchToStage2_stage2 hswitch
    exact ⟨h.switched rfl rfl rfl rfl hstage2, hstage2⟩
  | confirmed keyPair kemSecret ct switched _ _ hswitch =>
    have hstage2 := Bip324Cipher.switchToStage2_stage2 hswitch
    exact ⟨h.switched rfl rfl rfl rfl hstage2, hstage2⟩

theorem StaysHybrid.openPacket (config : TransportConfig V1) (h : StaysHybrid t)
    (contents : Bytes) : StaysHybrid (openPacket config contents t) :=
  { h with
    not_classical := by
      simp only [Net.openPacket]
      split
      · simp
      · exact h.not_classical
    unconfirmed_stage2 := by
      simp only [Net.openPacket]
      split
      · simp
      · exact h.unconfirmed_stage2
    confirmed := by
      rw [stage2Authenticated_openPacket]
      by_cases hwaits : awaitsConfirmation config t
      · exact fun _ => .inl (h.unconfirmed_stage2 hwaits.2)
      · simp only [Net.openPacket, if_neg hwaits]
        exact fun hstate => .inr (h.confirmed hstate)
    appReady := fun hready => stage2Authenticated_openPacket.mpr (.inr (h.appReady hready))
    opened := by
      intro packet hpacket happ
      rcases List.mem_cons.mp hpacket with rfl | hpacket
      · exact h.app_stage2 (.inl happ)
      · exact h.opened packet hpacket happ }

/-- One round keeps the invariant, whether it fails or not. -/
theorem StaysHybrid.processed (hmode : config.hybridMode = .require) (h : StaysHybrid t)
    {result : Except (V2Transport V1) (V2Transport V1)} (hprocessed : Processed config t result) :
    result.Satisfies StaysHybrid StaysHybrid := by
  have hspent : StaysHybrid { t with cipher := t.cipher.afterDecrypt } := { h with }
  have hlength : StaysHybrid (decryptLength config t) := { h with }
  have hkeyed : StaysHybrid (Net.initializeCipher config t) := h.initializeCipher
  cases hprocessed with
  | waits => exact h
  | rejects => exact h
  | starts =>
    exact
      { h with
        recv_not_v1 := by simp [startV2, startSendingHandshake]
        send_not_v1 := by simp [startV2, startSendingHandshake]
        ready_stage2 := by simp [startV2, startSendingHandshake]
        app_stage2 := by simp [startV2, startSendingHandshake]
        appReady := by simp [startV2, startSendingHandshake] }
  | refusesV1 => exact { h with }
  | fallsBack _ hother => exact absurd hmode hother
  | keyClassical _ hoff => exact absurd (hmode.symm.trans hoff) (by decide)
  | keyInitiator => exact hkeyed.awaiting rfl rfl rfl rfl rfl
  | keygenFails => exact hkeyed.hybridFail .localError
  | offers => exact hkeyed.awaiting rfl rfl rfl rfl rfl
  | garbageEnds =>
    exact
      { h with
        recv_not_v1 := by simp
        app_stage2 := by simp
        appReady := by simp }
  | lengthRead => exact hlength
  | lengthRejected => exact hlength
  | lengthFails => exact hlength.hybridFail .stage2Failed
  | packetRejected => exact hspent
  | packetFails => exact hspent.hybridFail .stage2Failed
  | decoy contents =>
    have hopen := StaysHybrid.openPacket config h contents
    exact { hopen with }
  | message contents hrecv =>
    have hopen := StaysHybrid.openPacket config h contents
    have hstage2 := h.app_stage2 (.inl hrecv)
    have hopened : stage2Authenticated (Net.openPacket config contents t) :=
      stage2Authenticated_openPacket.mpr (.inl hstage2)
    exact
      { hopen with
        recv_not_v1 := by simp [wipePacket]
        app_stage2 := fun _ => hstage2
        appReady := fun _ => hopened }
  | versionIgnored _ _ hoff => exact absurd (hmode.symm.trans hoff) (by decide)
  | versionFails contents t' _ _ hused =>
    exact (StaysHybrid.openPacket config h contents).versionUsed hmode hused
  | versionDone contents t' _ _ hused =>
    obtain ⟨h', hstage2⟩ := (StaysHybrid.openPacket config h contents).versionUsed hmode hused
    exact
      { h' with
        recv_not_v1 := by simp [wipePacket]
        app_stage2 := fun _ => hstage2
        appReady := by simp [wipePacket] }

/-! ## Messages to send -/

theorem StaysHybrid.setMessageToSend {msg : NetMsg} (h : StaysHybrid t)
    (hset : setMessageToSend config msg t = some t') : StaysHybrid t' := by
  simp only [Net.setMessageToSend, if_neg h.send_not_v1, Option.ite_none_right_eq_some,
    Option.some.injEq] at hset
  obtain ⟨-, rfl⟩ := hset
  have hdecoy : StaysHybrid (sendFirstDecoy config (encodeContents msg) t) := by
    rw [sendFirstDecoy]
    split_ifs <;> exact { h with }
  exact { hdecoy with }

theorem StaysHybrid.markBytesSent (config : TransportConfig V1) (h : StaysHybrid t)
    (bytesSent : ℕ) : StaysHybrid (markBytesSent config bytesSent t) := by
  rw [Net.markBytesSent]
  split_ifs <;> exact { h with }

/-! ## Runs -/

theorem inductive_staysHybrid (hmode : config.hybridMode = .require) :
    Inductive config StaysHybrid where
  new := staysHybrid_new
  append _ _ h := { h with }
  process t h := h.processed hmode (processed_processReceived config t)
  fallback _ _ _ h := { h with }
  take _ hready h :=
    { h with
      recv_not_v1 := by simp
      app_stage2 := fun _ => h.app_stage2 (.inr hready)
      appReady := by simp }
  set _ _ _ _ hset h := h.setMessageToSend hset
  mark bytesSent _ _ h := h.markBytesSent config bytesSent

/-- What require mode promises, whatever the peer sends. -/
structure NoDowngrade (config : TransportConfig V1) (t : V2Transport V1) : Prop where
  /-- the transport is in no v1 state -/
  not_v1 : t.recvState ≠ .v1 ∧ t.sendState ≠ .v1
  /-- it can send application messages only under stage-2 keys -/
  send_stage2 : t.sendState = .ready → t.cipher.stage2 = true
  /-- it takes the next packet for an application packet only under stage-2 keys -/
  recv_stage2 : t.recvState = .app ∨ t.recvState = .appReady → t.cipher.stage2 = true
  /-- every packet it took for an application packet was under stage-2 keys -/
  opened_stage2 : ∀ packet ∈ t.opened, packet.recvState = .app → packet.stage2 = true
  /-- these are keys derived from both the ECDH secret and the key encapsulation -/
  stage2_keys : t.cipher.stage2 = true → HasStage2Keys config t.cipher
  /-- a message is available only after a stage-2 packet has authenticated -/
  message : receivedMessageComplete config t = true → stage2Authenticated t
  /-- and so is every report of an established session -/
  info : (getInfo config t).transportType ≠ .detecting ∨ (getInfo config t).sessionId ≠ none ∨
    (getInfo config t).hybrid = true → stage2Authenticated t

theorem StaysHybrid.noDowngrade (hmode : config.hybridMode = .require) (h : StaysHybrid t)
    (hkeys : Derived config t.cipher) : NoDowngrade config t where
  not_v1 := ⟨h.recv_not_v1, h.send_not_v1⟩
  send_stage2 := h.ready_stage2
  recv_stage2 := h.app_stage2
  opened_stage2 := h.opened
  stage2_keys := hkeys.keys
  message hcomplete := by
    rw [receivedMessageComplete, if_neg h.recv_not_v1, decide_eq_true_iff] at hcomplete
    exact h.appReady hcomplete
  info hinfo := by
    rw [getInfo, if_neg h.recv_not_v1] at hinfo
    by_cases hestablished :
        (t.recvState = .app ∨ t.recvState = .appReady) ∧ ¬hybridPending config t
    · have hhybrid : config.hybridMode ≠ .off := by simp [hmode]
      by_contra hnone
      exact hestablished.2 ⟨hhybrid, h.not_classical, fun hstate => hnone (h.confirmed hstate)⟩
    · rw [if_neg hestablished] at hinfo
      simp at hinfo

/-- **No downgrade.** In require mode, after every sequence of calls and whatever bytes the peer
sent. -/
theorem noDowngrade_of_require (config : TransportConfig V1)
    (hmode : config.hybridMode = .require) (calls : List TransportCall) (e : Endpoint V1)
    (hrun : (Endpoint.new config).calls config calls = some e) : NoDowngrade config e.transport :=
  ((inductive_staysHybrid hmode).calls calls _ e hrun staysHybrid_new).noDowngrade hmode
    (derived_of_run config calls e hrun)

/-- The bytes of a peer that accepts the offer of `clearConfig false .require 2` and then sends one
message under stage-2 keys. -/
def acceptingPeer : Bytes :=
  List.replicate ellSwiftSize 1 ++ Bytes.ofAscii "garbage_terminat" ++
    encodePacket clearCrypto ⟨[], 0⟩ ⟨[], 0⟩
      (encodeHybridRecord hybridKindAccept (List.replicate hx1CtLen 5)) [] false ++
    encodePacket clearCrypto ⟨[], 0⟩ ⟨[], 0⟩ (encodeContents ⟨Bytes.ofAscii "ping", [1]⟩) [] false

theorem acceptingPeer_noDowngrade :
    ∃ e, (Endpoint.new (clearConfig false .require 2)).calls (clearConfig false .require 2)
        [.receivedBytes acceptingPeer] = some e ∧
      receivedMessageComplete (clearConfig false .require 2) e.transport = true ∧
      NoDowngrade (clearConfig false .require 2) e.transport := by
  refine ⟨_, rfl, ?_, noDowngrade_of_require _ rfl [.receivedBytes acceptingPeer] _ rfl⟩
  decide +kernel

end XCoin.Net
