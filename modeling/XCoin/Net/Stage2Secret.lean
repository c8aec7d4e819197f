import XCoin.Net.ReceiveSteps

/-!
# The secrets of the hybrid handshake

A transport in a hybrid mode keeps two secrets between calls: the stage-2 secret, which
`Initialize` stores for the switch to stage-2 keys, and the ML-KEM key pair of a
responder.  They are created when the key of the peer is complete, and are gone when the
handshake is decided, whether the session becomes hybrid, stays classical or fails.

If the handshake fails, nothing was sealed under stage-2 keys: the send buffer is part of
`classicalStream`, what a side sends before the switch.  A failure after the handshake is
one of the first stage-2 packet of the peer, and is received in the state `app`.
-/

namespace XCoin.Net

open V2Transport

variable {V1 : Type} {config : TransportConfig V1} {t t' : V2Transport V1}

/-! ## The invariant -/

/-- The garbage terminator that a side sends. -/
def sentTerminator (config : TransportConfig V1) (theirPubKey : Bytes) : Bytes :=
  let terminators := deriveTerminators config.crypto config.messageStart
    (config.ecdhSecret theirPubKey)
  if config.initiating then terminators.take garbageTerminatorLen
  else terminators.drop (terminators.length - garbageTerminatorLen)

/-- The version packet of a responder, sealed under the keys that `Initialize` derives. -/
def sentOffer (config : TransportConfig V1) (theirPubKey : Bytes) : Bytes :=
  let keys := deriveStage1Keys config.crypto config.messageStart (config.ecdhSecret theirPubKey)
  match config.hybridKem.keygen with
  | .error _ => []
  | .ok keyPair =>
    encodePacket config.crypto ⟨keys.responderL, 0⟩ ⟨keys.responderP, 0⟩
      (encodeHybridRecord hybridKindOffer keyPair.ek) config.garbage false

/-- What a side sends before the switch to stage-2 keys, to a peer with this key. -/
def classicalStream (config : TransportConfig V1) (theirPubKey : Bytes) : Bytes :=
  config.ourPubKey ++ config.garbage ++ sentTerminator config theirPubKey ++
    if config.initiating then [] else sentOffer config theirPubKey

/-- The states before the version packet of the peer has been used. -/
def Handshaking (t : V2Transport V1) : Prop :=
  t.recvState = .keyMaybeV1 ∨ t.recvState = .key ∨ t.recvState = .garbGarbterm ∨
    t.recvState = .version

/-- The key of the peer is not complete. -/
def AwaitsKey (t : V2Transport V1) : Prop := t.recvState = .keyMaybeV1 ∨ t.recvState = .key

/-- The send side until the peer's key is complete. -/
def SendsKey (config : TransportConfig V1) (t : V2Transport V1) : Prop :=
  t.sendState ≠ .ready ∧ t.sendGarbage = config.garbage ∧ t.cipher.ourPubKey = config.ourPubKey ∧
    t.sendBuffer <:+ config.ourPubKey ++ config.garbage

/-- What holds of the secrets and of the bytes sent during the handshake. -/
structure KeepsSecrets (config : TransportConfig V1) (t : V2Transport V1) : Prop where
  secret : t.cipher.stage2Secret.isSome = true ↔
    config.hybridMode ≠ .off ∧ t.cipher.initialized = true ∧ t.hybridState = .pending
  keyPair : t.hybridKeyPair.isSome = true → config.initiating = false ∧ t.hybridState = .pending
  off : config.hybridMode = .off → t.hybridState = .pending
  beforeKey : AwaitsKey t → t.hybridState = .pending ∧ SendsKey config t
  stage1 : Handshaking t → t.cipher.stage2 = false
  notReady : config.hybridMode ≠ .off → Handshaking t → t.sendState ≠ .ready
  sent : config.hybridMode ≠ .off → Handshaking t →
    ∃ theirPubKey, t.sendBuffer <:+: classicalStream config theirPubKey

theorem isInfix_classicalStream {buffer : Bytes}
    (hbuffer : buffer <:+ config.ourPubKey ++ config.garbage) (theirPubKey : Bytes) :
    buffer <:+: classicalStream config theirPubKey := by
  rw [classicalStream, List.append_assoc]
  exact hbuffer.isInfix.trans (List.prefix_append _ _).isInfix

theorem sendsKey_new : SendsKey config (V2Transport.new config) := by
  cases hinitiating : config.initiating <;>
    simp [SendsKey, V2Transport.new, startSendingHandshake, hinitiating, Bip324Cipher.new]

theorem keepsSecrets_new : KeepsSecrets config (V2Transport.new config) := by
  have hsends : SendsKey config (V2Transport.new config) := sendsKey_new
  have hstate : (V2Transport.new config).hybridState = .pending := by
    cases hinitiating : config.initiating <;>
      simp [V2Transport.new, startSendingHandshake, hinitiating]
  have hkeyPair : (V2Transport.new config).hybridKeyPair = none := by
    cases hinitiating : config.initiating <;>
      simp [V2Transport.new, startSendingHandshake, hinitiating]
  have hcipher : (V2Transport.new config).cipher = .new config.ourPubKey := by
    cases hinitiating : config.initiating <;>
      simp [V2Transport.new, startSendingHandshake, hinitiating]
  constructor
  · simp [hcipher, Bip324Cipher.new]
  · simp [hkeyPair]
  · exact fun _ => hstate
  · exact fun _ => ⟨hstate, hsends⟩
  · simp [hcipher, Bip324Cipher.new]
  · exact fun _ _ => hsends.1
  · exact fun _ _ => ⟨[], isInfix_classicalStream hsends.2.2.2 []⟩

/-! ## The handshake is decided -/

theorem not_awaitsKey_of_inPacket (hpacket : InPacket t) : ¬AwaitsKey t := by
  rcases hpacket with hrecv | hrecv <;> simp [AwaitsKey, hrecv]

theorem KeepsSecrets.hybridFail (h : KeepsSecrets config t) (hmode : config.hybridMode ≠ .off)
    (hkey : ¬AwaitsKey t) (outcome : HybridOutcome) :
    KeepsSecrets config (t.hybridFail outcome) :=
  { h with
    secret := by simp [V2Transport.hybridFail, countHybrid, Bip324Cipher.discardStage2Secret]
    keyPair := by simp [V2Transport.hybridFail, countHybrid]
    off := fun hoff => absurd hoff hmode
    beforeKey := fun hawaits => absurd hawaits hkey }

/-- The version packet was used, and both secrets with it. -/
structure SecretsUsed (t : V2Transport V1) : Prop where
  secret : t.cipher.stage2Secret = none
  keyPair : t.hybridKeyPair = none
  decided : t.hybridState ≠ .pending

theorem SecretsUsed.keepsSecrets (h : SecretsUsed t) (hmode : config.hybridMode ≠ .off) :
    KeepsSecrets config (wipePacket { t with recvState := .app }) where
  secret := by simp [wipePacket, h.secret, h.decided]
  keyPair := by simp [wipePacket, h.keyPair]
  off hoff := absurd hoff hmode
  beforeKey := by simp [AwaitsKey, wipePacket]
  stage1 := by simp [Handshaking, wipePacket]
  notReady _ := by simp [Handshaking, wipePacket]
  sent _ := by simp [Handshaking, wipePacket]

theorem secretsUsed_declineHybrid : SecretsUsed (declineHybrid config t) := by
  cases hinitiating : config.initiating <;>
    constructor <;>
    simp [declineHybrid, hinitiating, countHybrid, sendVersion, sendPacket,
      Bip324Cipher.discardStage2Secret, Bip324Cipher.afterEncrypt]

theorem KeepsSecrets.versionUsed {result : Except (V2Transport V1) (V2Transport V1)}
    (h : KeepsSecrets config t) (hmode : config.hybridMode ≠ .off) (hkey : ¬AwaitsKey t)
    (hused : VersionUsed config t result) :
    result.Satisfies (KeepsSecrets config) SecretsUsed := by
  have htag (seen : Bool) : KeepsSecrets config { t with hybridTagSeen := seen } := { h with }
  cases hused with
  | refused => exact (htag false).hybridFail hmode hkey .refused
  | declined => exact secretsUsed_declineHybrid
  | failed outcome => exact (htag true).hybridFail hmode hkey outcome
  | sealedInVain =>
    have hsealed : KeepsSecrets config
        { t with hybridTagSeen := true, cipher := t.cipher.afterEncrypt } := { h with }
    exact hsealed.hybridFail hmode hkey .localError
  | answered ek encapsulation switched hinitiating hswitch =>
    -- an initiator has no key pair
    have hkeyPair : t.hybridKeyPair = none := by
      by_contra hsome
      have hresponder := (h.keyPair (Option.isSome_iff_ne_none.mpr hsome)).1
      rw [hinitiating] at hresponder
      cases hresponder
    have hsecret := Bip324Cipher.switchToStage2_stage2Secret hswitch
    exact ⟨hsecret, hkeyPair, HybridState.noConfusion⟩
  | confirmed keyPair kemSecret ct switched _ _ hswitch =>
    have hsecret := Bip324Cipher.switchToStage2_stage2Secret hswitch
    exact ⟨hsecret, rfl, HybridState.noConfusion⟩

/-! ## Packets -/

theorem openPacket_pending_iff (contents : Bytes) :
    (openPacket config contents t).hybridState = .pending ↔ t.hybridState = .pending := by
  by_cases hwaits : awaitsConfirmation config t
  · have hstate : t.hybridState = .unconfirmed := hwaits.2
    simp [openPacket, hwaits, hstate]
  · simp [openPacket, hwaits]

theorem KeepsSecrets.openPacket (h : KeepsSecrets config t) (hkey : ¬AwaitsKey t)
    (contents : Bytes) : KeepsSecrets config (openPacket config contents t) :=
  { h with
    secret := by
      rw [openPacket_pending_iff]
      exact h.secret
    keyPair := by
      rw [openPacket_pending_iff]
      exact h.keyPair
    off := by
      rw [openPacket_pending_iff]
      exact h.off
    beforeKey := fun hawaits => absurd hawaits hkey }

theorem KeepsSecrets.inApp (h : KeepsSecrets config t) (state : RecvState)
    (hstate : state = .app ∨ state = .appReady) :
    KeepsSecrets config { t with recvState := state } :=
  { h with
    beforeKey := by rcases hstate with rfl | rfl <;> simp [AwaitsKey]
    stage1 := by rcases hstate with rfl | rfl <;> simp [Handshaking]
    notReady := fun _ => by rcases hstate with rfl | rfl <;> simp [Handshaking]
    sent := fun _ => by rcases hstate with rfl | rfl <;> simp [Handshaking] }

/-! ## The key of the peer is complete -/

theorem KeepsSecrets.secret_initializeCipher (h : KeepsSecrets config t)
    (hrecv : t.recvState = .key) :
    (initializeCipher config t).cipher.stage2Secret.isSome = true ↔
      config.hybridMode ≠ .off ∧ (initializeCipher config t).cipher.initialized = true ∧
        (initializeCipher config t).hybridState = .pending := by
  have hpending : t.hybridState = .pending := (h.beforeKey (.inr hrecv)).1
  by_cases hmode : config.hybridMode = .off
  · have hnone : ¬t.cipher.stage2Secret.isSome = true := fun hsome => (h.secret.mp hsome).1 hmode
    simp only [initializeCipher, Bip324Cipher.initializeCiphers, if_pos hmode]
    exact ⟨fun hsome => absurd hsome hnone, fun hhybrid => absurd hmode hhybrid.1⟩
  · simp [initializeCipher, Bip324Cipher.initializeCiphers, hmode, hpending]

theorem KeepsSecrets.keyed (h : KeepsSecrets config t) (hrecv : t.recvState = .key)
    (hsame : t'.cipher.stage2Secret = (initializeCipher config t).cipher.stage2Secret ∧
      t'.cipher.initialized = true ∧ t'.cipher.stage2 = t.cipher.stage2)
    (hstate : t'.hybridState = t.hybridState) (hgarbage : t'.recvState = .garbGarbterm)
    (hkeyPair : t'.hybridKeyPair.isSome = true → config.initiating = false)
    (hsend : config.hybridMode ≠ .off → t'.sendState ≠ .ready)
    (hsent : config.hybridMode ≠ .off →
      ∃ theirPubKey, t'.sendBuffer <:+: classicalStream config theirPubKey) :
    KeepsSecrets config t' where
  secret := by
    rw [hsame.1, hsame.2.1, hstate]
    exact h.secret_initializeCipher hrecv
  keyPair hsome := ⟨hkeyPair hsome, hstate.trans (h.beforeKey (.inr hrecv)).1⟩
  off hoff := hstate.trans (h.off hoff)
  beforeKey := by simp [AwaitsKey, hgarbage]
  stage1 _ := hsame.2.2.trans (h.stage1 (.inr (.inl hrecv)))
  notReady hmode _ := hsend hmode
  sent hmode _ := hsent hmode

theorem isInfix_append_handshake {buffer rest : Bytes} {theirPubKey : Bytes}
    (hbuffer : buffer <:+ config.ourPubKey ++ config.garbage)
    (hrest : rest = sentTerminator config theirPubKey ++
      if config.initiating then [] else sentOffer config theirPubKey) :
    buffer ++ rest <:+: classicalStream config theirPubKey := by
  obtain ⟨before, hbefore⟩ := hbuffer
  refine ⟨before, [], ?_⟩
  rw [classicalStream, hrest, List.append_nil, ← List.append_assoc, hbefore]
  simp only [List.append_assoc]

theorem sendBuffer_sendOffer (hgarbage : t.sendGarbage = config.garbage) {keyPair : KeyPair}
    (hinitiating : config.initiating = false) (hkeygen : config.hybridKem.keygen = .ok keyPair) :
    ((initializeCipher config t).sendOffer config.crypto keyPair).sendBuffer =
      t.sendBuffer ++ (sentTerminator config t.recvBuffer ++ sentOffer config t.recvBuffer) := by
  rw [sentOffer, hkeygen, ← hgarbage, ← List.append_assoc]
  simp only [sentTerminator, hinitiating, sendOffer, awaitVersion, appendTerminator, sendVersion,
    sendPacket, initializeCipher, Bip324Cipher.initializeCiphers, Bip324Cipher.encrypted,
    Bip324Cipher.useKeys]
  rfl

/-- One round keeps the secrets in order, whether it fails or not. -/
theorem KeepsSecrets.processed {result : Except (V2Transport V1) (V2Transport V1)}
    (h : KeepsSecrets config t) (hprocessed : Processed config t result) :
    result.Satisfies (KeepsSecrets config) (KeepsSecrets config) := by
  have hresponder : t.hybridKeyPair.isSome = true → config.initiating = false :=
    fun hsome => (h.keyPair hsome).1
  have hspent : KeepsSecrets config { t with cipher := t.cipher.afterDecrypt } := { h with }
  have hlength : KeepsSecrets config (decryptLength config t) := { h with }
  cases hprocessed with
  | waits | rejects => exact h
  | starts hrecv =>
    obtain ⟨hpending, -, hgarbage, hours, -⟩ := h.beforeKey (.inl hrecv)
    have hsends : SendsKey config t.startV2 := by
      refine ⟨SendState.noConfusion, hgarbage, hours, ?_⟩
      rw [← hours, ← hgarbage]
      exact List.suffix_rfl
    exact
      { h with
        beforeKey := fun _ => ⟨hpending, hsends⟩
        stage1 := fun _ => h.stage1 (.inl hrecv)
        notReady := fun _ _ => hsends.1
        sent := fun _ _ => ⟨[], isInfix_classicalStream hsends.2.2.2 []⟩ }
  | refusesV1 => exact { h with }
  | fallsBack =>
    exact
      { h with
        beforeKey := by simp [AwaitsKey, fallBackToV1]
        stage1 := by simp [Handshaking, fallBackToV1]
        notReady := fun _ => by simp [Handshaking, fallBackToV1]
        sent := fun _ => by simp [Handshaking, fallBackToV1] }
  | keyClassical hrecv hoff =>
    exact h.keyed hrecv ⟨rfl, rfl, rfl⟩ rfl rfl hresponder (fun hmode => absurd hoff hmode)
      (fun hmode => absurd hoff hmode)
  | keyInitiator hrecv hmode hinitiating =>
    obtain ⟨-, -, -, -, hbuffer⟩ := h.beforeKey (.inr hrecv)
    refine h.keyed hrecv ⟨rfl, rfl, rfl⟩ rfl rfl hresponder (fun _ => SendState.noConfusion)
      (fun _ => ⟨t.recvBuffer, isInfix_append_handshake hbuffer ?_⟩)
    rw [if_pos hinitiating, List.append_nil]
    rfl
  | keygenFails hrecv hmode hinitiating =>
    obtain ⟨-, hsend, -, -, hbuffer⟩ := h.beforeKey (.inr hrecv)
    have hkeyed : KeepsSecrets config (initializeCipher config t) :=
      h.keyed hrecv ⟨rfl, rfl, rfl⟩ rfl rfl hresponder (fun _ => hsend)
        (fun _ => ⟨[], isInfix_classicalStream hbuffer []⟩)
    exact hkeyed.hybridFail hmode (by simp [AwaitsKey, initializeCipher]) .localError
  | offers keyPair hrecv hmode hinitiating hkeygen =>
    obtain ⟨-, -, hgarbage, -, hbuffer⟩ := h.beforeKey (.inr hrecv)
    refine h.keyed hrecv ⟨rfl, rfl, rfl⟩ rfl rfl (fun _ => hinitiating)
      (fun _ => SendState.noConfusion) (fun _ => ⟨t.recvBuffer, ?_⟩)
    rw [sendBuffer_sendOffer hgarbage hinitiating hkeygen]
    apply isInfix_append_handshake hbuffer
    rw [if_neg (by simp [hinitiating])]
  | garbageEnds garbage hrecv =>
    have hhandshake : Handshaking t := .inr (.inr (.inl hrecv))
    exact
      { h with
        beforeKey := by simp [AwaitsKey]
        stage1 := fun _ => h.stage1 hhandshake
        notReady := fun hmode _ => h.notReady hmode hhandshake
        sent := fun hmode _ => h.sent hmode hhandshake }
  | lengthRead | lengthRejected => exact hlength
  | lengthFails hpacket hwaits =>
    exact hlength.hybridFail hwaits.1 (not_awaitsKey_of_inPacket hpacket) .stage2Failed
  | packetRejected => exact hspent
  | packetFails hpacket hwaits =>
    exact hspent.hybridFail hwaits.1 (not_awaitsKey_of_inPacket hpacket) .stage2Failed
  | decoy contents hpacket =>
    have hopen := h.openPacket (not_awaitsKey_of_inPacket hpacket) contents
    exact { hopen with }
  | message contents hrecv =>
    have hopen := h.openPacket (not_awaitsKey_of_inPacket (.inr hrecv)) contents
    exact { hopen.inApp .appReady (.inr rfl) with }
  | versionIgnored contents hrecv =>
    have hopen := h.openPacket (not_awaitsKey_of_inPacket (.inl hrecv)) contents
    exact { hopen.inApp .app (.inl rfl) with }
  | versionFails contents t' hrecv hmode hused =>
    have hkey := not_awaitsKey_of_inPacket (.inl hrecv)
    exact (h.openPacket hkey contents).versionUsed hmode hkey hused
  | versionDone contents t' hrecv hmode hused =>
    have hkey := not_awaitsKey_of_inPacket (.inl hrecv)
    have hdecided : SecretsUsed t' := (h.openPacket hkey contents).versionUsed hmode hkey hused
    exact hdecided.keepsSecrets hmode

theorem sendBuffer_of_error (hprocessed : Processed config t (.error t')) :
    t'.sendBuffer = t.sendBuffer := by
  cases hprocessed with
  | versionFails contents t' _ _ hused =>
    cases hused with
    | refused | failed | sealedInVain => rfl
  | rejects | refusesV1 | keygenFails | lengthRejected | lengthFails | packetRejected
  | packetFails => rfl

/-! ## Runs -/

theorem KeepsSecrets.setMessageToSend {msg : NetMsg} (h : KeepsSecrets config t)
    (hsend : t.sendState ≠ .v1) (hset : setMessageToSend config msg t = some t') :
    KeepsSecrets config t' := by
  simp only [Net.setMessageToSend, if_neg hsend, Option.ite_none_right_eq_some,
    Option.some.injEq] at hset
  obtain ⟨⟨hready, -⟩, rfl⟩ := hset
  -- a message is sent only when the handshake is over, so the buffer is not looked at
  have hkey : ¬AwaitsKey t := fun hawaits => (h.beforeKey hawaits).2.1 hready
  have hdone (hmode : config.hybridMode ≠ .off) : ¬Handshaking t :=
    fun hhandshake => h.notReady hmode hhandshake hready
  rw [sendFirstDecoy]
  split_ifs <;>
    exact
      { h with
        beforeKey := fun hawaits => absurd hawaits hkey
        sent := fun hmode hhandshake => absurd hhandshake (hdone hmode) }

theorem KeepsSecrets.markBytesSent (h : KeepsSecrets config t) (hsend : t.sendState ≠ .v1)
    (bytesSent : ℕ) : KeepsSecrets config (markBytesSent config bytesSent t) := by
  rw [Net.markBytesSent, if_neg hsend]
  split_ifs
  · exact
      { h with
        beforeKey := fun hawaits => by
          obtain ⟨hpending, hsends, hgarbage, hours, -⟩ := h.beforeKey hawaits
          exact ⟨hpending, hsends, hgarbage, hours, List.nil_suffix⟩
        sent := fun _ _ => ⟨[], List.nil_infix⟩ }
  · exact { h with }

theorem inductive_keepsSecrets : Inductive config (KeepsSecrets config) where
  new := keepsSecrets_new
  append _ _ h := { h with }
  process t h := h.processed (processed_processReceived config t)
  fallback _ _ _ h := { h with }
  take _ _ h := { h.inApp .app (.inl rfl) with }
  set _ _ _ hsend hset h := h.setMessageToSend hsend hset
  mark bytesSent _ hsend h := h.markBytesSent hsend bytesSent

/-- The handshake ended in `HybridFail`: the key generation of a responder failed, which leaves it
waiting for the garbage, or the version packet of the peer was not accepted. -/
def HandshakeFailed (t : V2Transport V1) : Prop :=
  t.hybridState = .failed ∧ (t.recvState = .garbGarbterm ∨ t.recvState = .version)

/-- What holds of the secrets of a transport between calls. -/
structure SecretsInOrder (config : TransportConfig V1) (t : V2Transport V1) : Prop where
  secret : t.cipher.stage2Secret.isSome = true ↔
    config.hybridMode ≠ .off ∧ t.cipher.initialized = true ∧ t.hybridState = .pending
  keyPair : t.hybridKeyPair.isSome = true → config.initiating = false ∧ t.hybridState = .pending
  /-- after a failed handshake the ciphers are still the classical ones, and so is all that waits
  to be sent -/
  failed : HandshakeFailed t → t.cipher.stage2 = false ∧
    ∃ theirPubKey, t.sendBuffer <:+: classicalStream config theirPubKey
  /-- no round that fails adds anything to it -/
  unsent : ∀ received t', processReceived config (appendReceived received t) = .error t' →
    t'.sendBuffer = t.sendBuffer
  switch : ∀ kemSecret ct ek,
    ((Bip324Cipher.switchToStage2InPlace config.crypto kemSecret ct ek).run t.cipher).1 = false →
    ((Bip324Cipher.switchToStage2InPlace config.crypto kemSecret ct ek).run t.cipher).2 = t.cipher

theorem KeepsSecrets.secretsInOrder (h : KeepsSecrets config t) : SecretsInOrder config t where
  secret := h.secret
  keyPair := h.keyPair
  failed hfailed := by
    obtain ⟨hstate, hrecv⟩ := hfailed
    have hhandshake : Handshaking t := .inr (.inr hrecv)
    have hmode : config.hybridMode ≠ .off := by
      intro hoff
      rw [h.off hoff] at hstate
      cases hstate
    exact ⟨h.stage1 hhandshake, h.sent hmode hhandshake⟩
  unsent received t' herror := by
    have hprocessed := processed_processReceived config (appendReceived received t)
    rw [herror] at hprocessed
    have hbuffer := sendBuffer_of_error hprocessed
    exact hbuffer
  switch kemSecret ct ek hfailed := by
    rw [Bip324Cipher.switchToStage2InPlace_eq] at hfailed ⊢
    rw [Option.isSome_eq_false_iff, Option.isNone_iff_eq_none] at hfailed
    rw [hfailed]
    rfl

/-- **Secrets live as long as the handshake.** After every sequence of calls, whatever the peer
sent and whatever the key encapsulation did. -/
theorem secretsInOrder_of_run (config : TransportConfig V1) (calls : List TransportCall)
    (e : Endpoint V1) (hrun : (Endpoint.new config).calls config calls = some e) :
    SecretsInOrder config e.transport :=
  (inductive_keepsSecrets.calls calls _ e hrun keepsSecrets_new).secretsInOrder

/-- A responder whose key generation fails. -/
def noKeygenConfig : TransportConfig Unit :=
  { clearConfig false .prefer 2 with hybridKem := { clearKem with keygen := .error .rngFailure } }

theorem noKeygen_secretsInOrder : ∃ e : Endpoint Unit,
    (Endpoint.new noKeygenConfig).calls noKeygenConfig
      [.receivedBytes (List.replicate ellSwiftSize 1)] = some e ∧
    HandshakeFailed e.transport ∧ SecretsInOrder noKeygenConfig e.transport := by
  refine ⟨_, rfl, ?_, secretsInOrder_of_run noKeygenConfig
    [.receivedBytes (List.replicate ellSwiftSize 1)] _ rfl⟩
  constructor
  · decide +kernel
  · decide +kernel

end XCoin.Net
