import XCoin.Net.Stage2Secret

/-!
# The keys of the second stage

`stage2` is a flag of the cipher.  A transport sets it only together with the keys that
`SwitchToStage2` derives, so that in every run the flag says which keys are in use: those
of the ECDH secret with the peer and of a secret of the key encapsulation, together.
-/

namespace XCoin.Net

open V2Transport

variable {V1 : Type} {config : TransportConfig V1} {t t' : V2Transport V1}

/-- The keys of both directions and the session id, whatever the ciphers have processed. -/
def Bip324Cipher.sessionKeys (side : Bool) (cipher : Bip324Cipher) : SessionKeys where
  initiatorL := if side then cipher.sendL.key else cipher.recvL.key
  initiatorP := if side then cipher.sendP.key else cipher.recvP.key
  responderL := if side then cipher.recvL.key else cipher.sendL.key
  responderP := if side then cipher.recvP.key else cipher.sendP.key
  sessionId := cipher.sessionId

theorem Bip324Cipher.sessionKeys_switched (keys : SessionKeys) (side : Bool)
    (cipher : Bip324Cipher) : (cipher.switched keys side).sessionKeys side = keys := by
  cases side <;> rfl

/-- What `Initialize` keeps for the second stage when the peer has this key. -/
def handshakeSecret (config : TransportConfig V1) (theirPubKey : Bytes) : Stage2Secret where
  ecdhSecret := config.ecdhSecret theirPubKey
  ellInitiator := if config.initiating then config.ourPubKey else theirPubKey
  ellResponder := if config.initiating then theirPubKey else config.ourPubKey
  messageStart := config.messageStart
  side := config.initiating

/-- The key encapsulation gave the secret, to the side that made the ciphertext or to the one that
opened it. -/
def KemSecret (config : TransportConfig V1) (kemSecret ct ek : Bytes) : Prop :=
  (∃ encapsulation, config.hybridKem.encaps ek = .ok encapsulation ∧ encapsulation.ct = ct ∧
    encapsulation.sharedSecret = kemSecret) ∨
  ∃ dk, config.hybridKem.decaps dk ct = .ok kemSecret

/-- The keys in use are those of the second stage, derived from the ECDH secret with a peer's key
and a secret of the key encapsulation. -/
def HasStage2Keys (config : TransportConfig V1) (cipher : Bip324Cipher) : Prop :=
  ∃ theirPubKey kemSecret ct ek, KemSecret config kemSecret ct ek ∧
    cipher.sessionKeys config.initiating =
      deriveStage2Keys config.crypto config.messageStart kemSecret (config.ecdhSecret theirPubKey)
        ct (handshakeSecret config theirPubKey).ellInitiator ek
        (handshakeSecret config theirPubKey).ellResponder

/-- Where the secret and the keys of a cipher come from. -/
structure Derived (config : TransportConfig V1) (cipher : Bip324Cipher) : Prop where
  ourPubKey : cipher.ourPubKey = config.ourPubKey
  secret : ∀ secret ∈ cipher.stage2Secret,
    ∃ theirPubKey, secret = handshakeSecret config theirPubKey
  keys : cipher.stage2 = true → HasStage2Keys config cipher

namespace Derived

variable {cipher switched : Bip324Cipher}

theorem discardStage2Secret (h : Derived config cipher) :
    Derived config cipher.discardStage2Secret :=
  { h with secret := by simp [Bip324Cipher.discardStage2Secret] }

theorem initializeCipher (h : Derived config t.cipher) (hstage1 : t.cipher.stage2 = false) :
    Derived config (initializeCipher config t).cipher where
  ourPubKey := h.ourPubKey
  secret := by
    intro secret hsecret
    by_cases hmode : config.hybridMode = .off
    · have hkept : (Net.initializeCipher config t).cipher.stage2Secret = t.cipher.stage2Secret :=
        if_pos hmode
      exact h.secret secret (hkept ▸ hsecret)
    · simp only [Net.initializeCipher, Bip324Cipher.initializeCiphers, if_neg hmode,
        Option.mem_def, Option.some.injEq] at hsecret
      refine ⟨t.recvBuffer, ?_⟩
      rw [← hsecret, h.ourPubKey, handshakeSecret, Bool.bne_false]
  keys hstage2 := absurd (hstage1.symm.trans hstage2) (by decide)

theorem switchToStage2 (h : Derived config cipher) {kemSecret ct ek : Bytes}
    (hkem : KemSecret config kemSecret ct ek)
    (hswitch : cipher.switchToStage2 config.crypto kemSecret ct ek = some switched) :
    Derived config switched := by
  rw [Bip324Cipher.switchToStage2] at hswitch
  cases hsecret : cipher.stage2Secret with
  | none => simp [hsecret] at hswitch
  | some secret =>
    simp only [hsecret, Option.ite_none_left_eq_some, Option.some.injEq] at hswitch
    obtain ⟨theirPubKey, rfl⟩ := h.secret secret hsecret
    obtain ⟨-, rfl⟩ := hswitch
    refine ⟨h.ourPubKey, by simp [Bip324Cipher.switched, Bip324Cipher.discardStage2Secret],
      fun _ => ⟨theirPubKey, kemSecret, ct, ek, hkem, ?_⟩⟩
    exact Bip324Cipher.sessionKeys_switched _ _ _

theorem declineHybrid (h : Derived config t.cipher) :
    Derived config (declineHybrid config t).cipher := by
  have hdropped := h.discardStage2Secret
  -- only the initiator seals its version packet here
  cases hinitiating : config.initiating with
  | false =>
    rw [Net.declineHybrid, hinitiating]
    exact hdropped
  | true =>
    rw [Net.declineHybrid, hinitiating]
    exact { hdropped with }

theorem versionUsed {result : Except (V2Transport V1) (V2Transport V1)}
    (h : Derived config t.cipher) (hused : VersionUsed config t result) :
    result.Satisfies (Derived config ·.cipher) (Derived config ·.cipher) := by
  have hsealed : Derived config t.cipher.afterEncrypt := { h with }
  cases hused with
  | refused => exact h.discardStage2Secret
  | declined => exact declineHybrid (t := { t with hybridTagSeen := false }) h
  | failed => exact h.discardStage2Secret
  | sealedInVain => exact hsealed.discardStage2Secret
  | answered ek encapsulation switched _ hswitch hencaps =>
    exact hsealed.switchToStage2 (.inl ⟨encapsulation, hencaps, rfl, rfl⟩) hswitch
  | confirmed keyPair kemSecret ct switched _ _ hswitch hdecaps =>
    have hswitched := h.switchToStage2 (.inr ⟨keyPair.dk, hdecaps⟩) hswitch
    exact { hswitched with }

theorem processed {result : Except (V2Transport V1) (V2Transport V1)}
    (h : Derived config t.cipher) (hsecrets : KeepsSecrets config t)
    (hprocessed : Processed config t result) :
    result.Satisfies (Derived config ·.cipher) (Derived config ·.cipher) := by
  have hopened : Derived config t.cipher.afterDecrypt := { h with }
  have hlength : Derived config (decryptLength config t).cipher := { h with }
  have hkeyed (hrecv : t.recvState = .key) :
      Derived config (Net.initializeCipher config t).cipher :=
    h.initializeCipher (hsecrets.stage1 (.inr (.inl hrecv)))
  cases hprocessed with
  | waits | rejects | refusesV1 | fallsBack | garbageEnds => exact h
  | starts => exact { h with }
  | keyClassical hrecv =>
    have hinitialized := hkeyed hrecv
    exact { hinitialized with }
  | keyInitiator hrecv => exact hkeyed hrecv
  | keygenFails hrecv => exact (hkeyed hrecv).discardStage2Secret
  | offers _ hrecv =>
    have hinitialized := hkeyed hrecv
    exact { hinitialized with }
  | lengthRead | lengthRejected => exact hlength
  | lengthFails => exact hlength.discardStage2Secret
  | packetRejected | decoy | message | versionIgnored => exact hopened
  | packetFails => exact hopened.discardStage2Secret
  | versionFails contents t' _ _ hused =>
    exact versionUsed (t := Net.openPacket config contents t) hopened hused
  | versionDone contents t' _ _ hused =>
    have hswitched := versionUsed (t := Net.openPacket config contents t) hopened hused
    exact hswitched

theorem setMessageToSend {msg : NetMsg} (h : Derived config t.cipher) (hsend : t.sendState ≠ .v1)
    (hset : setMessageToSend config msg t = some t') : Derived config t'.cipher := by
  simp only [Net.setMessageToSend, if_neg hsend, Option.ite_none_right_eq_some,
    Option.some.injEq] at hset
  obtain ⟨-, rfl⟩ := hset
  have hdecoy : Derived config (sendFirstDecoy config (encodeContents msg) t).cipher := by
    rw [sendFirstDecoy]
    split_ifs <;> exact { h with }
  exact { hdecoy with }

end Derived

theorem derived_new : Derived config (V2Transport.new config).cipher := by
  cases hinitiating : config.initiating <;>
    constructor <;>
    simp [V2Transport.new, startSendingHandshake, hinitiating, Bip324Cipher.new]

theorem inductive_derived :
    Inductive config fun t => KeepsSecrets config t ∧ Derived config t.cipher where
  new := ⟨keepsSecrets_new, derived_new⟩
  append bytes t h := ⟨inductive_keepsSecrets.append bytes t h.1, h.2⟩
  process t h := by
    have hprocessed := processed_processReceived config t
    exact Except.Satisfies.and (inductive_keepsSecrets.process t h.1)
      (h.2.processed h.1 hprocessed)
  fallback t v1 hv1 h := ⟨inductive_keepsSecrets.fallback t v1 hv1 h.1, h.2⟩
  take t hready h := ⟨inductive_keepsSecrets.take t hready h.1, h.2⟩
  set msg t t' hsend hset h :=
    ⟨inductive_keepsSecrets.set msg t t' hsend hset h.1, h.2.setMessageToSend hsend hset⟩
  mark bytesSent t hsend h := by
    refine ⟨inductive_keepsSecrets.mark bytesSent t hsend h.1, ?_⟩
    have hcipher : (markBytesSent config bytesSent t).cipher = t.cipher := by
      rw [markBytesSent]
      split_ifs <;> rfl
    exact hcipher ▸ h.2

/-- **Stage-2 keys.** After every sequence of calls, in every mode. -/
theorem derived_of_run (config : TransportConfig V1) (calls : List TransportCall)
    (e : Endpoint V1) (hrun : (Endpoint.new config).calls config calls = some e) :
    Derived config e.transport.cipher :=
  (inductive_derived.calls calls _ e hrun ⟨keepsSecrets_new, derived_new⟩).2

end XCoin.Net
