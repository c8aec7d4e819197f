import XCoin.Net.TransportRuns

/-!
# What a round of the receive loop can do

`Processed` lists every outcome of `processReceived`, and `VersionUsed` those of the
version packet of a hybrid handshake, each with the conditions under which it comes
about.  The branches of the source are taken apart once, here; an invariant of a
transport is then proved by cases on these two relations.
-/

namespace XCoin.Net

open V2Transport

variable {V1 : Type} {config : TransportConfig V1} {t t' : V2Transport V1}

/-! ## The version packet -/

/-- What `processHybridVersion` makes of a transport. -/
inductive VersionUsed (config : TransportConfig V1) (t : V2Transport V1) :
    Except (V2Transport V1) (V2Transport V1) → Prop where
  /-- no record, and the session may not stay classical -/
  | refused : config.hybridMode = .require →
      VersionUsed config t (.error ({ t with hybridTagSeen := false }.hybridFail .refused))
  | declined : config.hybridMode ≠ .require →
      VersionUsed config t (.ok (declineHybrid config { t with hybridTagSeen := false }))
  /-- a bad record, or a failure of the key encapsulation -/
  | failed (outcome : HybridOutcome) :
      VersionUsed config t (.error ({ t with hybridTagSeen := true }.hybridFail outcome))
  /-- the initiator has sealed its version packet, and cannot switch -/
  | sealedInVain :
      VersionUsed config t (.error
        ({ t with hybridTagSeen := true, cipher := t.cipher.afterEncrypt }.hybridFail .localError))
  | answered (ek : Bytes) (encapsulation : Encapsulation) (switched : Bip324Cipher) :
      config.initiating = true →
      t.cipher.afterEncrypt.switchToStage2 config.crypto encapsulation.sharedSecret
        encapsulation.ct ek = some switched →
      config.hybridKem.encaps ek = .ok encapsulation →
      VersionUsed config t (.ok (answerOffer config.crypto
        (encodeHybridRecord hybridKindAccept encapsulation.ct) switched
        { t with hybridTagSeen := true }))
  | confirmed (keyPair : KeyPair) (kemSecret ct : Bytes) (switched : Bip324Cipher) :
      config.initiating = false → t.hybridKeyPair = some keyPair →
      t.cipher.switchToStage2 config.crypto kemSecret ct keyPair.ek = some switched →
      config.hybridKem.decaps keyPair.dk ct = .ok kemSecret →
      VersionUsed config t (.ok (confirmSwitch config.crypto switched
        { t with hybridTagSeen := true }))

theorem versionUsed_stayClassical :
    VersionUsed config t (stayClassical config { t with hybridTagSeen := false }) := by
  rw [stayClassical]
  split_ifs with hmode
  · exact .refused hmode
  · exact .declined hmode

theorem versionUsed_acceptOffer (hinitiating : config.initiating = true) (ek : Bytes) :
    VersionUsed config t (acceptOffer config ek { t with hybridTagSeen := true }) := by
  rw [acceptOffer]
  split_ifs
  · exact .failed .badRecord
  · split
    · exact .failed .localError
    · next encapsulation hencaps =>
        split
        · exact .sealedInVain
        · next switched hswitch =>
            exact .answered ek encapsulation switched hinitiating hswitch hencaps

theorem versionUsed_takeAccept (hinitiating : config.initiating = false) (ct : Bytes) :
    VersionUsed config t (takeAccept config ct { t with hybridTagSeen := true }) := by
  rw [takeAccept]
  split
  · exact .failed .localError
  · next keyPair hkeyPair =>
      split
      · exact .failed .localError
      · next kemSecret hdecaps =>
          split
          -- the key pair is dropped before the failure, which drops it too
          · exact .failed .localError
          · next switched hswitch =>
              exact .confirmed keyPair kemSecret ct switched hinitiating hkeyPair hswitch hdecaps

theorem versionUsed_processHybridVersion (config : TransportConfig V1) (t : V2Transport V1) :
    VersionUsed config t (processHybridVersion config t) := by
  rw [processHybridVersion]
  split
  · exact versionUsed_stayClassical
  · exact .failed .badRecord
  · next body _ =>
      split_ifs with hinitiating
      · exact versionUsed_acceptOffer hinitiating body
      · exact versionUsed_takeAccept (Bool.not_eq_true _ ▸ hinitiating) body

/-! ## All rounds -/

/-- A packet is being received. -/
def InPacket (t : V2Transport V1) : Prop := t.recvState = .version ∨ t.recvState = .app

/-- What `processReceived` makes of a transport. -/
inductive Processed (config : TransportConfig V1) (t : V2Transport V1) :
    Except (V2Transport V1) (V2Transport V1) → Prop where
  /-- more bytes are needed -/
  | waits : Processed config t (.ok t)
  /-- a peer of another network, or no garbage terminator -/
  | rejects : t.recvState = .key ∨ t.recvState = .garbGarbterm → Processed config t (.error t)
  | starts : t.recvState = .keyMaybeV1 → Processed config t (.ok t.startV2)
  | refusesV1 : t.recvState = .keyMaybeV1 → config.hybridMode = .require →
      Processed config t (.error (t.countHybrid .refused))
  | fallsBack : t.recvState = .keyMaybeV1 → config.hybridMode ≠ .require →
      Processed config t (.ok (fallBackToV1 config t))
  | keyClassical : t.recvState = .key → config.hybridMode = .off →
      Processed config t (.ok ((initializeCipher config t).sendEmptyVersion config.crypto))
  | keyInitiator : t.recvState = .key → config.hybridMode ≠ .off → config.initiating = true →
      Processed config t (.ok (initializeCipher config t).awaitVersion)
  | keygenFails : t.recvState = .key → config.hybridMode ≠ .off → config.initiating = false →
      Processed config t (.error ((initializeCipher config t).hybridFail .localError))
  | offers (keyPair : KeyPair) :
      t.recvState = .key → config.hybridMode ≠ .off → config.initiating = false →
      config.hybridKem.keygen = .ok keyPair →
      Processed config t (.ok ((initializeCipher config t).sendOffer config.crypto keyPair))
  | garbageEnds (garbage : Bytes) : t.recvState = .garbGarbterm →
      Processed config t
        (.ok { t with recvAad := garbage, recvBuffer := [], recvState := .version })
  | lengthRead : InPacket t → Processed config t (.ok (decryptLength config t))
  | lengthRejected : InPacket t → Processed config t (.error (decryptLength config t))
  /-- a length that the first packet under stage-2 keys cannot have -/
  | lengthFails : InPacket t → awaitsConfirmation config t →
      Processed config t (.error ((decryptLength config t).hybridFail .stage2Failed))
  | packetRejected : InPacket t → ¬awaitsConfirmation config t →
      Processed config t (.error { t with cipher := t.cipher.afterDecrypt })
  /-- the first packet under stage-2 keys does not authenticate -/
  | packetFails : InPacket t → awaitsConfirmation config t →
      Processed config t
        (.error ({ t with cipher := t.cipher.afterDecrypt }.hybridFail .stage2Failed))
  | decoy (contents : Bytes) : InPacket t →
      Processed config t (.ok (wipePacket (openPacket config contents t)))
  | message (contents : Bytes) : t.recvState = .app →
      Processed config t
        (.ok (wipePacket { openPacket config contents t with recvState := .appReady }))
  | versionIgnored (contents : Bytes) : t.recvState = .version → config.hybridMode = .off →
      Processed config t (.ok (wipePacket { openPacket config contents t with recvState := .app }))
  | versionFails (contents : Bytes) (t' : V2Transport V1) :
      t.recvState = .version → config.hybridMode ≠ .off →
      VersionUsed config (openPacket config contents t) (.error t') →
      Processed config t (.error t')
  | versionDone (contents : Bytes) (t' : V2Transport V1) :
      t.recvState = .version → config.hybridMode ≠ .off →
      VersionUsed config (openPacket config contents t) (.ok t') →
      Processed config t (.ok (wipePacket { t' with recvState := .app }))

theorem processed_maybeV1 (hrecv : t.recvState = .keyMaybeV1) :
    Processed config t (processReceivedMaybeV1Bytes config t) := by
  rw [processReceivedMaybeV1Bytes]
  split_ifs with hmismatch hcomplete hmode
  · exact .starts hrecv
  · exact .refusesV1 hrecv hmode
  · exact .fallsBack hrecv hmode
  · exact .waits

theorem processed_key (hrecv : t.recvState = .key) :
    Processed config t (processReceivedKeyBytes config t) := by
  rw [processReceivedKeyBytes]
  split_ifs with hwrong hcomplete hmode
  · exact .rejects (.inl hrecv)
  · rw [processHybridKey]
    split_ifs with hinitiating
    · exact .keyInitiator hrecv hmode hinitiating
    · have hresponder : config.initiating = false := Bool.not_eq_true _ ▸ hinitiating
      split
      · exact .keygenFails hrecv hmode hresponder
      · next keyPair hkeygen => exact .offers keyPair hrecv hmode hresponder hkeygen
  · exact .keyClassical hrecv (not_not.mp hmode)
  · exact .waits

theorem processed_garbage (hrecv : t.recvState = .garbGarbterm) :
    Processed config t (processReceivedGarbageBytes t) := by
  rw [processReceivedGarbageBytes]
  split_ifs
  · exact .waits
  · exact .garbageEnds _ hrecv
  · exact .rejects (.inr hrecv)
  · exact .waits

theorem processed_usePacket (hpacket : InPacket t) (contents : Bytes) :
    Processed config t ((usePacket config (openPacket config contents t)).map wipePacket) := by
  rcases hpacket with hrecv | hrecv
  · have hopened : (openPacket config contents t).recvState = .version := hrecv
    by_cases hmode : config.hybridMode = .off
    · rw [usePacket_of_off hopened hmode]
      exact .versionIgnored contents hrecv hmode
    · rw [usePacket_of_hybrid hopened hmode]
      have hused := versionUsed_processHybridVersion config (openPacket config contents t)
      revert hused
      cases processHybridVersion config (openPacket config contents t) with
      | error t' => exact fun hused => .versionFails contents t' hrecv hmode hused
      | ok t' => exact fun hused => .versionDone contents t' hrecv hmode hused
  · have hopened : (openPacket config contents t).recvState = .app := hrecv
    rw [usePacket_of_app hopened]
    exact .message contents hrecv

theorem processed_packet (hpacket : InPacket t) :
    Processed config t (processReceivedPacketBytes config t) := by
  rw [processReceivedPacketBytes]
  split_ifs
  · rw [checkLength]
    split_ifs with hfirst
    · exact .lengthFails hpacket hfirst.1
    · exact .lengthRejected hpacket
    · exact .lengthRead hpacket
  · rw [processPacket]
    split
    · rw [failUnconfirmed]
      split_ifs with hwaits
      · exact .packetFails hpacket hwaits
      · exact .packetRejected hpacket hwaits
    · next ignore contents _ =>
        split_ifs
        · exact .decoy contents hpacket
        · exact processed_usePacket hpacket contents
  · exact .waits

/-- **Every round is one of these.** -/
theorem processed_processReceived (config : TransportConfig V1) (t : V2Transport V1) :
    Processed config t (processReceived config t) := by
  rw [processReceived]
  split
  · next hrecv => exact processed_maybeV1 hrecv
  · next hrecv => exact processed_key hrecv
  · next hrecv => exact processed_garbage hrecv
  · next hrecv => exact processed_packet (.inl hrecv)
  · next hrecv => exact processed_packet (.inr hrecv)
  · exact .waits
  · exact .waits

end XCoin.Net
