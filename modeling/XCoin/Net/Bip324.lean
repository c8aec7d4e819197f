import XCoin.Lib.Bytes

/-!
# The BIP 324 packet cipher

`BIP324Cipher`: the key schedule of both stages, the length cipher and the packet
cipher.  The symmetric primitives are parameters (`TransportCrypto`).  A cipher is
its key and the number of packets it has processed: rekeying inside `FSChaCha20` and
`FSChaCha20Poly1305` is a function of that number, and so is part of the primitive.

`std::optional` ciphers are ciphers with an empty key until `Initialize`;
`initialized` is the conversion to `bool`.
-/

namespace XCoin.Net

variable {crypto : TransportCrypto} {kemSecret ct ek : Bytes} {cipher cipher' : Bip324Cipher}
  (keys : SessionKeys)

/-! ## Parameters -/

/-- `V2HybridMode`. -/
inductive HybridMode where
  | off
  | prefer
  | require
deriving DecidableEq, Repr

/-- `SESSION_ID_LEN`. -/
def sessionIdLen : ℕ := 32
/-- `GARBAGE_TERMINATOR_LEN`. -/
def garbageTerminatorLen : ℕ := 16
/-- `LENGTH_LEN`. -/
def lengthLen : ℕ := 3
/-- `HEADER_LEN`. -/
def headerLen : ℕ := 1

/-- `EXPANSION`: the length, the header and the authentication tag. -/
def expansion : ℕ := 20

/-- `IGNORE_BIT`. -/
def ignoreBit : UInt8 := 0x80

/-- `HX1_EK_LEN`. -/
def hx1EkLen : ℕ := 1184
/-- `HX1_CT_LEN`. -/
def hx1CtLen : ℕ := 1088
/-- `HX1_SHARED_SECRET_LEN`. -/
def hx1SharedSecretLen : ℕ := 32

/-- The symmetric primitives. -/
structure TransportCrypto where
  /-- `CHKDF_HMAC_SHA256_L32` on key material, salt and label -/
  hkdf : Bytes → Bytes → Bytes → Bytes
  /-- `FSChaCha20` with a key, as its packet of this number -/
  lengthCrypt : Bytes → ℕ → Bytes → Bytes
  /-- `FSChaCha20Poly1305` with a key, as its packet of this number: seal with associated data -/
  aeadEncrypt : Bytes → ℕ → Bytes → Bytes → Bytes
  /-- the same, to open -/
  aeadDecrypt : Bytes → ℕ → Bytes → Bytes → Option Bytes
  length_hkdf : ∀ ikm salt label, (hkdf ikm salt label).length = 32
  length_lengthCrypt : ∀ key packet text, (lengthCrypt key packet text).length = text.length
  length_aeadEncrypt : ∀ key packet aad plain,
    (aeadEncrypt key packet aad plain).length = plain.length + 16

/-- Primitives that hide nothing: keys are their labels, and sealing appends a blank tag. -/
def clearCrypto : TransportCrypto where
  hkdf _ _ label := (label ++ List.replicate 32 0).take 32
  lengthCrypt _ _ text := text
  aeadEncrypt _ _ _ plain := plain ++ List.replicate 16 0
  aeadDecrypt _ _ _ sealed := some (sealed.take (sealed.length - 16))
  length_hkdf _ _ _ := by simp
  length_lengthCrypt _ _ _ := rfl
  length_aeadEncrypt _ _ _ _ := by simp

/-! ## State -/

/-- A cipher: its key and how many packets it has processed. -/
structure PacketCipher where
  key : Bytes
  counter : ℕ
deriving DecidableEq, Repr

/-- The cipher after one packet. -/
def PacketCipher.next (cipher : PacketCipher) : PacketCipher :=
  { cipher with counter := cipher.counter + 1 }

/-- `Stage2Secret`: what `SwitchToStage2` needs from `Initialize`. -/
structure Stage2Secret where
  ecdhSecret : Bytes
  ellInitiator : Bytes
  ellResponder : Bytes
  messageStart : Bytes
  side : Bool
deriving DecidableEq, Repr

/-- `BIP324Cipher`. -/
structure Bip324Cipher where
  sendL : PacketCipher
  recvL : PacketCipher
  sendP : PacketCipher
  recvP : PacketCipher
  ourPubKey : Bytes
  sessionId : Bytes
  sendGarbageTerminator : Bytes
  recvGarbageTerminator : Bytes
  stage2Secret : Option Stage2Secret
  stage2 : Bool
  initialized : Bool
deriving DecidableEq, Repr

/-- The cipher before `Initialize`. -/
def Bip324Cipher.new (ourPubKey : Bytes) : Bip324Cipher where
  sendL := ⟨[], 0⟩
  recvL := ⟨[], 0⟩
  sendP := ⟨[], 0⟩
  recvP := ⟨[], 0⟩
  ourPubKey := ourPubKey
  sessionId := []
  sendGarbageTerminator := []
  recvGarbageTerminator := []
  stage2Secret := none
  stage2 := false
  initialized := false

/-! ## Key schedules -/

/-- The keys of both directions and the session id. -/
structure SessionKeys where
  initiatorL : Bytes
  initiatorP : Bytes
  responderL : Bytes
  responderP : Bytes
  sessionId : Bytes
deriving DecidableEq, Repr

/-- The salt of the first stage. -/
def stage1Salt (messageStart : Bytes) : Bytes :=
  Bytes.ofAscii "bitcoin_v2_shared_secret" ++ messageStart

/-- The keys that `Initialize` derives. -/
def deriveStage1Keys (crypto : TransportCrypto) (messageStart ecdhSecret : Bytes) :
    SessionKeys where
  initiatorL := crypto.hkdf ecdhSecret (stage1Salt messageStart) (Bytes.ofAscii "initiator_L")
  initiatorP := crypto.hkdf ecdhSecret (stage1Salt messageStart) (Bytes.ofAscii "initiator_P")
  responderL := crypto.hkdf ecdhSecret (stage1Salt messageStart) (Bytes.ofAscii "responder_L")
  responderP := crypto.hkdf ecdhSecret (stage1Salt messageStart) (Bytes.ofAscii "responder_P")
  sessionId := crypto.hkdf ecdhSecret (stage1Salt messageStart) (Bytes.ofAscii "session_id")

/-- Both garbage terminators: the initiator's, then the responder's. -/
def deriveTerminators (crypto : TransportCrypto) (messageStart ecdhSecret : Bytes) : Bytes :=
  crypto.hkdf ecdhSecret (stage1Salt messageStart) (Bytes.ofAscii "garbage_terminators")

/-- The input key material of the second stage. -/
def stage2Material (kemSecret ecdhSecret ct ellInitiator ek ellResponder : Bytes) : Bytes :=
  kemSecret ++ ecdhSecret ++ ct ++ ellInitiator ++ ek ++ ellResponder

/-- `DeriveStage2Keys`. -/
def deriveStage2Keys (crypto : TransportCrypto)
    (messageStart kemSecret ecdhSecret ct ellInitiator ek ellResponder : Bytes) : SessionKeys :=
  let expand (label : String) :=
    crypto.hkdf (stage2Material kemSecret ecdhSecret ct ellInitiator ek ellResponder)
      (Bytes.ofAscii "xcoin_v2_hybrid_mlkem768" ++ messageStart) (Bytes.ofAscii label)
  { initiatorL := expand "xcoin_hx1_initiator_L"
    initiatorP := expand "xcoin_hx1_initiator_P"
    responderL := expand "xcoin_hx1_responder_L"
    responderP := expand "xcoin_hx1_responder_P"
    sessionId := expand "xcoin_hx1_session_id" }

/-- Emplace all four ciphers at packet 0; `side` is true for the initiator's side. -/
def Bip324Cipher.useKeys (cipher : Bip324Cipher) (keys : SessionKeys) (side : Bool) :
    Bip324Cipher :=
  { cipher with
    sendL := ⟨if side then keys.initiatorL else keys.responderL, 0⟩
    sendP := ⟨if side then keys.initiatorP else keys.responderP, 0⟩
    recvL := ⟨if side then keys.responderL else keys.initiatorL, 0⟩
    recvP := ⟨if side then keys.responderP else keys.initiatorP, 0⟩
    sessionId := keys.sessionId }

/-- `Initialize`, with the ECDH secret for the other side's key. -/
def Bip324Cipher.initializeCiphers (crypto : TransportCrypto)
    (messageStart ecdhSecret theirPubKey : Bytes) (initiator selfDecrypt : Bool)
    (hybridMode : HybridMode) (cipher : Bip324Cipher) : Bip324Cipher :=
  let terminators := deriveTerminators crypto messageStart ecdhSecret
  { cipher.useKeys (deriveStage1Keys crypto messageStart ecdhSecret) (initiator != selfDecrypt) with
    sendGarbageTerminator :=
      if initiator then terminators.take garbageTerminatorLen
      else terminators.drop (terminators.length - garbageTerminatorLen)
    recvGarbageTerminator :=
      if initiator then terminators.drop (terminators.length - garbageTerminatorLen)
      else terminators.take garbageTerminatorLen
    stage2Secret :=
      if hybridMode = .off then cipher.stage2Secret
      else some
        { ecdhSecret := ecdhSecret
          ellInitiator := if initiator then cipher.ourPubKey else theirPubKey
          ellResponder := if initiator then theirPubKey else cipher.ourPubKey
          messageStart := messageStart
          side := initiator != selfDecrypt }
    initialized := true }

/-- `DiscardStage2Secret`. -/
def Bip324Cipher.discardStage2Secret (cipher : Bip324Cipher) : Bip324Cipher :=
  { cipher with stage2Secret := none }

/-- The ciphers after the switch to the second stage. -/
def Bip324Cipher.switched (side : Bool) (cipher : Bip324Cipher) : Bip324Cipher :=
  { (cipher.useKeys keys side).discardStage2Secret with stage2 := true }

/-- `SwitchToStage2`; `none` is its failure, which changes nothing. -/
def Bip324Cipher.switchToStage2 (crypto : TransportCrypto) (kemSecret ct ek : Bytes)
    (cipher : Bip324Cipher) : Option Bip324Cipher :=
  match cipher.stage2Secret with
  | none => none
  | some secret =>
    if kemSecret.length ≠ hx1SharedSecretLen ∨ ct.length ≠ hx1CtLen ∨ ek.length ≠ hx1EkLen then
      none
    else
      some (cipher.switched (deriveStage2Keys crypto secret.messageStart kemSecret
        secret.ecdhSecret ct secret.ellInitiator ek secret.ellResponder) secret.side)

theorem Bip324Cipher.exists_eq_switched
    (hswitch : cipher.switchToStage2 crypto kemSecret ct ek = some cipher') :
    ∃ keys side, cipher' = cipher.switched keys side := by
  rw [switchToStage2] at hswitch
  cases hsecret : cipher.stage2Secret with
  | none => simp [hsecret] at hswitch
  | some secret =>
    simp only [hsecret, Option.ite_none_left_eq_some, Option.some.injEq] at hswitch
    exact ⟨_, _, hswitch.2.symm⟩

theorem Bip324Cipher.switchToStage2_stage2
    (hswitch : cipher.switchToStage2 crypto kemSecret ct ek = some cipher') :
    cipher'.stage2 = true := by
  obtain ⟨keys, side, rfl⟩ := exists_eq_switched hswitch
  rfl

theorem Bip324Cipher.switchToStage2_stage2Secret
    (hswitch : cipher.switchToStage2 crypto kemSecret ct ek = some cipher') :
    cipher'.stage2Secret = none := by
  obtain ⟨keys, side, rfl⟩ := exists_eq_switched hswitch
  rfl

/-- Emplace the ciphers of the initiator's direction, with which its side sends. -/
def Bip324Cipher.emplaceInitiator (side : Bool) (cipher : Bip324Cipher) : Bip324Cipher :=
  if side then { cipher with sendL := ⟨keys.initiatorL, 0⟩, sendP := ⟨keys.initiatorP, 0⟩ }
  else { cipher with recvL := ⟨keys.initiatorL, 0⟩, recvP := ⟨keys.initiatorP, 0⟩ }

/-- Emplace the ciphers of the responder's direction. -/
def Bip324Cipher.emplaceResponder (side : Bool) (cipher : Bip324Cipher) : Bip324Cipher :=
  if side then { cipher with recvL := ⟨keys.responderL, 0⟩, recvP := ⟨keys.responderP, 0⟩ }
  else { cipher with sendL := ⟨keys.responderL, 0⟩, sendP := ⟨keys.responderP, 0⟩ }

/-- `SwitchToStage2` as a change of the cipher, one assignment after another: what it returns, and
the cipher that it leaves behind. -/
def Bip324Cipher.switchToStage2InPlace (crypto : TransportCrypto) (kemSecret ct ek : Bytes) :
    StateM Bip324Cipher Bool := do
  match (← get).stage2Secret with
  | none => return false
  | some secret =>
    if kemSecret.length ≠ hx1SharedSecretLen ∨ ct.length ≠ hx1CtLen ∨ ek.length ≠ hx1EkLen then
      return false
    else
      let keys := deriveStage2Keys crypto secret.messageStart kemSecret secret.ecdhSecret ct
        secret.ellInitiator ek secret.ellResponder
      modify (·.emplaceInitiator keys secret.side)
      modify (·.emplaceResponder keys secret.side)
      modify fun cipher => { cipher with sessionId := keys.sessionId }
      modify discardStage2Secret
      modify fun cipher => { cipher with stage2 := true }
      return true

theorem Bip324Cipher.switchToStage2InPlace_eq (crypto : TransportCrypto)
    (kemSecret ct ek : Bytes) (cipher : Bip324Cipher) :
    (switchToStage2InPlace crypto kemSecret ct ek).run cipher =
      ((cipher.switchToStage2 crypto kemSecret ct ek).isSome,
        (cipher.switchToStage2 crypto kemSecret ct ek).getD cipher) := by
  rw [switchToStage2, switchToStage2InPlace, StateT.run_bind, StateT.run_get]
  cases hsecret : cipher.stage2Secret with
  | none =>
    simp only [pure_bind, hsecret]
    rfl
  | some secret =>
    simp only [pure_bind, hsecret]
    split_ifs
    · rfl
    -- the ciphers of both directions are emplaced at packet 0
    · cases secret.side with
      | false =>
        simp only [emplaceInitiator, emplaceResponder, switched, useKeys]
        rfl
      | true =>
        simp only [emplaceInitiator, emplaceResponder, switched, useKeys]
        rfl

/-! ## Packets -/

/-- The header of a packet. -/
def packetHeader (ignore : Bool) : UInt8 := if ignore then ignoreBit else 0

/-- A packet: the encrypted length, then the sealed header and contents. -/
def encodePacket (crypto : TransportCrypto) (lengthCipher packetCipher : PacketCipher)
    (contents aad : Bytes) (ignore : Bool) : Bytes :=
  crypto.lengthCrypt lengthCipher.key lengthCipher.counter
      (Bytes.ofNatLE lengthLen contents.length) ++
    crypto.aeadEncrypt packetCipher.key packetCipher.counter aad (packetHeader ignore :: contents)

theorem length_encodePacket (crypto : TransportCrypto) (lengthCipher packetCipher : PacketCipher)
    (contents aad : Bytes) (ignore : Bool) :
    (encodePacket crypto lengthCipher packetCipher contents aad ignore).length =
      contents.length + expansion := by
  simp only [encodePacket, List.length_append, crypto.length_lengthCrypt, crypto.length_aeadEncrypt,
    Bytes.length_ofNatLE, List.length_cons, lengthLen, expansion]
  omega

/-- What `Encrypt` writes. -/
def Bip324Cipher.encrypted (crypto : TransportCrypto) (contents aad : Bytes) (ignore : Bool)
    (cipher : Bip324Cipher) : Bytes :=
  encodePacket crypto cipher.sendL cipher.sendP contents aad ignore

/-- The cipher after `Encrypt`. -/
def Bip324Cipher.afterEncrypt (cipher : Bip324Cipher) : Bip324Cipher :=
  { cipher with sendL := cipher.sendL.next, sendP := cipher.sendP.next }

/-- What `DecryptLength` returns. -/
def Bip324Cipher.decryptedLength (crypto : TransportCrypto) (input : Bytes)
    (cipher : Bip324Cipher) : ℕ :=
  Bytes.toNatLE (crypto.lengthCrypt cipher.recvL.key cipher.recvL.counter input)

/-- The cipher after `DecryptLength`. -/
def Bip324Cipher.afterDecryptLength (cipher : Bip324Cipher) : Bip324Cipher :=
  { cipher with recvL := cipher.recvL.next }

/-- What `Decrypt` returns: the ignore flag and the contents, if the packet authenticates. -/
def Bip324Cipher.decrypted (crypto : TransportCrypto) (input aad : Bytes) (cipher : Bip324Cipher) :
    Option (Bool × Bytes) :=
  (crypto.aeadDecrypt cipher.recvP.key cipher.recvP.counter aad input).map fun plain =>
    (decide (plain.headD 0 &&& ignoreBit = ignoreBit), plain.drop headerLen)

/-- The cipher after `Decrypt`, whether it succeeds or not. -/
def Bip324Cipher.afterDecrypt (cipher : Bip324Cipher) : Bip324Cipher :=
  { cipher with recvP := cipher.recvP.next }

end XCoin.Net
