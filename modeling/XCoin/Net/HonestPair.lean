import XCoin.Lib.Framing
import XCoin.Net.V2Transport

/-!
# Two honest transports

An initiator and a responder whose primitives agree.  Sides are numbered by `Bool`: `true`
is the initiator.  Everything the two say to each other before application messages is
fixed by the pair: the keys of both stages, the garbage terminators, and the contents of
both version packets.

A side's packets are numbered from 0, its version packet.  Packet 0 is under stage-1 keys
with the garbage as associated data; in a hybrid session every later packet is under
stage-2 keys, which count from 0 again.
-/

namespace XCoin.Net

/-- The garbage terminator that a side sends. -/
def garbageTerminator (crypto : TransportCrypto) (messageStart ecdhSecret : Bytes) (side : Bool) :
    Bytes :=
  let terminators := deriveTerminators crypto messageStart ecdhSecret
  if side then terminators.take garbageTerminatorLen
  else terminators.drop (terminators.length - garbageTerminatorLen)

/-- The assumptions: ECDH and ML-KEM agree and do not fail, the ciphers invert each other, no
garbage contains the terminator early, and the initiator's key does not look like the beginning of
a v1 version message. -/
structure HonestPair (V1 : Type) where
  crypto : TransportCrypto
  messageStart : Bytes
  mode : Bool → HybridMode
  kem : Bool → HybridKem
  pubKey : Bool → Bytes
  ecdh : Bool → Bytes → Bytes
  garbage : Bool → Bytes
  v1 : V1Fallback V1
  ecdhSecret : Bytes
  keyPair : KeyPair
  encapsulation : Encapsulation
  length_messageStart : messageStart.length = 4
  length_pubKey : ∀ side, (pubKey side).length = ellSwiftSize
  length_garbage : ∀ side, (garbage side).length ≤ maxGarbageLen
  ecdh_agree : ∀ side, ecdh side (pubKey (!side)) = ecdhSecret
  keygen : (kem false).keygen = .ok keyPair
  checkEncapsKey : (kem true).checkEncapsKey keyPair.ek = true
  encaps : (kem true).encaps keyPair.ek = .ok encapsulation
  decaps : (kem false).decaps keyPair.dk encapsulation.ct = .ok encapsulation.sharedSecret
  lengthCrypt_lengthCrypt : ∀ key packet text,
    crypto.lengthCrypt key packet (crypto.lengthCrypt key packet text) = text
  aeadDecrypt_aeadEncrypt : ∀ key packet aad plain,
    crypto.aeadDecrypt key packet aad (crypto.aeadEncrypt key packet aad plain) = some plain
  no_early_terminator : ∀ side count, count < (garbage side).length →
    ((garbage side ++ garbageTerminator crypto messageStart ecdhSecret side).drop count).take
      garbageTerminatorLen ≠ garbageTerminator crypto messageStart ecdhSecret side
  not_v1 : ((pubKey true).drop 4).take v1VersionType.length ≠ v1VersionType

/-- A packet before encryption. -/
structure Packet where
  contents : Bytes
  ignore : Bool
deriving DecidableEq, Repr

/-- The contents of the messages among packets: not the version packet and no decoys. -/
def messageContents (packets : List Packet) : List Bytes :=
  ((packets.drop 1).filter fun packet => !packet.ignore).map Packet.contents

namespace HonestPair

variable {V1 : Type} (pair : HonestPair V1) {side : Bool} {cipher : Bip324Cipher}
  (key : SessionKeys → Bytes) (count : ℕ)

/-- The configuration of a side. -/
def config (side : Bool) : TransportConfig V1 where
  crypto := pair.crypto
  messageStart := pair.messageStart
  initiating := side
  hybridMode := pair.mode side
  hybridKem := pair.kem side
  ourPubKey := pair.pubKey side
  ecdhSecret := pair.ecdh side
  garbage := pair.garbage side
  v1 := pair.v1
  length_messageStart := pair.length_messageStart
  length_ourPubKey := pair.length_pubKey side
  length_garbage := pair.length_garbage side

/-- Both sides speak HX1. -/
def Hybrid : Prop := pair.mode true ≠ .off ∧ pair.mode false ≠ .off

instance : Decidable pair.Hybrid := inferInstanceAs (Decidable (_ ∧ _))

/-- This side insists on HX1 and the other does not speak it. -/
def Refuses (side : Bool) : Prop := pair.mode side = .require ∧ pair.mode (!side) = .off

instance (side : Bool) : Decidable (pair.Refuses side) := inferInstanceAs (Decidable (_ ∧ _))

theorem hybrid_iff (side : Bool) :
    pair.Hybrid ↔ pair.mode side ≠ .off ∧ pair.mode (!side) ≠ .off := by
  cases side
  · exact and_comm
  · exact Iff.rfl

/-- The garbage terminator of a side. -/
def terminator (side : Bool) : Bytes :=
  garbageTerminator pair.crypto pair.messageStart pair.ecdhSecret side

theorem length_terminator (side : Bool) :
    (pair.terminator side).length = garbageTerminatorLen := by
  cases side <;>
    simp [terminator, garbageTerminator, deriveTerminators, pair.crypto.length_hkdf,
      garbageTerminatorLen]

/-! ## Keys -/

/-- The keys both sides derive from ECDH alone. -/
def stage1Keys : SessionKeys :=
  deriveStage1Keys pair.crypto pair.messageStart pair.ecdhSecret

/-- The keys both sides derive from both secrets. -/
def stage2Keys : SessionKeys :=
  deriveStage2Keys pair.crypto pair.messageStart pair.encapsulation.sharedSecret pair.ecdhSecret
    pair.encapsulation.ct (pair.pubKey true) pair.keyPair.ek (pair.pubKey false)

/-- The key of the length cipher for packets of a side. -/
def lengthKey (side : Bool) (keys : SessionKeys) : Bytes :=
  if side then keys.initiatorL else keys.responderL

/-- The key of the packet cipher for packets of a side. -/
def packetKey (side : Bool) (keys : SessionKeys) : Bytes :=
  if side then keys.initiatorP else keys.responderP

/-- Packet `count` is under stage-2 keys. -/
def Stage2At : Prop := pair.Hybrid ∧ 1 ≤ count

instance : Decidable (pair.Stage2At count) := inferInstanceAs (Decidable (_ ∧ _))

/-- The cipher for packet `count`, with its key in both stages. -/
def cipherAt : PacketCipher :=
  if pair.Stage2At count then ⟨key pair.stage2Keys, count - 1⟩ else ⟨key pair.stage1Keys, count⟩

/-- The session id of a side that has received `count` packets. -/
def sessionIdAt : Bytes :=
  if pair.Stage2At count then pair.stage2Keys.sessionId else pair.stage1Keys.sessionId

/-- The associated data of packet `count` of a side. -/
def aad (side : Bool) (count : ℕ) : Bytes := if count = 0 then pair.garbage side else []

@[simp] theorem cipherAt_zero : pair.cipherAt key 0 = ⟨key pair.stage1Keys, 0⟩ :=
  if_neg fun h => absurd h.2 (by decide)

@[simp] theorem sessionIdAt_zero : pair.sessionIdAt 0 = pair.stage1Keys.sessionId :=
  if_neg fun h => absurd h.2 (by decide)

theorem cipherAt_one_of_hybrid (hhybrid : pair.Hybrid) (key : SessionKeys → Bytes) :
    pair.cipherAt key 1 = ⟨key pair.stage2Keys, 0⟩ :=
  if_pos ⟨hhybrid, Nat.le_refl 1⟩

theorem cipherAt_of_not_hybrid (hclassical : ¬pair.Hybrid) (key : SessionKeys → Bytes)
    (count : ℕ) : pair.cipherAt key count = ⟨key pair.stage1Keys, count⟩ :=
  if_neg fun h => hclassical h.1

/-- A cipher advances from packet to packet, except at the switch of a hybrid session. -/
theorem cipherAt_succ {count : ℕ} (hsame : pair.Hybrid → 1 ≤ count) :
    pair.cipherAt key (count + 1) = (pair.cipherAt key count).next := by
  by_cases hhybrid : pair.Hybrid
  · have hcount := hsame hhybrid
    have hnow : pair.Stage2At count := ⟨hhybrid, hcount⟩
    have hnext : pair.Stage2At (count + 1) := ⟨hhybrid, by omega⟩
    have hindex : count + 1 - 1 = count - 1 + 1 := by omega
    rw [cipherAt, cipherAt, if_pos hnow, if_pos hnext, PacketCipher.next, hindex]
  · rw [cipherAt_of_not_hybrid pair hhybrid, cipherAt_of_not_hybrid pair hhybrid,
      PacketCipher.next]

/-! ## Packets -/

/-- The contents of a side's version packet. -/
def version (side : Bool) : Bytes :=
  if side then
    if pair.Hybrid then encodeHybridRecord hybridKindAccept pair.encapsulation.ct
    else versionContents
  else if pair.mode false = .off then versionContents
  else encodeHybridRecord hybridKindOffer pair.keyPair.ek

/-- Packet `count` of a side on the wire. -/
def encode (side : Bool) (count : ℕ) (packet : Packet) : Bytes :=
  encodePacket pair.crypto (pair.cipherAt (lengthKey side) count)
    (pair.cipherAt (packetKey side) count) packet.contents (pair.aad side count) packet.ignore

theorem length_encode (side : Bool) (count : ℕ) (packet : Packet) :
    (pair.encode side count packet).length = packet.contents.length + expansion :=
  length_encodePacket ..

/-- All that a side has put on the wire, by its send state and its packets. -/
def stream (side : Bool) (packets : List Packet) : SendState → Bytes
  | .maybeV1 | .v1 => []
  | .awaitingKey => pair.pubKey side ++ pair.garbage side
  | .awaitingVersion | .ready =>
    pair.pubKey side ++ (pair.garbage side ++ (pair.terminator side ++
      Framing.encodeAll (pair.encode side) 0 packets))

/-- What a side's packets satisfy, for the other side to accept them. -/
structure Log (side : Bool) (packets : List Packet) : Prop where
  short : ∀ packet ∈ packets, packet.contents.length < 2 ^ 24
  version : ∀ packet, packets[0]? = some packet → packet = ⟨pair.version side, false⟩
  first : pair.Hybrid → ∀ packet, packets[1]? = some packet →
    packet.contents.length ≤ hybridFirstPacketMaxContents

variable {pair}

theorem log_nil : pair.Log side [] := by
  constructor <;> simp

theorem Log.concat {packets : List Packet} (hlog : pair.Log side packets) (packet : Packet)
    (hshort : packet.contents.length < 2 ^ 24)
    (hversion : packets = [] → packet = ⟨pair.version side, false⟩)
    (hfirst : pair.Hybrid → packets.length = 1 →
      packet.contents.length ≤ hybridFirstPacketMaxContents) :
    pair.Log side (packets ++ [packet]) where
  short other hother := by
    rcases List.mem_append.mp hother with hother | hother
    · exact hlog.short other hother
    · rw [List.mem_singleton.mp hother]
      exact hshort
  version other hother := by
    cases packets with
    | nil =>
      simp only [List.nil_append, List.getElem?_cons_zero, Option.some.injEq] at hother
      rw [← hother, hversion rfl]
    | cons head rest => exact hlog.version other (by simpa using hother)
  first hhybrid other hother := by
    by_cases hlt : 1 < packets.length
    · rw [List.getElem?_append_left hlt] at hother
      exact hlog.first hhybrid other hother
    · rw [List.getElem?_append_right (by omega), List.getElem?_singleton] at hother
      by_cases hone : packets.length = 1
      · simp only [hone, Nat.sub_self, if_pos, Option.some.injEq] at hother
        rw [← hother]
        exact hfirst hhybrid hone
      · rw [if_neg (by omega)] at hother
        cases hother

/-! ## Opening packets -/

theorem decryptedLength_encode {count : ℕ} {packet : Packet}
    (hcipher : cipher.recvL = pair.cipherAt (lengthKey side) count)
    (hshort : packet.contents.length < 2 ^ 24) :
    cipher.decryptedLength pair.crypto ((pair.encode side count packet).take lengthLen) =
      packet.contents.length := by
  have htake : (pair.encode side count packet).take lengthLen =
      pair.crypto.lengthCrypt cipher.recvL.key cipher.recvL.counter
        (Bytes.ofNatLE lengthLen packet.contents.length) := by
    rw [encode, encodePacket, hcipher, List.take_append_of_le_length, List.take_of_length_le]
    · rw [pair.crypto.length_lengthCrypt, Bytes.length_ofNatLE]
    · rw [pair.crypto.length_lengthCrypt, Bytes.length_ofNatLE]
  rw [Bip324Cipher.decryptedLength, htake, pair.lengthCrypt_lengthCrypt]
  exact Bytes.toNatLE_ofNatLE hshort

theorem decrypted_encode {count : ℕ} {packet : Packet}
    (hcipher : cipher.recvP = pair.cipherAt (packetKey side) count) :
    cipher.decrypted pair.crypto ((pair.encode side count packet).drop lengthLen)
      (pair.aad side count) = some (packet.ignore, packet.contents) := by
  have hdrop : (pair.encode side count packet).drop lengthLen =
      pair.crypto.aeadEncrypt cipher.recvP.key cipher.recvP.counter (pair.aad side count)
        (packetHeader packet.ignore :: packet.contents) := by
    rw [encode, encodePacket, hcipher, List.drop_append, List.drop_of_length_le, List.nil_append,
      pair.crypto.length_lengthCrypt, Bytes.length_ofNatLE, Nat.sub_self, List.drop_zero]
    rw [pair.crypto.length_lengthCrypt, Bytes.length_ofNatLE]
  have hignore : decide (packetHeader packet.ignore &&& ignoreBit = ignoreBit) = packet.ignore := by
    cases packet.ignore <;> decide
  rw [Bip324Cipher.decrypted, hdrop, pair.aeadDecrypt_aeadEncrypt]
  exact congrArg (fun flag => some (flag, packet.contents)) hignore

/-! ## Setting up the ciphers -/

/-- What `Initialize` keeps for the switch. -/
def stage2Secret (pair : HonestPair V1) (side : Bool) : Stage2Secret where
  ecdhSecret := pair.ecdhSecret
  ellInitiator := pair.pubKey true
  ellResponder := pair.pubKey false
  messageStart := pair.messageStart
  side := side

/-- The ciphers of a side that has the other side's key and has received no packet. -/
structure Initialized (pair : HonestPair V1) (side : Bool) (cipher : Bip324Cipher) : Prop where
  sendL : cipher.sendL = ⟨lengthKey side pair.stage1Keys, 0⟩
  sendP : cipher.sendP = ⟨packetKey side pair.stage1Keys, 0⟩
  recvL : cipher.recvL = ⟨lengthKey (!side) pair.stage1Keys, 0⟩
  recvP : cipher.recvP = ⟨packetKey (!side) pair.stage1Keys, 0⟩
  ourPubKey : cipher.ourPubKey = pair.pubKey side
  sessionId : cipher.sessionId = pair.stage1Keys.sessionId
  sendTerminator : cipher.sendGarbageTerminator = pair.terminator side
  recvTerminator : cipher.recvGarbageTerminator = pair.terminator (!side)
  secret : pair.mode side ≠ .off → cipher.stage2Secret = some (pair.stage2Secret side)

theorem initialized_initializeCiphers (hours : cipher.ourPubKey = pair.pubKey side) :
    Initialized pair side
      (cipher.initializeCiphers pair.crypto pair.messageStart (pair.ecdh side (pair.pubKey (!side)))
        (pair.pubKey (!side)) side false (pair.mode side)) := by
  rw [pair.ecdh_agree]
  cases side
  · constructor
    all_goals try rfl
    · exact hours
    · intro hmode
      simp [Bip324Cipher.initializeCiphers, hmode, stage2Secret, hours]
  · constructor
    all_goals try rfl
    · exact hours
    · intro hmode
      simp [Bip324Cipher.initializeCiphers, hmode, stage2Secret, hours]

theorem switchToStage2_eq (hsecret : cipher.stage2Secret = some (pair.stage2Secret side)) :
    cipher.switchToStage2 pair.crypto pair.encapsulation.sharedSecret pair.encapsulation.ct
        pair.keyPair.ek =
      some (cipher.switched pair.stage2Keys side) := by
  have hlengths : ¬(pair.encapsulation.sharedSecret.length ≠ hx1SharedSecretLen ∨
      pair.encapsulation.ct.length ≠ hx1CtLen ∨ pair.keyPair.ek.length ≠ hx1EkLen) := by
    simp [pair.encapsulation.length_sharedSecret, pair.encapsulation.length_ct,
      pair.keyPair.length_ek]
  rw [Bip324Cipher.switchToStage2, hsecret]
  exact if_neg hlengths

/-! ## Version packets -/

/-- The body of the record that a side expects. -/
def expectedBody (pair : HonestPair V1) (side : Bool) : Bytes :=
  if side then pair.keyPair.ek else pair.encapsulation.ct

theorem classify_version (hmode : pair.mode side ≠ .off) :
    classifyHybridRecord (pair.version (!side)) (expectedKind side) =
      if pair.mode (!side) = .off then .none else .valid (pair.expectedBody side) := by
  cases side with
  | false =>
    have hhybrid : pair.Hybrid ↔ pair.mode true ≠ .off := by
      simp only [Hybrid, hmode, ne_eq, not_false_eq_true, and_true]
    by_cases hoff : pair.mode true = .off
    · simp [version, hhybrid, hoff, versionContents, classifyHybridRecord]
    · simp [version, hhybrid, hoff, expectedKind, expectedBody,
        classifyHybridRecord_encodeHybridRecord, hybridBodyLen, hybridKindAccept,
        hybridKindOffer, pair.encapsulation.length_ct]
  | true =>
    by_cases hoff : pair.mode false = .off
    · simp [version, hoff, versionContents, classifyHybridRecord]
    · simp [version, hoff, expectedKind, expectedBody,
        classifyHybridRecord_encodeHybridRecord, hybridBodyLen, pair.keyPair.length_ek]

theorem version_of_off (hmode : pair.mode side = .off) : pair.version side = versionContents := by
  cases side with
  | false => simp [version, hmode]
  | true =>
    have hclassical : ¬pair.Hybrid := fun hhybrid => hhybrid.1 hmode
    simp [version, hclassical]

theorem length_version_lt (side : Bool) : (pair.version side).length < 2 ^ 24 := by
  have hek := pair.keyPair.length_ek
  have hct := pair.encapsulation.length_ct
  rw [version]
  split_ifs <;>
    simp only [versionContents, List.length_nil, length_encodeHybridRecord, hek, hct] <;> decide

end HonestPair

end XCoin.Net
